import TradingHours.Proofs.Engine.Polling
import TradingHours.Proofs.Engine.Saving
/-!
The audit trail of a run: the entries about changes, read as what they say of a market. The states
that a run saves are those that it loaded, overlaid by its audit trail; without a change it saves
none. Main statement: `audit_replays`.
-/
namespace TradingHours

namespace Journal

structure Record where
  marketId : String
  before : Option Bool
  after : Bool

def ofLabel? (label : String) : Option (Option Bool) :=
  [none, some false, some true].find? (stateLabel · = label)

def Entry.textOf? (e : Entry) (field : String) : Option String :=
  match e.fields.lookup field with
  | some (.text s) => some s
  | _ => none

def Entry.record? (e : Entry) : Option Record := do
  let marketId ← e.textOf? "market_id"
  let before ← ofLabel? (← e.textOf? "from_state")
  let after ← ofLabel? (← e.textOf? "to_state")
  return ⟨marketId, before, ← after⟩

def Change.record (c : Change) : Record := ⟨c.marketId, c.before, c.after⟩

theorem ofLabel?_stateLabel (state : Option Bool) : ofLabel? (stateLabel state) = some state := by
  cases state with
  | none => decide
  | some state => cases state <;> decide

theorem record?_entry (c : Change) (logger : String) : (c.entry logger).record? = some c.record := by
  have hfields : (c.entry logger).textOf? "market_id" = some c.marketId ∧
      (c.entry logger).textOf? "from_state" = some (stateLabel c.before) ∧
      (c.entry logger).textOf? "to_state" = some (stateLabel (some c.after)) := ⟨rfl, rfl, rfl⟩
  rw [Entry.record?, hfields.1, hfields.2.1, hfields.2.2]
  simp only [Option.bind_eq_bind, Option.bind_some, ofLabel?_stateLabel]
  rfl

end Journal

/-- What the entries about changes say, in their order. -/
def World.audit (w : World) : List (Option Journal.Record) :=
  (w.trail.entries.toList.filter (·.event = Journal.changeEvent)).map Journal.Entry.record?

section Audit

variable {w w' : World} {e : Journal.Entry}

theorem entries_note : (exec (Work.note e) w).2.trail.entries = w.trail.entries.push e := by
  rw [Work.note, exec_modify]
  dsimp only
  split <;> rfl

theorem audit_note_of_ne (he : e.event ≠ Journal.changeEvent) :
    (exec (Work.note e) w).2.audit = w.audit := by
  rw [World.audit, entries_note, Array.toList_push, List.filter_append,
    List.filter_cons_of_neg (by simpa using he), List.filter_nil, List.append_nil, World.audit]

theorem audit_note (he : e.event = Journal.changeEvent) :
    (exec (Work.note e) w).2.audit = w.audit ++ [e.record?] := by
  rw [World.audit, entries_note, Array.toList_push, List.filter_append,
    List.filter_cons_of_pos (by simpa using he), List.filter_nil, List.map_append, World.audit]
  rfl

theorem keeps_audit_call {α : Type} (audit : List (Option Journal.Record)) (c : Disk.Call α) :
    Keeps (fun w => w.audit = audit) (Work.call c) :=
  keeps_call_of_disk fun _ _ hw => hw

theorem lasting_audit (audit : List (Option Journal.Record)) :
    Lasting fun w => w.audit = audit where
  noted := fun _ he _ hw => (audit_note_of_ne he).trans hw
  asked := fun _ _ hw => hw
  counted := fun _ _ hw => hw
  exists? := fun _ => keeps_audit_call audit _
  read := fun _ => keeps_audit_call audit _

end Audit

namespace Engine

variable {e : Engine} {r : Round} {at? : Option Instant} {w w₁ : World} {lines : Nat}

section Records

def replay (previous : States) (records : List Journal.Record) : States :=
  records.foldl (fun states record => states.put record.marketId record.after) previous

theorem replay_records (previous : States) (changes : List Journal.Change) :
    replay previous (changes.map (·.record)) = apply previous changes := by
  rw [replay, List.foldl_map, apply]
  rfl

def Round.records (r : Round) : List Journal.Record := r.changes.map (·.record)

structure Round.Audited (r : Round) (records : List Journal.Record) : Prop where
  named : ∀ record, record ∈ records ↔ ∃ resolution ∈ r.resolutions,
    resolution.state ≠ (r.previous.get? resolution.marketId).getD false ∧
      record = ⟨resolution.marketId, r.previous.get? resolution.marketId, resolution.state⟩
  turned : ∀ record ∈ records, record.after ≠ record.before.getD false
  overlaid : ∀ record ∈ records,
    (replay r.previous records).get? record.marketId = some record.after
  kept : ∀ k, k ∉ records.map (·.marketId) →
    (replay r.previous records).get? k = r.previous.get? k

theorem records_eq_nil_iff : r.records = [] ↔ r.changes = [] := List.map_eq_nil_iff

theorem replay_changes : replay r.previous r.records = apply r.previous r.changes :=
  replay_records _ _

theorem map_record_changeOf? (previous : States) (now : Instant) (resolution : Resolution) :
    (changeOf? previous now resolution).map (·.record) =
      if resolution.state = (previous.get? resolution.marketId).getD false then none
      else some ⟨resolution.marketId, previous.get? resolution.marketId, resolution.state⟩ := by
  unfold changeOf? Schedule.held
  dsimp only
  split <;> rfl

theorem mem_records (record : Journal.Record) :
    record ∈ r.records ↔ ∃ resolution ∈ r.resolutions,
      resolution.state ≠ (r.previous.get? resolution.marketId).getD false ∧
        record = ⟨resolution.marketId, r.previous.get? resolution.marketId, resolution.state⟩ := by
  rw [Round.records, Round.changes, List.map_filterMap, List.mem_filterMap]
  refine exists_congr fun resolution => and_congr_right fun _ => ?_
  rw [map_record_changeOf?]
  split
  · next hsame => simp [hsame]
  · next hne => simp [hne, eq_comm]

theorem get?_replay_of_not_mem {k : String} (hk : k ∉ r.records.map (·.marketId)) :
    (replay r.previous r.records).get? k = r.previous.get? k := by
  rw [replay_changes]
  apply get?_apply_of_not_mem
  rwa [Round.records, List.map_map] at hk

theorem audited_records (r : Round) : r.Audited r.records where
  named := mem_records
  turned record hrecord := by
    obtain ⟨resolution, -, hne, rfl⟩ := (mem_records record).1 hrecord
    exact hne
  overlaid record hrecord := by
    obtain ⟨resolution, hmem, hne, rfl⟩ := (mem_records record).1 hrecord
    rw [replay_changes]
    exact get?_apply_of_turned hmem hne
  kept _ := get?_replay_of_not_mem

end Records

theorem audit_announce (changes : List Journal.Change) (w : World) :
    (exec (announce changes) w).2.audit = w.audit ++ changes.map fun change => some change.record := by
  unfold announce
  -- on the changes, for any world: each of them adds one record to the trail
  induction changes generalizing w with
  | nil => exact (List.append_nil _).symm
  | cons change rest ih =>
    have hstep : exec ((change :: rest).forM fun change => Work.note (change.entry logger)) w =
        exec (rest.forM fun change => Work.note (change.entry logger))
          (exec (Work.note (change.entry logger)) w).2 := exec_bind_ok exec_note
    rw [hstep, ih, audit_note rfl, Journal.record?_entry, List.map_cons, List.append_assoc]
    rfl

section Minutes

theorem exec_missed_fst (market : Market) (failure : Failure) (w : World) :
    (exec (missed market failure) w).1 = .ok 0 := by
  unfold missed
  split <;> rfl

theorem neverFails_writeMinuteFiles (policy : Policy) (d : Day) (markets : List Market) :
    NeverFails (e.writeMinuteFiles policy d markets) := by
  induction markets with
  | nil => exact .pure 0
  | cons market rest ih =>
    rw [writeMinuteFiles_cons]
    have hturn : NeverFails (e.minuteTurn policy d market) :=
      .tryCatch fun failure w => ⟨0, _, Prod.ext (exec_missed_fst market failure w) rfl⟩
    exact hturn.bind fun _ => ih.bind fun _ => .pure _

theorem neverFails_sendMinutes (hnow : r.now.offset = some 0) : NeverFails (e.sendMinutes r) := by
  have hday := Instant.utcDay_of_offset_zero hnow
  unfold sendMinutes
  split
  · refine NeverFails.bind (fun w => ⟨r.now.day, w, returns_ofExcept.2 ⟨hday, rfl⟩⟩) fun d => ?_
    exact neverFails_writeMinuteFiles r.policy d r.markets
  · exact .pure 0

end Minutes

section Run

theorem of_resolveRound (h : Returns (e.resolveRound at?) w r w₁) :
    ((at? = none ∧ r.now = w.now) ∨ ∃ t, at? = some t ∧ t.toUtc = .ok r.now) ∧
      ∃ v v', Returns (StateFile.load e.statePath) v r.previous v' := by
  cases at? with
  | none =>
    obtain ⟨_, _, hget, h⟩ := returns_bind.1 h
    obtain ⟨rfl, rfl⟩ := returns_get.1 hget
    obtain ⟨_, _, hnow, h⟩ := returns_bind.1 h
    obtain ⟨rfl, rfl⟩ := returns_pure.1 hnow
    obtain ⟨hnow, v, v₁, -, hload, -⟩ := of_returns_resolveAt h
    exact ⟨.inl ⟨rfl, hnow⟩, v, v₁, hload⟩
  | some t =>
    obtain ⟨hutc, h⟩ := of_returns_resolveRound h
    obtain ⟨-, v, v₁, -, hload, -⟩ := of_returns_resolveAt h
    exact ⟨.inr ⟨t, rfl, hutc⟩, v, v₁, hload⟩

theorem offset_of_resolveRound (hclock : w.now.offset = some 0)
    (h : Returns (e.resolveRound at?) w r w₁) : r.now.offset = some 0 := by
  obtain ⟨⟨-, hnow⟩ | ⟨t, -, hutc⟩, -⟩ := of_resolveRound h
  · rw [hnow, hclock]
  · exact (Instant.toUtc_eq_ok_iff.1 hutc).2

theorem of_returns_untilSent (h : Returns (e.untilSent at?) w (r, lines) w₁) :
    ∃ v v' sent, Returns (e.resolveRound at?) w r v ∧ Returns (announce r.changes) v () v' ∧
      Returns (e.send r) v' sent w₁ := by
  obtain ⟨round, v, hround, hsend⟩ := returns_bind.1 h
  obtain ⟨_, v', hannounce, hsend⟩ := returns_bind.1 hsend
  obtain ⟨sent, v₂, hsent, hsend⟩ := returns_bind.1 hsend
  obtain ⟨hpair, rfl⟩ := returns_pure.1 hsend
  cases hpair
  exact ⟨v, v', sent, hround, hannounce, hsent⟩

/-- Of a run until the sender file is written, only the announcement makes entries about changes. -/
theorem audit_untilSent (h : Returns (e.untilSent at?) w (r, lines) w₁) :
    w₁.audit = w.audit ++ r.records.map some := by
  obtain ⟨v, v', sent, hround, hannounce, hsent⟩ := of_returns_untilSent h
  have hbefore : v.audit = w.audit :=
    (keeps_resolveRound (lasting_audit w.audit) (keeps_audit_call _ _) at?).of_returns rfl hround
  have hannounced : v'.audit = v.audit ++ r.changes.map fun change => some change.record := by
    have haudit := audit_announce r.changes v
    rwa [hannounce] at haudit
  have hafter : w₁.audit = v'.audit :=
    ((lasting_audit v'.audit).keeps_writeSender (fun _ => keeps_audit_call _ _) _ _ _).of_returns
      rfl hsent
  rw [hafter, hannounced, hbefore, Round.records, List.map_map]
  rfl

/-- A run that has written the sender file goes on to its end. The clock shows UTC; it counts for a
run that is given no instant. -/
theorem exec_run_of_sent (hclock : w.now.offset = some 0)
    (h : Returns (e.untilSent at?) w (r, lines) w₁) :
    ∃ files w₂, Returns (e.sendMinutes r) w₁ files w₂ ∧
      exec (e.run at?) w = exec (e.conclude r lines files r.updated?) w₂ := by
  obtain ⟨v, -, -, hround, -⟩ := of_returns_untilSent h
  obtain ⟨files, w₂, hminutes⟩ : ∃ files w₂, Returns (e.sendMinutes r) w₁ files w₂ :=
    neverFails_sendMinutes (offset_of_resolveRound hclock hround) w₁
  refine ⟨files, w₂, hminutes, ?_⟩
  rw [run_eq, exec_bind_ok h]
  exact exec_bind_ok hminutes

theorem audit_conclude (r : Round) (lines files : Nat) (updated? : Option States) (w : World) :
    (exec (e.conclude r lines files updated?) w).2.audit = w.audit :=
  keeps_conclude (lasting_audit w.audit) (fun _ _ => keeps_audit_call _ _) r lines files updated?
    w rfl

theorem audit_sendMinutes {files : Nat} {w' : World} (h : Returns (e.sendMinutes r) w files w') :
    w'.audit = w.audit :=
  (keeps_sendMinutes (lasting_audit w.audit) fun _ _ _ _ _ _ => keeps_audit_call _ _).of_returns
    rfl h

theorem stateChanged_of_conclude {files : Nat} {updated? : Option States} {s : RunSummary}
    {w' : World} (h : Returns (e.conclude r lines files updated?) w s w') :
    s.stateChanged = updated?.isSome := by
  obtain ⟨_, _, -, h⟩ := returns_bind.1 h
  obtain ⟨_, _, -, h⟩ := returns_bind.1 h
  obtain ⟨rfl, -⟩ := returns_pure.1 h
  rfl

/-- Changes are made against the states that were loaded, and put one by one into a copy of them; so
of a market that is listed twice the later change counts, in the copy and in the trail. If the trail
of a run has records, the run saves the states that it loaded, overlaid by them, and ends by what
became of that; if it has none, the run only makes its last entry. -/
theorem audit_replays (hclock : w.now.offset = some 0)
    (h : Returns (e.untilSent at?) w (r, lines) w₁) :
    ∃ (records : List Journal.Record) (files : Nat) (w₂ : World),
      (∃ v v', Returns (StateFile.load e.statePath) v r.previous v') ∧
      w₁.audit = w.audit ++ records.map some ∧
      (exec (e.run at?) w).2.audit = w₁.audit ∧
      r.Audited records ∧
      Returns (e.sendMinutes r) w₁ files w₂ ∧
      (records ≠ [] → ∃ saved w₃,
        exec (StateFile.save e.statePath (replay r.previous records)) w₂ = (saved, w₃) ∧
        exec (e.run at?) w = exec (finishSaved r lines files saved) w₃) ∧
      (records = [] → exec (e.run at?) w = exec (finish r lines files false false) w₂) ∧
      ∀ s w', Returns (e.run at?) w s w' → (s.stateChanged = true ↔ records ≠ []) := by
  obtain ⟨v, -, -, hround, -⟩ := of_returns_untilSent h
  obtain ⟨files, w₂, hminutes, hrun⟩ := exec_run_of_sent hclock h
  refine ⟨r.records, files, w₂, (of_resolveRound hround).2, audit_untilSent h, ?_,
    audited_records r, hminutes, ?_, ?_, ?_⟩
  · rw [hrun, audit_conclude, audit_sendMinutes hminutes]
  · intro hne
    refine ⟨_, _, rfl, ?_⟩
    rw [hrun, replay_changes]
    exact exec_conclude_of_changed (mt records_eq_nil_iff.2 hne) rfl
  · intro hnil
    rw [hrun, conclude_of_unchanged (records_eq_nil_iff.1 hnil)]
  · intro s w' hs
    rw [Returns, hrun] at hs
    rw [stateChanged_of_conclude hs, isSome_updated?, ne_eq, records_eq_nil_iff]
    simp

theorem audit_replays_session : ∃ r lines w₁ records files w₂ saved w₃,
    Returns ((smallEngine "states" false).untilSent (some (onDay 720))) sessionWorld (r, lines) w₁ ∧
      w₁.audit = sessionWorld.audit ++ records.map some ∧ records ≠ [] ∧
      exec (StateFile.save (.ofText "states") (replay r.previous records)) w₂ = (saved, w₃) ∧
      exec ((smallEngine "states" false).run (some (onDay 720))) sessionWorld =
        exec (finishSaved r lines files saved) w₃ := by
  have hsent : (exec ((smallEngine "states" false).untilSent (some (onDay 720)))
      sessionWorld).1.isOk = true := by decide +kernel
  obtain ⟨⟨r, lines⟩, h⟩ := returns_of_isOk hsent
  obtain ⟨records, files, w₂, -, haudit, -, -, -, hsaves, -⟩ := audit_replays rfl h
  have hlength : (exec ((smallEngine "states" false).untilSent (some (onDay 720)))
      sessionWorld).2.audit.length = 1 := by decide +kernel
  have hne : records ≠ [] := by
    rintro rfl
    rw [haudit] at hlength
    exact absurd hlength (by decide)
  obtain ⟨saved, w₃, hsave, hrun⟩ := hsaves hne
  exact ⟨r, lines, _, records, files, w₂, saved, w₃, h, haudit, hne, hsave, hrun⟩

end Run

end Engine

end TradingHours
