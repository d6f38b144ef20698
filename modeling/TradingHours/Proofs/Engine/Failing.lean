import TradingHours.Proofs.Engine.Audit
import TradingHours.Proofs.StateFile.Reload
import TradingHours.Proofs.StateFile.Untouched
/-!
What a run leaves on the disk, whatever it is refused and however it ends. Files to which no output
goes stay as they are, and saving, which comes last, changes the state file or nothing.
-/
namespace TradingHours

section Clock

theorem keeps_now_note (t : Instant) (entry : Journal.Entry) :
    Keeps (fun w => w.now = t) (Work.note entry) := by
  intro w hw
  rw [Work.note, exec_modify]
  dsimp only
  split <;> exact hw

theorem lasting_now (t : Instant) : Lasting fun w => w.now = t where
  noted := fun entry _ => keeps_now_note t entry
  asked := fun _ _ hw => hw
  counted := fun _ _ hw => hw
  exists? := fun _ => keeps_call_of_disk fun _ _ hw => hw
  read := fun _ => keeps_call_of_disk fun _ _ hw => hw

end Clock

namespace Engine

open Disk (About Spares Aside)

variable {e : Engine} {at? : Option Instant} {home q : Place} {w w' : World} {r : Round}

section Outputs

variable {K : Place → Prop} {P : Disk → Prop}

/-- What a run writes, other than the state file, does not go to certain places. -/
structure Avoids (e : Engine) (home : Place) (at? : Option Instant) (w : World) (K : Place → Prop) :
    Prop where
  sender : ¬ K (e.senderPath.placeFrom home)
  probe : ¬ K ((e.senderFolder.child Output.probeName).placeFrom home)
  minutes : e.settings.output.perMinuteFiles = true → ∀ r v, Returns (e.resolveRound at?) w r v →
    ∀ d, r.now.utcDay = .ok d → ∀ market ∈ r.markets,
      ¬ K ((Output.minutePath e.senderPath market d).placeFrom home)

theorem avoids_none (e : Engine) (home : Place) (at? : Option Instant) (w : World) :
    e.Avoids home at? w fun _ => False :=
  ⟨id, id, fun _ _ _ _ _ _ _ _ => id⟩

theorem Avoids.keeps_deliver (ha : e.Avoids home at? w K) (hP : About home K P)
    (hr : Returns (e.resolveRound at?) w r w') : Keeps (fun w => P w.disk) (e.deliver r) :=
  Engine.keeps_deliver hP.lasting hP.keeps_note (hP.keeps_fileCall ha.sender)
    fun hfiles d hd market hm => hP.keeps_fileCall (ha.minutes hfiles r w' hr d hd market hm)

theorem keeps_untilSaving (hP : About home K P) (ha : e.Avoids home at? w K)
    (herase : ∀ d, P d →
      d.found? ((e.senderFolder.child Output.probeName).placeFrom home) ≠ some .folder →
        P (d.erase ((e.senderFolder.child Output.probeName).placeFrom home)))
    (hw : P w.disk) : P (exec (e.untilSaving at?) w).2.disk := by
  have hround : Keeps (fun w => P w.disk) (e.resolveRound at?) :=
    keeps_resolveRound hP.lasting (hP.keeps_probeCall ha.probe herase) at?
  cases hexec : exec (e.resolveRound at?) w with
  | mk result v =>
    have hv : P v.disk := by
      have h := hround w hw
      rwa [hexec] at h
    cases result with
    | error failure => rwa [untilSaving, exec_bind_error hexec]
    | ok r =>
      rw [untilSaving, exec_bind_ok hexec]
      exact (ha.keeps_deliver hP hexec).bind (fun _ => .pure _) v hv

end Outputs

section Saving

variable {content : Option ByteArray} {states : States} {lines files : Nat}
  {updated? : Option States}

theorem persist_spares :
    Leads (fun w => Spares home q content w.disk) (e.persist states) fun result w =>
      result ≠ .ok true → Spares home q content w.disk := by
  rw [persist_eq]
  refine Leads.tryCatch (Q := fun result w => result ≠ .ok true → Spares home q content w.disk) ?_
    (fun _ _ h => h) fun failure w hw _ => keeps_unsaved Spares.about.lasting failure w (hw nofun)
  exact StateFile.save_spares.bind (fun _ w _ hne => absurd rfl hne) fun _ _ hw _ => hw nofun

/-- A run that does not say that it has saved leaves every file as it was before the end. -/
theorem conclude_spares :
    Leads (fun w => Spares home q content w.disk) (e.conclude r lines files updated?)
      fun result w => (∀ s, result = .ok s → s.persisted = true → q ≠ e.statePath.placeFrom home) →
        Spares home q content w.disk := by
  by_cases hq : q = e.statePath.placeFrom home
  · have hsave : Leads (fun w => Spares home q content w.disk) (e.saveUpdated updated?)
        fun result w => result ≠ .ok true → Spares home q content w.disk := by
      cases updated? with
      | none => exact fun w hw _ => hw
      | some states => exact persist_spares
    refine hsave.bind (fun persisted w hw hunsaved => ?_) fun _ _ hw _ => hw nofun
    cases persisted with
    | true => exact absurd hq (hunsaved _ rfl rfl)
    | false => exact keeps_finish Spares.about.lasting r lines files _ _ w (hw nofun)
  · have hconclude : Keeps (fun w => Spares home q content w.disk)
        (e.conclude r lines files updated?) :=
      keeps_conclude Spares.about.lasting (fun _ _ => StateFile.keeps_replaceCall hq) r lines files _
    exact fun w hw _ => hconclude w hw

end Saving

section Run

variable {s : RunSummary}

/-- What a run does with the state file comes last, and leaves the other files alone. -/
theorem contentAt_of_unsaved (hw : w.disk.Anchored home) (hq : w.disk.growing ≠ some q)
    (hunsaved : ∀ s, (exec (e.run at?) w).1 = .ok s → s.persisted = true →
      q ≠ e.statePath.placeFrom home) :
    (exec (e.run at?) w).2.disk.contentAt q =
      (exec (e.untilSaving at?) w).2.disk.contentAt q := by
  have hbefore : Aside home q (exec (e.untilSaving at?) w).2.disk :=
    keeps_untilSaving Aside.about (avoids_none e home at? w) (fun _ h => h.erase) ⟨hw, hq⟩
  rw [run_eq_conclude] at hunsaved ⊢
  cases hexec : exec (e.untilSaving at?) w with
  | mk result v =>
    rw [hexec] at hbefore
    cases result with
    | error failure => rw [exec_bind_error hexec]
    | ok counts =>
      rw [exec_bind_ok hexec] at hunsaved ⊢
      exact (conclude_spares v hbefore.spares hunsaved).content_eq

theorem contentAt_run (hw : w.disk.Anchored home) (hq : w.disk.growing ≠ some q)
    (ha : e.Avoids home at? w (· = q))
    (hunsaved : ∀ s, (exec (e.run at?) w).1 = .ok s → s.persisted = true →
      q ≠ e.statePath.placeFrom home) :
    (exec (e.run at?) w).2.disk.contentAt q = w.disk.contentAt q := by
  have hbefore : Spares home q (w.disk.contentAt q) (exec (e.untilSaving at?) w).2.disk :=
    keeps_untilSaving Spares.about ha (fun _ h => h.erase ha.probe) ⟨hw, rfl, hq⟩
  rw [contentAt_of_unsaved hw hq hunsaved, hbefore.content_eq]

theorem now_of_deliver {v v' : World} {counts : Nat × Nat}
    (hround : Returns (e.resolveRound at?) w r v) (hdeliver : Returns (e.deliver r) v counts v') :
    v'.now = w.now := by
  have hcall : ∀ {α : Type} (c : Disk.Call α), Keeps (fun v => v.now = w.now) (Work.call c) :=
    fun _ => keeps_call_of_disk fun _ _ hw => hw
  have hv : v.now = w.now :=
    (keeps_resolveRound (lasting_now w.now) (hcall _) at?).of_returns rfl hround
  exact (Engine.keeps_deliver (lasting_now w.now) (keeps_now_note w.now) (fun _ => hcall _)
    fun _ _ _ _ _ _ => hcall _).of_returns hv hdeliver

/-- The file that a run saves is the one of the states of its round. -/
theorem entryOf_of_saved (hw : w.disk.Anchored home) (h : Returns (e.run at?) w s w')
    (hs : s.persisted = true) :
    ∃ r v, Returns (e.resolveRound at?) w r v ∧ r.changes ≠ [] ∧
      w'.disk.entryOf e.statePath = .ok (.file (Text.encodeUtf8
        (StateFile.render w.now (apply r.previous r.changes)))) := by
  obtain ⟨r, counts, v, v₁, v₂, hround, hdeliver, hsave, hnote, -, -⟩ := of_returns_run h
  have hv : v.disk.Anchored home := (keeps_resolveRound Disk.Anchored.about.lasting
    (Disk.Anchored.about.keeps_probeCall id fun _ h => h.erase) at?).of_returns hw hround
  have hv₁ : v₁.disk.Anchored home :=
    ((avoids_none e home at? w).keeps_deliver Disk.Anchored.about hround).of_returns hv hdeliver
  rcases saveUpdated_returns hsave with ⟨hfalse, -⟩ | ⟨-, hne, hsaved⟩
  · rw [hs] at hfalse
    cases hfalse
  · have hw' := (keeps_noteSummary World.Holds.lasting _).of_returns
      (StateFile.save_returns hv₁ hsaved) hnote
    rw [now_of_deliver hround hdeliver] at hw'
    exact ⟨r, v, hround, hne, hw'.entryOf_eq.2 rfl⟩

/-- The lines of the states of a round, in the order of their markets. -/
theorem exists_pairs_of_apply (hn : (Table.keys r.previous).Nodup) (now : Instant) :
    ∃ pairs : States, pairs.Pairwise (·.1 < ·.1) ∧
      (∀ id state, (id, state) ∈ pairs ↔ r.Recorded id state) ∧
      StateFile.render now (apply r.previous r.changes) =
        String.ofList ((("# market state " ++ now.text) ::
          pairs.map fun (id, state) => id ++ "=" ++ if state then "1" else "0").flatMap
            fun line => line.toList ++ ['\n']) := by
  have hkeys : (Table.keys (apply r.previous r.changes)).Nodup := nodup_apply hn
  refine ⟨_, StateFile.pairwise_sorted hkeys, fun id state => ?_, rfl⟩
  rw [StateFile.sorted, List.mem_mergeSort, ← Table.get?_eq_some_iff hkeys, get?_apply_changes]

/-- Saving comes last, and what it had to write first is gone again when it fails; so a run that
fails, or that says that it has not saved, leaves the state file as it was, and no other file from
saving. The file that a run has saved has a line about the instant and then one for each market of
which a state is recorded. -/
theorem run_saves_or_keeps (hw : w.disk.Anchored home) :
    (∀ q, w.disk.growing ≠ some q → e.Avoids home at? w (· = q) →
      (∀ s, (exec (e.run at?) w).1 = .ok s → s.persisted = true →
        q ≠ e.statePath.placeFrom home) →
      (exec (e.run at?) w).2.disk.contentAt q = w.disk.contentAt q) ∧
    (∀ q, w.disk.growing ≠ some q →
      (∀ s, (exec (e.run at?) w).1 = .ok s → s.persisted = true →
        q ≠ e.statePath.placeFrom home) →
      (exec (e.run at?) w).2.disk.contentAt q =
        (exec (e.untilSaving at?) w).2.disk.contentAt q) ∧
    ∀ s w', Returns (e.run at?) w s w' → s.persisted = true → ∃ r v, ∃ pairs : States,
      Returns (e.resolveRound at?) w r v ∧
      (∃ resolution ∈ r.resolutions,
        resolution.state ≠ (r.previous.get? resolution.marketId).getD false) ∧
      pairs.Pairwise (·.1 < ·.1) ∧ (∀ id state, (id, state) ∈ pairs ↔ r.Recorded id state) ∧
      w'.disk.entryOf e.statePath = .ok (.file (String.ofList
        ((("# market state " ++ w.now.text) ::
          pairs.map fun (id, state) => id ++ "=" ++ if state then "1" else "0").flatMap
            fun line => line.toList ++ ['\n'])).toUTF8) := by
  refine ⟨fun q => contentAt_run hw, fun q => contentAt_of_unsaved hw, fun s w' h hs => ?_⟩
  obtain ⟨r, v, hround, hchanged, hfile⟩ := entryOf_of_saved hw h hs
  obtain ⟨-, _, _, hload⟩ := of_resolveRound hround
  obtain ⟨pairs, hsorted, hrecorded, htext⟩ :=
    exists_pairs_of_apply (r := r) (StateFile.nodup_of_load hload) w.now
  exact ⟨r, v, pairs, hround, changes_ne_nil_iff.1 hchanged, hsorted, hrecorded, htext ▸ hfile⟩

def worldOf (files : List (String × String)) (refusals : List (Option Disk.Cause)) : World :=
  { sessionWorld with
    disk := { sessionWorld.disk with
      entries := files.map fun (name, text) => ([name], .file (Text.encodeUtf8 text))
      refusals := refusals } }

def openingWorld (refusals : List (Option Disk.Cause)) : World :=
  worldOf [("markets", "x/y K I"), ("schedule", "\np09301600,,,K"), ("states", "x/y=0")] refusals

theorem avoids_openingWorld {refusals : List (Option Disk.Cause)} (hsender : ["a"] ≠ q)
    (hprobe : [".health_check_test"] ≠ q) :
    (smallEngine "states" false).Avoids [] at? (openingWorld refusals) (· = q) where
  sender := by
    rwa [show (smallEngine "states" false).senderPath.placeFrom [] = ["a"] by decide +kernel]
  probe := by
    rwa [show ((smallEngine "states" false).senderFolder.child Output.probeName).placeFrom [] =
      [".health_check_test"] by decide +kernel]
  minutes := nofun

/-- The last call of a run, by which the new file takes the name of the state file, is refused in
one world, and none is in the other. -/
theorem run_saves_or_keeps_opening :
    (∃ s w', Returns ((smallEngine "states" false).run (some (onDay 720)))
      (openingWorld (List.replicate 18 none ++ [some .denied])) s w' ∧
      s.stateChanged = true ∧ s.persisted = false ∧
      w'.disk.contentAt ["states"] = some (Text.encodeUtf8 "x/y=0") ∧
      w'.disk.contentAt [".states.t"] = none) ∧
    ∃ s w', Returns ((smallEngine "states" false).run (some (onDay 720))) (openingWorld []) s w' ∧
      s.persisted = true ∧ ∃ r v, ∃ pairs : States,
        Returns ((smallEngine "states" false).resolveRound (some (onDay 720))) (openingWorld []) r v ∧
        pairs.Pairwise (·.1 < ·.1) ∧ (∀ id state, (id, state) ∈ pairs ↔ r.Recorded id state) ∧
        w'.disk.entryOf (.ofText "states") = .ok (.file (String.ofList
          ((("# market state " ++ (onDay 0).text) ::
            pairs.map fun (id, state) => id ++ "=" ++ if state then "1" else "0").flatMap
              fun line => line.toList ++ ['\n'])).toUTF8) := by
  have hanchored : ∀ refusals, (openingWorld refusals).disk.Anchored [] := fun _ => ⟨rfl, nofun⟩
  constructor
  · have hflags : (exec ((smallEngine "states" false).run (some (onDay 720)))
        (openingWorld (List.replicate 18 none ++ [some .denied]))).1.toOption.map
          (fun s => (s.stateChanged, s.persisted)) = some (true, false) := by decide +kernel
    obtain ⟨s, h, hs⟩ := returns_of_map hflags
    obtain ⟨hchanged, hpersisted⟩ := Prod.mk.inj hs
    have hunsaved : ∀ s', (exec ((smallEngine "states" false).run (some (onDay 720)))
        (openingWorld (List.replicate 18 none ++ [some .denied]))).1 = .ok s' →
          s'.persisted = true → False := by
      intro s' hs' hsaved
      rw [h] at hs'
      cases hs'
      simp [hpersisted] at hsaved
    have hkept : ∀ q, ["a"] ≠ q → [".health_check_test"] ≠ q →
        (exec ((smallEngine "states" false).run (some (onDay 720)))
          (openingWorld (List.replicate 18 none ++ [some .denied]))).2.disk.contentAt q =
            (openingWorld (List.replicate 18 none ++ [some .denied])).disk.contentAt q :=
      fun q hsender hprobe => (run_saves_or_keeps (hanchored _)).1 q nofun
        (avoids_openingWorld hsender hprobe) fun s' hs' hsaved => (hunsaved s' hs' hsaved).elim
    refine ⟨s, _, h, hchanged, hpersisted, ?_, ?_⟩
    · rw [hkept ["states"] (by decide) (by decide)]
      decide +kernel
    · rw [hkept [".states.t"] (by decide) (by decide)]
      decide +kernel
  · have hflag : (exec ((smallEngine "states" false).run (some (onDay 720)))
        (openingWorld [])).1.toOption.map (·.persisted) = some true := by decide +kernel
    obtain ⟨s, h, hs⟩ := returns_of_map hflag
    obtain ⟨r, v, pairs, hround, -, hsorted, hrecorded, hfile⟩ :=
      (run_saves_or_keeps (hanchored [])).2.2 s _ h hs
    exact ⟨s, _, h, hs, r, v, pairs, hround, hsorted, hrecorded, hfile⟩

end Run

end Engine

end TradingHours
