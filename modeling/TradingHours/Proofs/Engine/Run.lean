import TradingHours.Engine
import TradingHours.Proofs.Clock.Shift
import TradingHours.Proofs.Resolution.Threading
import TradingHours.Proofs.StateFile.Save
/-!
A run in its phases, what the phases leave alone, and what a run that returns resolves, by the
states that it loads, and leaves in the state file.
-/
namespace TradingHours.Engine

open Schedule (held)
open Traced (Answers)

section Evaluate

variable {policy : Policy} {previous : States} {now : Instant} {market : Market}

def settled (previous : States) (market : Market) : Except Failure Resolution → Resolution
  | .ok resolution => resolution
  | .error failure => {
      marketId := market.id
      tvKey := market.tvKey
      state := held (previous.get? market.id)
      source := .fallback
      error := some failure }

def evaluated (policy : Policy) (previous : States) (now : Instant) (market : Market) :
    Resolution :=
  settled previous market (policy.resolution market now (previous.get? market.id))

theorem evaluateMarket_answers (policy : Policy) (previous : States) (now : Instant)
    (market : Market) :
    Answers (evaluateMarket policy previous now market)
      (.ok (evaluated policy previous now market)) := by
  have h := (policy.resolve_answers market now (previous.get? market.id)).outcome
  refine .bind (g := fun answer => .ok (settled previous market answer)) h fun answer => ?_
  cases answer with
  | ok resolution => exact .pure _
  | error failure => exact .bind (g := fun _ => .ok _) (.note _) fun _ => .pure _

theorem evaluate_answers (markets : List Market) :
    Answers (evaluate policy previous now markets)
      (.ok (markets.map (evaluated policy previous now))) := by
  have h := Answers.mapM (evaluateMarket_answers policy previous now) markets
  rwa [show (fun market => Except.ok _) = fun market => pure _ from rfl, List.mapM_pure] at h

theorem evaluated_marketId : (evaluated policy previous now market).marketId = market.id := by
  unfold evaluated
  cases h : policy.resolution market now (previous.get? market.id) with
  | ok resolution => exact Policy.marketId_of_resolution h
  | error failure => rfl

theorem evaluated_state :
    (evaluated policy previous now market).state =
      policy.stateAt market now (previous.get? market.id) := by
  unfold evaluated Policy.stateAt
  rw [(policy.resolve_answers _ _ _).answer_eq]
  cases policy.resolution market now (previous.get? market.id) <;> rfl

end Evaluate

section Phases

variable {e : Engine}

def sources (e : Engine) : Work (List Market × Policy) := do
  let markets ← e.loadMarkets
  if !(← Output.healthCheck .sender e.senderFolder) then
    note .warning "Output directory not writable" [("output_dir", .text e.senderFolder.text)]
  let policy ← e.buildPolicy
  return (markets, policy)

structure Round where
  now : Instant
  markets : List Market
  policy : Policy
  previous : States
  resolutions : List Resolution

def Round.changes (r : Round) : List Journal.Change :=
  r.resolutions.filterMap (changeOf? r.previous r.now)

def Round.updated? (r : Round) : Option States :=
  if r.changes.isEmpty then none else some (apply r.previous r.changes)

def resolveAt (e : Engine) (now : Instant) : Work Round := do
  let (markets, policy) ← e.sources
  let previous ← StateFile.load e.statePath
  let resolutions ← Work.traced (evaluate policy previous now markets)
  return ⟨now, markets, policy, previous, resolutions⟩

def resolveRound (e : Engine) (at? : Option Instant) : Work Round := do
  let now ← match at? with
    | some t => ofExcept t.toUtc
    | none => pure (← get).now
  e.resolveAt now

def announce (changes : List Journal.Change) : Work Unit :=
  changes.forM fun change => Work.note (change.entry logger)

def send (e : Engine) (r : Round) : Work Output.Written :=
  Output.writeSender e.senderPath e.settings.output.host r.markets
    (Output.resolvedStates r.resolutions)

def untilSent (e : Engine) (at? : Option Instant) : Work (Round × Nat) := do
  let r ← e.resolveRound at?
  announce r.changes
  let sent ← e.send r
  return (r, sent.lines)

def missed (market : Market) (failure : Failure) : Work Nat := do
  match failure with
  | .incident ⟨message, .outputWrite _ _, _⟩ =>
    note .warning "Per-minute file generation failed"
      [("market_id", .text market.id), ("error", .text message)]
  | _ =>
    Work.note {
      logger := logger
      level := .error
      event := "Per-minute file generation failed"
      fields := [("market_id", .text market.id)]
      failure := some failure }
  return 0

def minuteTurn (e : Engine) (policy : Policy) (d : Day) (market : Market) : Work Nat :=
  tryCatch (do
    let _ ← Output.writeMinutes e.senderPath market (policy.minuteStep market) d
    return 1) (missed market)

theorem writeMinuteFiles_cons (e : Engine) (policy : Policy) (d : Day) (market : Market)
    (rest : List Market) : e.writeMinuteFiles policy d (market :: rest) = do
      let one ← e.minuteTurn policy d market
      return one + (← e.writeMinuteFiles policy d rest) := rfl

def sendMinutes (e : Engine) (r : Round) : Work Nat :=
  if e.settings.output.perMinuteFiles then do
    e.writeMinuteFiles r.policy (← ofExcept r.now.utcDay) r.markets
  else pure 0

/-- Notes that states could not be saved, and does not stop the run for it; another failure does. -/
def unsaved (failure : Failure) : Work Bool := do
  match failure with
  | .incident ⟨message, .persistence _ target, _⟩ =>
    note .error "Cannot persist previous state"
      [("target", .ofText? target), ("error", .text message)]
    return false
  | _ => throw failure

theorem persist_eq (e : Engine) (states : States) : e.persist states =
    tryCatch (do
      StateFile.save e.statePath states
      return true) unsaved := rfl

def saveUpdated (e : Engine) : Option States → Work Bool
  | none => pure false
  | some states => e.persist states

def noteSummary (summary : RunSummary) : Work Unit := do
  let written := (← get).written
  note .info (describeRun summary.markets summary.lines summary.stateChanged)
    [("markets", .int summary.markets), ("lines", .int summary.lines),
      ("state_changed", .bool summary.stateChanged), ("persisted", .bool summary.persisted),
      ("sender_writes", .int (written .sender)), ("per_minute_writes", .int (written .minute))]

def finish (r : Round) (lines perMinuteFiles : Nat) (changed persisted : Bool) :
    Work RunSummary := do
  let summary : RunSummary := {
    markets := r.markets.length
    lines := lines
    stateChanged := changed
    persisted := persisted
    perMinuteFiles := perMinuteFiles
    resolutions := r.resolutions }
  noteSummary summary
  return summary

def conclude (e : Engine) (r : Round) (lines perMinuteFiles : Nat) (updated? : Option States) :
    Work RunSummary := do
  let persisted ← e.saveUpdated updated?
  finish r lines perMinuteFiles updated?.isSome persisted

/-- A run between resolving and saving, with the numbers of lines for the sender and of files of
minutes. -/
def deliver (e : Engine) (r : Round) : Work (Nat × Nat) := do
  announce r.changes
  let sent ← e.send r
  let perMinuteFiles ← e.sendMinutes r
  return (sent.lines, perMinuteFiles)

def untilSaving (e : Engine) (at? : Option Instant) : Work (Round × Nat × Nat) := do
  let r ← e.resolveRound at?
  let counts ← e.deliver r
  return (r, counts)

theorem ite_bind {m : Type → Type} [Monad m] {α β : Type} (c : Prop) [Decidable c] (x y : m α)
    (f : α → m β) : (if c then x else y) >>= f = if c then x >>= f else y >>= f := by
  split <;> rfl

theorem saveUpdated_updated? (r : Round) :
    e.saveUpdated r.updated? =
      if r.changes.isEmpty then pure false else e.persist (apply r.previous r.changes) := by
  unfold Round.updated?
  split <;> rfl

theorem isSome_updated? (r : Round) : r.updated?.isSome = !r.changes.isEmpty := by
  unfold Round.updated?
  cases r.changes <;> rfl

theorem run_eq (e : Engine) (at? : Option Instant) : e.run at? = (do
    let (r, lines) ← e.untilSent at?
    let perMinuteFiles ← e.sendMinutes r
    e.conclude r lines perMinuteFiles r.updated?) := by
  unfold run untilSent resolveRound resolveAt conclude finish sources send sendMinutes announce
    noteSummary
  cases at? <;> simp only [bind_assoc, pure_bind, ite_bind, saveUpdated_updated?, isSome_updated?,
    Round.changes]

theorem run_eq_conclude (e : Engine) (at? : Option Instant) : e.run at? = (do
    let (r, lines, perMinuteFiles) ← e.untilSaving at?
    e.conclude r lines perMinuteFiles r.updated?) := by
  rw [run_eq]
  simp only [untilSent, untilSaving, deliver, bind_assoc, pure_bind]

end Phases

section Frame

variable {e : Engine} {P : World → Prop} {r : Round} {markets : List Market} (hP : Lasting P)
include hP

theorem keeps_sources (hprobe : Keeps P (Work.call (Output.probeCall e.senderFolder))) :
    Keeps P e.sources := by
  have hmarkets : Keeps P e.loadMarkets := by
    unfold loadMarkets
    split
    · split
      · exact .throw _
      · exact hP.keeps_loadMarkets _
    · exact .throw _
  have hpolicy : Keeps P e.buildPolicy :=
    (hP.keeps_loadDataset _).bind fun _ => (hP.keeps_loadFirst _).bind fun _ => .pure _
  refine hmarkets.bind fun _ => (hP.keeps_healthCheck _ hprobe).bind fun ok => ?_
  dsimp only
  split
  · exact Keeps.bind (hP.note (by decide)) fun _ => hpolicy.bind fun _ => .pure _
  · exact hpolicy.bind fun _ => .pure _

theorem keeps_resolveRound (hprobe : Keeps P (Work.call (Output.probeCall e.senderFolder)))
    (at? : Option Instant) : Keeps P (e.resolveRound at?) := by
  have hresolve : ∀ now, Keeps P (e.resolveAt now) := fun now =>
    (keeps_sources hP hprobe).bind fun _ => hP.keeps_loadStates.bind fun _ =>
      (hP.keeps_traced (quiet_evaluate _ _ _ _)).bind fun _ => .pure _
  cases at? with
  | none => exact Keeps.get.bind fun w => Keeps.bind (.pure w.now) hresolve
  | some t => exact Keeps.bind (.ofExcept _) hresolve

theorem keeps_missed (market : Market) (failure : Failure) : Keeps P (missed market failure) := by
  unfold missed
  split
  · exact Keeps.bind (hP.note (by decide)) fun _ => .pure 0
  · exact Keeps.bind (hP.note (by decide)) fun _ => .pure 0

theorem keeps_minuteTurn {market : Market} (policy : Policy) (d : Day) (hm : ∀ lines,
    Keeps P (Work.call (Output.fileCall (Output.minutePath e.senderPath market d) lines))) :
    Keeps P (e.minuteTurn policy d market) :=
  ((hP.keeps_writeMinutes policy hm).bind fun _ => .pure 1).tryCatch (keeps_missed hP market)

omit hP in
theorem keeps_minuteTurns {policy : Policy} {d : Day}
    (hm : ∀ market ∈ markets, Keeps P (e.minuteTurn policy d market)) :
    Keeps P (e.writeMinuteFiles policy d markets) := by
  induction markets with
  | nil => exact .pure 0
  | cons market rest ih =>
    have hrest := ih fun other hother => hm other (List.mem_cons_of_mem market hother)
    rw [writeMinuteFiles_cons]
    exact (hm market List.mem_cons_self).bind fun _ => hrest.bind fun _ => .pure _

theorem keeps_writeMinuteFiles (policy : Policy) (d : Day)
    (hm : ∀ market ∈ markets, ∀ lines,
      Keeps P (Work.call (Output.fileCall (Output.minutePath e.senderPath market d) lines))) :
    Keeps P (e.writeMinuteFiles policy d markets) :=
  keeps_minuteTurns fun market hmarket => keeps_minuteTurn hP policy d (hm market hmarket)

theorem keeps_sendMinutes
    (hm : e.settings.output.perMinuteFiles = true → ∀ d, r.now.utcDay = .ok d →
      ∀ market ∈ r.markets, ∀ lines,
        Keeps P (Work.call (Output.fileCall (Output.minutePath e.senderPath market d) lines))) :
    Keeps P (e.sendMinutes r) := by
  unfold sendMinutes
  split
  · next hfiles =>
    exact Keeps.ofExcept_bind fun d hd => keeps_writeMinuteFiles hP _ d (hm hfiles d hd)
  · exact .pure 0

omit hP in
theorem keeps_announce (hnote : ∀ entry, Keeps P (Work.note entry))
    (changes : List Journal.Change) : Keeps P (announce changes) := by
  unfold announce
  induction changes with
  | nil => exact .pure _
  | cons change rest ih => exact (hnote _).bind fun _ => ih

/-- Here a run makes its entries about changes, which a lasting condition need not bear. -/
theorem keeps_deliver (hnote : ∀ entry, Keeps P (Work.note entry))
    (hsender : ∀ lines, Keeps P (Work.call (Output.fileCall e.senderPath lines)))
    (hm : e.settings.output.perMinuteFiles = true → ∀ d, r.now.utcDay = .ok d →
      ∀ market ∈ r.markets, ∀ lines,
        Keeps P (Work.call (Output.fileCall (Output.minutePath e.senderPath market d) lines))) :
    Keeps P (e.deliver r) :=
  (keeps_announce hnote _).bind fun _ => (hP.keeps_writeSender hsender _ _ _).bind fun _ =>
    (keeps_sendMinutes hP hm).bind fun _ => .pure _

theorem keeps_unsaved (failure : Failure) : Keeps P (unsaved failure) := by
  unfold unsaved
  split
  · exact Keeps.bind (hP.note (by decide)) fun _ => .pure false
  · exact .throw _

theorem keeps_saveUpdated (hcall : ∀ temporary bytes,
    Keeps P (Work.call (StateFile.replace e.statePath temporary bytes)))
    (updated? : Option States) : Keeps P (e.saveUpdated updated?) := by
  cases updated? with
  | none => exact .pure false
  | some states =>
    exact ((hP.keeps_saveStates hcall states).bind fun _ => .pure true).tryCatch (keeps_unsaved hP)

theorem keeps_noteSummary (summary : RunSummary) : Keeps P (noteSummary summary) := by
  refine Keeps.get.bind fun w => hP.note ?_
  have hfirst : (describeRun summary.markets summary.lines summary.stateChanged).toList.head? =
      some 'O' := by
    simp [describeRun]
  intro h
  rw [h] at hfirst
  exact absurd hfirst (by decide)

theorem keeps_finish (r : Round) (lines files : Nat) (changed persisted : Bool) :
    Keeps P (finish r lines files changed persisted) :=
  (keeps_noteSummary hP _).bind fun _ => .pure _

theorem keeps_conclude (hcall : ∀ temporary bytes,
    Keeps P (Work.call (StateFile.replace e.statePath temporary bytes)))
    (r : Round) (lines files : Nat) (updated? : Option States) :
    Keeps P (e.conclude r lines files updated?) :=
  (keeps_saveUpdated hP hcall updated?).bind fun _ => keeps_finish hP r lines files _ _

end Frame

section Run

variable {e : Engine} {home : Place} {content : Option ByteArray} {markets : List Market}
  {policy : Policy} {w w₁ w' : World} {t now : Instant} {ts : List Instant} {s : RunSummary}
  {r : Round}

/-- The other outputs of runs at some instants do not go to the state file. -/
structure Apart (e : Engine) (home : Place) (markets : List Market) (ts : List Instant) :
    Prop where
  sender : e.senderPath.placeFrom home ≠ e.statePath.placeFrom home
  probe : (e.senderFolder.child Output.probeName).placeFrom home ≠ e.statePath.placeFrom home
  minutes : e.settings.output.perMinuteFiles = true → ∀ market ∈ markets, ∀ t ∈ ts, ∀ d,
    t.utcDay = .ok d →
      (Output.minutePath e.senderPath market d).placeFrom home ≠ e.statePath.placeFrom home

def changesOf (policy : Policy) (previous : States) (now : Instant) (markets : List Market) :
    List Journal.Change :=
  (markets.map (evaluated policy previous now)).filterMap (changeOf? previous now)

theorem Apart.keeps_deliver (ha : e.Apart home r.markets ts) (ht : t ∈ ts)
    (hutc : t.toUtc = .ok r.now) : Keeps (World.Holds e.statePath home content) (e.deliver r) := by
  refine Engine.keeps_deliver World.Holds.lasting World.Holds.keeps_note
    (World.Holds.keeps_fileCall ha.sender) fun hfiles d hd market hm => ?_
  rw [Instant.utcDay_of_toUtc hutc] at hd
  exact World.Holds.keeps_fileCall (ha.minutes hfiles market hm t ht d hd)

theorem not_returns_unsaved {failure : Failure} : ¬ Returns (unsaved failure) w true w' := by
  unfold unsaved
  split
  · intro h
    obtain ⟨_, _, -, h⟩ := returns_bind.1 h
    cases (returns_pure.1 h).1
  · exact not_returns_throw

theorem of_returns_persist {states : States} (h : Returns (e.persist states) w true w') :
    Returns (StateFile.save e.statePath states) w () w' := by
  rw [persist_eq] at h
  rcases returns_tryCatch.1 h with h | ⟨failure, _, -, h⟩
  · obtain ⟨_, w₂, hsave, h⟩ := returns_bind.1 h
    rwa [← (returns_pure.1 h).2]
  · exact absurd h not_returns_unsaved

theorem of_returns_resolveAt (h : Returns (e.resolveAt now) w r w') :
    r.now = now ∧ ∃ v v₁, Returns e.sources w (r.markets, r.policy) v ∧
      Returns (StateFile.load e.statePath) v r.previous v₁ ∧
      r.resolutions = r.markets.map (evaluated r.policy r.previous r.now) ∧
      Returns (Work.traced (evaluate r.policy r.previous r.now r.markets)) v₁ r.resolutions w' := by
  obtain ⟨⟨markets, policy⟩, v, hsources, h⟩ := returns_bind.1 h
  obtain ⟨previous, v₁, hload, h⟩ := returns_bind.1 h
  obtain ⟨resolutions, w₃, hevaluate, h⟩ := returns_bind.1 h
  obtain ⟨rfl, rfl⟩ := returns_pure.1 h
  refine ⟨rfl, v, v₁, hsources, hload, ?_, hevaluate⟩
  exact (Except.ok.inj (returns_traced (evaluate_answers markets) hevaluate)).symm

theorem of_returns_resolveRound (h : Returns (e.resolveRound (some t)) w r w') :
    t.toUtc = .ok r.now ∧ Returns (e.resolveAt r.now) w r w' := by
  obtain ⟨now, v, hnow, h⟩ := returns_bind.1 h
  obtain ⟨hutc, rfl⟩ := returns_ofExcept.1 hnow
  obtain ⟨rfl, -⟩ := of_returns_resolveAt h
  exact ⟨hutc, h⟩

/-- The round is the one of the states that the file says. -/
theorem resolveRound_returns (ha : e.Apart home markets ts) (hw : w.Holds e.statePath home content)
    (hsources : Returns e.sources w (markets, policy) w₁) (hg : w₁.disk.Grants 2)
    (h : Returns (e.resolveRound (some t)) w r w') :
    t.toUtc = .ok r.now ∧ r = ⟨r.now, markets, policy, StateFile.statesIn content,
      markets.map (evaluated policy (StateFile.statesIn content) r.now)⟩ ∧
      w'.Holds e.statePath home content := by
  have hprobe : Keeps (World.Holds e.statePath home content)
      (Work.call (Output.probeCall e.senderFolder)) := World.Holds.keeps_probeCall ha.probe
  have hw' := (keeps_resolveRound World.Holds.lasting hprobe _).of_returns hw h
  have hw₁ := (keeps_sources World.Holds.lasting hprobe).of_returns hw hsources
  obtain ⟨hutc, h⟩ := of_returns_resolveRound h
  obtain ⟨-, v, v₁, hloaded, hload, hresolutions, -⟩ := of_returns_resolveAt h
  obtain ⟨hpair, rfl⟩ := hsources.unique hloaded
  obtain ⟨rfl, rfl⟩ := Prod.mk.inj hpair
  rw [StateFile.load_returns hw₁ hg hload] at hresolutions
  refine ⟨hutc, ?_, hw'⟩
  rw [← hresolutions, ← StateFile.load_returns hw₁ hg hload]

/-- A run that returns has gone through its phases. -/
theorem of_returns_run {at? : Option Instant} (h : Returns (e.run at?) w s w') :
    ∃ r counts v v₁ v₂, Returns (e.resolveRound at?) w r v ∧ Returns (e.deliver r) v counts v₁ ∧
      Returns (e.saveUpdated r.updated?) v₁ s.persisted v₂ ∧ Returns (noteSummary s) v₂ () w' ∧
      s.resolutions = r.resolutions ∧ s.stateChanged = !r.changes.isEmpty := by
  rw [run_eq_conclude] at h
  obtain ⟨⟨r', lines, files⟩, v₁, huntil, h⟩ := returns_bind.1 h
  obtain ⟨r, v, hround, huntil⟩ := returns_bind.1 huntil
  obtain ⟨counts, v₁', hdeliver, huntil⟩ := returns_bind.1 huntil
  obtain ⟨hboth, rfl⟩ := returns_pure.1 huntil
  cases hboth
  obtain ⟨persisted, v₂, hsave, h⟩ := returns_bind.1 h
  obtain ⟨_, v₃, hnote, h⟩ := returns_bind.1 h
  obtain ⟨rfl, rfl⟩ := returns_pure.1 h
  exact ⟨_, _, v, _, v₂, hround, hdeliver, hsave, hnote, rfl, isSome_updated? _⟩

/-- A run saves what it says that it has saved. -/
theorem saveUpdated_returns {saved : Bool} (h : Returns (e.saveUpdated r.updated?) w saved w') :
    (saved = false ∧ (r.changes = [] → w = w')) ∨ (saved = true ∧ r.changes ≠ [] ∧
      Returns (StateFile.save e.statePath (apply r.previous r.changes)) w () w') := by
  rw [saveUpdated_updated?] at h
  split at h
  · obtain ⟨rfl, rfl⟩ := returns_pure.1 h
    exact .inl ⟨rfl, fun _ => rfl⟩
  · next hchanged =>
    have hne : r.changes ≠ [] := fun hnil => hchanged (List.isEmpty_iff.2 hnil)
    cases saved with
    | false => exact .inl ⟨rfl, fun hnil => absurd hnil hne⟩
    | true => exact .inr ⟨rfl, hne, of_returns_persist h⟩

theorem run_returns (ha : e.Apart home markets ts) (ht : t ∈ ts)
    (hw : w.Holds e.statePath home content)
    (hsources : Returns e.sources w (markets, policy) w₁) (hg : w₁.disk.Grants 2)
    (h : Returns (e.run (some t)) w s w') :
    ∃ now, t.toUtc = .ok now ∧
      s.resolutions = markets.map (evaluated policy (StateFile.statesIn content) now) ∧
      s.stateChanged = !(changesOf policy (StateFile.statesIn content) now markets).isEmpty ∧
      (s.persisted = s.stateChanged →
        (changesOf policy (StateFile.statesIn content) now markets = [] ∧
          w'.Holds e.statePath home content) ∨
        ∃ stamp, w'.Holds e.statePath home (some (Text.encodeUtf8 (StateFile.render stamp
          (apply (StateFile.statesIn content)
            (changesOf policy (StateFile.statesIn content) now markets)))))) := by
  obtain ⟨r, counts, v, v₁, v₂, hround, hdeliver, hsave, hnote, hresolutions, hchanged⟩ :=
    of_returns_run h
  obtain ⟨hutc, hr, hv⟩ := resolveRound_returns ha hw hsources hg hround
  have ha' : e.Apart home r.markets ts := by rwa [hr]
  have hv₁ : v₁.Holds e.statePath home content :=
    (ha'.keeps_deliver ht hutc).of_returns hv hdeliver
  have hsummary : ∀ content', v₂.Holds e.statePath home content' →
      w'.Holds e.statePath home content' :=
    fun _ hv₂ => (keeps_noteSummary World.Holds.lasting _).of_returns hv₂ hnote
  have hchanges : r.changes = changesOf policy (StateFile.statesIn content) r.now markets := by
    rw [hr]
    rfl
  refine ⟨r.now, hutc, by rw [hresolutions, hr], by rw [hchanged, hchanges], fun hpersisted => ?_⟩
  rw [← hchanges]
  rcases saveUpdated_returns hsave with ⟨hsaved, hsame⟩ | ⟨-, -, hsaved⟩
  · -- only a run that says so has saved its changes
    rw [hsaved, hchanged, eq_comm, Bool.not_eq_false', List.isEmpty_iff] at hpersisted
    exact .inl ⟨hpersisted, hsummary _ (hsame hpersisted ▸ hv₁)⟩
  · have hprevious : r.previous = StateFile.statesIn content := by rw [hr]
    rw [hprevious] at hsaved
    exact .inr ⟨_, hsummary _ (StateFile.save_returns hv₁.anchored hsaved)⟩

end Run

end TradingHours.Engine
