import TradingHours.Proofs.Engine.Changes
import TradingHours.Proofs.Engine.Run
/-!
The end of a run. States are handed to the state file if a market has turned, and not otherwise:
which states these are, and how the run goes on by what became of them.
-/
namespace TradingHours.Engine

open Schedule (held)

variable {e : Engine} {r : Round} {lines files : Nat} {w : World} {id : String} {state : Bool}

section Recorded

/-- What is recorded of a market when a round is over: the state to which it turned, or what was
recorded before if it did not turn. -/
def Round.Recorded (r : Round) (id : String) (state : Bool) : Prop :=
  (∃ resolution ∈ r.resolutions, resolution.marketId = id ∧
    resolution.state ≠ (r.previous.get? id).getD false ∧ resolution.state = state) ∨
  (∀ resolution ∈ r.resolutions, resolution.marketId = id →
    resolution.state = (r.previous.get? id).getD false) ∧ r.previous.get? id = some state

theorem changes_eq_nil_iff : r.changes = [] ↔ ∀ resolution ∈ r.resolutions,
    resolution.state = (r.previous.get? resolution.marketId).getD false := by
  simp only [Round.changes, List.filterMap_eq_nil_iff, changeOf?_eq_none_iff, held]

theorem changes_ne_nil_iff : r.changes ≠ [] ↔ ∃ resolution ∈ r.resolutions,
    resolution.state ≠ (r.previous.get? resolution.marketId).getD false := by
  rw [ne_eq, changes_eq_nil_iff]
  simp only [not_forall, exists_prop, ne_eq]

theorem get?_apply_of_turned {resolution : Resolution} (hmem : resolution ∈ r.resolutions)
    (hne : resolution.state ≠ (r.previous.get? resolution.marketId).getD false) :
    (apply r.previous r.changes).get? resolution.marketId = some resolution.state := by
  obtain ⟨change, hof⟩ : ∃ change, changeOf? r.previous r.now resolution = some change :=
    Option.ne_none_iff_exists'.1 fun hnone => hne (changeOf?_eq_none_iff.1 hnone)
  obtain ⟨hid, hafter⟩ := marketId_of_changeOf? hof
  rw [← hid, ← hafter]
  exact get?_apply_of_change (List.mem_filterMap.2 ⟨resolution, hmem, hof⟩)

/-- Two resolutions of one market agree if both turn it, so it does not count which one came last. -/
theorem get?_apply_changes :
    (apply r.previous r.changes).get? id = some state ↔ r.Recorded id state := by
  by_cases hturned : ∃ resolution ∈ r.resolutions, resolution.marketId = id ∧
      resolution.state ≠ (r.previous.get? id).getD false
  · obtain ⟨resolution, hmem, rfl, hne⟩ := hturned
    rw [get?_apply_of_turned hmem hne, Option.some_inj]
    constructor
    · rintro rfl
      exact .inl ⟨resolution, hmem, rfl, hne, rfl⟩
    · rintro (⟨other, -, -, hother, rfl⟩ | ⟨hsame, -⟩)
      · rw [Bool.eq_not.2 hne, Bool.eq_not.2 hother]
      · exact absurd (hsame resolution hmem rfl) hne
  · simp only [not_exists, not_and, not_not] at hturned
    rw [Round.changes, get?_apply_of_not_mem (not_mem_changes hturned)]
    constructor
    · exact fun hbefore => .inr ⟨hturned, hbefore⟩
    · rintro (⟨resolution, hmem, hid, hne, -⟩ | ⟨-, hbefore⟩)
      · exact absurd (hturned resolution hmem hid) hne
      · exact hbefore

end Recorded

section Ending

/-- How a run goes on from what became of saving its states. -/
def finishSaved (r : Round) (lines files : Nat) : Except Failure Unit → Work RunSummary
  | .ok _ => finish r lines files true true
  | .error failure => do
    let persisted ← unsaved failure
    finish r lines files true persisted

theorem exec_conclude_of_changed {saved : Except Failure Unit} {w' : World} (h : r.changes ≠ [])
    (hsave : exec (StateFile.save e.statePath (apply r.previous r.changes)) w = (saved, w')) :
    exec (e.conclude r lines files r.updated?) w = exec (finishSaved r lines files saved) w' := by
  have hne : r.changes.isEmpty = false := by simpa using h
  rw [conclude, saveUpdated_updated?, isSome_updated?, hne, Bool.not_false, if_neg Bool.false_ne_true,
    persist_eq, exec_bind, exec_tryCatch]
  cases saved with
  | ok _ =>
    rw [exec_bind_ok hsave]
    rfl
  | error failure =>
    rw [exec_bind_error hsave, finishSaved, exec_bind]

theorem conclude_of_unchanged (h : r.changes = []) :
    e.conclude r lines files r.updated? = finish r lines files false false := by
  rw [conclude, saveUpdated_updated?, isSome_updated?, h]
  rfl

end Ending

end TradingHours.Engine
