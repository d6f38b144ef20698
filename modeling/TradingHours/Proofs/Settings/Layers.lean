import TradingHours.Proofs.Value.Entries
import TradingHours.Settings.Merge
/-!
Settings in layers, section by section and field by field: what lies under a name after one layer is
laid over another.
-/
namespace TradingHours.Settings

open Value (field?)

/-- A mapping of sections as a file or a command line gives it. No key is there twice, and a section that
is a mapping shows its entries. -/
structure Layer where
  entries : List (Value × Value)
  distinct : Value.Distinct entries
  opened : ∀ name v fields, field? entries name = some v → v.entries? = some fields →
    v = .mapping fields ∧ Value.Distinct fields

section Merge

variable {name : String} {v old : Value} {base later fields : List (Value × Value)}

@[simp] theorem mergeValue_mapping :
    mergeValue (.mapping base) (.mapping later) = .mapping (mergeEntries base later) := by
  rw [mergeValue]
  rfl

theorem mergeValue_of_entries?_base (h : old.entries? = none) : mergeValue old v = v := by
  cases v <;> simp [mergeValue, h]

theorem mergeValue_of_entries? (h : v.entries? = none) : mergeValue old v = v := by
  cases v with
  | mapping entries => cases h
  | _ => rw [mergeValue]; exact fun _ h => nomatch h

/-- What is left of a value and of one that is laid over it, where there may be none of either. -/
def laid (lower upper : Option Value) : Option Value :=
  match upper with
  | none => lower
  | some v => some (match lower with
    | some old => mergeValue old v
    | none => v)

/-- Laying a mapping over another one lays what it has under a name over what the other one has. -/
theorem field?_mergeEntries (h : Value.Distinct later) :
    field? (mergeEntries base later) name = laid (field? base name) (field? later name) := by
  induction later generalizing base with
  | nil => rw [mergeEntries]; rfl
  | cons entry rest ih =>
    obtain ⟨key, v⟩ := entry
    rw [mergeEntries, ih h.of_cons]
    by_cases hname : key = .text name
    · subst hname
      rw [Value.field?_eq_none_of_distinct h, Value.field?_cons_self, Value.field?_setEntry_self]
      rfl
    · rw [Value.field?_cons_of_ne hname, Value.field?_setEntry_of_ne hname]

end Merge

section Parts

def under (part : Option Value) (name : String) : Option Value :=
  match part with
  | some (.mapping fields) => field? fields name
  | _ => none

def Mapped (part : Option Value) : Prop := ∀ v, part = some v → ∃ fields, v = .mapping fields

variable {lower : Option Value} {name : String} {fields later : List (Value × Value)} {v : Value}

theorem laid_mapping :
    laid (some (.mapping fields)) (some (.mapping later)) = some (.mapping (mergeEntries fields later)) :=
  congrArg some mergeValue_mapping

theorem laid_of_entries? (h : v.entries? = none) : laid lower (some v) = some v := by
  cases lower with
  | none => rfl
  | some old => exact congrArg some (mergeValue_of_entries? h)

theorem laid_of_entries?_lower (h : v.entries? = none) (upper : Option Value) :
    laid (some v) upper = some (upper.getD v) := by
  cases upper with
  | none => rfl
  | some w => exact congrArg some (mergeValue_of_entries?_base h)

theorem under_of_entries? (h : v.entries? = none) : under (some v) name = none := by
  cases v with
  | mapping entries => cases h
  | _ => rfl

end Parts

namespace Layer

def part (l : Layer) (name : String) : Option Value := field? l.entries name

theorem part_cases (l : Layer) (name : String) :
    l.part name = none ∨ (∃ fields, l.part name = some (.mapping fields) ∧ Value.Distinct fields) ∨
      ∃ v, l.part name = some v ∧ v.entries? = none := by
  cases h : l.part name with
  | none => exact .inl rfl
  | some v =>
    cases hv : v.entries? with
    | none => exact .inr (.inr ⟨v, rfl, hv⟩)
    | some fields =>
      obtain ⟨rfl, hdistinct⟩ := l.opened name v fields h hv
      exact .inr (.inl ⟨fields, rfl, hdistinct⟩)

end Layer

end TradingHours.Settings
