import TradingHours.Proofs.Output.MinuteStates
import TradingHours.Proofs.Output.WrittenLines
import TradingHours.Proofs.Schedule.DayVector
import TradingHours.Proofs.Text.Fields
import TradingHours.Proofs.Text.Lines
import TradingHours.Proofs.Text.Numerals
/-!
The lines of the minutes of a day as columns. The last column of a line shows the state, and so the
last column of a reference file is the vector of its token.
-/
namespace TradingHours.Output

open Schedule

section Columns

theorem unbroken_minuteText (t : Instant) (state : Bool) :
    Text.Unbroken (minuteText t state).toList := by
  have hcolon : Text.Unbroken ":".toList := by decide
  have hspace : Text.Unbroken " ".toList := by decide
  simp only [minuteText, TimeOfDay.clockText, TimeOfDay.shortText, Text.unbroken_append,
    Text.unbroken_padded, Text.unbroken_decimal, hcolon, hspace, and_self]

/-- The last columns of the lines of a text; a blank line has none. -/
def lastColumns (text : String) : List (Option String) :=
  (Text.lines text).map fun line => (Text.fields line).getLast?

theorem getLast?_fields_minuteText (t : Instant) (state : Bool) :
    (Text.fields (minuteText t state)).getLast? = some (stateText state) := by
  rw [minuteText, ← decimal_stateValue]
  exact (Text.word_decimal _).getLast?_fields _

theorem lastColumns_unlines {lines : List String}
    (h : ∀ line ∈ lines, Text.Unbroken line.toList) :
    lastColumns (Text.unlines lines) = lines.map fun line => (Text.fields line).getLast? := by
  rw [lastColumns, Text.lines_unlines h]

theorem lastColumns_minutes (states : List (Instant × Bool)) :
    lastColumns (Text.unlines (states.map fun pair => minuteText pair.1 pair.2)) =
      states.map fun pair => some (stateText pair.2) := by
  rw [lastColumns_unlines, List.map_map]
  · apply List.map_congr_left
    intro pair _
    rw [Function.comp_apply, getLast?_fields_minuteText]
  · intro line hline
    obtain ⟨pair, -, rfl⟩ := List.mem_map.1 hline
    exact unbroken_minuteText pair.1 pair.2

end Columns

namespace Golden

variable {g : Golden} {tvKey token : String} {d : Day} {w : World}

/-- A vector that cannot be computed is not written. -/
theorem exec_writeToken_of_error {failure : Failure}
    (h : tokenVector (some token) d none g.grace = .error failure) :
    exec (g.writeToken tvKey token d) w = (.error failure, w) := by
  rw [tokenVector_some] at h
  have hlines : minuteLines (windowStep (windowsOf token) g.grace) d = .error failure := by
    rw [minuteLines_eq]
    generalize stateVector (windowStep (windowsOf token) g.grace) d none minutesPerDay = vector at h ⊢
    cases vector with
    | ok states => cases h
    | error e =>
      cases h
      rfl
  rw [writeToken]
  exact exec_bind_error (by rw [exec_ofExcept, hlines])

/-- A vector that can be computed is written, one line for each state. -/
theorem exec_writeToken_of_ok {states : List Bool}
    (h : tokenVector (some token) d none g.grace = .ok states) :
    ∃ lines, lines.length = states.length ∧
      lastColumns (Text.unlines lines) = states.map (fun state => some (stateText state)) ∧
      ∀ tvKey w, exec (g.writeToken tvKey token d) w =
        exec (writeLines .golden (g.path tvKey d) lines) w := by
  rw [tokenVector_some] at h
  have hlines := minuteLines_eq (windowStep (windowsOf token) g.grace) d
  generalize stateVector (windowStep (windowsOf token) g.grace) d none minutesPerDay = vector
    at h hlines
  cases vector with
  | error failure => cases h
  | ok minutes =>
    cases h
    refine ⟨minutes.map fun pair => minuteText pair.1 pair.2, ?_, ?_, ?_⟩
    · rw [List.length_map, List.length_map]
    · rw [lastColumns_minutes, List.map_map]
      rfl
    · intro tvKey w
      rw [writeToken]
      exact exec_bind_ok (by rw [exec_ofExcept, hlines]; rfl)

end Golden

end TradingHours.Output
