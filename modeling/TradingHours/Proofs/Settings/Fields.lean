import TradingHours.Settings.Merge
/-!
The fields of settings: where they stand, what they admit, and what settings have in them.
-/
namespace TradingHours.Settings

open Value (field?)

inductive Field
  | graceMinutes
  | aggregated
  | stateFile
  | output
  | fallbackDefinitions
  | markets
  | definitions
  | logFile
  | host
  | perMinuteFiles
  | level
  | asJson
  deriving DecidableEq, Repr

namespace Field

def all : List Field :=
  [graceMinutes, aggregated, stateFile, output, fallbackDefinitions, markets, definitions, logFile,
    host, perMinuteFiles, level, asJson]

def sectionName : Field → String
  | graceMinutes => "evaluation"
  | aggregated | stateFile | output | fallbackDefinitions | markets | definitions | logFile => "paths"
  | host | perMinuteFiles => "output"
  | level | asJson => "logging"

def rule : Field → Rule
  | graceMinutes => graceRule
  | aggregated => pathRule "aggregated"
  | stateFile => pathRule "state_file"
  | output => pathRule "output"
  | fallbackDefinitions => pathRule "fallback_definitions"
  | markets => optionalPathRule "markets"
  | definitions => optionalPathRule "definitions"
  | logFile => optionalPathRule "log_file"
  | host => hostRule
  | perMinuteFiles => truthRule "per_minute_files"
  | level => levelRule
  | asJson => truthRule "format_json"

def name (f : Field) : String := f.rule.field

def valueIn (s : Settings) : Field → Value
  | graceMinutes => .int s.evaluation.graceMinutes
  | aggregated => .text s.paths.aggregated
  | stateFile => .text s.paths.stateFile
  | output => .text s.paths.output
  | fallbackDefinitions => .text s.paths.fallbackDefinitions
  | markets => .ofText? s.paths.markets
  | definitions => .ofText? s.paths.definitions
  | logFile => .ofText? s.paths.logFile
  | host => .text s.output.host
  | perMinuteFiles => .bool s.output.perMinuteFiles
  | level => .text s.logging.level
  | asJson => .bool s.logging.asJson

def Admits (v : Value) : Field → Prop
  | graceMinutes => ∃ n, v = .int n ∧ 1 ≤ n ∧ n ≤ 60
  | host => ∃ s, v = .text s ∧ s ≠ "" ∧ ∀ c ∈ s.toList, Text.isBlank c = false
  | perMinuteFiles | asJson => ∃ b, v = .bool b
  | level => ∃ s, v = .text s ∧ Text.upper s ∈ ["DEBUG", "INFO", "WARNING", "ERROR", "CRITICAL"]
  | aggregated | stateFile | output | fallbackDefinitions =>
    ∃ s, v = .text s ∧ ∃ c ∈ s.toList, Text.isBlank c = false
  | markets | definitions | logFile => v = .null ∨ ∃ s, v = .text s

theorem graceRule_holds_iff {v : Value} :
    graceRule.holds v = true ↔ ∃ n, v = .int n ∧ 1 ≤ n ∧ n ≤ 60 := by
  cases v with
  | int n =>
    have hmax : ((maxGraceMinutes : Nat) : Int) = 60 := rfl
    simp [graceRule, hmax]
  | _ => simp [graceRule]

theorem hostRule_holds_iff {v : Value} :
    hostRule.holds v = true ↔
      ∃ s, v = .text s ∧ s ≠ "" ∧ ∀ c ∈ s.toList, Text.isBlank c = false := by
  cases v <;> simp [hostRule]

theorem truthRule_holds_iff {field : String} {v : Value} :
    (truthRule field).holds v = true ↔ ∃ b, v = .bool b := by
  cases v <;> simp [truthRule]

theorem levelRule_holds_iff {v : Value} :
    levelRule.holds v = true ↔
      ∃ s, v = .text s ∧ Text.upper s ∈ ["DEBUG", "INFO", "WARNING", "ERROR", "CRITICAL"] := by
  cases v <;> simp [levelRule, levelNames]

theorem pathRule_holds_iff {field : String} {v : Value} :
    (pathRule field).holds v = true ↔
      ∃ s, v = .text s ∧ ∃ c ∈ s.toList, Text.isBlank c = false := by
  cases v <;> simp [pathRule, Text.isBlankText]

theorem optionalPathRule_holds_iff {field : String} {v : Value} :
    (optionalPathRule field).holds v = true ↔ v = .null ∨ ∃ s, v = .text s := by
  cases v <;> simp [optionalPathRule]

theorem admits_iff {f : Field} {v : Value} : f.Admits v ↔ f.rule.holds v = true := by
  cases f
  case graceMinutes => exact graceRule_holds_iff.symm
  case host => exact hostRule_holds_iff.symm
  case level => exact levelRule_holds_iff.symm
  case perMinuteFiles | asJson => exact truthRule_holds_iff.symm
  case markets | definitions | logFile => exact optionalPathRule_holds_iff.symm
  case aggregated | stateFile | output | fallbackDefinitions => exact pathRule_holds_iff.symm

instance (f : Field) (v : Value) : Decidable (f.Admits v) := decidable_of_iff' _ admits_iff

theorem rulesOf_eq {part : String} (h : part ∈ sectionNames) :
    rulesOf part = (all.filter (·.sectionName = part)).map rule := by
  simp only [sectionNames, List.mem_cons, List.not_mem_nil, or_false] at h
  rcases h with rfl | rfl | rfl | rfl <;> rfl

theorem sectionName_mem (f : Field) : f.sectionName ∈ sectionNames := by
  cases f <;> decide

theorem mem_all (f : Field) : f ∈ all := by
  cases f <;> decide

/-- Settings have all their fields in their sections. -/
theorem field?_sections (s : Settings) (f : Field) :
    ∃ fields, field? s.sections f.sectionName = some (.mapping fields) ∧
      field? fields f.name = some (f.valueIn s) := by
  cases f <;> exact ⟨_, rfl, rfl⟩

theorem not_admits_mapping {f : Field} {entries : List (Value × Value)} :
    ¬ f.Admits (.mapping entries) := by
  cases f <;> simp [Admits]

theorem admits_mergeValue {f : Field} {old v : Value} : f.Admits (mergeValue old v) ↔ f.Admits v := by
  cases v with
  | mapping entries =>
    rw [mergeValue]
    split <;> exact iff_of_false not_admits_mapping not_admits_mapping
  | _ => rw [mergeValue]; exact fun _ h => nomatch h

theorem mergeValue_of_admits {f : Field} {old v : Value} (h : f.Admits v) : mergeValue old v = v := by
  cases v with
  | mapping entries => exact absurd h not_admits_mapping
  | _ => rw [mergeValue]; exact fun _ h => nomatch h

theorem entries?_valueIn (s : Settings) (f : Field) : (f.valueIn s).entries? = none := by
  have hpath : ∀ path, (Value.ofText? path).entries? = none := by
    rintro (_ | _) <;> rfl
  cases f
  case markets | definitions | logFile => exact hpath _
  all_goals rfl

/-- The usual settings keep every rule. -/
theorem admits_usual (f : Field) : f.Admits (f.valueIn usual) := by
  cases f <;> decide +kernel

section Read
variable {fields : List (Value × Value)} {name : String}

theorem text_textField {fallback : String}
    (h : ∀ v, field? fields name = some v → ∃ s, v = .text s) :
    .text (textField fields name fallback) = (field? fields name).getD (.text fallback) := by
  rw [textField]
  cases hv : field? fields name with
  | none => rfl
  | some v =>
    obtain ⟨s, rfl⟩ := h v hv
    rfl

theorem ofText?_textField? {fallback : Option String}
    (h : ∀ v, field? fields name = some v → v = .null ∨ ∃ s, v = .text s) :
    .ofText? (textField? fields name fallback) = (field? fields name).getD (.ofText? fallback) := by
  rw [textField?]
  cases hv : field? fields name with
  | none => rfl
  | some v => rcases h v hv with rfl | ⟨s, rfl⟩ <;> rfl

theorem bool_truthField {fallback : Bool}
    (h : ∀ v, field? fields name = some v → ∃ b, v = .bool b) :
    .bool (truthField fields name fallback) = (field? fields name).getD (.bool fallback) := by
  rw [truthField]
  cases hv : field? fields name with
  | none => rfl
  | some v =>
    obtain ⟨b, rfl⟩ := h v hv
    rfl

theorem int_integerField {fallback : Int}
    (h : ∀ v, field? fields name = some v → ∃ n, v = .int n) :
    .int (integerField fields name fallback) = (field? fields name).getD (.int fallback) := by
  rw [integerField]
  cases hv : field? fields name with
  | none => rfl
  | some v =>
    obtain ⟨n, rfl⟩ := h v hv
    rfl

end Read

/-- Checked sections give a field its value, and the usual one where they have none. -/
theorem valueIn_ofSections {f : Field} {entries : List (Value × Value)}
    (h : ∀ v, field? (sectionFields entries f.sectionName) f.name = some v → f.Admits v) :
    f.valueIn (ofSections entries) =
      (field? (sectionFields entries f.sectionName) f.name).getD (f.valueIn usual) := by
  cases f
  case graceMinutes => exact int_integerField fun v hv => (h v hv).imp fun _ hn => hn.1
  case host | level | aggregated | stateFile | output | fallbackDefinitions =>
    exact text_textField fun v hv => (h v hv).imp fun _ hs => hs.1
  case perMinuteFiles | asJson => exact bool_truthField h
  case markets | definitions | logFile => exact ofText?_textField? h

end Field

end TradingHours.Settings
