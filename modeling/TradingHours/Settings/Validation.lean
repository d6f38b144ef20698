import TradingHours.Incident
import TradingHours.Text.Blank
import TradingHours.Text.UpperCase
/-!
The rules of settings, section by section. A field that is not there breaks no rule.
-/
namespace TradingHours.Settings

def levelNames : List String := ["DEBUG", "INFO", "WARNING", "ERROR", "CRITICAL"]

def maxGraceMinutes : Nat := 60

structure Rule where
  field : String
  holds : Value → Bool
  message : String

def graceRule : Rule where
  field := "grace_minutes"
  holds v := match v with
    | .int n => 1 ≤ n && n ≤ maxGraceMinutes
    | _ => false
  message := "Must be an integer between 1 and " ++ Text.decimal maxGraceMinutes

def hostRule : Rule where
  field := "zabbix_host"
  holds v := match v with
    | .text s => !s.isEmpty && !s.toList.any Text.isBlank
    | _ => false
  message := "Must be a non-empty string without whitespace"

def truthRule (field : String) : Rule where
  field := field
  holds v := match v with
    | .bool _ => true
    | _ => false
  message := "Must be a boolean"

def levelRule : Rule where
  field := "level"
  holds v := match v with
    | .text s => levelNames.contains (Text.upper s)
    | _ => false
  message := "Must be one of " ++ ", ".intercalate levelNames

def pathRule (field : String) : Rule where
  field := field
  holds v := match v with
    | .text s => !Text.isBlankText s
    | _ => false
  message := "Must be a non-empty path string"

def optionalPathRule (field : String) : Rule where
  field := field
  holds v := match v with
    | .text _ => true
    | .null => true
    | _ => false
  message := "Must be a path string or null"

/-- The rules of a section, in the order in which they are checked. -/
def rulesOf : String → List Rule
  | "evaluation" => [graceRule]
  | "paths" => ["aggregated", "state_file", "output", "fallback_definitions"].map pathRule ++
      ["markets", "definitions", "log_file"].map optionalPathRule
  | "output" => [hostRule, truthRule "per_minute_files"]
  | "logging" => [levelRule, truthRule "format_json"]
  | _ => []

def Rule.issue? (r : Rule) (fields : List (Value × Value)) : Option Issue :=
  match Value.field? fields r.field with
  | none => none
  | some v => if r.holds v then none else some ⟨r.field, r.message, v⟩

def sectionIssues (name : String) (fields : List (Value × Value)) : List Issue :=
  (rulesOf name).filterMap (·.issue? fields)

def sectionNames : List String := ["evaluation", "paths", "output", "logging"]

def shapeIssue? (entries : List (Value × Value)) (name : String) : Option Issue :=
  match Value.field? entries name with
  | none => none
  | some (.mapping _) => none
  | some v => some ⟨name, "Must be a mapping", v⟩

def sectionFields (entries : List (Value × Value)) (name : String) : List (Value × Value) :=
  match Value.field? entries name with
  | some (.mapping fields) => fields
  | _ => []

def issues (entries : List (Value × Value)) : List Issue :=
  sectionNames.filterMap (shapeIssue? entries) ++
    sectionNames.flatMap fun name => sectionIssues name (sectionFields entries name)

end TradingHours.Settings
