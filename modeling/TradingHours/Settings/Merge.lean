import TradingHours.Failure
import TradingHours.Settings.Basic
import TradingHours.Settings.Validation
/-!
Settings in layers. A later layer counts before an earlier one, mapping by mapping, and the outcome
is checked before it is used.
-/
namespace TradingHours.Settings

mutual

/-- A value over another one: two mappings are merged, and anything else replaces. -/
def mergeValue (base : Value) : Value → Value
  | .mapping entries =>
    match base.entries? with
    | some old => .mapping (mergeEntries old entries)
    | none => .mapping entries
  | v => v

def mergeEntries (base : List (Value × Value)) : List (Value × Value) → List (Value × Value)
  | [] => base
  | (key, v) :: rest =>
    let merged := match Value.found? base key with
      | some old => mergeValue old v
      | none => v
    mergeEntries (Value.setEntry base key merged) rest

end

def mergeOver (base : Settings) (file choices : List (Value × Value)) : List (Value × Value) :=
  mergeEntries (mergeEntries base.sections file) choices

def mergeAll (file choices : List (Value × Value)) : List (Value × Value) :=
  usual.mergeOver file choices

def textField (fields : List (Value × Value)) (name fallback : String) : String :=
  match Value.field? fields name with
  | some (.text s) => s
  | _ => fallback

def textField? (fields : List (Value × Value)) (name : String) (fallback : Option String) :
    Option String :=
  match Value.field? fields name with
  | some (.text s) => some s
  | some _ => none
  | none => fallback

def truthField (fields : List (Value × Value)) (name : String) (fallback : Bool) : Bool :=
  match Value.field? fields name with
  | some (.bool b) => b
  | _ => fallback

def integerField (fields : List (Value × Value)) (name : String) (fallback : Int) : Int :=
  match Value.field? fields name with
  | some (.int n) => n
  | _ => fallback

def ofSections (entries : List (Value × Value)) : Settings :=
  let evaluation := sectionFields entries "evaluation"
  let paths := sectionFields entries "paths"
  let output := sectionFields entries "output"
  let logging := sectionFields entries "logging"
  { evaluation := ⟨integerField evaluation "grace_minutes" usual.evaluation.graceMinutes⟩
    paths := {
      markets := textField? paths "markets" usual.paths.markets
      definitions := textField? paths "definitions" usual.paths.definitions
      fallbackDefinitions := textField paths "fallback_definitions" usual.paths.fallbackDefinitions
      aggregated := textField paths "aggregated" usual.paths.aggregated
      stateFile := textField paths "state_file" usual.paths.stateFile
      output := textField paths "output" usual.paths.output
      logFile := textField? paths "log_file" usual.paths.logFile }
    output := {
      host := textField output "zabbix_host" usual.output.host
      perMinuteFiles := truthField output "per_minute_files" usual.output.perMinuteFiles }
    logging := {
      level := textField logging "level" usual.logging.level
      asJson := truthField logging "format_json" usual.logging.asJson } }

def issueText (i : Issue) : String :=
  i.field ++ ": " ++ i.message ++ " (got: " ++ i.value.display ++ ")"

def invalid (found : List Issue) : Incident where
  message := "Invalid configuration: " ++ "; ".intercalate (found.map issueText)
  detail := .configuration (found.map .issue)

def buildOver (base : Settings) (file choices : List (Value × Value)) : Except Failure Settings :=
  let entries := base.mergeOver file choices
  match issues entries with
  | [] => .ok (ofSections entries)
  | found =>
    if found.any (·.value.isTooLong) then .error .longInteger
    else .error (.incident (invalid found))

def build (file choices : List (Value × Value)) : Except Failure Settings :=
  usual.buildOver file choices

end TradingHours.Settings
