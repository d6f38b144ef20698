import TradingHours.Value.Basic
/-!
Incidents: the failures that this library classifies itself, in three categories. Schedule data
problems and system failures carry a context; degradations say what is lost and what steps in.
-/
namespace TradingHours

structure Issue where
  field : String
  message : String
  value : Value

inductive Finding
  | issue (i : Issue)
  | remark (v : Value)

namespace Incident

inductive Category
  | scheduleData
  | systemFailure
  | degradation
  deriving DecidableEq, Repr

inductive Detail
  | scheduleData
  | malformedToken (token : Option String)
  | missingSchedule (tvKey : Option String) (sourcesTried : List String)
  | malformedSourceLine (line : Option String) (lineNumber : Option Int) (source : Option String)
  | systemFailure
  | persistence (operation target : Option String)
  | outputWrite (outputPath marketId : Option String)
  | configuration (findings : List Finding)
  | degradation (functionality fallback : Option String)
  | calendarLookup (tvKey functionality fallback : Option String)

def Detail.category : Detail → Category
  | scheduleData | malformedToken .. | missingSchedule .. | malformedSourceLine .. => .scheduleData
  | systemFailure | persistence .. | outputWrite .. | configuration .. => .systemFailure
  | degradation .. | calendarLookup .. => .degradation

def Category.name : Category → String
  | scheduleData => "ScheduleDataError"
  | systemFailure => "SystemFailureError"
  | degradation => "GracefulDegradationError"

def Detail.name : Detail → String
  | malformedToken .. => "MalformedTokenError"
  | missingSchedule .. => "MissingScheduleError"
  | malformedSourceLine .. => "MalformedSourceLineError"
  | persistence .. => "PersistenceError"
  | outputWrite .. => "OutputWriteError"
  | configuration .. => "ConfigurationError"
  | calendarLookup .. => "CalendarLookupError"
  | detail => detail.category.name

def lostFunctionality : String := "calendar_lookup"

def calendarFallback : String := "previous_state"

end Incident

structure Incident where
  message : String
  detail : Incident.Detail
  context : List (Value × Value) := []

namespace Incident

def lineage (i : Incident) : List String :=
  if i.detail.name = i.detail.category.name then [i.detail.name]
  else [i.detail.name, i.detail.category.name]

def properties (i : Incident) : List (String × Value) :=
  let shared := match i.detail.category with
    | .scheduleData => [("context", Value.mapping i.context), ("recoverable", .bool true)]
    | .systemFailure => [("context", Value.mapping i.context), ("recoverable", .bool false)]
    | .degradation => [("allows_degradation", .bool true)]
  let own := match i.detail with
    | .malformedToken token => [("token", .ofText? token)]
    | .missingSchedule tvKey sources =>
      [("tv_key", .ofText? tvKey), ("sources_tried", .list (sources.map .text))]
    | .malformedSourceLine line number source =>
      [("line", .ofText? line), ("line_number", (number.map .int).getD .null),
        ("source", .ofText? source)]
    | .persistence operation target =>
      [("operation", .ofText? operation), ("target", .ofText? target)]
    | .outputWrite path market => [("output_path", .ofText? path), ("market_id", .ofText? market)]
    | .degradation functionality fallback =>
      [("degraded_functionality", .ofText? functionality), ("fallback_strategy", .ofText? fallback)]
    | .calendarLookup tvKey functionality fallback =>
      [("tv_key", .ofText? tvKey), ("degraded_functionality", .ofText? functionality),
        ("fallback_strategy", .ofText? fallback)]
    | _ => []
  shared ++ own

def findings (i : Incident) : List Finding :=
  match i.detail with
  | .configuration findings => findings
  | _ => []

def ofCalendar (message tvKey : String) : Incident :=
  ⟨message, .calendarLookup (some tvKey) (some lostFunctionality) (some calendarFallback), []⟩

end Incident

end TradingHours
