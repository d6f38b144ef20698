import TradingHours.Clock.Checked
/-!
The settings of the program, in sections of named fields.
-/
namespace TradingHours

structure EvaluationSettings where
  graceMinutes : Int
  deriving Repr

structure PathSettings where
  markets : Option String
  definitions : Option String
  fallbackDefinitions : String
  aggregated : String
  stateFile : String
  output : String
  logFile : Option String
  deriving Repr

structure OutputSettings where
  host : String
  perMinuteFiles : Bool
  deriving Repr

structure LoggingSettings where
  level : String
  asJson : Bool
  deriving Repr

structure Settings where
  evaluation : EvaluationSettings
  paths : PathSettings
  output : OutputSettings
  logging : LoggingSettings
  deriving Repr

namespace Settings

def usual : Settings where
  evaluation := ⟨5⟩
  paths := {
    markets := none
    definitions := none
    fallbackDefinitions := "config/dxfeed.schedule"
    aggregated := "config/schedule_unique.csv"
    stateFile := "/var/lib/market-sd/state.properties"
    output := "out/zabbix/zabbix_sender_input.txt"
    logFile := some "out/logs/market_schedule.log" }
  output := ⟨"MarketSchedule", true⟩
  logging := ⟨"INFO", false⟩

def grace (s : Settings) : Span := spanOfMinutes s.evaluation.graceMinutes

def sections (s : Settings) : List (Value × Value) :=
  let named (name : String) (fields : List (String × Value)) : Value × Value :=
    (.text name, .object fields)
  [named "evaluation" [("grace_minutes", .int s.evaluation.graceMinutes)],
    named "paths" [("markets", .ofText? s.paths.markets),
      ("definitions", .ofText? s.paths.definitions),
      ("fallback_definitions", .text s.paths.fallbackDefinitions),
      ("aggregated", .text s.paths.aggregated),
      ("state_file", .text s.paths.stateFile),
      ("output", .text s.paths.output),
      ("log_file", .ofText? s.paths.logFile)],
    named "output" [("zabbix_host", .text s.output.host),
      ("per_minute_files", .bool s.output.perMinuteFiles)],
    named "logging" [("level", .text s.logging.level), ("format_json", .bool s.logging.asJson)]]

end Settings

end TradingHours
