import TradingHours.Journal.Entry
import TradingHours.Table
import TradingHours.Text.UpperCase
import TradingHours.Value.Json
/-!
How entries are written: which levels count, as JSON or for reading, and what is added to each
entry.
-/
namespace TradingHours.Journal

structure Layout where
  threshold : Nat
  asJson : Bool
  stamped : Bool
  placed : Bool
  overlay : List (String × Value)

namespace Layout

def plain : Layout := ⟨0, false, true, false, []⟩

def lineForm : String := "%(levelname)s:%(name)s:%(message)s"

def lineStyles : String :=
  "\x7b'%': (<class 'logging.PercentStyle'>, '" ++ lineForm ++
    "'), '\x7b': (<class 'logging.StrFormatStyle'>, " ++
    "'\x7blevelname\x7d:\x7bname\x7d:\x7bmessage\x7d'), " ++
    "'$': (<class 'logging.StringTemplateStyle'>, " ++
    "'$\x7blevelname\x7d:$\x7bname\x7d:$\x7bmessage\x7d')\x7d"

/-- What a threshold name stands for, in any case of letters: a weight, or why it has none. -/
def thresholdOf (name : String) : Except Failure (Except Failure Nat) :=
  match Text.upper name with
  | "NOTSET" => .ok (.ok 0)
  | "DEBUG" => .ok (.ok 10)
  | "INFO" => .ok (.ok 20)
  | "WARNING" | "WARN" => .ok (.ok 30)
  | "ERROR" => .ok (.ok 40)
  | "CRITICAL" | "FATAL" => .ok (.ok 50)
  | "BASIC_FORMAT" => .ok (.error (.levelText lineForm))
  | "_STYLES" => .ok (.error (.levelKind lineStyles))
  | other => .error (.unknownLevel other)

def admits (l : Layout) (e : Entry) : Bool := l.threshold ≤ e.level.weight

def loggerName (name : String) : String := if name.isEmpty then "root" else name

/-- Everything that is written of an entry: its own fields, event, logger and level, then what the
layout adds; the overlay has the last word. -/
def fieldsOf (l : Layout) (now : Instant) (e : Entry) : Table String Value :=
  let own := Table.ofPairs (e.fields ++ [("event", .text e.event),
    ("logger", .text (loggerName e.logger)), ("level", .text e.level.name)])
  let told := match e.failure with
    | some failure => own.put "exception" (.text (failure.name ++ ": " ++ failure.message))
    | none => own
  let stamped := if l.stamped then
      told.put "timestamp" (.text ((⟨now.wall, none, now.wall_lt⟩ : Instant).text ++ "Z"))
    else told
  let placed := if l.placed then
      (stamped.put "filename" (.text (loggerName e.logger))).put "lineno" (.int 0)
    else stamped
  l.overlay.foldl (fun fields field => fields.put field.1 field.2) placed

def line (l : Layout) (now : Instant) (e : Entry) : String :=
  let fields := l.fieldsOf now e
  if l.asJson then (Value.object fields).json
  else
    let word (name : String) : String := ((fields.get? name).map Value.display).getD ""
    let rest := fields.filter fun field =>
      !(["event", "logger", "level", "timestamp", "exception"].contains field.1)
    " ".intercalate ([word "timestamp", "[" ++ word "level" ++ "]", word "event",
      "[" ++ word "logger" ++ "]"] ++ rest.map fun (name, value) => name ++ "=" ++ value.source)

end Layout

end TradingHours.Journal
