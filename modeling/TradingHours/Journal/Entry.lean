import TradingHours.Failure
/-!
Journal entries, and the one that records a change of a market's state.
-/
namespace TradingHours.Journal

inductive Level
  | debug
  | info
  | warning
  | error
  | critical
  deriving DecidableEq, Repr

def Level.name : Level → String
  | debug => "debug"
  | info => "info"
  | warning => "warning"
  | error => "error"
  | critical => "critical"

def Level.weight : Level → Nat
  | debug => 10
  | info => 20
  | warning => 30
  | error => 40
  | critical => 50

def Level.ofName? : String → Option Level
  | "debug" => some debug
  | "info" => some info
  | "warning" | "warn" => some warning
  | "error" | "exception" => some error
  | "critical" | "fatal" => some critical
  | _ => none

structure Entry where
  logger : String
  level : Level
  event : String
  fields : List (String × Value) := []
  failure : Option Failure := none

def stateLabel : Option Bool → String
  | none => "UNKNOWN"
  | some true => "OPEN"
  | some false => "CLOSED"

structure Change where
  marketId : String
  before : Option Bool
  after : Bool
  source : String
  context : List (Value × Value)

def changeEvent : String := "Market state changed"

/-- The entry of a change. It belongs to the audit trail; an empty context is left out. -/
def Change.entry (c : Change) (logger : String) : Entry where
  logger := logger
  level := .info
  event := changeEvent
  fields := [("subsystem", .text "market_state"), ("audit_trail", .bool true),
    ("market_id", .text c.marketId), ("from_state", .text (stateLabel c.before)),
    ("to_state", .text (stateLabel (some c.after))), ("source", .text c.source)] ++
    (if c.context.isEmpty then [] else [("context", .mapping c.context)])

end TradingHours.Journal
