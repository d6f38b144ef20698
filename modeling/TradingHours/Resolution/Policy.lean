import TradingHours.Market
import TradingHours.Resolution.Calendar
import TradingHours.Schedule.Vector
import TradingHours.Source.Dataset
/-!
How the state of a market is resolved. The token of the dataset counts first, then the one of the
definitions, then the calendar; if none of them can say, the market keeps its state.
-/
namespace TradingHours

inductive Basis
  | aggregated
  | definition
  | calendar
  | fallback
  deriving DecidableEq, Repr

def Basis.name : Basis → String
  | aggregated => "aggregated"
  | definition => "definition"
  | calendar => "calendar"
  | fallback => "fallback"

structure Resolution where
  marketId : String
  tvKey : String
  state : Bool
  source : Basis
  token : Option String := none
  error : Option Failure := none

def stateValue (state : Bool) : Nat := if state then 1 else 0

structure Policy where
  aggregated : Source.Tokens
  definitions : Source.Tokens
  calendar : Option Calendar
  grace : Span

namespace Policy

def logger : String := "market_sd.resolution.policy"

/-- The token of a market and where it comes from. A blank token of the definitions does not
count. -/
def tokenFor? (p : Policy) (market : Market) : Option (String × Basis) :=
  match p.aggregated.get? market.tvKey with
  | some token => some (token, .aggregated)
  | none =>
    match p.definitions.get? market.tvKey with
    | some token => if Text.isBlankText token then none else some (token, .definition)
    | none => none

def note (level : Journal.Level) (event : String) (market : Market) (more : List (String × Value)) :
    Traced Unit :=
  Traced.note {
    logger := logger
    level := level
    event := event
    fields := [("market_id", .text market.id), ("tv_key", .text market.tvKey)] ++ more }

def keep (market : Market) (previous : Option Bool) (reason : Incident) : Traced Resolution := do
  let state := Schedule.held previous
  note .warning "Market not resolvable, using fallback state" market
    [("error", .text reason.message), ("state", .bool state)]
  return {
    marketId := market.id
    tvKey := market.tvKey
    state := state
    source := .fallback
    error := some (.incident reason) }

def unusableToken (token : String) : Incident where
  message := "Schedule token yielded no trading window"
  detail := .malformedToken (some token)

def unknownVenue (tvKey : String) : Incident where
  message := "No schedule found in aggregated dataset or definitions, no calendar configured"
  detail := .missingSchedule (some tvKey) [Basis.aggregated.name, Basis.definition.name]

def resolveToken (p : Policy) (market : Market) (token : String) (source : Basis) (now : Instant)
    (previous : Option Bool) : Traced Resolution := do
  let windows := Schedule.windowsOf token
  let state ← ofExcept (Schedule.nextState windows now previous none p.grace)
  if windows.isEmpty then
    note .warning "Unusable schedule token, keeping previous state" market
      [("token", .text token), ("source", .text source.name), ("state", .bool state)]
  else if source = .definition then
    note .info "Using schedule definition token" market [("token", .text token)]
  return {
    marketId := market.id
    tvKey := market.tvKey
    state := state
    source := source
    token := some token
    error := if windows.isEmpty then some (.incident (unusableToken token)) else none }

def calendarState (p : Policy) (calendar : Calendar) (tvKey : String) : Schedule.Step Traced :=
  fun now previous =>
    Schedule.computeState (some (calendar.askDay tvKey)) (calendar.askSession tvKey) now previous
      p.grace

/-- Resolves a market by a calendar; every failure of it keeps the state. -/
def resolveCalendar (p : Policy) (calendar : Calendar) (market : Market) (now : Instant)
    (previous : Option Bool) : Traced Resolution := do
  match ← Traced.outcome (p.calendarState calendar market.tvKey now previous) with
  | .error failure =>
    keep market previous
      (Incident.ofCalendar ("Calendar lookup failed: " ++ failure.message) market.tvKey)
  | .ok state =>
    note .info "Used trading calendar" market []
    return { marketId := market.id, tvKey := market.tvKey, state := state, source := .calendar }

def resolve (p : Policy) (market : Market) (now : Instant) (previous : Option Bool) :
    Traced Resolution :=
  match p.tokenFor? market with
  | some (token, source) => p.resolveToken market token source now previous
  | none =>
    match p.calendar with
    | some calendar => p.resolveCalendar calendar market now previous
    | none => keep market previous (unknownVenue market.tvKey)

/-- The step from minute to minute of a market. A market without token and calendar is closed. -/
def minuteStep (p : Policy) (market : Market) : Schedule.Step Traced :=
  match p.tokenFor? market with
  | some (token, _) =>
    let windows := Schedule.windowsOf token
    fun now previous => ofExcept (Schedule.windowStep windows p.grace now previous)
  | none =>
    match p.calendar with
    | some calendar => fun now previous =>
      tryCatch (p.calendarState calendar market.tvKey now previous) fun failure => do
        Traced.note {
          logger := logger
          level := .debug
          event := "Calendar lookup failed"
          fields := [("tv_key", .text market.tvKey), ("minute", .text now.text),
            ("error", .text failure.message)] }
        return Schedule.held previous
    | none => fun _ _ => pure false

end Policy

end TradingHours
