import TradingHours.Failure
/-!
Shifts and conversions of instants whose failure is an error of the work they belong to.
-/
namespace TradingHours

def inCalendar {α : Type} : Option α → Except Failure α
  | some a => .ok a
  | none => .error .dateOutOfRange

namespace Instant

def shift (t : Instant) (span : Span) : Except Failure Instant := inCalendar (t.shift? span)

def toUtc (t : Instant) : Except Failure Instant := inCalendar t.toUtc?

def utcTimeOfDay (t : Instant) : Except Failure TimeOfDay := t.toUtc.map (·.timeOfDay)

def utcDay (t : Instant) : Except Failure Day := t.toUtc.map (·.day)

def clock (t : Instant) : Except Failure String := t.toUtc.map (·.timeOfDay.clockText)

def epoch (t : Instant) : Except Failure Int := t.toUtc.map (·.epochSeconds)

end Instant

def minuteGrid (d : Day) (minutes : Nat) : Except Failure (List Instant) :=
  inCalendar (minuteGrid? d minutes)

def spanOfSeconds (seconds : Int) : Except Failure Span :=
  let days := seconds / 86400
  if 999999999 < days.natAbs then .error (.spanOutOfRange days) else .ok (seconds * microsPerSecond)

def spanOfMinutes (minutes : Int) : Span := minutes * microsPerMinute

end TradingHours
