import TradingHours.Clock.TimeOfDay
/-!
Trading windows in UTC time of day. A window includes its opening time and excludes its closing
time; an overnight window runs past midnight.
-/
namespace TradingHours.Schedule

structure Window where
  start : TimeOfDay
  finish : TimeOfDay
  overnight : Bool
  allDay : Bool
  deriving DecidableEq, Repr

namespace Window

def always : Window := ⟨.midnight, .midnight, true, true⟩

/-- The window between two times: past midnight if it closes before it opens, and always open if
both are the same. -/
def standard (start finish : TimeOfDay) : Window :=
  if start = finish then always
  else ⟨start, finish, finish < start, false⟩

def explicitOvernight (start finish : TimeOfDay) : Window :=
  if start = finish then always
  else ⟨start, finish, true, false⟩

def coversDay (w : Window) : Bool :=
  w.allDay || (w.overnight && w.start = w.finish)

def contains (w : Window) (moment : TimeOfDay) : Bool :=
  if w.coversDay then true
  else if w.overnight then w.start ≤ moment || moment < w.finish
  else w.start ≤ moment && moment < w.finish

def describe (w : Window) : String :=
  if w.allDay then "all-day"
  else
    w.start.shortText ++ "-" ++ w.finish.shortText ++ (if w.overnight then " (overnight)" else "")

end Window

end TradingHours.Schedule
