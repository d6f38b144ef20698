import TradingHours.Clock.Checked
import TradingHours.Schedule.Window
/-!
Whether a market trades at an instant, by its windows. No windows means that it never trades.
-/
namespace TradingHours.Schedule

def openAt (windows : List Window) (moment : TimeOfDay) : Bool :=
  windows.any (·.contains moment)

def isTrading (windows : List Window) (t : Instant) : Except Failure Bool :=
  if windows.isEmpty then .ok false else t.utcTimeOfDay.map (openAt windows)

/-- Whether a market trades at a time of day. A time on a clock with a known offset does not compare
with the bounds of windows, so it is settled only by windows that cover the day. -/
def isTradingAtTime (windows : List Window) (moment : TimeOfDay) (offset : Option Span) :
    Except Failure Bool :=
  match offset, windows with
  | none, _ => .ok (openAt windows moment)
  | some _, [] => .ok false
  | some _, w :: _ => if w.coversDay then .ok true else .error .clockMismatch

def describeWindows (windows : List Window) : String :=
  "TokenSessionOracle([" ++ ", ".intercalate (windows.map Window.describe) ++ "])"

end TradingHours.Schedule
