import TradingHours.Failure
import TradingHours.Schedule.Fragment
import TradingHours.Schedule.Window
import TradingHours.Text.Blank
import TradingHours.Text.Integer
/-!
Schedule tokens and the windows they stand for. Reading a token never fails: one without a window
stands for no windows, which callers take for missing data and not for a closed market.
-/
namespace TradingHours.Schedule

def alwaysOpenToken : String := "0000+0000"

def clockTime : List Char → TimeOfDay
  | [a, b, c, d] =>
    let value := Text.asciiDigitValue
    TimeOfDay.wrapped (10 * value a + value b : Nat) (10 * value c + value d : Nat)
  | _ => .midnight

/-- Reads hours from the first two characters of a text and minutes from the next two, each an
integer literal, and turns them around the clock. -/
def readClockTime (text : String) : Except Failure TimeOfDay := do
  let part (start : Nat) : Except Failure Int :=
    let literal := String.ofList ((text.toList.drop start).take 2)
    match Text.readInteger? literal with
    | some n => .ok n
    | none => .error (.notAnInteger literal)
  return .wrapped (← part 0) (← part 2)

def Window.ofFragment? (f : Fragment) : Option Window :=
  match f.kind with
  | .skip => none
  | .overnightWindow => some (.explicitOvernight (clockTime f.opening) (clockTime f.closing))
  | _ => some (.standard (clockTime f.opening) (clockTime f.closing))

def windowsOf (token : String) : List Window :=
  let text := Text.trimChars token.toList
  if text = alwaysOpenToken.toList then [.always]
  else (scan text).filterMap Window.ofFragment?

def windowsOf? (token : Option String) : List Window :=
  (token.map windowsOf).getD []

end TradingHours.Schedule
