import TradingHours.Schedule.Token
import TradingHours.Text.Split
/-!
Tokens mined from schedule definitions, which carry much else. An assignment to `0` comes first,
then the always-open token anywhere, then all windows that the scan finds, put together.
-/
namespace TradingHours.Schedule

def isTokenChar (c : Char) : Bool :=
  Text.isAsciiDigit c || isMarker c || c = '-' || c = '+'

def assignedToken? (definition : List Char) : Option (List Char) :=
  match Text.afterFirst ['0', '='] definition with
  | none => none
  | some value =>
    let token := (value.takeWhile (· ≠ ';')).filter isTokenChar
    if token.isEmpty then none else some token

def scannedToken? (definition : List Char) : Option (List Char) :=
  let token := ((scan definition).filter (·.isWindow)).flatMap (·.text)
  if token.isEmpty then none else some token

def extractChars? (definition : List Char) : Option (List Char) :=
  let text := Text.trimChars definition
  (assignedToken? text).or <|
    if Text.containsChars alwaysOpenToken.toList text then some alwaysOpenToken.toList
    else scannedToken? text

def extractToken (definition : Option String) : Option String :=
  definition.bind fun d => (extractChars? d.toList).map String.ofList

end TradingHours.Schedule
