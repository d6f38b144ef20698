import TradingHours.Text.Line
import TradingHours.Trail
/-!
The markets of an allowlist. A line names a market, the venue key of its schedule and the monitoring
item that gets its state; blank lines and comments name none.
-/
namespace TradingHours

structure Market where
  id : String
  tvKey : String
  itemKey : String
  deriving DecidableEq, Repr

namespace Market

def isRemark (line : List Char) : Bool :=
  line.isEmpty || line.head? = some '#'

def malformedLine (line : String) (lineNumber : Option Int) (count : Nat) : Incident where
  message := "Expected '<id> <tv_key> <item_key>', got " ++ Text.decimal count ++ " field(s)"
  detail := .malformedSourceLine (some line) lineNumber (some "markets")

/-- The market of a line, if it names one. Fields after the third are ignored. -/
def ofLine? (line : String) (lineNumber : Option Int) : Except Incident (Option Market) :=
  if isRemark (Text.trimChars line.toList) then .ok none
  else
    match Text.fields line with
    | id :: tvKey :: itemKey :: _ => .ok (some ⟨id, tvKey, itemKey⟩)
    | fields => .error (malformedLine line lineNumber fields.length)

def sourceLogger : String := "market_sd.data.sources"

def ofNumberedLines : List (String × Nat) → Traced (List Market)
  | [] => pure []
  | (line, number) :: rest => do
    match ofLine? line (some number) with
    | .ok none => ofNumberedLines rest
    | .ok (some market) => return market :: (← ofNumberedLines rest)
    | .error incident =>
      Traced.note {
        logger := sourceLogger
        level := .warning
        event := "Bad markets line, skipping"
        fields := [("line", .text line), ("line_number", .int number),
          ("error", .text incident.message)] }
      ofNumberedLines rest

def ofLines (lines : List String) : Traced (List Market) :=
  ofNumberedLines (lines.zipIdx 1)

end Market

end TradingHours
