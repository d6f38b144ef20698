import TradingHours.Market
import TradingHours.Schedule.Definition
import TradingHours.Source.Dataset
/-!
Schedule definitions: lines with a venue key, an equals sign and a definition from which a token is
mined. The first line with a usable token counts for its key.
-/
namespace TradingHours.Source

def venueMark : List Char := "tv.".toList

def ofDefinitionLine? (line : String) : Option (String × String) := do
  let text := Text.trimChars line.toList
  if Market.isRemark text then none
  let (before, definition) ← Text.cutAtFirst '=' text
  let key := Text.trimChars before
  if before.isEmpty || !venueMark.isPrefixOf key then none
  let token ← Schedule.extractChars? definition
  if token.all Text.isBlank then none
  return (String.ofList key, String.ofList token)

def ofDefinitions (lines : List String) : Tokens :=
  merge [] (lines.filterMap ofDefinitionLine?)

end TradingHours.Source
