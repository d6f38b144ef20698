import TradingHours.Text.Numeral
import TradingHours.Text.Printable
/-!
Quoted texts, as they appear in messages. Single quotes enclose the text unless it holds a single
quote and no double quote. Hidden characters are written as escapes of two, four or eight
hexadecimal digits.
-/
namespace TradingHours.Text

def quoteFor (cs : List Char) : Char :=
  if cs.contains '\'' && !cs.contains '"' then '"' else '\''

def hexEscape (c : Char) : List Char :=
  if c.toNat < 0x100 then '\\' :: 'x' :: (paddedHex 2 c.toNat).toList
  else if c.toNat < 0x10000 then '\\' :: 'u' :: (paddedHex 4 c.toNat).toList
  else '\\' :: 'U' :: (paddedHex 8 c.toNat).toList

def quotedChar (quote c : Char) : List Char :=
  if c = quote || c = '\\' then ['\\', c]
  else if c = '\n' then ['\\', 'n']
  else if c = '\r' then ['\\', 'r']
  else if c = '\t' then ['\\', 't']
  else if isPrintable c then [c]
  else hexEscape c

def quoted (s : String) : String :=
  let cs := s.toList
  let quote := quoteFor cs
  String.ofList (quote :: cs.flatMap (quotedChar quote) ++ [quote])

def asciiOnly (s : String) : String :=
  String.ofList (s.toList.flatMap fun c => if c.toNat < 0x80 then [c] else hexEscape c)

end TradingHours.Text
