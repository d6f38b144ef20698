import TradingHours.Value.Display
/-!
Values as JSON text in ASCII. Everything outside the printable ASCII characters is escaped in UTF-16
units; values that JSON does not have are written as texts in source notation.
-/
namespace TradingHours.Value

def unitEscape (n : Nat) : List Char :=
  '\\' :: 'u' :: (Text.paddedHex 4 n).toList

def jsonChar (c : Char) : List Char :=
  let n := c.toNat
  if c = '"' || c = '\\' then ['\\', c]
  else if c = '\n' then ['\\', 'n']
  else if c = '\r' then ['\\', 'r']
  else if c = '\t' then ['\\', 't']
  else if n = 8 then ['\\', 'b']
  else if n = 12 then ['\\', 'f']
  else if 0x20 ≤ n && n < 0x7F then [c]
  else if n < 0x10000 then unitEscape n
  else unitEscape (0xD800 + (n - 0x10000) / 0x400) ++ unitEscape (0xDC00 + (n - 0x10000) % 0x400)

def jsonString (s : String) : String :=
  String.ofList ('"' :: s.toList.flatMap jsonChar ++ ['"'])

def jsonNumber : Number.Binary → String
  | .infinite negative => if negative then "-Infinity" else "Infinity"
  | .notANumber => "NaN"
  | x => x.text

def jsonKey : Value → String
  | text s => s
  | null => "null"
  | bool b => if b then "true" else "false"
  | number x => jsonNumber x
  | v => v.source

mutual

def json : Value → String
  | null => "null"
  | bool b => if b then "true" else "false"
  | int n => Text.decimal n
  | number x => jsonNumber x
  | text s => jsonString s
  | date d => jsonString (daySource d)
  | instant t => jsonString (instantSource t)
  | list items => "[" ++ ", ".intercalate (jsonItems items) ++ "]"
  | pairs entries => "[" ++ ", ".intercalate (jsonPairs entries) ++ "]"
  | mapping entries => "\x7b" ++ ", ".intercalate (jsonEntries entries) ++ "\x7d"
  | v => jsonString v.source

def jsonItems : List Value → List String
  | [] => []
  | item :: rest => json item :: jsonItems rest

def jsonPairs : List (Value × Value) → List String
  | [] => []
  | (key, value) :: rest => ("[" ++ json key ++ ", " ++ json value ++ "]") :: jsonPairs rest

def jsonEntries : List (Value × Value) → List String
  | [] => []
  | (key, value) :: rest => (jsonString (jsonKey key) ++ ": " ++ json value) :: jsonEntries rest

end

end TradingHours.Value
