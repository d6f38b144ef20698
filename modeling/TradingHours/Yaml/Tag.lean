import TradingHours.Text.Digit
import TradingHours.Text.Integer
import TradingHours.Text.Split
/-!
The kinds of YAML 1.1 nodes, and the kind that a plain text has by its form.
-/
namespace TradingHours.Yaml

inductive Tag
  | null
  | bool
  | int
  | float
  | timestamp
  | str
  | binary
  | seq
  | map
  | set
  | pairs
  | orderedMap
  | merge
  | value
  | other
  deriving DecidableEq, Repr

namespace Tag

def ofName : String → Tag
  | "tag:yaml.org,2002:null" => null
  | "tag:yaml.org,2002:bool" => bool
  | "tag:yaml.org,2002:int" => int
  | "tag:yaml.org,2002:float" => float
  | "tag:yaml.org,2002:timestamp" => timestamp
  | "tag:yaml.org,2002:str" => str
  | "tag:yaml.org,2002:binary" => binary
  | "tag:yaml.org,2002:seq" => seq
  | "tag:yaml.org,2002:map" => map
  | "tag:yaml.org,2002:set" => set
  | "tag:yaml.org,2002:pairs" => pairs
  | "tag:yaml.org,2002:omap" => orderedMap
  | "tag:yaml.org,2002:merge" => merge
  | "tag:yaml.org,2002:value" => value
  | _ => other

end Tag

def isLongDigit (c : Char) : Bool := Text.isAsciiDigit c || c = '_'

def isLongNumber : List Char → Bool
  | c :: cs => Text.isAsciiDigit c && cs.all isLongDigit
  | [] => false

def unsigned : List Char → List Char
  | '+' :: cs => cs
  | '-' :: cs => cs
  | cs => cs

def isSixtieth : List Char → Bool
  | [c] => Text.isAsciiDigit c
  | [c, d] => '0' ≤ c && c ≤ '5' && Text.isAsciiDigit d
  | _ => false

def isInteger (cs : List Char) : Bool :=
  match unsigned cs with
  | '0' :: 'b' :: rest => !rest.isEmpty && rest.all fun c => c = '0' || c = '1' || c = '_'
  | '0' :: 'x' :: rest => !rest.isEmpty && rest.all fun c =>
      isLongDigit c || ('a' ≤ c && c ≤ 'f') || ('A' ≤ c && c ≤ 'F')
  | ['0'] => true
  | '0' :: rest => rest.all fun c => ('0' ≤ c && c ≤ '7') || c = '_'
  | digits =>
    match Text.splitOnChar ':' digits with
    | first :: sixtieths => isLongNumber first && sixtieths.all isSixtieth
    | [] => false

def isExponent : List Char → Bool
  | [] => true
  | e :: sign :: digits =>
    (e = 'e' || e = 'E') && (sign = '+' || sign = '-') && !digits.isEmpty &&
      digits.all Text.isAsciiDigit
  | _ => false

def isFraction (cs : List Char) : Bool :=
  let plain (digits : List Char) : Bool :=
    match Text.cutAtFirst '.' digits with
    | some (whole, rest) =>
      let places := rest.takeWhile isLongDigit
      let tail := rest.dropWhile isLongDigit
      match Text.splitOnChar ':' whole with
      | [_] => isLongNumber whole && isExponent tail
      | first :: sixtieths =>
        isLongNumber first && sixtieths.all isSixtieth && tail.isEmpty && places.all isLongDigit
      | [] => false
    | none => false
  match cs with
  | '.' :: c :: rest =>
    (Text.isAsciiDigit c && isExponent (rest.dropWhile isLongDigit)) ||
      ["inf", "Inf", "INF", "nan", "NaN", "NAN"].contains (String.ofList (c :: rest))
  | _ =>
    plain (unsigned cs) ||
      [".inf", ".Inf", ".INF"].contains (String.ofList (unsigned cs))

def takeDigitsUpTo (most : Nat) (cs : List Char) : Option (Nat × List Char) :=
  let digits := (cs.take most).takeWhile Text.isAsciiDigit
  if digits.isEmpty then none
  else some (Text.ofDigits 10 (digits.map Text.asciiDigitValue), cs.drop digits.length)

def takeDigitsExactly (count : Nat) (cs : List Char) : Option (Nat × List Char) := do
  let (n, rest) ← takeDigitsUpTo count cs
  if cs.length - rest.length = count then some (n, rest) else none

def takeOnly (c : Char) : List Char → Option (List Char)
  | d :: rest => if c = d then some rest else none
  | [] => none

structure StampTime where
  hour : Nat
  minute : Nat
  second : Nat
  fraction : List Char
  zone : Option (Bool × Nat × Nat)

structure Stamp where
  year : Nat
  month : Nat
  day : Nat
  time : Option StampTime

def zone? (cs : List Char) : Option (Option (Bool × Nat × Nat)) :=
  if cs.isEmpty then some none
  else
    match cs.dropWhile fun c => c = ' ' || c = '\t' with
    | ['Z'] => some (some (false, 0, 0))
    | sign :: rest =>
      if sign = '+' || sign = '-' then do
        let (hours, rest) ← takeDigitsUpTo 2 rest
        if rest.isEmpty then some (some (sign = '-', hours, 0))
        else do
          let (minutes, rest) ← takeDigitsExactly 2 (← takeOnly ':' rest)
          if rest.isEmpty then some (some (sign = '-', hours, minutes)) else none
      else none
    | [] => none

def stamp? (cs : List Char) : Option Stamp := do
  let (year, rest) ← takeDigitsExactly 4 cs
  let (month, rest) ← takeDigitsUpTo 2 (← takeOnly '-' rest)
  let (day, rest) ← takeDigitsUpTo 2 (← takeOnly '-' rest)
  if rest.isEmpty then return ⟨year, month, day, none⟩
  let isBlankChar (c : Char) : Bool := c = ' ' || c = '\t'
  let rest ← match rest with
    | 'T' :: rest => some rest
    | 't' :: rest => some rest
    | c :: _ => if isBlankChar c then some (rest.dropWhile isBlankChar) else none
    | [] => none
  let (hour, rest) ← takeDigitsUpTo 2 rest
  let (minute, rest) ← takeDigitsExactly 2 (← takeOnly ':' rest)
  let (second, rest) ← takeDigitsExactly 2 (← takeOnly ':' rest)
  let (fraction, rest) := match rest with
    | '.' :: rest => (rest.takeWhile Text.isAsciiDigit, rest.dropWhile Text.isAsciiDigit)
    | _ => ([], rest)
  return ⟨year, month, day, some ⟨hour, minute, second, fraction, ← zone? rest⟩⟩

/-- Whether a text is a timestamp by its form. A date alone has two digits for month and day. -/
def isTimestamp (cs : List Char) : Bool :=
  match stamp? cs with
  | some ⟨_, _, _, none⟩ => cs.length = 10
  | some _ => true
  | none => false

def truthTexts : List (String × Bool) :=
  [("yes", true), ("no", false), ("true", true), ("false", false), ("on", true), ("off", false)]

def isWordForm (word : String) (text : String) : Bool :=
  text = word || text = word.capitalize || text = word.toUpper

def withoutLastBreak (cs : List Char) : List Char :=
  if cs.getLast? = some '\n' then cs.dropLast else cs

def Tag.ofPlain (text : List Char) : Tag :=
  let cs := withoutLastBreak text
  let s := String.ofList cs
  if text.isEmpty || (!cs.isEmpty && (s = "~" || isWordForm "null" s)) then .null
  else if truthTexts.any fun pair => isWordForm pair.1 s then .bool
  else if isFraction cs then .float
  else if isInteger cs then .int
  else if isTimestamp cs then .timestamp
  else if s = "<<" then .merge
  else if s = "=" then .value
  else if s = "!" || s = "&" || s = "*" then .other
  else .str

end TradingHours.Yaml
