import TradingHours.Clock.Checked
import TradingHours.Text.LowerCase
import TradingHours.Yaml.Base64
import TradingHours.Yaml.Cursor
import TradingHours.Yaml.Tag
/-!
The values that scalars denote by their kind. A kind that is stated and does not suit the text is a
fault.
-/
namespace TradingHours.Yaml

def bareLiteral (cs : List Char) : List Char :=
  ((cs.dropWhile Text.isLiteralBlank).reverse.dropWhile Text.isLiteralBlank).reverse

def baseDigit? (base : Nat) (c : Char) : Option Nat :=
  match (Text.digitValue? c).or (hexValue? c) with
  | some n => if n < base then some n else none
  | none => none

def readInBase? (base : Nat) (cs : List Char) : Option Int :=
  let body := bareLiteral cs
  let negative := body.head? = some '-'
  let mark := if base = 16 then 'x' else if base = 8 then 'o' else 'b'
  let digits := match unsigned body with
    | '0' :: c :: rest => if c.toLower = mark then rest else '0' :: c :: rest
    | other => other
  if digits.isEmpty then none
  else
    (digits.mapM (baseDigit? base)).map fun values =>
      let n : Int := (Text.ofDigits base values : Nat)
      if negative then -n else n

def integerIn (base : Nat) (cs : List Char) : Except ScalarFault Int :=
  let text := String.ofList cs
  if base = 10 then
    match Text.readInteger text with
    | .ok n => .ok n
    | .error .malformed => .error (.integer base text)
    | .error (.tooLong digits) => .error (.integerLength digits)
  else
    match readInBase? base cs with
    | some n => .ok n
    | none => .error (.integer base text)

def withoutUnderscores (cs : List Char) : List Char := cs.filter (· ≠ '_')

def signAndBody (cs : List Char) : Except ScalarFault (Bool × List Char) :=
  match cs with
  | [] => .error .empty
  | '-' :: body => .ok (true, body)
  | '+' :: body => .ok (false, body)
  | body => .ok (false, body)

def integerValue (cs : List Char) : Except ScalarFault Int := do
  let (negative, body) ← signAndBody (withoutUnderscores cs)
  let n ← match body with
    | [] => .error .empty
    | ['0'] => .ok 0
    | '0' :: 'b' :: rest => integerIn 2 rest
    | '0' :: 'x' :: rest => integerIn 16 rest
    | '0' :: _ => integerIn 8 body
    | _ => do
      let parts ← (Text.splitOnChar ':' body).mapM (integerIn 10)
      pure (parts.foldl (fun n part => n * 60 + part) 0)
  return if negative then -n else n

def readFraction? (cs : List Char) : Option Number.Binary := do
  let body := bareLiteral cs
  let negative := body.head? = some '-'
  let body := (unsigned body).map Char.toLower
  let word := String.ofList body
  if word = "inf" || word = "infinity" then return .infinite negative
  if word = "nan" then return .notANumber
  let isDigit (c : Char) : Bool := (Text.digitValue? c).isSome
  let whole := body.takeWhile isDigit
  let rest := body.dropWhile isDigit
  let (places, rest) := match rest with
    | '.' :: rest => (rest.takeWhile isDigit, rest.dropWhile isDigit)
    | _ => ([], rest)
  if whole.isEmpty && places.isEmpty then none
  let exponent : Int ← match rest with
    | [] => some 0
    | 'e' :: power => do
      let digits := unsigned power
      if digits.isEmpty then none
      let n := Text.ofDigits 10 (← digits.mapM Text.digitValue?)
      some (if power.head? = some '-' then -(n : Int) else n)
    | _ => none
  let digits ← (whole ++ places).mapM Text.digitValue?
  let significant := digits.dropWhile (· = 0)
  let scale : Int := exponent - places.length
  let top : Int := significant.length + scale
  if significant.isEmpty || top < -400 then return .ofQuotient negative 0 1
  if 400 < top then return .infinite negative
  let n := Text.ofDigits 10 significant
  return if 0 ≤ scale then .ofQuotient negative (n * Nat.pow 10 scale.toNat) 1
    else .ofQuotient negative n (Nat.pow 10 (-scale).toNat)

def fraction (cs : List Char) : Except ScalarFault Number.Binary :=
  match readFraction? cs with
  | some x => .ok x
  | none => .error (.number (String.ofList cs))

def sumOfSixtieths : Nat → Number.Binary → List Number.Binary → Except ScalarFault Number.Binary
  | _, total, [] => .ok total
  | base, total, part :: rest =>
    match Number.Binary.ofInt base with
    | .finite .. => sumOfSixtieths (base * 60) (total.add (part.scale base)) rest
    | _ => .error .numberRange

def isNaNText (cs : List Char) : Bool :=
  unsigned (Text.lowerChars [] (withoutUnderscores cs)) = ".nan".toList

def fractionValue (cs : List Char) : Except ScalarFault Number.Binary := do
  let (negative, body) ← signAndBody (Text.lowerChars [] (withoutUnderscores cs))
  let x ←
    if body = ".inf".toList then .ok (.infinite false)
    else if body = ".nan".toList then .ok .notANumber
    else if body.contains ':' then do
      let parts ← (Text.splitOnChar ':' body).mapM fraction
      sumOfSixtieths 1 (.ofInt 0) parts.reverse
    else fraction body
  return if negative then x.negate else x

def timestampValue (cs : List Char) : Except ScalarFault Value := do
  let dayOf (s : Stamp) : Except ScalarFault Day :=
    match Day.ofCivil s.year s.month s.day with
    | .ok d => .ok d
    | .error fault => .error (.date fault)
  match stamp? (withoutLastBreak cs) with
  | none => .error .timestamp
  | some s =>
    match s.time with
    | none => return .date (← dayOf s)
    | some t =>
      let digits := (t.fraction.take 6).map Text.asciiDigitValue
      let micro := Text.ofDigits 10 digits * Nat.pow 10 (6 - digits.length)
      let offset ← match t.zone with
        | none => pure none
        | some (behind, hours, minutes) => do
          let size : Span := spanOfMinutes (hours * 60 + minutes : Nat)
          let span := if behind then -size else size
          if microsPerDay ≤ span.natAbs then throw (.offset span)
          pure (some span)
      let d ← dayOf s
      match TimeOfDay.ofFields t.hour t.minute t.second micro with
      | .ok time => return .instant (.ofDay d time offset)
      | .error fault => throw (.time fault)

def truthValue (cs : List Char) : Except ScalarFault Bool :=
  let word := String.ofList (Text.lowerChars [] cs)
  match truthTexts.lookup word with
  | some b => .ok b
  | none => .error (.truthValue word)

def scalarValue (tag : Tag) (text : List Char) : Except Fault Value :=
  let checked {α : Type} (wrap : α → Value) (x : Except ScalarFault α) : Except Fault Value :=
    match x with
    | .ok a => .ok (wrap a)
    | .error fault => .error (.scalar fault)
  match tag with
  | .null => .ok .null
  | .bool => checked .bool (truthValue text)
  | .int => checked .int (integerValue text)
  | .float => checked .number (fractionValue text)
  | .timestamp => checked id (timestampValue text)
  | .str => .ok (.text (String.ofList text))
  | .binary =>
    match decodeBase64? text with
    | some bytes => .ok (.bytes bytes)
    | none => .error .form
  | _ => .error .form

end TradingHours.Yaml
