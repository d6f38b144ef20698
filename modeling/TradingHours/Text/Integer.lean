import TradingHours.Text.Blank
import TradingHours.Text.Digit
/-!
Integer literals: a sign, then decimal digits of any script, with single underscores allowed
between two digits and blanks around the whole. The separator controls U+001C to U+001F do not
count as blanks here.
-/
namespace TradingHours.Text

def maxLiteralDigits : Nat := 4300

def isLiteralBlank (c : Char) : Bool :=
  isBlank c && !(0x1C ≤ c.toNat && c.toNat ≤ 0x1F)

/-- The values of digits joined by single underscores; a literal has at least one. -/
def literalDigits? : List Char → Option (List Nat)
  | [] => none
  | [c] => (digitValue? c).map ([·])
  | c :: '_' :: cs => do
    let d ← digitValue? c
    let ds ← literalDigits? cs
    return d :: ds
  | c :: cs => do
    let d ← digitValue? c
    let ds ← literalDigits? cs
    return d :: ds

def ofDigits (base : Nat) (digits : List Nat) : Nat :=
  digits.foldl (fun n d => n * base + d) 0

inductive LiteralFault
  | malformed
  | tooLong (digits : Nat)
  deriving DecidableEq, Repr

def leadingDigitCount (cs : List Char) : Nat :=
  let run := cs.takeWhile fun c => c = '_' || (digitValue? c).isSome
  ((literalDigits? run).map List.length).getD 0

/-- Reads digits. Too many of them are refused before what follows them is looked at. -/
def readDigits (cs : List Char) : Except LiteralFault Nat :=
  let count := leadingDigitCount cs
  if maxLiteralDigits < count then .error (.tooLong count)
  else
    match literalDigits? cs with
    | some digits => .ok (ofDigits 10 digits)
    | none => .error .malformed

def readInteger (s : String) : Except LiteralFault Int :=
  let body := (s.toList.dropWhile isLiteralBlank).reverse.dropWhile isLiteralBlank |>.reverse
  match body with
  | '-' :: cs => (readDigits cs).map fun n => -(n : Int)
  | '+' :: cs => (readDigits cs).map Int.ofNat
  | cs => (readDigits cs).map Int.ofNat

def readInteger? (s : String) : Option Int := (readInteger s).toOption

def isTooLongToWrite (n : Int) : Bool := Nat.pow 10 maxLiteralDigits ≤ n.natAbs

end TradingHours.Text
