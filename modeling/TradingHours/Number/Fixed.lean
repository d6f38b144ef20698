import TradingHours.Number.Binary
import TradingHours.Text.Numeral
/-!
Whole numbers in fixed and scientific notation, after rounding to binary.
-/
namespace TradingHours.Number

inductive Form
  | fixed
  | scientific (mark : Char)
  | general (mark : Char)

/-- The first `count` digits of a number, rounded to even, and its decimal exponent. Zero has no
other digits. -/
def leadingDigits (count n : Nat) : List Char × Nat :=
  if n = 0 then (List.replicate count '0', 0) else
  let size := (Text.numeralChars 10 n).length
  let rounded := if count < size then Binary.divideToEven n (Nat.pow 10 (size - count))
    else n * Nat.pow 10 (count - size)
  let digits := Text.numeralChars 10 rounded
  if count < digits.length then (digits.take count, size) else (digits, size - 1)

def pointed (keepPoint : Bool) (whole : Nat) (digits : List Char) : List Char :=
  let rest := digits.drop whole
  digits.take whole ++ (if rest.isEmpty && !keepPoint then [] else ['.']) ++ rest

def power (mark : Char) (exponent : Nat) : List Char :=
  mark :: '+' :: (Text.padded 2 exponent).toList

def withoutTail (digits : List Char) (whole : Nat) : List Char :=
  digits.take whole ++ ((digits.drop whole).reverse.dropWhile (· = '0')).reverse

def wholeText? (form : Form) (places : Nat) (marked : Bool) (n : Nat) : Option (List Char) :=
  match Binary.ofInt n with
  | .finite .. =>
    let exact := (Binary.ofInt n).truncate.natAbs
    match form with
    | .fixed => some (pointed marked (Text.numeralChars 10 exact).length
        (Text.numeralChars 10 exact ++ List.replicate places '0'))
    | .scientific mark =>
      let (digits, exponent) := leadingDigits (places + 1) exact
      some (pointed marked 1 digits ++ power mark exponent)
    | .general mark =>
      let count := max places 1
      -- Zeros that are dropped again need not be made.
      let shown := if marked then count else min count (Text.numeralChars 10 exact).length
      let (digits, exponent) := leadingDigits shown exact
      if exponent < count then
        some (pointed marked (exponent + 1)
          (if marked then digits else withoutTail digits (exponent + 1)))
      else
        some (pointed marked 1 (if marked then digits else withoutTail digits 1) ++
          power mark exponent)
  | _ => none

end TradingHours.Number
