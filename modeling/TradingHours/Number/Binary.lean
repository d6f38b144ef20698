/-!
Binary floating point with 53 bits of precision, as exact numbers. A finite value is `± m * 2^e`
in the one form that has `m < 2^53` and either `2^52 ≤ m` or `e = -1074`.
-/
namespace TradingHours.Number

inductive Binary
  | finite (negative : Bool) (mantissa : Nat) (exponent : Int)
  | infinite (negative : Bool)
  | notANumber
  deriving DecidableEq, Repr

namespace Binary

def minExponent : Int := -1074

def maxExponent : Int := 971

def divideToEven (num den : Nat) : Nat :=
  let q := num / den
  let twice := 2 * (num % den)
  if twice < den then q
  else if den < twice then q + 1
  else if q % 2 = 0 then q else q + 1

/-- The quotient `num / den` in units of `2^e`, rounded. -/
def scaled (num den : Nat) (e : Int) : Nat :=
  if 0 ≤ e then divideToEven num (den * Nat.pow 2 e.toNat)
  else divideToEven (num * Nat.pow 2 (-e).toNat) den

/-- The exponent in which the quotient has 53 bits, or the least exponent if it is too small. -/
def unitExponent (num den : Nat) : Int :=
  let guess : Int := (num.log2 : Int) - (den.log2 : Int) - 52
  -- The quotient lies between 2^(guess + 51) and 2^(guess + 53).
  let small := if 0 ≤ guess + 52 then num < den * Nat.pow 2 (guess + 52).toNat
    else num * Nat.pow 2 (-(guess + 52)).toNat < den
  max minExponent (if small then guess - 1 else guess)

def ofQuotient (negative : Bool) (num den : Nat) : Binary :=
  if num = 0 ∨ den = 0 then finite negative 0 minExponent
  else
    let e := unitExponent num den
    let m := scaled num den e
    let (m, e) := if m = Nat.pow 2 53 then (Nat.pow 2 52, e + 1) else (m, e)
    if maxExponent < e then infinite negative else finite negative m e

def ofInt (n : Int) : Binary :=
  ofQuotient (n < 0) n.natAbs 1

def truncate : Binary → Int
  | finite negative m e =>
    let n : Int := if 0 ≤ e then m * Nat.pow 2 e.toNat else (m / Nat.pow 2 (-e).toNat : Nat)
    if negative then -n else n
  | _ => 0

def negate : Binary → Binary
  | finite negative m e => finite (!negative) m e
  | infinite negative => infinite (!negative)
  | notANumber => notANumber

def quotient? : Binary → Option (Bool × Nat × Nat)
  | finite negative m e =>
    some (negative, if 0 ≤ e then m * Nat.pow 2 e.toNat else m,
      if 0 ≤ e then 1 else Nat.pow 2 (-e).toNat)
  | _ => none

def add (x y : Binary) : Binary :=
  match x, y with
  | notANumber, _ => notANumber
  | _, notANumber => notANumber
  | infinite s, infinite t => if s = t then infinite s else notANumber
  | infinite s, _ => infinite s
  | _, infinite s => infinite s
  | finite s m e, finite t n f =>
    let low := min e f
    let signed (negative : Bool) (k : Nat) : Int := if negative then -(k : Int) else k
    let total := signed s (m * Nat.pow 2 (e - low).toNat) + signed t (n * Nat.pow 2 (f - low).toNat)
    let negative := if total = 0 then s && t else total < 0
    if 0 ≤ low then ofQuotient negative (total.natAbs * Nat.pow 2 low.toNat) 1
    else ofQuotient negative total.natAbs (Nat.pow 2 (-low).toNat)

def scale (x : Binary) (k : Nat) : Binary :=
  match x with
  | finite negative m e =>
    if 0 ≤ e then ofQuotient negative (m * k * Nat.pow 2 e.toNat) 1
    else ofQuotient negative (m * k) (Nat.pow 2 (-e).toNat)
  | infinite negative => if k = 0 then notANumber else infinite negative
  | notANumber => notANumber

end Binary

end TradingHours.Number
