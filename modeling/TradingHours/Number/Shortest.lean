import TradingHours.Number.Binary
import TradingHours.Text.Numeral
/-!
The shortest decimal text of a binary number: the fewest digits that read back, of several such
the nearest. It is positional for exponents from -4 to 15 and scientific beyond, and an integral
value keeps one zero behind the point.
-/
namespace TradingHours.Number

/-- Whether `± d * 10^k` reads back as the value `m * 2^e`: it lies between the midpoints to both
neighbours, ends included for an even mantissa. -/
def readsBack (m : Nat) (e : Int) (d : Nat) (k : Int) : Bool :=
  Binary.ofQuotient false (if 0 ≤ k then d * Nat.pow 10 k.toNat else d)
    (if 0 ≤ k then 1 else Nat.pow 10 (-k).toNat) == Binary.finite false m e

def inUnits (m : Nat) (e k : Int) : Nat × Nat :=
  let num := if 0 ≤ e then m * Nat.pow 2 e.toNat else m
  let den := if 0 ≤ e then 1 else Nat.pow 2 (-e).toNat
  if 0 ≤ k then (num, den * Nat.pow 10 k.toNat) else (num * Nat.pow 10 (-k).toNat, den)

/-- On the grid of multiples of `10^k`, the neighbour of the value that reads back, the nearer one
first. -/
def onGrid? (m : Nat) (e k : Int) : Option Nat :=
  let (num, den) := inUnits m e k
  let low := num / den
  let remainder := num % den
  let candidates := if 2 * remainder < den || (2 * remainder == den && low % 2 == 0)
    then [low, low + 1] else [low + 1, low]
  candidates.find? fun d => readsBack m e d k

/-- The decimal exponent of the leading digit: `10^p ≤ m * 2^e < 10^(p+1)`. -/
def leadingPlace (m : Nat) (e : Int) : Int :=
  let (num, den) := inUnits m e 0
  if den ≤ num then ((Nat.toDigits 10 (num / den)).length : Int) - 1
  else
    -- The least power of ten that lifts the value to one.
    let rec lift : Nat → Nat → Nat → Int
      | 0, _, p => -(p : Int)
      | fuel + 1, n, p => if den ≤ n then -(p : Int) else lift fuel (n * 10) (p + 1)
    lift 400 num 0

def shortestDigits (m : Nat) (e : Int) : Nat × Int :=
  let p := leadingPlace m e
  let found := (List.range 17).findSome? fun (count : Nat) =>
    let k : Int := p - (count : Int)
    (onGrid? m e k).map (·, k)
  found.getD (m, 0)

def dropZeros : Nat → Nat → Int → Nat × Int
  | 0, d, k => (d, k)
  | fuel + 1, d, k => if d % 10 = 0 && d ≠ 0 then dropZeros fuel (d / 10) (k + 1) else (d, k)

def layout (d : Nat) (k : Int) : String :=
  let digits := Nat.toDigits 10 d
  let point : Int := digits.length + k
  let chars : List Char :=
    if -4 < point ∧ point ≤ 16 then
      if point ≤ 0 then '0' :: '.' :: List.replicate (-point).toNat '0' ++ digits
      else if 0 ≤ k then digits ++ List.replicate k.toNat '0' ++ ['.', '0']
      else digits.take point.toNat ++ '.' :: digits.drop point.toNat
    else
      let exponent := point - 1
      let mark := if exponent < 0 then ['e', '-'] else ['e', '+']
      let power := (Text.padded 2 exponent.natAbs).toList
      match digits with
      | [] => []
      | [lead] => lead :: mark ++ power
      | lead :: rest => lead :: '.' :: rest ++ mark ++ power
  String.ofList chars

def Binary.text : Binary → String
  | .finite negative m e =>
    let (d, k) := shortestDigits m e
    let (d, k) := dropZeros 400 d k
    let body := if m = 0 then "0.0" else layout d k
    if negative then "-" ++ body else body
  | .infinite negative => if negative then "-inf" else "inf"
  | .notANumber => "nan"

end TradingHours.Number
