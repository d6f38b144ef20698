import TradingHours.Value.Basic
/-!
The order in which a set shows its items. A set of numbers keeps them in a table of open addressing,
where a residue of each says at which place to look first, and shows them by place. Every other set
shows its items in the order in which they came.
-/
namespace TradingHours.Value

def residueModulus : Nat := Nat.pow 2 61 - 1

/-- The residue of a number, with its sign; minus one is nobody's. A denominator is a power of
two. -/
def residue? : Value → Option Int
  | number (.infinite negative) => some (if negative then -314159 else 314159)
  | v => v.keyNumber?.map fun (num, den) =>
    let size := num.natAbs * Nat.pow 2 ((61 - den.log2 % 61) % 61) % residueModulus
    if num < 0 then (if size = 1 then -2 else -(size : Int)) else size

/-- The size of the table for a number of items: a power of two above twice the number, and the
smallest table for fewer than five. -/
def tableSize (count : Nat) : Nat :=
  if count < 5 then 8 else max 8 (Nat.pow 2 ((2 * count).log2 + 1))

def freePlace (size : Nat) (taken : List Nat) : Nat → Nat → Nat → Nat
  | 0, place, _ => place
  | fuel + 1, place, rest =>
    let run := if place + 9 < size then (List.range 10).map (place + ·) else [place]
    match run.find? fun p => !taken.contains p with
    | some p => p
    | none =>
      let rest := rest / 32
      freePlace size taken fuel ((place * 5 + 1 + rest) % size) rest

def places (size : Nat) : List Nat → List Int → List Nat
  | _, [] => []
  | taken, residue :: residues =>
    let word := (residue % (Nat.pow 2 64 : Nat)).toNat
    let place := freePlace size taken (size + 16) (word % size) word
    place :: places size (place :: taken) residues

def setOrder (items : List Value) : List Value :=
  match items.mapM residue? with
  | none => items
  | some residues =>
    let placed := (places (tableSize items.length) [] residues).zip items
    (placed.mergeSort fun a b => a.1 ≤ b.1).map (·.2)

end TradingHours.Value
