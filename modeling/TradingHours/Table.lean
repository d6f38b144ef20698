/-!
Tables: keys with values in the order in which the keys came. Main statements: what `get?` answers
after `put` and after `putNew`.
-/
namespace TradingHours

abbrev Table (κ ν : Type) := List (κ × ν)

namespace Table

variable {κ ν : Type} [DecidableEq κ]

def get? : Table κ ν → κ → Option ν
  | [], _ => none
  | (key, value) :: rest, k => if key = k then some value else get? rest k

/-- Sets the value of a key; a new key goes to the end. -/
def put : Table κ ν → κ → ν → Table κ ν
  | [], k, v => [(k, v)]
  | (key, value) :: rest, k, v =>
    if key = k then (key, v) :: rest else (key, value) :: put rest k v

def putNew (table : Table κ ν) (k : κ) (v : ν) : Table κ ν :=
  match get? table k with
  | some _ => table
  | none => put table k v

def ofPairs (pairs : List (κ × ν)) : Table κ ν :=
  pairs.foldl (fun table pair => put table pair.1 pair.2) []

@[simp] theorem get?_nil (k : κ) : get? ([] : Table κ ν) k = none := rfl

theorem get?_put (table : Table κ ν) (k k' : κ) (v : ν) :
    get? (put table k v) k' = if k = k' then some v else get? table k' := by
  induction table with
  | nil => rfl
  | cons pair rest ih => grind [put, get?]

theorem get?_putNew (table : Table κ ν) (k k' : κ) (v : ν) :
    get? (putNew table k v) k' = (get? table k').or (if k = k' then some v else none) := by
  unfold putNew
  split <;> grind [get?_put]

end Table

end TradingHours
