import TradingHours.Clock.Instant
import TradingHours.Number.Binary
/-!
Values as settings and log entries carry them, and when two of them are the same key of a mapping.
-/
namespace TradingHours

inductive Value
  | null
  | bool (b : Bool)
  | int (n : Int)
  | number (x : Number.Binary)
  | text (s : String)
  | bytes (bs : List UInt8)
  | date (d : Day)
  | instant (t : Instant)
  | list (items : List Value)
  | pairs (entries : List (Value × Value))
  | set (items : List Value)
  | mapping (entries : List (Value × Value))
  | knot (cells : List Value) (cell : Nat)
  | loop (cell : Nat)
  deriving Inhabited, Repr

namespace Value

def keyNumber? : Value → Option (Int × Nat)
  | bool b => some (if b then 1 else 0, 1)
  | int n => some (n, 1)
  | number x =>
    x.quotient?.map fun (negative, num, den) => (if negative then -(num : Int) else num, den)
  | _ => none

/-- Whether two values are one key: numbers and truth values by their quotient, instants on known
clocks by the moment, and everything else by kind and content. What is no number is no other key's
equal. -/
def sameKey : Value → Value → Bool
  | null, null => true
  | text s, text t => s == t
  | bytes a, bytes b => a == b
  | date d, date e => d == e
  | instant t, instant u =>
    match t.offset, u.offset with
    | none, none => t.wall == u.wall
    | some p, some q => (t.wall : Int) - p == (u.wall : Int) - q
    | _, _ => false
  | number (.infinite s), number (.infinite t) => s == t
  | v, w =>
    match v.keyNumber?, w.keyNumber? with
    | some (a, p), some (b, q) => a * q == b * p
    | _, _ => false

def found? : List (Value × Value) → Value → Option Value
  | [], _ => none
  | (key, value) :: rest, k => if sameKey key k then some value else found? rest k

/-- Sets the value of a key; a key that is there already stays as it is written. -/
def setEntry : List (Value × Value) → Value → Value → List (Value × Value)
  | [], k, v => [(k, v)]
  | (key, value) :: rest, k, v =>
    if sameKey key k then (key, v) :: rest else (key, value) :: setEntry rest k v

def tied (cells : List Value) : Value → Value
  | loop cell => knot cells cell
  | v => v

def opened : Value → Value
  | knot cells cell =>
    match cells[cell]? with
    | some (list items) => list (items.map (tied cells))
    | some (pairs entries) => pairs (entries.map fun (k, v) => (tied cells k, tied cells v))
    | some (mapping entries) => mapping (entries.map fun (k, v) => (k, tied cells v))
    | _ => null
  | v => v

def entries? (v : Value) : Option (List (Value × Value)) :=
  match v.opened with
  | mapping entries => some entries
  | _ => none

def loopsIn (v : Value) : List Nat :=
  let parts : List Value := match v with
    | list items => items
    | pairs entries => entries.flatMap fun (k, v) => [k, v]
    | mapping entries => entries.map fun (_, v) => v
    | _ => []
  parts.filterMap fun part =>
    match part with
    | loop cell => some cell
    | _ => none

def reachedFrom (links : List (List Nat)) : Nat → List Nat → List Nat
  | 0, found => found
  | steps + 1, found =>
    let next := (found.flatMap fun cell => links.getD cell []).filter (!found.contains ·)
    reachedFrom links steps (found ++ next.eraseDups)

def field? (entries : List (Value × Value)) (name : String) : Option Value :=
  found? entries (text name)

def object (fields : List (String × Value)) : Value :=
  mapping (fields.map fun (name, value) => (text name, value))

def ofText? : Option String → Value
  | some s => text s
  | none => null

end Value

end TradingHours
