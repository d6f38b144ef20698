import TradingHours.Yaml.Assembly
/-!
The value of a YAML 1.1 document. What leads to no loop is one value wherever it stands; collections
that lead to one are the cells of a knot.
-/
namespace TradingHours.Yaml

/-- What is known of the values of nodes: of those that have been looked at, the value, unless a
loop can be reached from them. -/
abbrev Outlook := Array (Option (Option Value))

/-- Looks at a node for its value. While its parts are looked at it counts as one that leads to a
loop, and so do the nodes that lead back to it. The fuel is more than the number of nodes. -/
def lookAt (parts : Array (Option Assembled)) : Nat → Nat → StateM Outlook (Option Value)
  | 0, _ => return none
  | fuel + 1, number => do
    match (← get).getD number (some none) with
    | some known => return known
    | none =>
      modify (·.setIfInBounds number (some none))
      let look := lookAt parts fuel
      let seen ← match parts.getD number none with
        | some (.value v) => pure (some v)
        | some (.list items) => do
          let values ← items.mapM look
          pure ((values.mapM id).map .list)
        | some (.pairs entries) => do
          let values ← entries.mapM fun (key, value) => return (← look key, ← look value)
          pure ((values.mapM fun ((k, v) : Option Value × Option Value) =>
            return (← k, ← v)).map .pairs)
        | some (.mapping entries) => do
          let values ← entries.mapM fun (key, value) => return (key, ← look value)
          pure ((values.mapM fun ((k, v) : Value × Option Value) => return (k, ← v)).map .mapping)
        | _ => pure none
      modify (·.setIfInBounds number (some seen))
      return seen

def cellOf (part : Nat → Value) : Assembled → Value
  | .list items => .list (items.map part)
  | .pairs entries => .pairs (entries.map fun (key, value) => (part key, part value))
  | .mapping entries => .mapping (entries.map fun (key, value) => (key, part value))
  | .value v => v
  | .waiting => .null

def valueOf (parts : Array (Option Assembled)) (number : Nat) : Value :=
  let (seen, outlook) :=
    (lookAt parts (parts.size + 1) number).run (Array.replicate parts.size none)
  match seen with
  | some v => v
  | none =>
    let tied := (List.range parts.size).filter fun n =>
      match outlook.getD n none with
      | some none => true
      | _ => false
    let cells := (tied.zipIdx).foldl (fun cells (n, cell) => cells.setIfInBounds n cell)
      (Array.replicate parts.size 0)
    let part (n : Nat) : Value := ((outlook.getD n none).join).getD (.loop (cells.getD n 0))
    .knot (tied.map fun n => cellOf part ((parts.getD n none).getD .waiting)) (cells.getD number 0)

def load (cs : List Char) (beyond : Option Fault) : Except Fault Value := do
  match ← root? cs beyond with
  | none => return .null
  | some (g, root) => return valueOf (← assembled g root) root

end TradingHours.Yaml
