import TradingHours.Yaml.Merge
import TradingHours.Yaml.Scalar
import TradingHours.Value.SetOrder
/-!
What the nodes of a document come to. A scalar has its value at once. A collection waits until those
that were met before it are done, so the fault that counts is the first one of the highest level;
its parts then stand in it by number.
-/
namespace TradingHours.Yaml

inductive Assembled
  | value (v : Value)
  | waiting
  | list (items : List Nat)
  | pairs (entries : List (Nat × Nat))
  | mapping (entries : List (Value × Nat))

def Tag.isCollection (t : Tag) : Bool := [seq, map, set, pairs, orderedMap].contains t

namespace Graph

/-- The text that a node stands for: its own, or that of the first value under a default key in
it. The fuel is more than the number of nodes, so it ends only where the way has no end. -/
def textOf (g : Graph) : Nat → Nat → Except Fault (List Char)
  | 0, _ => .error (.scalar .endless)
  | fuel + 1, number =>
    match g.content number with
    | .scalar text => .ok text
    | .sequence _ => .error .form
    | .mapping entries =>
      match entries.find? fun (key, _) => g.tag key = .value with
      | some (_, value) => g.textOf fuel value
      | none => .error .form

/-- The value of a node that is no collection. A timestamp has to be written as a scalar. -/
def scalarOf (g : Graph) (number : Nat) : Except Fault Value := do
  let tag := g.tag number
  if [Tag.merge, .value, .other].contains tag then throw .form
  let text ← g.textOf (g.size + 1) number
  match tag, g.content number with
  | .timestamp, .mapping _ => throw (.scalar .timestampForm)
  | _, _ => scalarValue tag text

/-- Which node makes a key the one that it is, where its value does not tell: the constant that is
no number is the same one wherever it is written. -/
def identity (g : Graph) (number : Nat) (v : Value) : Option Nat :=
  match v, g.textOf (g.size + 1) number with
  | .number .notANumber, .ok text => if isNaNText text then none else some number
  | _, _ => some number

end Graph

structure Assembly where
  graph : Graph
  assembled : Array (Option Assembled)
  collections : Array Nat
  mergeCount : Nat

abbrev Assembler := StateT Assembly (Except Fault)

namespace Assembler

def put (number : Nat) (a : Assembled) : Assembler Unit :=
  modify fun s => { s with assembled := s.assembled.setIfInBounds number (some a) }

def meet (number : Nat) : Assembler Unit := do
  let s ← get
  match s.assembled.getD number none with
  | some _ => return
  | none =>
    if (s.graph.tag number).isCollection then
      put number .waiting
      modify fun s => { s with collections := s.collections.push number }
    else put number (.value (← s.graph.scalarOf number))

def meetKey (number : Nat) : Assembler Value := do
  meet number
  match (← get).assembled.getD number none with
  | some (.value v) => return v
  | _ => throw Fault.form

def entriesOf (number : Nat) : Assembler (List (Value × Nat)) := do
  let s ← get
  let (_, graph) ← (merge (s.mergeCount + 1) number []).run s.graph
  modify fun s => { s with graph := graph }
  match graph.entries? number with
  | none => throw Fault.form
  | some entries =>
    let met ← entries.mapM fun (key, value) => do
      let v ← meetKey key
      meet value
      return (graph.identity key v, v, value)
    return (met.foldl putEntry []).map (·.2)
where
  putEntry (entries : List (Option Nat × Value × Nat)) (entry : Option Nat × Value × Nat) :
      List (Option Nat × Value × Nat) :=
    let (node, key, value) := entry
    match entries.findIdx? fun (node', key', _) => node' = node || Value.sameKey key' key with
    | some place => entries.modify place fun (node', key', _) => (node', key', value)
    | none => entries ++ [entry]

def assemble (number : Nat) : Assembler Unit := do
  let g := (← get).graph
  match g.tag number, g.content number with
  | .map, .mapping _ => put number (.mapping (← entriesOf number))
  | .set, .mapping _ =>
    put number (.value (.set (Value.setOrder ((← entriesOf number).map (·.1)))))
  | .seq, .sequence items =>
    items.forM meet
    put number (.list items)
  | .pairs, .sequence items | .orderedMap, .sequence items =>
    let entries ← items.mapM fun item => do
      match g.content item with
      | .mapping [(key, value)] =>
        meet key
        meet value
        return (key, value)
      | _ => throw Fault.form
    put number (.pairs entries)
  | _, _ => throw Fault.form

def assembleFrom : Nat → Nat → Assembler Unit
  | 0, _ => return
  | fuel + 1, place => do
    match (← get).collections[place]? with
    | none => return
    | some number =>
      assemble number
      assembleFrom fuel (place + 1)

end Assembler

def assembled (g : Graph) (root : Nat) : Except Fault (Array (Option Assembled)) := do
  let start : Assembly := ⟨g, Array.replicate g.size none, #[], g.mergeCount⟩
  let ((), s) ← (do Assembler.meet root; Assembler.assembleFrom (g.size + 1) 0).run start
  return s.assembled

end TradingHours.Yaml
