import TradingHours.Yaml.Node
/-!
Merges: a merge key in a mapping names other mappings whose entries come before its own. They are
carried out in the graph of nodes, so a mapping has them wherever it stands.
-/
namespace TradingHours.Yaml

namespace Graph

def tag (g : Graph) (number : Nat) : Tag := (g.getD number .nothing).tag

def content (g : Graph) (number : Nat) : Content := (g.getD number .nothing).content

def entries? (g : Graph) (number : Nat) : Option (List (Nat × Nat)) :=
  match g.content number with
  | .mapping entries => some entries
  | _ => none

def withEntries (g : Graph) (number : Nat) (entries : List (Nat × Nat)) : Graph :=
  g.modify number fun n => { n with content := .mapping entries }

def withTextKeys (g : Graph) (keys : List Nat) : Graph :=
  (keys.filter (g.tag · = .value)).foldl (fun g key => g.modify key ({ · with tag := .str })) g

def mergeCount (g : Graph) : Nat :=
  g.foldl (fun count n =>
    match n.content with
    | .mapping entries => count + entries.countP (g.tag ·.1 = .merge)
    | _ => count) 0

end Graph

abbrev Merging := StateT Graph (Except Fault)

/-- Carries out the merges of a mapping node; `merged` are the entries from merges that are done. A
merge key is taken away before the mappings that it names are merged themselves. A sequence of
mappings is merged from its end. The fuel is more than the number of merge keys. -/
def merge : Nat → Nat → List (Nat × Nat) → Merging Unit
  | 0, _, _ => return
  | fuel + 1, number, merged => do
    let g ← get
    let own := (g.entries? number).getD []
    match own.findIdx? fun (key, _) => g.tag key = .merge with
    | none =>
      if !merged.isEmpty then modify (·.withEntries number (merged ++ own))
      modify (·.withTextKeys (own.map (·.1)))
    | some place =>
      modify (·.withEntries number (own.eraseIdx place))
      let entriesOf (source : Nat) : Merging (List (Nat × Nat)) := do
        if (g.entries? source).isNone then throw Fault.form
        merge fuel source []
        return ((← get).entries? source).getD []
      let source := (own.getD place (0, 0)).2
      let more ← match g.content source with
        | .sequence items => do
          pure ((← items.mapM entriesOf).reverse.flatten)
        | _ => entriesOf source
      merge fuel number (merged ++ more)

end TradingHours.Yaml
