import TradingHours.Table
import TradingHours.Yaml.Tag
import TradingHours.Yaml.Token
/-!
The graph of nodes that tokens denote. Nodes have numbers, and an alias is the number of the node
that it names, also inside of that node itself.
-/
namespace TradingHours.Yaml

inductive Content
  | scalar (text : List Char)
  | sequence (items : List Nat)
  | mapping (entries : List (Nat × Nat))

structure Node where
  tag : Tag
  content : Content

def Node.nothing : Node := ⟨.null, .scalar []⟩

abbrev Graph := Array Node

structure Parsing where
  tokens : List Token
  fault : Option Fault
  nodes : Graph := #[]
  anchors : Table String Nat := []
  handles : Table String String := []

abbrev Parser := StateT Parsing (Except Fault)

namespace Parser

def ahead : Parser (Option Token) := do
  let s ← get
  match s.tokens, s.fault with
  | t :: _, _ => return some t
  | [], some fault => throw fault
  | [], none => return none

def drop : Parser Unit := modify fun s => { s with tokens := s.tokens.drop 1 }

def dropIf (t : Token) : Parser Bool := do
  if (← ahead) = some t then
    drop
    return true
  return false

def expect (t : Token) : Parser Unit := do
  if !(← dropIf t) then throw Fault.form

def isAhead (ts : List Token) : Parser Bool := do
  return ((← ahead).map ts.contains).getD false

def usualHandles : Table String String := [("!", "!"), ("!!", "tag:yaml.org,2002:")]

def properties : Parser (Option String × Option String) := do
  let takeAnchor : Parser (Option String) := do
    match ← ahead with
    | some (.anchor name) => drop; return some name
    | _ => return none
  let first ← takeAnchor
  let tag ← match ← ahead with
    | some (.tag handle suffix) => do
      drop
      pure (some (handle, suffix))
    | _ => pure none
  let anchor ← if first.isNone && tag.isSome then takeAnchor else pure first
  match tag with
  | none => return (anchor, none)
  | some (none, suffix) => return (anchor, some suffix)
  | some (some handle, suffix) =>
    match (← get).handles.get? handle with
    | some uri => return (anchor, some (uri ++ suffix))
    | none => throw Fault.form

def add (n : Node) : Parser Nat := do
  let number := (← get).nodes.size
  modify fun s => { s with nodes := s.nodes.push n }
  return number

def addNamed (anchor : Option String) (n : Node) : Parser Nat := do
  match anchor with
  | none => add n
  | some name =>
    if ((← get).anchors.get? name).isSome then throw Fault.form
    let number ← add n
    modify fun s => { s with anchors := s.anchors.put name number }
    return number

def addCollection (anchor : Option String) (tag : Tag) (read : Parser Content) : Parser Nat := do
  let number ← addNamed anchor .nothing
  let content ← read
  modify fun s => { s with nodes := s.nodes.setIfInBounds number ⟨tag, content⟩ }
  return number

def addNothing : Parser Nat := add .nothing

def collectionTag (tag : Option String) (usual : Tag) : Tag :=
  match tag with
  | none => usual
  | some "!" => usual
  | some name => .ofName name

def scalarTag (tag : Option String) (text : List Char) (plain : Bool) : Tag :=
  match tag with
  | none => if plain then .ofPlain text else .str
  | some "!" => .ofPlain text
  | some name => .ofName name

def emptyNode (anchor tag : Option String) : Parser Nat := do
  if anchor.isNone && tag.isNone then throw Fault.form
  addNamed anchor ⟨scalarTag tag [] true, .scalar []⟩

mutual

/-- A node. In a block it may be a block collection, and as an entry of a mapping a sequence that is
not indented. -/
def node : Nat → Bool → Bool → Parser Nat
  | 0, _, _ => throw Fault.form
  | fuel + 1, block, indentless => do
    match ← ahead with
    | some (.alias name) =>
      drop
      match (← get).anchors.get? name with
      | none => throw Fault.form
      | some number => return number
    | _ =>
      let (anchor, tag) ← properties
      let sequence := addCollection anchor (collectionTag tag .seq)
      let mapping := addCollection anchor (collectionTag tag .map)
      match ← ahead with
      | some (.scalar text plain) =>
        drop
        addNamed anchor ⟨scalarTag tag text plain, .scalar text⟩
      | some .flowSequence =>
        drop
        sequence (return .sequence (← flowItems fuel true))
      | some .flowMapping =>
        drop
        mapping (return .mapping (← flowEntries fuel true))
      | some .entry =>
        if indentless then sequence (return .sequence (← plainItems fuel))
        else emptyNode anchor tag
      | some .blockSequence =>
        if block then
          drop
          sequence (return .sequence (← blockItems fuel))
        else emptyNode anchor tag
      | some .blockMapping =>
        if block then
          drop
          mapping (return .mapping (← blockEntries fuel))
        else emptyNode anchor tag
      | _ => emptyNode anchor tag

def nodeBefore : Nat → List Token → Bool → Bool → Parser Nat
  | 0, _, _, _ => throw Fault.form
  | fuel + 1, stops, block, indentless => do
    if ← isAhead stops then addNothing else node fuel block indentless

def blockItems : Nat → Parser (List Nat)
  | 0 => throw Fault.form
  | fuel + 1 => do
    if ← dropIf .entry then
      let item ← nodeBefore fuel [.entry, .blockEnd] true false
      return item :: (← blockItems fuel)
    expect .blockEnd
    return []

def plainItems : Nat → Parser (List Nat)
  | 0 => throw Fault.form
  | fuel + 1 => do
    if ← dropIf .entry then
      let item ← nodeBefore fuel [.entry, .key, .value, .blockEnd] true false
      return item :: (← plainItems fuel)
    return []

def blockEntries : Nat → Parser (List (Nat × Nat))
  | 0 => throw Fault.form
  | fuel + 1 => do
    let stops := [Token.key, .value, .blockEnd]
    if ← dropIf .key then
      let key ← nodeBefore fuel stops true true
      let value ← if ← dropIf .value then nodeBefore fuel stops true true else addNothing
      return (key, value) :: (← blockEntries fuel)
    expect .blockEnd
    return []

/-- The items of a flow sequence. A key among them makes a mapping of one entry. -/
def flowItems : Nat → Bool → Parser (List Nat)
  | 0, _ => throw Fault.form
  | fuel + 1, first => do
    if ← dropIf .flowSequenceEnd then return []
    if !first then expect .comma
    if ← dropIf .key then
      let key ← nodeBefore fuel [.value, .comma, .flowSequenceEnd] false false
      let value ← if ← dropIf .value then nodeBefore fuel [.comma, .flowSequenceEnd] false false
        else addNothing
      let item ← add ⟨.map, .mapping [(key, value)]⟩
      return item :: (← flowItems fuel false)
    if ← dropIf .flowSequenceEnd then return []
    let item ← node fuel false false
    return item :: (← flowItems fuel false)

def flowEntries : Nat → Bool → Parser (List (Nat × Nat))
  | 0, _ => throw Fault.form
  | fuel + 1, first => do
    if ← dropIf .flowMappingEnd then return []
    if !first then expect .comma
    if ← dropIf .key then
      let key ← nodeBefore fuel [.value, .comma, .flowMappingEnd] false false
      let value ← if ← dropIf .value then nodeBefore fuel [.comma, .flowMappingEnd] false false
        else addNothing
      return (key, value) :: (← flowEntries fuel false)
    if ← dropIf .flowMappingEnd then return []
    let key ← node fuel false false
    let value ← addNothing
    return (key, value) :: (← flowEntries fuel false)

end

def directives : Nat → Bool → Parser Unit
  | 0, _ => return
  | fuel + 1, versioned => do
    match ← ahead with
    | some (.version major) =>
      if versioned || major ≠ 1 then throw Fault.form
      drop
      directives fuel true
    | some (.handle name uri) =>
      let s ← get
      if (s.handles.get? name).isSome then throw Fault.form
      set { s with handles := s.handles.put name uri }
      drop
      directives fuel versioned
    | some .directive =>
      drop
      directives fuel versioned
    | _ => modify fun s =>
      { s with
        handles := usualHandles.foldl (fun table pair => table.putNew pair.1 pair.2) s.handles }

def documentEnds : Nat → Parser Unit
  | 0 => return
  | fuel + 1 => do
    if ← dropIf .documentEnd then documentEnds fuel

def isDocumentMark : Option Token → Bool
  | some (.version _) => true
  | some (.handle ..) => true
  | some .directive => true
  | some .documentStart => true
  | _ => false

def document (fuel : Nat) : Parser (Option Nat) := do
  let next ← ahead
  if next.isNone then return none
  let root ←
    if isDocumentMark next then do
      directives fuel false
      expect .documentStart
      let next ← ahead
      if next.isNone || next = some .documentEnd || isDocumentMark next then addNothing
      else node fuel true false
    else do
      modify fun s => { s with handles := usualHandles }
      node fuel true false
  documentEnds fuel
  if (← ahead).isSome then
    modify fun s => { s with handles := [] }
    directives fuel false
    expect .documentStart
    throw Fault.form
  return some root

end Parser

def root? (cs : List Char) (beyond : Option Fault) : Except Fault (Option (Graph × Nat)) := do
  let (ts, fault) := tokens cs beyond
  let (root, parsing) ← (Parser.document (4 * ts.length + 16)).run { tokens := ts, fault := fault }
  return root.map (parsing.nodes, ·)

end TradingHours.Yaml
