import TradingHours.World
/-!
Choosing how the journal is written, and the file that gets a copy of it.
-/
namespace TradingHours.Journal

structure Options where
  level : String := "INFO"
  asJson : Bool := false
  stamped : Bool := true
  placed : Bool := false
  overlay : List (String × Value) := []
  file : Option String := none

/-- Chooses how the journal is written. The level is looked up first; then the file is opened to
grow, with the folders around it, and only then the level has to have a weight. -/
def setup (o : Options) : Work Unit := do
  let threshold ← ofExcept (Layout.thresholdOf o.level)
  match o.file with
  | none => modify fun w => { w with disk := { w.disk with growing := none } }
  | some file =>
    let p := Disk.Path.ofText file
    let home := (← get).disk.homeNames
    Work.call do
      Disk.ensureFolders p.parent
      Disk.openToGrow (p.absoluteFrom home)
  let threshold ← ofExcept threshold
  modify fun w => { w with layout := ⟨threshold, o.asJson, o.stamped, o.placed, o.overlay⟩ }

def argumentField : String := "positional_args"

def silentFields : List String := ["exc_info", "stack_info"]

def eventText (event : String) (arguments : List Value) (fields : List (String × Value)) :
    Except TemplateFault String :=
  match arguments, fields.lookup argumentField with
  | [], none => .ok event
  | [], some v => fillFromField event v
  | _, _ => fill event arguments

/-- The fields that are shown: of those for arguments only null is. -/
def shownFields (arguments : List Value) (fields : List (String × Value)) :
    List (String × Value) :=
  fields.filter fun (name, value) =>
    if silentFields.contains name then false
    else if name = argumentField then
      match value with
      | .null => arguments.isEmpty
      | _ => false
    else true

def loggerKind : String := "BoundLogger"

def reservedFields : List String := ["self", "event"]

def recordField : String := "_record"

def log (level logger event : String) (arguments : List Value) (fields : List (String × Value)) :
    Work Unit := do
  match Level.ofName? level, fields.find? fun field => reservedFields.contains field.1 with
  | none, _ => throw (.missingAttribute loggerKind level)
  | _, some (name, _) => throw (.repeatedArgument (loggerKind ++ "." ++ level) name)
  | some l, none =>
    let threshold := (← get).layout.threshold
    if threshold ≤ l.weight then
      match (fields.lookup recordField).getD .null with
      | .null => pure ()
      | v => throw (.missingAttribute v.kindName "name")
      match eventText event arguments fields with
      | .error fault => throw (.template fault)
      | .ok text =>
        Work.note {
          logger := logger, level := l, event := text, fields := shownFields arguments fields }

end TradingHours.Journal
