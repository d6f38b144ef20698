import TradingHours.Settings.Merge
import TradingHours.World
import TradingHours.Yaml.Delivery
import TradingHours.Yaml.Document
/-!
The settings file: a YAML mapping of sections. A file that is not there has no sections.
-/
namespace TradingHours.Settings

def fileName : String := "market_sd.yaml"

/-- The sections of the file that comes with the program: the usual settings without the fields that
are null. -/
def shippedSections : List (Value × Value) :=
  usual.sections.map fun (name, fields) =>
    match fields with
    | .mapping entries => (name, .mapping (entries.filter fun entry =>
        match entry.2 with
        | .null => false
        | _ => true))
    | other => (name, other)

def fileIncident (message : String) : Failure :=
  .incident ⟨message, .configuration [], []⟩

def malformedDocument : String := "malformed document"

def sectionsOf (p : Disk.Path) (v : Value) : Except Failure (List (Value × Value)) :=
  match v.entries?, v with
  | some entries, _ =>
    .ok (entries.map fun (name, fields) => (name, (fields.entries?.map .mapping).getD fields))
  | none, .null => .ok []
  | none, _ =>
    .error (fileIncident ("Configuration file must contain a mapping: " ++ p.text))

def documentFailure (p : Disk.Path) : Yaml.Fault → Failure
  | .scalar fault => .scalar fault
  | .undecodable refusal => .undecodable refusal
  | .form => fileIncident
      ("Cannot parse configuration file " ++ p.text ++ ": " ++ malformedDocument)

def ofBytes (p : Disk.Path) (bytes : ByteArray) : Except Failure (List (Value × Value)) :=
  let (cs, beyond) := Yaml.delivered bytes
  match Yaml.load cs beyond with
  | .ok v => sectionsOf p v
  | .error fault => .error (documentFailure p fault)

def loadFile (p : Disk.Path) : Work (List (Value × Value)) := do
  if !(← Work.call (Disk.exists? p)) then return []
  ofExcept (ofBytes p (← Work.call (Disk.read p)))

end TradingHours.Settings
