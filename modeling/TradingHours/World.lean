import TradingHours.Disk.Call
import TradingHours.Journal.Layout
import TradingHours.Trail
/-!
The world in which the program works: a disk, a clock, a screen and a journal. `Work` changes the
world and may fail; what it changed before it failed stays changed.
-/
namespace TradingHours

inductive Outlet
  | sender
  | minute
  | golden
  deriving DecidableEq, Repr

def Outlet.name : Outlet → String
  | sender => "zabbix_sender"
  | minute => "per_minute"
  | golden => "golden"

def Outlet.logger (o : Outlet) : String := "market_sd.delivery." ++ o.name

/-- The world. `written` counts the files that each output wrote, and `mark` tells the next new file
from all others. -/
structure World where
  disk : Disk
  now : Instant
  mark : String
  layout : Journal.Layout := .plain
  screen : Array String := #[]
  trail : Trail := {}
  written : Outlet → Nat := fun _ => 0

abbrev Work := ExceptT Failure (StateM World)

namespace Work

def print (line : String) : Work Unit :=
  modify fun w => { w with screen := w.screen.push line }

/-- Makes an entry: it joins the trail, and if the layout admits it, its line goes to the screen and
to the file that is kept open. -/
def note (e : Journal.Entry) : Work Unit :=
  modify fun w =>
    let w := { w with trail := { w.trail with entries := w.trail.entries.push e } }
    if w.layout.admits e then
      let line := w.layout.line w.now e
      { w with
        screen := w.screen.push line
        disk := w.disk.grow (Text.encodeUtf8 (line ++ "\n")) }
    else w

def traced {α : Type} (work : Traced α) : Work α := do
  let (result, trail) := work.run.run {}
  modify fun w =>
    { w with trail := { w.trail with questions := w.trail.questions ++ trail.questions } }
  trail.entries.forM note
  ofExcept result

def outcome {α : Type} (call : Disk.Call α) : Work (Except Disk.Fault α) := do
  let w ← get
  let (result, disk) := call.run.run w.disk
  set { w with disk := disk }
  pure result

def call {α : Type} (c : Disk.Call α) : Work α := do
  match ← outcome c with
  | .ok a => pure a
  | .error fault => throw (.disk fault)

/-- Work whose refused file system calls are dealt with; a path that no call can take still
fails. -/
def ifRefused {α : Type} (work : Work α) (handle : Disk.Fault → Work α) : Work α :=
  tryCatch work fun failure =>
    match failure with
    | .disk (.refused cause paths) => handle (.refused cause paths)
    | _ => throw failure

end Work

end TradingHours
