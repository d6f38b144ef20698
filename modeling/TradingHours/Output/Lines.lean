import TradingHours.Text.Line
import TradingHours.World
/-!
Writing files of lines, and the probe whether a folder takes files.
-/
namespace TradingHours.Output

structure Written where
  path : Disk.Path
  lines : Nat

def writeIncident (p : Disk.Path) (fault : Disk.Fault) : Incident where
  message := "Cannot write " ++ p.text ++ ": " ++ fault.message
  detail := .outputWrite (some p.text) none

def writeLines (o : Outlet) (p : Disk.Path) (lines : List String) : Work Written := do
  let write : Work Unit := Work.call do
    Disk.ensureFolders p.parent
    Disk.write p (Text.encodeUtf8 (Text.unlines lines))
  Work.ifRefused write fun fault => do
    Work.note {
      logger := o.logger
      level := .error
      event := "Output write failed"
      fields := [("writer", .text o.name), ("output_path", .text p.text),
        ("error", .text fault.message)] }
    throw (.incident (writeIncident p fault))
  modify fun w =>
    { w with written := fun other => if other = o then w.written o + 1 else w.written other }
  return ⟨p, lines.length⟩

def probeName : String := ".health_check_test"

/-- Whether a folder takes files; it is made if it is not there. -/
def healthCheck (o : Outlet) (folder : Disk.Path) : Work Bool := do
  let probe : Work Bool := do
    Work.call do
      Disk.ensureFolders folder
      Disk.write (folder.child probeName) (Text.encodeUtf8 "test")
      Disk.unlink (folder.child probeName)
    return true
  Work.ifRefused probe fun fault => do
    Work.note {
      logger := o.logger
      level := .warning
      event := "Health check failed"
      fields := [("writer", .text o.name), ("error", .text fault.message)] }
    return false

end TradingHours.Output
