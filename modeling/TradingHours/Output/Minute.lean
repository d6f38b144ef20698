import TradingHours.Output.Lines
import TradingHours.Resolution.Policy
import TradingHours.Source.Definitions
/-!
Files with one line per minute of a UTC day: for each market beside the sender file, and for each
venue key as a reference.
-/
namespace TradingHours.Output

def minuteLine (t : Instant) (state : Bool) : Except Failure String := do
  return (← t.clock) ++ " " ++ Text.decimal (← t.epoch) ++ " " ++ Text.decimal (stateValue state)

def minuteLines {m : Type → Type} [Monad m] [MonadExceptOf Failure m] (step : Schedule.Step m)
    (d : Day) : m (List String) := do
  let states ← Schedule.stateVector step d none minutesPerDay
  states.mapM fun (t, state) => ofExcept (minuteLine t state)

def minuteFolder (sender : Disk.Path) : Disk.Path := sender.parent

def minutePath (sender : Disk.Path) (market : Market) (d : Day) : Disk.Path :=
  (minuteFolder sender).child (sender.stem ++ "_" ++ market.id ++ "_" ++ d.compact ++ ".txt")

def writeMinutes (sender : Disk.Path) (market : Market) (step : Schedule.Step Traced) (d : Day) :
    Work Written := do
  let lines ← Work.traced (minuteLines step d)
  let written ← writeLines .minute (minutePath sender market d) lines
  Work.note {
    logger := Outlet.minute.logger
    level := .info
    event := "Wrote per-minute file"
    fields := [("market_id", .text market.id), ("output_path", .text written.path.text),
      ("lines", .int written.lines)] }
  return written

def describeMinutes (sender : Disk.Path) : String :=
  "per-minute files in " ++ (minuteFolder sender).text

structure Golden where
  folder : Disk.Path
  opening : String
  grace : Span

namespace Golden

def usualOpening : String := "golden_"

def path (g : Golden) (tvKey : String) (d : Day) : Disk.Path :=
  let key := tvKey.toList
  let bare := if Source.venueMark.isPrefixOf key then key.drop Source.venueMark.length else key
  g.folder.child (g.opening ++ String.ofList bare ++ "_" ++ d.compact ++ ".txt")

def writeToken (g : Golden) (tvKey token : String) (d : Day) : Work Written := do
  let step := Schedule.windowStep (Schedule.windowsOf token) g.grace
  let lines ← ofExcept (minuteLines step d)
  writeLines .golden (g.path tvKey d) lines

/-- Writes reference files for keys in order and counts them. A file that cannot be written is
reported and does not stop the others. -/
def writeInOrder (g : Golden) (d : Day) : Source.Tokens → Work Nat
  | [] => pure 0
  | (tvKey, token) :: rest => do
    let one ← tryCatch (do let _ ← g.writeToken tvKey token d; pure 1) fun failure =>
      match failure with
      | .incident ⟨message, .outputWrite _ _, _⟩ => do
        Work.note {
          logger := Outlet.golden.logger
          level := .warning
          event := "Golden vector write failed"
          fields := [("tv_key", .text tvKey), ("token", .text token), ("error", .text message)] }
        pure 0
      | _ => throw failure
    return one + (← g.writeInOrder d rest)

def writeAll (g : Golden) (tokens : Source.Tokens) (d : Day) : Work Nat := do
  let files ← g.writeInOrder d (tokens.mergeSort fun a b => a.1 ≤ b.1)
  Work.note {
    logger := Outlet.golden.logger
    level := .info
    event := "Golden vectors written"
    fields := [("output_dir", .text g.folder.text), ("keys", .int tokens.length),
      ("files", .int files)] }
  return files

def describe (g : Golden) : String := "golden vectors in " ++ g.folder.text

end Golden

end TradingHours.Output
