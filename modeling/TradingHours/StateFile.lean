import TradingHours.Text.Line
import TradingHours.Text.Split
import TradingHours.World
/-!
The file of market states: lines of a market, an equals sign and a state. Saving replaces the file
as a whole, through a new file beside it that takes its name.
-/
namespace TradingHours

abbrev States := Table String Bool

namespace StateFile

def openTexts : List (List Char) := [['1'], "true".toList]

def readState (text : List Char) : Bool :=
  openTexts.contains ((Text.trimChars text).map Char.toLower)

/-- The market of a line and its state. Blank lines, lines that start with `#` or `!`, and lines
without a market and an equals sign name none. -/
def ofLine? (line : String) : Option (String × Bool) := do
  let text := Text.trimChars line.toList
  if text.isEmpty || text.head? = some '#' || text.head? = some '!' then none
  let (before, after) ← Text.cutAtFirst '=' text
  let key := Text.trimChars before
  if key.isEmpty then none
  return (String.ofList key, readState after)

/-- The states of a text; of two lines for one market the later one counts. -/
def read (text : String) : States :=
  Table.ofPairs ((Text.lines text).filterMap ofLine?)

def lineOf (key : String) (state : Bool) : String :=
  key ++ "=" ++ (if state then "1" else "0")

def sorted (states : States) : States :=
  states.mergeSort fun a b => a.1 ≤ b.1

def header (now : Instant) : String := "# market state " ++ now.text

def render (now : Instant) (states : States) : String :=
  Text.unlines (header now :: (sorted states).map fun (key, state) => lineOf key state)

def logger : String := "market_sd.persistence.state_store"

def note (p : Disk.Path) (level : Journal.Level) (event : String) (more : List (String × Value)) :
    Work Unit :=
  Work.note {
    logger := logger
    level := level
    event := event
    fields := ("state_file", .text p.text) :: more }

/-- Loads the states. Without a file no state was ever recorded, and a file that cannot be read
counts as none. -/
def load (p : Disk.Path) : Work States := do
  if !(← Work.call (Disk.exists? p)) then return []
  let attempt : Work States := do
    match Text.decodeUtf8 (← Work.call (Disk.read p)) with
    | .ok text => return read text
    | .error refusal => throw (.undecodable refusal)
  tryCatch attempt fun failure => do
    match failure with
    | .disk (.refused ..) | .undecodable _ =>
      note p .warning "Cannot read previous state" [("error", .text failure.message)]
      return []
    | _ => throw failure

def temporaryPath (home : List String) (p : Disk.Path) (mark : String) : Disk.Path :=
  let folder := p.parent.absoluteFrom home
  { folder with parts := folder.parts ++ ["." ++ p.name ++ "." ++ mark] }

/-- Replaces the content of a file as a whole; if that is refused, the file stays as it was. -/
def replace (p temporary : Disk.Path) (bytes : ByteArray) : Disk.Call Unit := do
  Disk.ensureFolders p.parent
  let place ← Disk.openNew temporary
  tryCatch (do
    Disk.fill place bytes
    Disk.rename temporary p) fun fault => do
    Disk.unlinkIfThere temporary
    throw fault

def saveIncident (p : Disk.Path) (fault : Disk.Fault) : Incident where
  message := "Cannot persist previous state: " ++ fault.message
  detail := .persistence (some "save") (some p.text)

def save (p : Disk.Path) (states : States) : Work Unit := do
  let w ← get
  let temporary := temporaryPath w.disk.homeNames p w.mark
  let bytes := Text.encodeUtf8 (render w.now states)
  Work.ifRefused (Work.call (replace p temporary bytes)) fun fault =>
    throw (.incident (saveIncident p fault))
  note p .info "Persisted market state" [("markets", .int states.length)]

end StateFile

end TradingHours
