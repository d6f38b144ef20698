import TradingHours.Source.Definitions
import TradingHours.World
/-!
Loading sources from the disk. The allowlist is required; the dataset and the definitions are not,
and one that cannot be read leaves its place to the next source.
-/
namespace TradingHours.Source

def readLines (p : Disk.Path) : Work (List String) := do
  match Text.decodeUtf8 (← Work.call (Disk.read p)) with
  | .ok text => pure (Text.lines text)
  | .error refusal => throw (.undecodable refusal)

def isUnreadable : Failure → Bool
  | .disk (.refused ..) => true
  | .undecodable _ => true
  | _ => false

def tryLines (p : Disk.Path) : Work (Except String (List String)) :=
  tryCatch (do return .ok (← readLines p)) fun failure =>
    if isUnreadable failure then pure (.error failure.message) else throw failure

def note (level : Journal.Level) (event : String) (p : Disk.Path) (more : List (String × Value)) :
    Work Unit :=
  Work.note {
    logger := Market.sourceLogger
    level := level
    event := event
    fields := ("path", .text p.text) :: more }

def loadMarkets (path : String) : Work (List Market) := do
  let markets ← Work.traced (Market.ofLines (← readLines (.ofText path)))
  Work.note {
    logger := Market.sourceLogger
    level := .info
    event := "Loaded market allowlist"
    fields := [("path", .text path), ("markets", .int markets.length)] }
  return markets

def loadDataset (path : String) : Work Tokens := do
  let p := Disk.Path.ofText path
  if !(← Work.call (Disk.exists? p)) then
    note .warning "Aggregated schedule dataset not found" p []
    return []
  match ← tryLines p with
  | .error why =>
    note .warning "Failed to load aggregated schedule dataset" p [("error", .text why)]
    return []
  | .ok lines =>
    let tokens := ofDataset lines
    note .info "Loaded aggregated schedules" p [("tv_keys", .int tokens.length)]
    return tokens

def loadFirst : List Disk.Path → Work Tokens
  | [] => pure []
  | p :: rest => do
    if !(← Work.call (Disk.exists? p)) then
      note .debug "Schedule definition file not found" p []
      loadFirst rest
    else
      match ← tryLines p with
      | .error why =>
        note .warning "Failed to read schedule definitions" p [("error", .text why)]
        loadFirst rest
      | .ok lines =>
        let tokens := ofDefinitions lines
        if !tokens.isEmpty then
          note .info "Loaded schedule definition tokens" p [("tv_keys", .int tokens.length)]
        return tokens

def loadDefinitions (path fallback : Option String) : Work Tokens :=
  loadFirst ((path.toList ++ fallback.toList).map .ofText)

end TradingHours.Source
