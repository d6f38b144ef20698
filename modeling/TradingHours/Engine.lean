import TradingHours.Output.Minute
import TradingHours.Output.Sender
import TradingHours.Settings.Basic
import TradingHours.Source.Loading
import TradingHours.StateFile
/-!
A run: every market of the allowlist is resolved once, the states are written for monitoring, and
the state file is replaced if any of them changed. One market's failure does not touch the others.
-/
namespace TradingHours

structure RunSummary where
  markets : Nat
  lines : Nat
  stateChanged : Bool
  persisted : Bool
  perMinuteFiles : Nat
  resolutions : List Resolution

def describeRun (markets lines : Int) (stateChanged : Bool) : String :=
  "OK markets=" ++ Text.decimal markets ++ " lines=" ++ Text.decimal lines ++ " stateChanged=" ++
    (if stateChanged then "true" else "false")

structure Engine where
  settings : Settings
  calendar : Option Calendar

namespace Engine

def logger : String := "market_sd.engine"

def senderPath (e : Engine) : Disk.Path := .ofText e.settings.paths.output

def senderFolder (e : Engine) : Disk.Path := e.senderPath.parent

def statePath (e : Engine) : Disk.Path := .ofText e.settings.paths.stateFile

def note (level : Journal.Level) (event : String) (fields : List (String × Value)) : Work Unit :=
  Work.note { logger := logger, level := level, event := event, fields := fields }

def buildPolicy (e : Engine) : Work Policy := do
  let paths := e.settings.paths
  let aggregated ← Source.loadDataset paths.aggregated
  let definitions ← Source.loadDefinitions paths.definitions (some paths.fallbackDefinitions)
  return ⟨aggregated, definitions, e.calendar, e.settings.grace⟩

def missingAllowlist : Incident where
  message := "Missing markets allowlist path"
  detail := .configuration []

def loadMarkets (e : Engine) : Work (List Market) :=
  match e.settings.paths.markets with
  | some path =>
    if path.isEmpty then throw (.incident missingAllowlist) else Source.loadMarkets path
  | none => throw (.incident missingAllowlist)

/-- Resolves a market; a failure keeps its state. -/
def evaluateMarket (policy : Policy) (previous : States) (now : Instant) (market : Market) :
    Traced Resolution := do
  let before := previous.get? market.id
  match ← Traced.outcome (policy.resolve market now before) with
  | .ok resolution => return resolution
  | .error failure =>
    Traced.note {
      logger := logger
      level := .error
      event := "Market evaluation failed, keeping previous state"
      fields := [("market_id", .text market.id), ("tv_key", .text market.tvKey)]
      failure := some failure }
    return {
      marketId := market.id
      tvKey := market.tvKey
      state := Schedule.held before
      source := .fallback
      error := some failure }

def evaluate (policy : Policy) (previous : States) (now : Instant) (markets : List Market) :
    Traced (List Resolution) :=
  markets.mapM (evaluateMarket policy previous now)

/-- The change that a resolution makes. A state that was never recorded counts as closed. -/
def changeOf? (previous : States) (now : Instant) (r : Resolution) : Option Journal.Change :=
  let before := previous.get? r.marketId
  if r.state = Schedule.held before then none
  else some {
    marketId := r.marketId
    before := before
    after := r.state
    source := r.source.name
    context := [(.text "tv_key", .text r.tvKey), (.text "token", .ofText? r.token),
      (.text "now", .text now.text)] }

def apply (previous : States) (changes : List Journal.Change) : States :=
  changes.foldl (fun states change => states.put change.marketId change.after) previous

/-- Writes the minutes of markets and counts the files. A market that fails does not stop the
others. -/
def writeMinuteFiles (e : Engine) (policy : Policy) (d : Day) : List Market → Work Nat
  | [] => pure 0
  | market :: rest => do
    let event := "Per-minute file generation failed"
    let write : Work Nat := do
      let _ ← Output.writeMinutes e.senderPath market (policy.minuteStep market) d
      return 1
    let one ← tryCatch write fun failure => do
      match failure with
      | .incident ⟨message, .outputWrite _ _, _⟩ =>
        note .warning event [("market_id", .text market.id), ("error", .text message)]
      | _ =>
        Work.note {
          logger := logger
          level := .error
          event := event
          fields := [("market_id", .text market.id)]
          failure := some failure }
      return 0
    return one + (← e.writeMinuteFiles policy d rest)

def persist (e : Engine) (states : States) : Work Bool := do
  let save : Work Bool := do
    StateFile.save e.statePath states
    return true
  tryCatch save fun failure => do
    match failure with
    | .incident ⟨message, .persistence _ target, _⟩ =>
      note .error "Cannot persist previous state"
        [("target", .ofText? target), ("error", .text message)]
      return false
    | _ => throw failure

def run (e : Engine) (at? : Option Instant) : Work RunSummary := do
  let now ← match at? with
    | some t => ofExcept t.toUtc
    | none => pure (← get).now
  let markets ← e.loadMarkets
  if !(← Output.healthCheck .sender e.senderFolder) then
    note .warning "Output directory not writable" [("output_dir", .text e.senderFolder.text)]
  let policy ← e.buildPolicy
  let previous ← StateFile.load e.statePath
  let resolutions ← Work.traced (evaluate policy previous now markets)
  let changes := resolutions.filterMap (changeOf? previous now)
  changes.forM fun change => Work.note (change.entry logger)
  let sent ← Output.writeSender e.senderPath e.settings.output.host markets
    (Output.resolvedStates resolutions)
  let perMinuteFiles ←
    if e.settings.output.perMinuteFiles then do
      e.writeMinuteFiles policy (← ofExcept now.utcDay) markets
    else pure 0
  let persisted ← if changes.isEmpty then pure false else e.persist (apply previous changes)
  let summary : RunSummary := {
    markets := markets.length
    lines := sent.lines
    stateChanged := !changes.isEmpty
    persisted := persisted
    perMinuteFiles := perMinuteFiles
    resolutions := resolutions }
  let written := (← get).written
  note .info (describeRun summary.markets summary.lines summary.stateChanged)
    [("markets", .int summary.markets), ("lines", .int summary.lines),
      ("state_changed", .bool summary.stateChanged), ("persisted", .bool summary.persisted),
      ("sender_writes", .int (written .sender)), ("per_minute_writes", .int (written .minute))]
  return summary

end Engine

end TradingHours
