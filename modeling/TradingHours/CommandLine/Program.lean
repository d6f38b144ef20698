import TradingHours.CommandLine.Request
import TradingHours.Engine
import TradingHours.Journal.Setup
import TradingHours.Settings.File
/-!
The program: it carries out the request of a command line and says how that ended.
-/
namespace TradingHours.CommandLine

inductive Ending
  | code (n : Nat)
  | usage (n : Nat)
  | failure (f : Failure)

structure Outcome where
  ending : Ending
  complaints : List String

def successCode : Nat := 0

def fatalCode : Nat := 2

def logger : String := "market_sd.cli"

def chosen (fields : List (String × Option Value)) : List (String × Value) :=
  fields.filterMap fun (name, value) => value.map (name, ·)

def filledSection (name : String) (fields : List (String × Value)) : List (Value × Value) :=
  if fields.isEmpty then [] else [(.text name, .object fields)]

def loggingChoices (c : Common) : List (Value × Value) :=
  filledSection "logging" (chosen [
    ("level", (c.level.filter fun level => !level.isEmpty).map .text),
    ("format_json", if c.asJson then some (.bool true) else none)])

def pathChoices (paths : List (String × Option (Given String))) : Value × Value :=
  (.text "paths", .object (chosen (paths.map fun (name, given) =>
    (name, given.map (·.setting .text)))))

def runSettings (a : RunArguments) : List (Value × Value) :=
  [pathChoices [
    ("markets", a.markets), ("definitions", a.common.definitions),
    ("aggregated", a.common.aggregated), ("state_file", a.stateFile), ("output", a.output),
    ("log_file", a.logFile)]] ++
    filledSection "evaluation" (chosen [
      ("grace_minutes", a.graceMinutes.map (·.setting .int))]) ++
    filledSection "output" (chosen [
      ("per_minute_files", if a.noMinuteFiles then some (.bool false) else none)]) ++
    loggingChoices a.common

def goldenSettings (a : GoldenArguments) : List (Value × Value) :=
  [pathChoices [
    ("definitions", a.common.definitions), ("aggregated", a.common.aggregated)]] ++
    loggingChoices a.common

def settingsOf (file : Option (Given Disk.Path)) (choices : List (Value × Value)) :
    Work Settings := do
  let sections ← match file with
    | some (.value p) => Settings.loadFile p
    | some .mark => throw (.notAPath Given.markKind)
    | none => pure Settings.shippedSections
  ofExcept (Settings.build sections choices)

def showUsage (usage : List String) : Work Unit := usage.forM Work.print

def allowlistHint : String :=
  "market-sd run: --markets is required (or paths.markets in the config file)"

def runOnce (a : RunArguments) : Work Unit := do
  let settings ← settingsOf a.common.config (runSettings a)
  if settings.paths.markets.getD "" = "" then
    showUsage program.usage
    Work.print allowlistHint
  else
    Journal.setup {
      level := settings.logging.level
      asJson := settings.logging.asJson
      file := settings.paths.logFile }
    let now ← match a.now with
      | some .mark => throw (.missingAttribute Given.markKind "tzinfo")
      | some (.value t) => pure (some t)
      | none => pure none
    let summary ← (⟨settings, none⟩ : Engine).run now
    Work.print (describeRun summary.markets summary.lines summary.stateChanged)

def writeGolden (a : GoldenArguments) : Work Unit := do
  let settings ← settingsOf a.common.config (goldenSettings a)
  Journal.setup { level := settings.logging.level, asJson := settings.logging.asJson }
  let day := a.day.getD (← get).now.day
  let aggregated ← Source.loadDataset settings.paths.aggregated
  let definitions ←
    Source.loadDefinitions settings.paths.definitions (some settings.paths.fallbackDefinitions)
  let out ← match a.folder with
    | .value p => pure p
    | .mark => throw (.notAFolder Given.markKind)
  let write (folder opening : String) (tokens : Source.Tokens) : Work Nat :=
    (⟨out.child folder, opening, settings.grace⟩ : Output.Golden).writeAll tokens day
  let fromDataset ← write "csv" "golden_csv_" aggregated
  let fromDefinitions ← write "props" "golden_props_" definitions
  let count (n : Nat) : String := Text.decimal n
  Work.print ("GOLDEN OK date=" ++ day.text ++ " csv_keys=" ++ count aggregated.length ++
    " csv_files=" ++ count fromDataset ++ " props_keys=" ++ count definitions.length ++
    " props_files=" ++ count fromDefinitions ++ " outDir=" ++ out.text)

def report (failure : Failure) : Work String := do
  let fatal (event : String) : Work String := do
    Work.note {
      logger := logger
      level := .error
      event := event
      fields := [("error", .text failure.message)] }
    return "FATAL " ++ failure.message
  match failure with
  | .incident ⟨_, .configuration _, _⟩ => fatal "Configuration error"
  | .incident ⟨_, .outputWrite _ _, _⟩ | .disk (.refused ..) => fatal "Fatal run error"
  | _ =>
    Work.note {
      logger := logger
      level := .error
      event := "Unexpected fatal error"
      failure := some failure }
    return "FATAL " ++ failure.name ++ ": " ++ failure.message

def carryOut : Request → Work Unit
  | .overview => showUsage program.usage
  | .run a => runOnce a
  | .golden a => writeGolden a

def execute (r : Request) : Work Outcome :=
  tryCatch (do carryOut r; return ⟨.code successCode, []⟩) fun failure =>
    return ⟨.code fatalCode, [← report failure]⟩

def respond (words : List String) : Work Outcome :=
  match request words with
  | .ok r => execute r
  | .error (.help usage) => do
    showUsage usage
    return ⟨.usage successCode, []⟩
  | .error (.misuse program usage message) =>
    return ⟨.usage fatalCode, usage ++ [program ++ ": error: " ++ message]⟩
  | .error (.failure f) => return ⟨.failure f, []⟩

end TradingHours.CommandLine
