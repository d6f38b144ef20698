import TradingHours.Clock.Checked
import TradingHours.Clock.Reading
import TradingHours.CommandLine.Option
import TradingHours.Disk.Path
/-!
Requests: what the words of a command line ask for.
-/
namespace TradingHours.CommandLine

structure Common where
  config : Option (Given Disk.Path) := none
  definitions : Option (Given String) := none
  aggregated : Option (Given String) := none
  level : Option String := none
  asJson : Bool := false

structure RunArguments where
  common : Common := {}
  markets : Option (Given String) := none
  output : Option (Given String) := none
  logFile : Option (Given String) := none
  stateFile : Option (Given String) := none
  now : Option (Given Instant) := none
  graceMinutes : Option (Given Int) := none
  noMinuteFiles : Bool := false

structure GoldenArguments where
  common : Common := {}
  folder : Given Disk.Path := .value (.ofText "out/zabbix/golden")
  day : Option Day := none

inductive Request
  | overview
  | run (arguments : RunArguments)
  | golden (arguments : GoldenArguments)

def programName : String := "market-sd"

/-- An option whose value is read, with what it says of a value that cannot be read. The mark is
taken as it is. -/
def readChoice {α β : Type} (name : String) (read : String → Except Refusal β)
    (apply : Given β → α → α) : Choice α :=
  ⟨[name], .value fun given a =>
    match given with
    | .mark => .ok (apply .mark a)
    | .value v => (read v).map fun b => apply (.value b) a⟩

def textChoice {α : Type} (name : String) (apply : Given String → α → α) : Choice α :=
  readChoice name .ok apply

def pathChoice {α : Type} (name : String) (apply : Given Disk.Path → α → α) : Choice α :=
  readChoice name (fun v => .ok (.ofText v)) apply

def commonChoices {α : Type} (update : (Common → Common) → α → α) : List (Choice α) :=
  [helpChoice,
    pathChoice "--config" fun p => update fun c => { c with config := some p },
    textChoice "--defaults" fun v => update fun c => { c with definitions := some v },
    textChoice "--aggregated" fun v => update fun c => { c with aggregated := some v },
    textChoice "--log-level" fun v => update fun c => { c with level := v.value? },
    ⟨["--json-logs"], .flag (update fun c => { c with asJson := true })⟩]

def nowChoice : Choice RunArguments :=
  readChoice "--now" (fun v =>
    match Reading.instant? v with
    | none => .error (.message ("invalid ISO timestamp: " ++ v))
    | some t =>
      match t.toUtc with
      | .ok t => .ok t
      | .error f => .error (.failure f)) fun t a => { a with now := some t }

def graceChoice : Choice RunArguments :=
  readChoice "--grace-minutes" (fun v =>
    match Text.readInteger? v with
    | some n => .ok n
    | none => .error (.message ("invalid int value: " ++ Text.quoted v)))
    fun n a => { a with graceMinutes := some n }

def runChoices : List (Choice RunArguments) :=
  (commonChoices fun update a => { a with common := update a.common }) ++
    [textChoice "--markets" fun v a => { a with markets := some v },
      textChoice "--out" fun v a => { a with output := some v },
      textChoice "--log" fun v a => { a with logFile := some v },
      textChoice "--state" fun v a => { a with stateFile := some v },
      nowChoice, graceChoice,
      ⟨["--no-per-minute"], .flag fun a => { a with noMinuteFiles := true }⟩]

def dateChoice : Choice GoldenArguments :=
  readChoice "--date" (fun v =>
    match Reading.day? v with
    | some d => .ok d
    | none => .error (.message ("invalid date (expected YYYY-MM-DD): " ++ v)))
    fun d a => { a with day := d.value? }

def goldenChoices : List (Choice GoldenArguments) :=
  (commonChoices fun update a => { a with common := update a.common }) ++
    [pathChoice "--out-dir" fun p a => { a with folder := p }, dateChoice]

def runCommand : Command RunArguments where
  program := programName ++ " run"
  usage := ["usage: market-sd run [-h] [--config CONFIG] [--defaults DEFAULTS]",
    "                     [--aggregated AGGREGATED] [--log-level LOG_LEVEL]",
    "                     [--json-logs] [--markets MARKETS] [--out OUT] [--log LOG]",
    "                     [--state STATE] [--now NOW]",
    "                     [--grace-minutes GRACE_MINUTES] [--no-per-minute]"]
  choices := runChoices

def goldenCommand : Command GoldenArguments where
  program := programName ++ " golden"
  usage := ["usage: market-sd golden [-h] [--config CONFIG] [--defaults DEFAULTS]",
    "                        [--aggregated AGGREGATED] [--log-level LOG_LEVEL]",
    "                        [--json-logs] [--out-dir OUT_DIR] [--date DATE]"]
  choices := goldenChoices

def program : Command Unit where
  program := programName
  usage := ["usage: market-sd [-h] \x7brun,golden\x7d ..."]
  choices := [helpChoice]

/-- The request of a named command. `before` are the words left over in front of it. -/
def named (before : List String) (name : String) (words : List String) : Except Stop Request := do
  let settle (request : Request) (left : List String) : Except Stop Request :=
    match before ++ left with
    | [] => .ok request
    | words => .error (program.misuse ("unrecognized arguments: " ++ " ".intercalate words))
  match name with
  | "run" =>
    let (arguments, left) ← runCommand.parse {} words
    settle (.run arguments) left
  | "golden" =>
    let (arguments, left) ← goldenCommand.parse {} words
    settle (.golden arguments) left
  | _ =>
    throw (program.misuse ("argument command: invalid choice: " ++ Text.quoted name ++
      " (choose from 'run', 'golden')"))

def findCommand (before : List String) : List (String × Role Unit) → Except Stop Request
  | [] =>
    match before with
    | [] => .ok .overview
    | words => .error (program.misuse ("unrecognized arguments: " ++ " ".intercalate words))
  | (word, .operand) :: rest => named before word (rest.map (·.1))
  | (word, .endOfOptions) :: rest =>
    if rest.isEmpty then findCommand (before ++ [word]) rest
    else named before word (rest.map (·.1))
  | (word, .unknown) :: rest => findCommand (before ++ [word]) rest
  | (_, .known choice name attached) :: _ =>
    match attached with
    | none => .error (.help program.usage)
    | some value => .error (program.attachedToSwitch choice name value)

def request (words : List String) : Except Stop Request := do
  if words.isEmpty then return .overview
  findCommand [] (← program.roles words)

end TradingHours.CommandLine
