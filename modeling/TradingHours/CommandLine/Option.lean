import TradingHours.Failure
import TradingHours.Value.Kind
import TradingHours.Text.Split
/-!
Options of commands. A word that starts with a dash is an option if the command knows it or if it is
the beginning of one long option only; the value of an option is the next word, or what follows an
equals sign.
-/
namespace TradingHours.CommandLine

inductive Stop
  | help (usage : List String)
  | misuse (program : String) (usage : List String) (message : String)
  | failure (f : Failure)

inductive Refusal
  | message (text : String)
  | failure (f : Failure)

inductive Given (α : Type)
  | value (a : α)
  | mark

namespace Given

def value? {α : Type} : Given α → Option α
  | value a => some a
  | mark => none

def setting {α : Type} (toValue : α → Value) : Given α → Value
  | value a => toValue a
  | mark => .list []

def markKind : String := (setting Value.text mark).kindName

end Given

inductive Effect (α : Type)
  | help
  | flag (apply : α → α)
  | value (apply : Given String → α → Except Refusal α)

structure Choice (α : Type) where
  names : List String
  effect : Effect α

structure Command (α : Type) where
  program : String
  usage : List String
  choices : List (Choice α)

def helpChoice {α : Type} : Choice α := ⟨["-h", "--help"], .help⟩

inductive Role (α : Type)
  | operand
  | endOfOptions
  | unknown
  | known (choice : Choice α) (name : String) (attached : Option (List Char))

namespace Command

variable {α : Type}

def misuse (c : Command α) (message : String) : Stop := .misuse c.program c.usage message

def fault (c : Command α) (choice : Choice α) (message : String) : Stop :=
  c.misuse ("argument " ++ "/".intercalate choice.names ++ ": " ++ message)

def names (c : Command α) : List (String × Choice α) :=
  c.choices.flatMap fun choice => choice.names.map (·, choice)

def candidates (c : Command α) (word : List Char) :
    List (String × Choice α × Option (List Char)) :=
  let starts (shown : List Char) (name : String) : Bool := shown.isPrefixOf name.toList
  match word with
  | '-' :: '-' :: _ =>
    match Text.cutAtFirst '=' word with
    | some (shown, value) =>
      (c.names.filter fun pair => starts shown pair.1).map fun (name, choice) =>
        (name, choice, some value)
    | none =>
      (c.names.filter fun pair => starts word pair.1).map fun (name, choice) => (name, choice, none)
  | _ =>
    c.names.filterMap fun (name, choice) =>
      if name.toList = word.take 2 then some (name, choice, some (word.drop 2))
      else if starts word name then some (name, choice, none)
      else none

def isNegativeNumber : List Char → Bool
  | '-' :: cs =>
    let isDigit (c : Char) : Bool := (Text.digitValue? c).isSome
    match Text.cutAtFirst '.' cs with
    | none => !cs.isEmpty && cs.all isDigit
    | some (whole, places) => whole.all isDigit && !places.isEmpty && places.all isDigit
  | _ => false

def withoutLastFeed (cs : List Char) : List Char :=
  if cs.getLast? = some '\n' then cs.dropLast else cs

def roleOf (c : Command α) (word : String) : Except Stop (Role α) :=
  let cs := word.toList
  if cs.head? ≠ some '-' then .ok .operand
  else
    match c.names.lookup word with
    | some choice => .ok (.known choice word none)
    | none =>
      if cs.length = 1 then .ok .operand
      else
        let exact := (Text.cutAtFirst '=' cs).bind fun (shown, value) =>
          (c.names.lookup (String.ofList shown)).map fun choice =>
            (String.ofList shown, choice, value)
        match exact with
        | some (name, choice, value) => .ok (.known choice name (some value))
        | none =>
          match c.candidates cs with
          | [(name, choice, attached)] => .ok (.known choice name attached)
          | [] =>
            let isOperand := isNegativeNumber (withoutLastFeed cs) || cs.contains ' '
            .ok (if isOperand then .operand else .unknown)
          | several => .error (c.misuse ("ambiguous option: " ++ word ++ " could match " ++
              ", ".intercalate (several.map (·.1))))

/-- What each word is. Behind a double dash there are only operands. -/
def roles (c : Command α) : List String → Except Stop (List (String × Role α))
  | [] => .ok []
  | word :: rest =>
    if word = "--" then .ok ((word, .endOfOptions) :: rest.map (·, .operand))
    else do return (word, ← c.roleOf word) :: (← c.roles rest)

/-- A value attached to a switch is refused, unless it is a row of further one-letter switches: then
help was asked for, which is the only such switch. -/
def attachedToSwitch (c : Command α) (choice : Choice α) (name : String) : List Char → Stop
  | 'h' :: rest =>
    if name.toList[1]? = some '-' then ignored c choice ('h' :: rest)
    else if rest.isEmpty then .help c.usage
    else c.attachedToSwitch choice name rest
  | cs => ignored c choice cs
where
  ignored (c : Command α) (choice : Choice α) (cs : List Char) : Stop :=
    c.fault choice ("ignored explicit argument " ++ Text.quoted (String.ofList cs))

def assign (c : Command α) (choice : Choice α) (apply : Given String → α → Except Refusal α)
    (value : Given String) (a : α) : Except Stop α :=
  match apply value a with
  | .ok a => .ok a
  | .error (.message text) => .error (c.fault choice text)
  | .error (.failure f) => .error (.failure f)

def consume (c : Command α) (a : α) : List (String × Role α) → Except Stop (α × List String)
  | [] => .ok (a, [])
  | (_, .known choice name attached) :: rest =>
    match choice.effect, attached with
    | .value apply, some value => do
      let given := if value = ['-', '-'] then .mark else .value (String.ofList value)
      let a ← c.assign choice apply given a
      c.consume a rest
    | .value apply, none =>
      match rest with
      | (value, .operand) :: rest => do
        let a ← c.assign choice apply (.value value) a
        c.consume a rest
      | _ => .error (c.fault choice "expected one argument")
    | _, some value => .error (c.attachedToSwitch choice name value)
    | .help, none => .error (.help c.usage)
    | .flag apply, none => c.consume (apply a) rest
  | (word, _) :: rest => do
    let (a, left) ← c.consume a rest
    return (a, word :: left)

def parse (c : Command α) (a : α) (words : List String) : Except Stop (α × List String) := do
  c.consume a (← c.roles words)

end Command

end TradingHours.CommandLine
