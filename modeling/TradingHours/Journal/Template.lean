import TradingHours.Number.Fixed
import TradingHours.Text.Integer
import TradingHours.Value.Display
import TradingHours.Value.Kind
/-!
Event templates: texts with directives that arguments replace. A directive is a percent sign,
perhaps a key in parentheses, flags, a width, a precision, and the letter of a conversion. Keys are
looked up in a single argument; without keys the arguments are used up from left to right, all of
them.
-/
namespace TradingHours.Journal

inductive TemplateFault
  | tooFewArguments
  | tooManyArguments
  | unknownConversion (letter : Char) (index : Nat)
  | incomplete
  | incompleteKey
  | noMapping
  | unknownKey (key : String)
  | keyOfList
  | countless (kind : String)
  | noFirst
  | starWantsInteger
  | widthDigits
  | widthRange
  | precisionDigits
  | precisionRange
  | precisionLimit
  | outOfMemory
  | notInteger (letter : Char) (kind : String)
  | notReal (letter : Char) (kind : String)
  | notNumber (kind : String)
  | notCharacter
  | characterRange
  | numberRange

namespace TemplateFault

def name : TemplateFault → String
  | unknownConversion .. | incomplete | incompleteKey | widthDigits | precisionDigits =>
    "ValueError"
  | unknownKey _ | noFirst => "KeyError"
  | characterRange | numberRange | widthRange | precisionRange | precisionLimit => "OverflowError"
  | outOfMemory => "MemoryError"
  | _ => "TypeError"

def message : TemplateFault → String
  | tooFewArguments => "not enough arguments for format string"
  | tooManyArguments => "not all arguments converted during string formatting"
  | unknownConversion letter index =>
    let shown := if 31 ≤ letter.toNat && letter.toNat ≤ 126 then letter else '?'
    "unsupported format character '" ++ String.singleton shown ++ "' (0x" ++
      Text.paddedHex 1 letter.toNat ++ ") at index " ++ Text.decimal index
  | incomplete => "incomplete format"
  | incompleteKey => "incomplete format key"
  | noMapping => "format requires a mapping"
  | unknownKey key => Text.quoted key
  | keyOfList => "list indices must be integers or slices, not str"
  | countless kind => "object of type '" ++ kind ++ "' has no len()"
  | noFirst => "0"
  | widthDigits => "width too big"
  | widthRange => "Python int too large to convert to C ssize_t"
  | precisionDigits => "precision too big"
  | precisionRange => "Python int too large to convert to C int"
  | precisionLimit => "precision too large"
  | outOfMemory => ""
  | starWantsInteger => "* wants int"
  | notInteger letter kind =>
    "%" ++ String.singleton letter ++ " format: an integer is required, not " ++ kind
  | notReal letter kind =>
    "%" ++ String.singleton letter ++ " format: a real number is required, not " ++ kind
  | notNumber kind => "must be real number, not " ++ kind
  | notCharacter => "%c requires int or char"
  | characterRange => "%c arg not in range(0x110000)"
  | numberRange => "int too large to convert to float"

end TemplateFault

inductive Arguments
  | inOrder (values : List Value)
  | single (value : Value)
  | spent

namespace Arguments

def next : Arguments → Except TemplateFault (Value × Arguments)
  | inOrder (value :: rest) => .ok (value, inOrder rest)
  | single value => .ok (value, spent)
  | _ => .error .tooFewArguments

end Arguments

structure Directive where
  left : Bool := false
  plus : Bool := false
  blank : Bool := false
  marked : Bool := false
  zeros : Bool := false
  width : Nat := 0
  precision : Option Nat := none

namespace Directive

def withFlag? (d : Directive) : Char → Option Directive
  | '-' => some { d with left := true }
  | '+' => some { d with plus := true }
  | ' ' => some { d with blank := true }
  | '#' => some { d with marked := true }
  | '0' => some { d with zeros := true }
  | _ => none

def pad (d : Directive) (cs : List Char) : List Char :=
  let fill := List.replicate (d.width - cs.length) ' '
  if d.left then cs ++ fill else fill ++ cs

def sign (d : Directive) (negative : Bool) : List Char :=
  if negative then ['-'] else if d.plus then ['+'] else if d.blank then [' '] else []

/-- Lays out a number: zeros go between the sign and the digits, blanks around the whole. -/
def layNumber (d : Directive) (negative : Bool) (mark digits : List Char) : List Char :=
  let head := d.sign negative ++ mark
  if d.zeros && !d.left then
    head ++ List.replicate (d.width - (head.length + digits.length)) '0' ++ digits
  else d.pad (head ++ digits)

end Directive

def wholeNumber? : Value → Option Int
  | .int n => some n
  | .bool b => some (if b then 1 else 0)
  | _ => none

def layInteger (d : Directive) (base : Nat) (mark : List Char) (upper : Bool) (n : Int) :
    List Char :=
  let digits := Text.numeralChars base n.natAbs
  let digits := if upper then digits.map Char.toUpper else digits
  let digits := List.replicate (d.precision.getD 0 - digits.length) '0' ++ digits
  d.layNumber (n < 0) (if d.marked then mark else []) digits

def longestInteger : Nat := Nat.pow 2 31 - 4

def endlessWidth : Nat := Nat.pow 2 32

def layModerate (d : Directive) (letter : Char) (index : Nat) (value : Value) :
    Except TemplateFault (List Char) :=
  let asText (s : String) : Except TemplateFault (List Char) :=
    .ok (d.pad (match d.precision with
      | some n => s.toList.take n
      | none => s.toList))
  match letter with
  | 's' => asText value.display
  | 'r' => asText value.source
  | 'a' => asText (Text.asciiOnly value.source)
  | 'c' =>
    match value with
    | .text s =>
      match s.toList with
      | [c] => .ok (d.pad [c])
      | _ => .error .notCharacter
    | _ =>
      match wholeNumber? value with
      | none => .error .notCharacter
      | some n =>
        if 0 ≤ n ∧ n < 0x110000 then .ok (d.pad [Char.ofNat n.toNat]) else .error .characterRange
  | _ =>
    let real (body : Int → List Char) : Except TemplateFault (List Char) :=
      match wholeNumber? value with
      | some n =>
        if longestInteger < d.precision.getD 0 then .error .precisionLimit else .ok (body n)
      | none =>
        if letter = 'o' || letter = 'x' || letter = 'X' then
          .error (.notInteger letter value.kindName)
        else .error (.notReal letter value.kindName)
    let binary (form : Number.Form) : Except TemplateFault (List Char) :=
      match wholeNumber? value with
      | none => .error (.notNumber value.kindName)
      | some n =>
        match Number.wholeText? form (d.precision.getD 6) d.marked n.natAbs with
        | some digits => .ok (d.layNumber (n < 0) [] digits)
        | none => .error .numberRange
    match letter with
    | 'd' | 'i' | 'u' => real (layInteger d 10 [] false)
    | 'o' => real (layInteger d 8 ['0', 'o'] false)
    | 'x' => real (layInteger d 16 ['0', 'x'] false)
    | 'X' => real (layInteger d 16 ['0', 'X'] true)
    | 'f' | 'F' => binary .fixed
    | 'e' => binary (.scientific 'e')
    | 'E' => binary (.scientific 'E')
    | 'g' => binary (.general 'e')
    | 'G' => binary (.general 'E')
    | _ => .error (.unknownConversion letter index)

def layValue (d : Directive) (letter : Char) (index : Nat) (value : Value) :
    Except TemplateFault (List Char) :=
  if d.width < endlessWidth then layModerate d letter index value
  else do
    let _ ← layModerate { d with width := 0 } letter index value
    throw .outOfMemory

def keyOf? : Nat → List Char → Option (List Char × List Char)
  | _, [] => none
  | depth, c :: rest =>
    if c = ')' then
      match depth with
      | 0 => some ([], rest)
      | depth + 1 => (keyOf? depth rest).map fun (key, rest) => (c :: key, rest)
    else
      (keyOf? (if c = '(' then depth + 1 else depth) rest).map fun (key, rest) => (c :: key, rest)

def takeFlags (d : Directive) : List Char → Directive × List Char
  | [] => (d, [])
  | c :: rest =>
    match d.withFlag? c with
    | some d => takeFlags d rest
    | none => (d, c :: rest)

/-- A count at the front: digits, or a star that takes an argument. Digits that make more than
`most` are refused, and so are arguments beyond the machine words that end there. -/
def takeCount (most : Nat) (digitFault rangeFault : TemplateFault) (arguments : Arguments)
    (cs : List Char) : Except TemplateFault (Option Int × Arguments × List Char) := do
  match cs with
  | '*' :: rest =>
    let (value, arguments) ← arguments.next
    match wholeNumber? value with
    | some n =>
      if n < -((most : Int) + 1) ∨ most < n then throw rangeFault
      return (some n, arguments, rest)
    | none => throw .starWantsInteger
  | _ =>
    let digits := cs.takeWhile Text.isAsciiDigit
    let rest := cs.dropWhile Text.isAsciiDigit
    if digits.isEmpty then return (none, arguments, rest)
    let n := Text.ofDigits 10 (digits.map Text.asciiDigitValue)
    if most < n then throw digitFault
    return (some n, arguments, rest)

def greatestWidth : Nat := Nat.pow 2 63 - 1

def greatestPrecision : Nat := Nat.pow 2 31 - 1

/-- A directive after its key, up to its letter: what replaces it, the arguments left and the text
left. The letter stands at `size` minus the length of that text minus one. -/
def takeDirective (size : Nat) (arguments : Arguments) (cs : List Char) :
    Except TemplateFault (List Char × Arguments × List Char) := do
  let (d, cs) := takeFlags {} cs
  let (width, arguments, cs) ← takeCount greatestWidth .widthDigits .widthRange arguments cs
  let w := width.getD 0
  -- The least word has no positive counterpart, so it counts as no width.
  let d := { d with
    width := if greatestWidth < w.natAbs then 0 else w.natAbs
    left := d.left || w < 0 }
  let (d, arguments, cs) ← match cs with
    | '.' :: rest => do
      let (precision, arguments, rest) ←
        takeCount greatestPrecision .precisionDigits .precisionRange arguments rest
      pure ({ d with precision := some (precision.getD 0).toNat }, arguments, rest)
    | _ => pure (d, arguments, cs)
  let cs := match cs with
    | 'h' :: rest | 'l' :: rest | 'L' :: rest => rest
    | _ => cs
  match cs with
  | [] => throw .incomplete
  | letter :: rest =>
    let (value, arguments) ← arguments.next
    return (← layValue d letter (size - (rest.length + 1)) value, arguments, rest)

def keyed (source : Option Value) (key : String) : Except TemplateFault Value :=
  match source with
  | none => .error .noMapping
  | some v =>
    match v.entries? with
    | none => .error .keyOfList
    | some entries =>
      match Value.field? entries key with
      | none => .error (.unknownKey key)
      | some value => .ok value

/-- Fills a template in; the fuel is at least the length of the text. -/
def fillFrom (source : Option Value) (size : Nat) :
    Nat → Arguments → List Char → Except TemplateFault (List Char × Arguments)
  | 0, arguments, _ => .ok ([], arguments)
  | _, arguments, [] => .ok ([], arguments)
  | fuel + 1, arguments, '%' :: '%' :: rest => do
    let (tail, arguments) ← fillFrom source size fuel arguments rest
    return ('%' :: tail, arguments)
  | fuel + 1, arguments, '%' :: rest => do
    let (arguments, rest) ← match rest with
      | '(' :: rest =>
        if source.isNone then throw TemplateFault.noMapping
        match keyOf? 0 rest with
        | none => throw TemplateFault.incompleteKey
        | some (key, rest) => do
          let value ← keyed source (String.ofList key)
          pure (Arguments.single value, rest)
      | _ => pure (arguments, rest)
    let (cs, arguments, rest) ← takeDirective size arguments rest
    let (tail, arguments) ← fillFrom source size fuel arguments rest
    return (cs ++ tail, arguments)
  | fuel + 1, arguments, c :: rest => do
    let (tail, arguments) ← fillFrom source size fuel arguments rest
    return (c :: tail, arguments)

/-- Fills a template in. Where there is something to look keys up in, arguments may be left over. -/
def fillWith (template : String) (source : Option Value) (arguments : Arguments) :
    Except TemplateFault String := do
  let cs := template.toList
  let (text, left) ← fillFrom source cs.length cs.length arguments cs
  match source, left with
  | none, .inOrder (_ :: _) | none, .single _ => throw .tooManyArguments
  | _, _ => return String.ofList text

def fillWithOne (template : String) (value : Value) : Except TemplateFault String :=
  match value.opened with
  | .mapping _ | .list _ | .pairs _ => fillWith template (some value) (.single value)
  | _ => fillWith template none (.single value)

def isFilledMapping (v : Value) : Bool :=
  match v.entries? with
  | some (_ :: _) => true
  | _ => false

def fill (template : String) (values : List Value) : Except TemplateFault String :=
  match values with
  | [v] =>
    if isFilledMapping v then fillWithOne template v else fillWith template none (.inOrder [v])
  | _ => fillWith template none (.inOrder values)

/-- Fills a template in with the value of a field, unless that is empty. It is counted first; a list
of one mapping with entries stands for that mapping. -/
def fillFromField (template : String) (value : Value) : Except TemplateFault String :=
  match value with
  | .null | .bool false | .int 0 | .text "" | .list [] | .mapping [] => .ok template
  | .list [v] => fillWithOne template (if isFilledMapping v then v else value)
  | .mapping [_] => .error .noFirst
  | .list _ | .mapping _ | .text _ => fillWithOne template value
  | v => .error (.countless v.kindName)

end TradingHours.Journal
