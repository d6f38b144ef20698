import TradingHours.Yaml.ScalarText
/-!
The tokens of a YAML text. Collections in blocks begin and end where the column changes; a key
without an indicator is known as one only when its colon is met, and its tokens are then put in
front of it.
-/
namespace TradingHours.Yaml

inductive Token
  | version (major : Nat)
  | handle (name uri : String)
  | directive
  | documentStart
  | documentEnd
  | blockSequence
  | blockMapping
  | blockEnd
  | flowSequence
  | flowSequenceEnd
  | flowMapping
  | flowMappingEnd
  | comma
  | entry
  | key
  | value
  | alias (name : String)
  | anchor (name : String)
  | tag (handle : Option String) (suffix : String)
  | scalar (text : List Char) (plain : Bool)
  deriving DecidableEq, Repr

structure KeyPlace where
  token : Nat
  required : Bool
  index : Nat
  line : Nat
  column : Nat

/-- The state of the scan: how many tokens are final, the tokens behind those, how many flow
collections are open, the columns of the open blocks, whether a key may begin here, and where one
may have begun, by depth. -/
structure Scanning where
  settled : Nat := 0
  tokens : Array Token := #[]
  depth : Nat := 0
  columns : List Nat := []
  keyAllowed : Bool := true
  places : List (Nat × KeyPlace) := []

abbrev Scanner := StateT Scanning Scan

namespace Scanner

def indentOf (columns : List Nat) : Int :=
  match columns with
  | [] => -1
  | column :: _ => column

def emit (t : Token) : Scanner Unit := modify fun s => { s with tokens := s.tokens.push t }

def allowKey (allowed : Bool) : Scanner Unit := modify fun s => { s with keyAllowed := allowed }

/-- Forgets the place of a key at this depth. A required one is an error. -/
def forgetPlace : Scanner Unit := do
  let s ← get
  match s.places.lookup s.depth with
  | some place => if place.required then throw Fault.form
  | none => pure ()
  set { s with places := s.places.filter (·.1 ≠ s.depth) }

def rememberPlace : Scanner Unit := do
  let s ← get
  let c ← getThe Cursor
  if s.keyAllowed then
    let required := s.depth = 0 && indentOf s.columns = c.column
    forgetPlace
    modify fun s =>
      { s with
        places := (s.depth, ⟨s.settled + s.tokens.size, required, c.index, c.line, c.column⟩) ::
          s.places }

def longestKey : Nat := 1024

def forgetStale : Scanner Unit := do
  let c ← getThe Cursor
  let s ← get
  let stale (place : KeyPlace) : Bool := place.line ≠ c.line || longestKey < c.index - place.index
  if s.places.any fun (_, place) => stale place && place.required then throw Fault.form
  set { s with places := s.places.filter fun (_, place) => !stale place }

def unwind (column : Int) : Scanner Unit :=
  modify fun s =>
    if s.depth ≠ 0 then s
    else
      let ended := s.columns.takeWhile fun (c : Nat) => decide (column < (c : Int))
      { s with
        columns := s.columns.drop ended.length
        tokens := s.tokens ++ (ended.map fun _ => Token.blockEnd) }

def indent (column : Nat) : Scanner Bool := do
  let s ← get
  if indentOf s.columns < column then
    set { s with columns := column :: s.columns }
    return true
  return false

def mark (t : Token) (length : Nat) : Scanner Unit := do
  forward length
  emit t

def beginBlock (t : Token) : Scanner Unit := do
  if (← get).depth = 0 then
    if !(← get).keyAllowed then throw Fault.form
    if ← indent (← getThe Cursor).column then emit t

def takeValue : Scanner Unit := do
  let s ← get
  match s.places.lookup s.depth with
  | some place =>
    set { s with places := s.places.filter (·.1 ≠ s.depth) }
    let opened ← if s.depth = 0 then indent place.column else pure false
    let inserted := if opened then #[Token.blockMapping, .key] else #[Token.key]
    let start := place.token - s.settled
    modify fun s =>
      { s with
        tokens := s.tokens.extract 0 start ++ inserted ++ s.tokens.extract start s.tokens.size
        keyAllowed := false }
  | none =>
    beginBlock .blockMapping
    allowKey (s.depth = 0)
    forgetPlace
  mark .value 1

def takeName : Scan String := do
  forward 1
  let name ← takeClass isNameChar
  if name.isEmpty then refuse
  let next ← peek 0
  let closes := ['?', ':', ',', ']', '\x7d', '%', '@', '\x60']
  if !(endsMark next || (next.map closes.contains).getD true) then refuse
  return String.ofList name

def percentBytes : Nat → Scan (List UInt8)
  | 0 => return []
  | fuel + 1 => do
    if (← peek 0) ≠ some '%' then return []
    forward 1
    let n ← lookHex 2
    forward 2
    return n.toUInt8 :: (← percentBytes fuel)

def uriChars : Nat → Scan (List Char)
  | 0 => return []
  | fuel + 1 => do
    let plain ← takeClass fun c => c.isAlphanum || "-;/?:@&=+$,_.!~*'()[]".toList.contains c
    if (← peek 0) ≠ some '%' then return plain
    let bytes ← percentBytes (← remaining)
    match Text.decodeUtf8 ⟨bytes.toArray⟩ with
    | .ok text => return plain ++ text.toList ++ (← uriChars fuel)
    | .error _ => refuse

def takeUri : Scan String := do
  let cs ← uriChars ((← remaining) + 1)
  if cs.isEmpty then refuse
  return String.ofList cs

def takeHandle : Scan String := do
  if (← peek 0) ≠ some '!' then refuse
  forward 1
  if (← peek 0) = some ' ' then return "!"
  let name ← takeClass isNameChar
  if (← peek 0) ≠ some '!' then refuse
  forward 1
  return String.ofList ('!' :: name ++ ['!'])

def takeTag : Scan Token := do
  let next ← peek 1
  let token ←
    if next = some '<' then do
      forward 2
      let uri ← takeUri
      if (← peek 0) ≠ some '>' then refuse
      forward 1
      pure (Token.tag none uri)
    else if endsMark next then do
      forward 1
      pure (Token.tag none "!")
    else do
      let plain ← lookClass 1 fun c => c ≠ '!' && !endsWord (some c)
      let handle ← if (← peek (plain.length + 1)) = some '!' then takeHandle else do
        forward 1
        pure "!"
      pure (Token.tag (some handle) (← takeUri))
  if !endsWord (← peek 0) then refuse
  return token

def takeNumber : Scan Nat := do
  let digits ← lookClass 0 Text.isAsciiDigit
  if digits.isEmpty then refuse
  if Text.maxLiteralDigits < digits.length then
    throw (.scalar (.integerLength digits.length))
  forward digits.length
  return Text.ofDigits 10 (digits.map Text.asciiDigitValue)

def takeDirective : Scan Token := do
  forward 1
  let name ← takeClass isNameChar
  if name.isEmpty || !endsWord (← peek 0) then refuse
  let token ← match String.ofList name with
    | "YAML" => do
      skipSpaces
      let major ← takeNumber
      if (← peek 0) ≠ some '.' then refuse
      forward 1
      let _ ← takeNumber
      if !endsWord (← peek 0) then refuse
      pure (Token.version major)
    | "TAG" => do
      skipSpaces
      let handle ← takeHandle
      if (← peek 0) ≠ some ' ' then refuse
      skipSpaces
      let uri ← takeUri
      if !endsWord (← peek 0) then refuse
      pure (Token.handle handle uri)
    | _ => do
      let _ ← takeClass (!isBreak ·)
      pure Token.directive
  skipComment
  return token

/-- Skips blanks, comments and line breaks. After a line break in a block a key may begin. -/
def toNextToken : Nat → Scanner Unit
  | 0 => return
  | fuel + 1 => do
    skipSpaces
    if (← peek 0) = some '#' then
      let _ ← (takeClass (!isBreak ·) : Scan _)
    let lineBreak ← (takeBreak : Scan _)
    if !lineBreak.isEmpty then
      if (← get).depth = 0 then allowKey true
      toNextToken fuel

def openFlow (t : Token) : Scanner Unit := do
  rememberPlace
  modify fun s => { s with depth := s.depth + 1, keyAllowed := true }
  mark t 1

def closeFlow (t : Token) : Scanner Unit := do
  forgetPlace
  let s ← get
  if s.depth = 0 then
    forward 1
    throw Fault.form
  set { s with depth := s.depth - 1, keyAllowed := false }
  mark t 1

def word (scan : Scan Token) : Scanner Unit := do
  rememberPlace
  allowKey false
  emit (← (scan : Scan _))

def blockScalar (folded : Bool) : Scanner Unit := do
  allowKey true
  forgetPlace
  let indent := indentOf (← get).columns
  emit (.scalar (← (blockText folded indent : Scan _)) false)

def plainScalar : Scanner Unit := do
  rememberPlace
  let s ← get
  let fuel ← (remaining : Scan _)
  let (text, broken) ← (plainText (s.depth ≠ 0) (indentOf s.columns + 1) fuel [] false : Scan _)
  allowKey broken
  emit (.scalar text true)

def documentMark (t : Token) : Scanner Unit := do
  unwind (-1)
  forgetPlace
  allowKey false
  mark t 3

def indicators : List Char :=
  ['-', '?', ':', ',', '[', ']', '\x7b', '\x7d', '#', '&', '*', '!', '|', '>', '\'', '"', '%', '@',
    '\x60']

def takeToken (c : Char) : Scanner Unit := do
  let s ← get
  let inFlow := s.depth ≠ 0
  let atStart := (← getThe Cursor).column = 0
  let separates ← if (c = '-' || c = '.') && atStart then (atSeparator : Scan _) else pure false
  -- A hyphen, question mark or colon is an indicator only if it stands alone.
  let alone ← if c = '-' || (!inFlow && (c = '?' || c = ':')) then do
      pure (endsMark (← (peek 1 : Scan _)))
    else pure true
  if c = '%' && atStart then
    unwind (-1)
    forgetPlace
    allowKey false
    emit (← (takeDirective : Scan _))
  else if separates then
    documentMark (if c = '-' then .documentStart else .documentEnd)
  else if c = '[' then openFlow .flowSequence
  else if c = '\x7b' then openFlow .flowMapping
  else if c = ']' then closeFlow .flowSequenceEnd
  else if c = '\x7d' then closeFlow .flowMappingEnd
  else if c = ',' then
    allowKey true
    forgetPlace
    mark .comma 1
  else if c = '-' && alone then
    beginBlock .blockSequence
    allowKey true
    forgetPlace
    mark .entry 1
  else if c = '?' && alone then
    beginBlock .blockMapping
    allowKey (!inFlow)
    forgetPlace
    mark .key 1
  else if c = ':' && alone then takeValue
  else if c = '*' then word (do return .alias (← takeName))
  else if c = '&' then word (do return .anchor (← takeName))
  else if c = '!' then word takeTag
  else if c = '|' && !inFlow then blockScalar false
  else if c = '>' && !inFlow then blockScalar true
  else if c = '\'' || c = '"' then word (do return .scalar (← quotedText c) false)
  else if !alone || !(endsMark (some c) || indicators.contains c) then plainScalar
  else
    let _ ← (peek 1 : Scan _)
    throw Fault.form

def step : Scanner Bool := do
  toNextToken ((← (remaining : Scan _)) + 1)
  forgetStale
  unwind (← getThe Cursor).column
  match ← (peek 0 : Scan _) with
  | none =>
    unwind (-1)
    forgetPlace
    return true
  | some c =>
    takeToken c
    return false

/-- Takes out the tokens that are final: those before the first one that a key may begin with. -/
def settle : Scanner (List Token) := do
  let s ← get
  let count := s.places.foldl
    (fun count place => min count (place.2.token - s.settled)) s.tokens.size
  set { s with settled := s.settled + count, tokens := s.tokens.extract count s.tokens.size }
  return (s.tokens.extract 0 count).toList

/-- Takes tokens up to the end or to a fault, which hides the tokens that are not final. `done` are
the final ones, the last one first. The fuel is more than the number of characters. -/
def steps : Nat → List Token → Scanner (List Token × Option Fault)
  | 0, done => return (done, some .form)
  | fuel + 1, done => do
    let outcome ← tryCatch (do forgetStale; return Except.ok (← settle)) fun fault =>
      return Except.error fault
    match outcome with
    | .error fault => return (done, some fault)
    | .ok final =>
      let done := final.reverse ++ done
      let outcome ← tryCatch (do return Except.ok (← step)) fun fault => return Except.error fault
      match outcome with
      | .error fault => return (done, some fault)
      | .ok true => return ((← get).tokens.toList.reverse ++ done, none)
      | .ok false => steps fuel done

end Scanner

def tokens (cs : List Char) (beyond : Option Fault) : List Token × Option Fault :=
  let cs := if cs.head? = some orderMark then cs.drop 1 else cs
  match StateT.run (StateT.run (Scanner.steps (cs.length + 1) []) {}) (Cursor.start cs beyond) with
  | .ok (((done, fault), _), _) => (done.reverse, fault)
  | .error fault => ([], some fault)

end TradingHours.Yaml
