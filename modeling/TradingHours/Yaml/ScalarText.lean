import TradingHours.Yaml.Cursor
/-!
The texts of scalars: plain, in single or double quotes, and in blocks that are kept or folded.
-/
namespace TradingHours.Yaml

def escaped? : Char → Option Char
  | '0' => some '\x00'
  | 'a' => some '\x07'
  | 'b' => some '\x08'
  | 't' => some '\t'
  | '\t' => some '\t'
  | 'n' => some '\n'
  | 'v' => some '\x0b'
  | 'f' => some '\x0c'
  | 'r' => some '\r'
  | 'e' => some '\x1b'
  | ' ' => some ' '
  | '"' => some '"'
  | '\\' => some '\\'
  | '/' => some '/'
  | 'N' => some '\u0085'
  | '_' => some '\u00a0'
  | 'L' => some '\u2028'
  | 'P' => some '\u2029'
  | _ => none

def escapeLength? : Char → Option Nat
  | 'x' => some 2
  | 'u' => some 4
  | 'U' => some 8
  | _ => none

def characterOf (code : Nat) : Except Fault Char :=
  if 0x80000000 ≤ code then .error (.scalar .hugeCode)
  else if 0x110000 ≤ code then .error (.scalar .characterCode)
  else .ok (Char.ofNat code)

def quotedBreaks : Nat → Scan (List Char)
  | 0 => return []
  | fuel + 1 => do
    if ← atSeparator then refuse
    let _ ← takeClass fun c => c = ' ' || c = '\t'
    let lineBreak ← takeBreak
    if lineBreak.isEmpty then return []
    return lineBreak ++ (← quotedBreaks fuel)

def quotedWord (double : Bool) : Nat → Scan (List Char)
  | 0 => return []
  | fuel + 1 => do
    let plain ← takeClass fun c =>
      !(c = '\'' || c = '"' || c = '\\' || c = ' ' || c = '\t' || isBreak c)
    let more ← match ← peek 0 with
      | none => pure none
      | some c =>
        let doubled ← if !double && c = '\'' then do pure ((← peek 1) == some '\'')
          else pure false
        if doubled then
          forward 2
          pure (some ['\''])
        else if (double && c = '\'') || (!double && (c = '"' || c = '\\')) then
          forward 1
          pure (some [c])
        else if double && c = '\\' then
          forward 1
          match ← peek 0 with
          | none => refuse
          | some e =>
            match escaped? e, escapeLength? e with
            | some d, _ =>
              forward 1
              pure (some [d])
            | none, some length =>
              forward 1
              let c ← (characterOf (← lookHex length) : Except Fault Char)
              forward length
              pure (some [c])
            | none, none =>
              if isBreak e then
                let _ ← takeBreak
                pure (some (← quotedBreaks (← remaining)))
              else refuse
        else pure none
    match more with
    | none => return plain
    | some cs => return plain ++ cs ++ (← quotedWord double fuel)

/-- Blanks inside quotes: a line break counts as a space, and further ones as themselves. -/
def quotedBlanks : Scan (List Char) := do
  let blanks ← takeClass fun c => c = ' ' || c = '\t'
  match ← peek 0 with
  | none => refuse
  | some c =>
    if isBreak c then
      let lineBreak ← takeBreak
      let breaks ← quotedBreaks (← remaining)
      if lineBreak ≠ ['\n'] then return lineBreak ++ breaks
      return if breaks.isEmpty then [' '] else breaks
    else return blanks

def quotedRest (quote : Char) : Nat → Scan (List Char)
  | 0 => refuse
  | fuel + 1 => do
    if (← peek 0) = some quote then
      forward 1
      return []
    let blanks ← quotedBlanks
    let word ← quotedWord (quote = '"') (← remaining)
    return blanks ++ word ++ (← quotedRest quote fuel)

def quotedText (quote : Char) : Scan (List Char) := do
  forward 1
  let word ← quotedWord (quote = '"') (← remaining)
  return word ++ (← quotedRest quote (← remaining))

def endsPlain (inFlow : Bool) (cs : List Char) : Bool :=
  let isFlowMark (c : Char) : Bool := [',', '[', ']', '\x7b', '\x7d'].contains c
  match cs with
  | [] => true
  | c :: rest =>
    endsMark (some c) ||
      (c = ':' && (endsMark rest.head? || (inFlow && (rest.head?.map isFlowMark).getD false))) ||
      (inFlow && (c = '?' || isFlowMark c))

def plainRun (inFlow : Bool) : List Char → List Char
  | [] => []
  | c :: rest => if endsPlain inFlow (c :: rest) then [] else c :: plainRun inFlow rest

def plainBreaks : Nat → Scan (List Char × Bool)
  | 0 => return ([], false)
  | fuel + 1 => do
    skipSpaces
    let lineBreak ← takeBreak
    if lineBreak.isEmpty then return ([], false)
    if ← atSeparator then return ([], true)
    let (breaks, separated) ← plainBreaks fuel
    return (lineBreak ++ breaks, separated)

def plainBlanks : Scan (List Char × Bool) := do
  let blanks ← takeClass (· = ' ')
  let lineBreak ← takeBreak
  if lineBreak.isEmpty then return (blanks, false)
  if ← atSeparator then return ([], true)
  let (breaks, separated) ← plainBreaks (← remaining)
  if separated then return ([], true)
  if lineBreak ≠ ['\n'] then return (lineBreak ++ breaks, true)
  return (if breaks.isEmpty then [' '] else breaks, true)

def plainText (inFlow : Bool) (indent : Int) : Nat → List Char → Bool → Scan (List Char × Bool)
  | 0, _, broken => return ([], broken)
  | fuel + 1, blanks, broken => do
    if (← peek 0) = some '#' then return ([], broken)
    let run := plainRun inFlow (← get).rest
    let after := (← get).rest.drop run.length
    if after.isEmpty || after = [':'] then atEnd ()
    if run.isEmpty then return ([], broken)
    forward run.length
    let (next, broken) ← plainBlanks
    let column := (← get).column
    if next.isEmpty || (← peek 0) = some '#' || (!inFlow && (column : Int) < indent) then
      return (blanks ++ run, broken)
    let (more, broken) ← plainText inFlow indent fuel next broken
    return (blanks ++ run ++ more, broken)

inductive Chomping
  | clip
  | strip
  | keep
  deriving DecidableEq

def blockIndicators : Scan (Chomping × Option Nat) := do
  let takeChomping : Scan (Option Chomping) := do
    match ← peek 0 with
    | some '+' => forward 1; return some .keep
    | some '-' => forward 1; return some .strip
    | _ => return none
  let takeIncrement : Scan (Option Nat) := do
    match ← peek 0 with
    | some c =>
      if !Text.isAsciiDigit c then return none
      if c = '0' then refuse
      forward 1
      return some (Text.asciiDigitValue c)
    | none => return none
  let first ← takeChomping
  let increment ← takeIncrement
  let second ← if first.isNone && increment.isSome then takeChomping else pure none
  if !endsWord (← peek 0) then refuse
  return ((first.or second).getD .clip, increment)

def skipIndent (indent : Nat) : Scan Unit := do
  let c ← get
  if c.column < indent then
    forward (min (c.rest.takeWhile (· = ' ')).length (indent - c.column))

def blockBreaks (indent : Nat) : Nat → Scan (List Char)
  | 0 => return []
  | fuel + 1 => do
    skipIndent indent
    let lineBreak ← takeBreak
    if lineBreak.isEmpty then return []
    return lineBreak ++ (← blockBreaks indent fuel)

def blockStart : Nat → Nat → Scan (List Char × Nat)
  | 0, column => return ([], column)
  | fuel + 1, column => do
    skipSpaces
    let column := max column (← get).column
    let lineBreak ← takeBreak
    if lineBreak.isEmpty then return ([], column)
    let (breaks, column) ← blockStart fuel column
    return (lineBreak ++ breaks, column)

def blockLines (folded : Bool) (indent : Nat) : Nat → List Char →
    Scan (List Char × List Char × List Char)
  | 0, breaks => return ([], [], breaks)
  | fuel + 1, breaks => do
    if (← get).column ≠ indent || (← peek 0).isNone then return ([], [], breaks)
    let isBlankChar (c : Option Char) : Bool := c = some ' ' || c = some '\t'
    let startsBlank := isBlankChar (← peek 0)
    let line ← takeClass (!isBreak ·)
    let lineBreak ← takeBreak
    let next ← blockBreaks indent (← remaining)
    if (← get).column ≠ indent || (← peek 0).isNone then
      return (breaks ++ line, lineBreak, next)
    let joint := if folded && lineBreak = ['\n'] && !startsBlank && !isBlankChar (← peek 0) then
        (if next.isEmpty then [' '] else [])
      else lineBreak
    let (text, lastBreak, tail) ← blockLines folded indent fuel next
    return (breaks ++ line ++ joint ++ text, lastBreak, tail)

/-- The text of a block; `indent` is the column of the collection around it. -/
def blockText (folded : Bool) (indent : Int) : Scan (List Char) := do
  forward 1
  let (chomping, increment) ← blockIndicators
  skipComment
  let least := (max (indent + 1) 1).toNat
  let (breaks, column) ← match increment with
    | some n => do
      let column := least + n - 1
      pure (← blockBreaks column (← remaining), column)
    | none => do
      let (breaks, column) ← blockStart (← remaining) 0
      pure (breaks, max least column)
  let (text, lastBreak, tail) ← blockLines folded column ((← remaining) + 1) breaks
  return match chomping with
    | .strip => text
    | .clip => text ++ lastBreak
    | .keep => text ++ lastBreak ++ tail

end TradingHours.Yaml
