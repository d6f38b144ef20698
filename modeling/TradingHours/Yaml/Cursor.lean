import TradingHours.Failure
/-!
A cursor in a YAML 1.1 text, and the classes of characters that its grammar knows. A class that
admits the end of the text is asked about an optional character.
-/
namespace TradingHours.Yaml

inductive Fault
  | form
  | scalar (fault : ScalarFault)
  | undecodable (refusal : Text.Utf8Refusal)

/-- A place in a text: the length of the text, what follows the place, how many characters precede
it, its line and column, and the fault that is met where the text breaks off, unless that is its
end. -/
structure Cursor where
  size : Nat
  rest : List Char
  index : Nat
  line : Nat
  column : Nat
  beyond : Option Fault

abbrev Scan := StateT Cursor (Except Fault)

def orderMark : Char := '\uFEFF'

def isSpecialBreak (c : Char) : Bool := c = '\u2028' || c = '\u2029'

def isBreak (c : Char) : Bool := c = '\n' || c = '\u0085' || isSpecialBreak c

def endsLine (c : Option Char) : Bool := (c.map isBreak).getD true

def endsWord (c : Option Char) : Bool := c = some ' ' || endsLine c

def endsMark (c : Option Char) : Bool := c = some '\t' || endsWord c

def isNameChar (c : Char) : Bool := c.isAlphanum || c = '-' || c = '_'

def isAdmitted (c : Char) : Bool :=
  let n := c.toNat
  c = '\t' || c = '\n' || c = '\r' || c = '\u0085' || (0x20 ≤ n && n ≤ 0x7E) ||
    (0xA0 ≤ n && n ≤ 0xD7FF) || (0xE000 ≤ n && n ≤ 0xFFFD) || 0x10000 ≤ n

namespace Cursor

def start (cs : List Char) (beyond : Option Fault) : Cursor := ⟨cs.length, cs, 0, 0, 0, beyond⟩

def next (c : Cursor) : Cursor :=
  match c.rest with
  | [] => c
  | d :: rest =>
    if isBreak d then ⟨c.size, rest, c.index + 1, c.line + 1, 0, c.beyond⟩
    else
      let column := if d = orderMark then c.column else c.column + 1
      ⟨c.size, rest, c.index + 1, c.line, column, c.beyond⟩

def skip : Nat → Cursor → Cursor
  | 0, c => c
  | n + 1, c => skip n c.next

end Cursor

def refuse {α : Type} : Scan α := throw .form

def atEnd {α : Type} (answer : α) : Scan α := do
  match (← get).beyond with
  | some fault => throw fault
  | none => return answer

def peek (distance : Nat) : Scan (Option Char) := do
  match (← get).rest[distance]? with
  | some c => return some c
  | none => atEnd none

/-- Moves past a number of characters. What comes next has to be known. -/
def forward (count : Nat) : Scan Unit := do
  modify (Cursor.skip count)
  if (← get).rest.isEmpty then atEnd ()

def lookClass (distance : Nat) (p : Char → Bool) : Scan (List Char) := do
  let ahead := (← get).rest.drop distance
  let run := ahead.takeWhile p
  if (ahead.drop run.length).isEmpty then atEnd run else return run

def takeClass (p : Char → Bool) : Scan (List Char) := do
  let taken ← lookClass 0 p
  forward taken.length
  return taken

def skipSpaces : Scan Unit := do let _ ← takeClass (· = ' ')

def takeBreak : Scan (List Char) := do
  match ← peek 0 with
  | some c =>
    if isSpecialBreak c then forward 1; return [c]
    else if isBreak c then forward 1; return ['\n']
    else return []
  | none => return []

def atSeparator : Scan Bool := do
  let three := (← get).rest.take 3
  if three.length < 3 then atEnd false
  else if three = ['-', '-', '-'] || three = ['.', '.', '.'] then return endsMark (← peek 3)
  else return false

def skipComment : Scan Unit := do
  skipSpaces
  if (← peek 0) = some '#' then
    let _ ← takeClass (!isBreak ·)
  if endsLine (← peek 0) then
    let _ ← takeBreak
  else refuse

def hexValue? (c : Char) : Option Nat :=
  if Text.isAsciiDigit c then some (Text.asciiDigitValue c)
  else if 'a' ≤ c && c ≤ 'f' then some (c.toNat - 87)
  else if 'A' ≤ c && c ≤ 'F' then some (c.toNat - 55)
  else none

def lookHex (length : Nat) : Scan Nat := do
  let digits := (← get).rest.take length
  match digits.mapM hexValue? with
  | some values =>
    if values.length < length then
      atEnd ()
      refuse
    return Text.ofDigits 16 values
  | none => refuse

def remaining : Scan Nat := do return (← get).size - (← get).index

end TradingHours.Yaml
