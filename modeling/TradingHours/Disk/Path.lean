import TradingHours.Text.Split
/-!
Paths: a root and the names below it. Empty names and `.` are dropped when a text is read, `..` is
kept, and exactly two slashes at the front are a root of their own.
-/
namespace TradingHours.Disk

inductive Root
  | relative
  | absolute
  | doubleSlash
  deriving DecidableEq, Repr

structure Path where
  root : Root
  parts : List String
  deriving DecidableEq, Repr

namespace Path

def partsOf (cs : List Char) : List String :=
  ((Text.splitOnChar '/' cs).filter fun name => name ≠ [] ∧ name ≠ ['.']).map String.ofList

def ofText (s : String) : Path :=
  let cs := s.toList
  let root := match cs with
    | '/' :: '/' :: '/' :: _ => Root.absolute
    | '/' :: '/' :: _ => .doubleSlash
    | '/' :: _ => .absolute
    | _ => .relative
  ⟨root, partsOf cs⟩

def text (p : Path) : String :=
  let names := "/".intercalate p.parts
  match p.root with
  | .relative => if p.parts.isEmpty then "." else names
  | .absolute => "/" ++ names
  | .doubleSlash => "//" ++ names

/-- Whether the text of a path holds a NUL. No call takes such a path. -/
def hasNul (p : Path) : Bool := p.text.toList.contains '\x00'

def parent (p : Path) : Path := { p with parts := p.parts.dropLast }

def name (p : Path) : String := p.parts.getLast?.getD ""

/-- The last name without its suffix: the last dot and what follows it, unless the dot is the first
or the last character. -/
def stem (p : Path) : String :=
  let reversed := p.name.toList.reverse
  let suffix := reversed.takeWhile (· ≠ '.')
  match reversed.dropWhile (· ≠ '.') with
  | '.' :: before =>
    if before.isEmpty || suffix.isEmpty then p.name else String.ofList before.reverse
  | _ => p.name

/-- A path below another one; a path with a root of its own stands alone. -/
def join (p q : Path) : Path :=
  if q.root = .relative then { p with parts := p.parts ++ q.parts } else q

def child (p : Path) (name : String) : Path := p.join (ofText name)

def stepLexically (names : List String) (name : String) : List String :=
  if name = ".." then names.dropLast else names ++ [name]

def absoluteFrom (folder : List String) (p : Path) : Path :=
  match p.root with
  | .relative => ⟨.absolute, (folder ++ p.parts).foldl stepLexically []⟩
  | root => ⟨root, p.parts.foldl stepLexically []⟩

end Path

end TradingHours.Disk
