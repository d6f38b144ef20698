import TradingHours.Disk.Fault
import TradingHours.Disk.Path
import TradingHours.Table
/-!
A disk as a finite table of places with files and folders, and the walk from a path to a place.
-/
namespace TradingHours

/-- A place in the tree: its name first, then the names of the folders around it from the inside
out. -/
abbrev Place := List String

inductive Entry
  | file (bytes : ByteArray)
  | folder

/-- The tree, the folder in which relative paths start, the file that is kept open to grow, and
which of the next calls are to be refused. -/
structure Disk where
  entries : Table Place Entry
  home : Place
  growing : Option Place
  refusals : List (Option Disk.Cause)

namespace Disk

def found? (d : Disk) (place : Place) : Option Entry :=
  if place.isEmpty then some .folder else d.entries.get? place

def put (d : Disk) (place : Place) (entry : Entry) : Disk :=
  { d with entries := d.entries.put place entry }

/-- Takes the entry at a place away. A file that is kept open there has no place any more. -/
def erase (d : Disk) (place : Place) : Disk :=
  { d with
    entries := d.entries.filter fun pair => pair.1 ≠ place
    growing := if d.growing = some place then none else d.growing }

def move (d : Disk) (source target : Place) (entry : Entry) : Disk :=
  if source = target then d
  else
    let moved := ((d.erase source).erase target).put target entry
    { moved with growing := if d.growing = some source then some target else moved.growing }

def grow (d : Disk) (bytes : ByteArray) : Disk :=
  match d.growing with
  | none => d
  | some place =>
    match d.found? place with
    | some (.file old) => d.put place (.file (old ++ bytes))
    | _ => d

def maxNameLength : Nat := 255

def maxPathLength : Nat := 4095

/-- Walks along names from a place. Every place on the way has to be a folder; the last one may be
missing. -/
def walk (d : Disk) : Place → List String → Except Cause Place
  | here, [] => .ok here
  | here, name :: rest =>
    match d.found? here with
    | none => .error .notFound
    | some (.file _) => .error .notFolder
    | some .folder =>
      if name = ".." then d.walk here.tail rest
      else if maxNameLength < name.utf8ByteSize then .error .nameTooLong
      else d.walk (name :: here) rest

def start (d : Disk) (p : Path) : Place :=
  if p.root = .relative then d.home else []

def tooLong (p : Path) : Bool := maxPathLength < p.text.utf8ByteSize

def locate (d : Disk) (p : Path) : Except Fault Place :=
  if p.hasNul then .error .embeddedNul
  else if tooLong p then .error (.refused .nameTooLong [p.text])
  else
    match d.walk (d.start p) p.parts with
    | .ok place => .ok place
    | .error cause => .error (.refused cause [p.text])

def folderAround (d : Disk) (p : Path) : Except Cause Place := do
  let around ← d.walk (d.start p) p.parts.dropLast
  match d.found? around with
  | some .folder => .ok around
  | some (.file _) => .error .notFolder
  | none => .error .notFound

def homeNames (d : Disk) : List String := d.home.reverse

def files (d : Disk) : List (String × ByteArray) :=
  d.entries.filterMap fun (place, entry) =>
    match entry with
    | .file bytes =>
      let names := place.reverse
      if d.homeNames.isPrefixOf names then
        some ("/".intercalate (names.drop d.home.length), bytes)
      else none
    | .folder => none

def withFolders (d : Disk) : Place → Disk
  | [] => d
  | name :: rest =>
    let d := d.withFolders rest
    match d.found? (name :: rest) with
    | some _ => d
    | none => d.put (name :: rest) .folder

def empty (home : Place) : Disk :=
  (⟨[], home, none, []⟩ : Disk).withFolders home

def lay (d : Disk) (p : Path) (entry : Entry) : Disk :=
  let names := if p.root = .relative then d.homeNames ++ p.parts else p.parts
  let place := (names.foldl Path.stepLexically []).reverse
  (d.withFolders place.tail).put place entry

def remove (d : Disk) (p : Path) : Disk :=
  match d.locate p with
  | .ok place => d.erase place
  | .error _ => d

end Disk

end TradingHours
