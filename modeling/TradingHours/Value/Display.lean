import TradingHours.Value.Basic
import TradingHours.Number.Shortest
import TradingHours.Text.Integer
import TradingHours.Text.Quoted
/-!
Values in messages: plainly where a value stands alone, and in source notation inside lists and
mappings, where texts are quoted and dates are spelled out.
-/
namespace TradingHours.Value

def spanSource (span : Span) : String :=
  let days := span / microsPerDay
  let rest := (span % microsPerDay).toNat
  let seconds := rest / microsPerSecond
  let micros := rest % microsPerSecond
  let parts := (if days ≠ 0 then ["days=" ++ Text.decimal days] else []) ++
    (if seconds ≠ 0 then ["seconds=" ++ Text.decimal seconds] else []) ++
    (if micros ≠ 0 then ["microseconds=" ++ Text.decimal micros] else [])
  "datetime.timedelta(" ++ (if parts.isEmpty then "0" else ", ".intercalate parts) ++ ")"

def daySource (d : Day) : String :=
  let c := d.civil
  let fields := [c.year, c.month, c.day].map fun (n : Nat) => Text.decimal n
  "datetime.date(" ++ ", ".intercalate fields ++ ")"

def instantSource (t : Instant) : String :=
  let c := t.day.civil
  let m := t.timeOfDay
  let fine := if m.microsecond ≠ 0 then [m.second, m.microsecond]
    else if m.second ≠ 0 then [m.second] else []
  let fields := ([c.year, c.month, c.day, m.hour, m.minute] ++ fine).map fun (n : Nat) =>
    Text.decimal n
  let zone := match t.offset with
    | none => []
    | some 0 => ["tzinfo=datetime.timezone.utc"]
    | some offset => ["tzinfo=datetime.timezone(" ++ spanSource offset ++ ")"]
  "datetime.datetime(" ++ ", ".intercalate (fields ++ zone) ++ ")"

def bytesSource (bs : List UInt8) : String :=
  let cs := bs.map fun b => Char.ofNat b.toNat
  let quote := Text.quoteFor cs
  let shown (c : Char) : List Char :=
    if c.toNat < 0x7F then Text.quotedChar quote c else Text.hexEscape c
  String.ofList ('b' :: quote :: cs.flatMap shown ++ [quote])

def loopSource : Value → String
  | mapping _ => "\x7b...\x7d"
  | _ => "[...]"

/-- A cell of a knot: what stands for it inside itself, and its source notation for given notations
of the cells in it. -/
abbrev CellSource := String × ((Nat → String) → String)

/-- A cell in source notation. `around` are the cells that it stands in; the fuel is the number of
the other ones. -/
def cellSource (cells : List CellSource) : Nat → List Nat → Nat → String
  | 0, _, cell => ((cells[cell]?).map (·.1)).getD ""
  | fuel + 1, around, cell =>
    match cells[cell]? with
    | none => ""
    | some (short, long) =>
      if around.contains cell then short
      else long (cellSource cells fuel (cell :: around))

mutual

def sourceIn (loops : Nat → String) : Value → String
  | null => "None"
  | bool b => if b then "True" else "False"
  | int n => Text.decimal n
  | number x => x.text
  | text s => Text.quoted s
  | bytes bs => bytesSource bs
  | date d => daySource d
  | instant t => instantSource t
  | list items => "[" ++ ", ".intercalate (sourcesIn loops items) ++ "]"
  | pairs entries => "[" ++ ", ".intercalate (pairSourcesIn loops entries) ++ "]"
  | set [] => "set()"
  | set items => "\x7b" ++ ", ".intercalate (sourcesIn loops items) ++ "\x7d"
  | mapping entries => "\x7b" ++ ", ".intercalate (entrySourcesIn loops entries) ++ "\x7d"
  | knot cells cell =>
    let sources := cellSources cells
    cellSource sources (sources.length + 1) [] cell
  | loop cell => loops cell

def sourcesIn (loops : Nat → String) : List Value → List String
  | [] => []
  | item :: rest => sourceIn loops item :: sourcesIn loops rest

def pairSourcesIn (loops : Nat → String) : List (Value × Value) → List String
  | [] => []
  | (key, value) :: rest =>
    ("(" ++ sourceIn loops key ++ ", " ++ sourceIn loops value ++ ")") :: pairSourcesIn loops rest

def entrySourcesIn (loops : Nat → String) : List (Value × Value) → List String
  | [] => []
  | (key, value) :: rest =>
    (sourceIn loops key ++ ": " ++ sourceIn loops value) :: entrySourcesIn loops rest

def cellSources : List Value → List CellSource
  | [] => []
  | cell :: rest => (loopSource cell, fun loops => sourceIn loops cell) :: cellSources rest

end

def source (v : Value) : String := sourceIn (fun _ => "") v

mutual

def isTooLong : Value → Bool
  | int n => Text.isTooLongToWrite n
  | list items => areTooLong items
  | set items => areTooLong items
  | pairs entries => entriesAreTooLong entries
  | mapping entries => entriesAreTooLong entries
  | knot cells cell =>
    let long := cellsAreTooLong cells
    (reachedFrom (cells.map loopsIn) cells.length [cell]).any (long.getD · false)
  | _ => false

def areTooLong : List Value → Bool
  | [] => false
  | item :: rest => isTooLong item || areTooLong rest

def entriesAreTooLong : List (Value × Value) → Bool
  | [] => false
  | (key, value) :: rest => isTooLong key || isTooLong value || entriesAreTooLong rest

def cellsAreTooLong : List Value → List Bool
  | [] => []
  | cell :: rest => isTooLong cell :: cellsAreTooLong rest

end

def display : Value → String
  | text s => s
  | date d => d.text
  | instant t => t.textWith " "
  | v => v.source

end TradingHours.Value
