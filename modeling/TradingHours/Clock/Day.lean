import TradingHours.Text.Numeral
/-!
Calendar days from 0001-01-01 to 9999-12-31, counted in the Gregorian calendar extended to both
sides.
-/
namespace TradingHours

def dayCount : Nat := 3652059

structure Day where
  index : Nat
  index_lt : index < dayCount
  deriving DecidableEq, Repr

inductive DateFault
  | year (year : Nat)
  | month
  | day
  deriving DecidableEq, Repr

structure Civil where
  year : Nat
  month : Nat
  day : Nat
  deriving DecidableEq, Repr

def isLeapYear (year : Nat) : Bool :=
  year % 4 = 0 && (year % 100 ≠ 0 || year % 400 = 0)

def monthLengths (leap : Bool) : List Nat :=
  [31, if leap then 29 else 28, 31, 30, 31, 30, 31, 31, 30, 31, 30, 31]

def daysBeforeYear (year : Nat) : Nat :=
  let past := year - 1
  past * 365 + past / 4 - past / 100 + past / 400

def monthAndDay : List Nat → Nat → Nat → Nat × Nat
  | [], month, days => (month, days + 1)
  | length :: rest, month, days =>
    if days < length then (month, days + 1) else monthAndDay rest (month + 1) (days - length)

namespace Day

def ofIndex? (index : Nat) : Option Day :=
  if h : index < dayCount then some ⟨index, h⟩ else none

def ofCivil (year month day : Nat) : Except DateFault Day :=
  if year = 0 || 9999 < year then .error (.year year)
  else if month = 0 || 12 < month then .error .month
  else
    let lengths := monthLengths (isLeapYear year)
    if day = 0 || lengths.getD (month - 1) 0 < day then .error .day
    else
      match ofIndex? (daysBeforeYear year + (lengths.take (month - 1)).foldl (· + ·) 0 +
          (day - 1)) with
      | some d => .ok d
      | none => .error .day

def civil (d : Day) : Civil :=
  let eras := d.index / 146097
  let inEra := d.index % 146097
  let centuries := inEra / 36524
  let inCentury := inEra % 36524
  let fours := inCentury / 1461
  let inFours := inCentury % 1461
  let years := inFours / 365
  let year := eras * 400 + centuries * 100 + fours * 4 + years + 1
  if years = 4 || centuries = 4 then ⟨year - 1, 12, 31⟩
  else
    let (month, day) := monthAndDay (monthLengths (isLeapYear year)) 1 (inFours % 365)
    ⟨year, month, day⟩

def weekday (d : Day) : Nat := d.index % 7

def text (d : Day) : String :=
  let c := d.civil
  Text.padded 4 c.year ++ "-" ++ Text.padded 2 c.month ++ "-" ++ Text.padded 2 c.day

/-- The date for file names: the year as it is, then two digits each for month and day. -/
def compact (d : Day) : String :=
  let c := d.civil
  Text.padded 1 c.year ++ Text.padded 2 c.month ++ Text.padded 2 c.day

end Day

end TradingHours
