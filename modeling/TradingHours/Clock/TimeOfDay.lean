import TradingHours.Text.Numeral
/-!
Times of day with microsecond resolution.
-/
namespace TradingHours

def microsPerSecond : Nat := 1000000

def microsPerMinute : Nat := 60 * microsPerSecond

def microsPerDay : Nat := 1440 * microsPerMinute

structure TimeOfDay where
  micros : Nat
  micros_lt : micros < microsPerDay
  deriving DecidableEq, Repr

inductive TimeFault
  | hour
  | minute
  | second
  deriving DecidableEq, Repr

namespace TimeOfDay

instance : LE TimeOfDay := ⟨fun a b => a.micros ≤ b.micros⟩

instance : LT TimeOfDay := ⟨fun a b => a.micros < b.micros⟩

instance (a b : TimeOfDay) : Decidable (a ≤ b) := inferInstanceAs (Decidable (a.micros ≤ b.micros))

instance (a b : TimeOfDay) : Decidable (a < b) := inferInstanceAs (Decidable (a.micros < b.micros))

theorem ext_micros {a b : TimeOfDay} (h : a.micros = b.micros) : a = b := by
  cases a; cases b; simp_all

def midnight : TimeOfDay := ⟨0, by decide⟩

def ofMinutes (minutes : Nat) : TimeOfDay :=
  ⟨minutes % 1440 * microsPerMinute, by
    simp only [microsPerDay, microsPerMinute, microsPerSecond]; omega⟩

def wrapped (hours minutes : Int) : TimeOfDay :=
  ofMinutes ((hours % 24).toNat * 60 + (minutes % 60).toNat)

def ofFields (hour minute second micro : Nat) : Except TimeFault TimeOfDay :=
  if hh : 23 < hour then .error .hour
  else if hm : 59 < minute then .error .minute
  else if hs : 59 < second then .error .second
  else .ok ⟨(hour * 3600 + minute * 60 + second) * microsPerSecond + micro % microsPerSecond, by
    simp only [microsPerDay, microsPerMinute, microsPerSecond]; omega⟩

def hour (t : TimeOfDay) : Nat := t.micros / (60 * microsPerMinute)

def minute (t : TimeOfDay) : Nat := t.micros / microsPerMinute % 60

def second (t : TimeOfDay) : Nat := t.micros / microsPerSecond % 60

def microsecond (t : TimeOfDay) : Nat := t.micros % microsPerSecond

def shortText (t : TimeOfDay) : String :=
  Text.padded 2 t.hour ++ ":" ++ Text.padded 2 t.minute

def clockText (t : TimeOfDay) : String :=
  t.shortText ++ ":" ++ Text.padded 2 t.second

def text (t : TimeOfDay) : String :=
  if t.microsecond = 0 then t.clockText else t.clockText ++ "." ++ Text.padded 6 t.microsecond

end TimeOfDay

end TradingHours
