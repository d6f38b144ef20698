import TradingHours.Clock.Day
import TradingHours.Clock.TimeOfDay
import TradingHours.Number.Binary
/-!
Instants: a calendar day and a time of day on some clock, with the distance of that clock from UTC
if it is known. An instant without one is read as UTC. Shifting moves the clock reading; both it
and the conversion to UTC fail exactly when the reading leaves the calendar.
-/
namespace TradingHours

abbrev Span := Int

def calendarMicros : Nat := dayCount * microsPerDay

/-- A clock reading, by its distance from the start of the calendar, and how far the clock is ahead
of UTC. -/
structure Instant where
  wall : Nat
  offset : Option Span
  wall_lt : wall < calendarMicros
  deriving DecidableEq, Repr

namespace Instant

def ofWall? (wall : Int) (offset : Option Span) : Option Instant :=
  if h : 0 ≤ wall ∧ wall < calendarMicros then some ⟨wall.toNat, offset, by omega⟩ else none

def ofDay (d : Day) (t : TimeOfDay) (offset : Option Span) : Instant :=
  ⟨d.index * microsPerDay + t.micros, offset, by
    have hd := d.index_lt
    have ht := t.micros_lt
    simp only [calendarMicros]
    calc d.index * microsPerDay + t.micros < d.index * microsPerDay + microsPerDay := by omega
      _ = (d.index + 1) * microsPerDay := by rw [Nat.succ_mul]
      _ ≤ dayCount * microsPerDay := Nat.mul_le_mul_right _ hd⟩

def shift? (t : Instant) (span : Span) : Option Instant :=
  ofWall? (t.wall + span) t.offset

def toUtc? (t : Instant) : Option Instant :=
  ofWall? (t.wall - t.offset.getD 0) (some 0)

def day (t : Instant) : Day :=
  ⟨t.wall / microsPerDay, by
    have h := t.wall_lt
    rw [calendarMicros, Nat.mul_comm] at h
    exact Nat.div_lt_of_lt_mul h⟩

def timeOfDay (t : Instant) : TimeOfDay :=
  ⟨t.wall % microsPerDay, Nat.mod_lt _ (by decide)⟩

def startOfDay (d : Day) : Instant := ofDay d .midnight (some 0)

def epochDay : Nat := 719162

def epochMicros (t : Instant) : Int := (t.wall : Int) - (epochDay * microsPerDay : Nat)

/-- Whole seconds since the start of 1970 on the same clock, through the nearest binary number and
toward zero. -/
def epochSeconds (t : Instant) : Int :=
  (Number.Binary.ofQuotient (t.epochMicros < 0) t.epochMicros.natAbs microsPerSecond).truncate

end Instant

def offsetText (offset : Span) : String :=
  let micros := offset.natAbs
  let seconds := micros / microsPerSecond
  let tail :=
    if micros % microsPerSecond ≠ 0 then
      ":" ++ Text.padded 2 (seconds % 60) ++ "." ++ Text.padded 6 (micros % microsPerSecond)
    else if seconds % 60 ≠ 0 then ":" ++ Text.padded 2 (seconds % 60)
    else ""
  (if offset < 0 then "-" else "+") ++ Text.padded 2 (seconds / 3600) ++ ":" ++
    Text.padded 2 (seconds / 60 % 60) ++ tail

namespace Instant

def textWith (separator : String) (t : Instant) : String :=
  t.day.text ++ separator ++ t.timeOfDay.text ++ (t.offset.map offsetText).getD ""

def text (t : Instant) : String := t.textWith "T"

end Instant

def minuteGrid? (d : Day) (minutes : Nat) : Option (List Instant) :=
  (List.range minutes).mapM fun i => (Instant.startOfDay d).shift? (i * microsPerMinute : Nat)

def minutesPerDay : Nat := 1440

end TradingHours
