import TradingHours.Proofs.Clock.Civil
import TradingHours.Proofs.Effect
import TradingHours.Proofs.Number.Exact
import TradingHours.Proofs.Output.MinuteStates
import TradingHours.Proofs.Text.Fields
import TradingHours.Proofs.Text.Numerals
import TradingHours.Proofs.Text.Pieces
/-!
Reading the lines of the minutes of a day back. Each line gives the minute it stands for, the
seconds from the start of 1970 to it and the state that the step gave there, whatever the step keeps
from one minute to the next. Main statement: `minuteLines_read`.
-/
namespace TradingHours

namespace Instant

/-- A reading that is a whole number of seconds from the start of 1970 shows this number. -/
theorem epochSeconds_of_whole {t : Instant} {n : Int} (h : t.epochMicros = n * microsPerSecond) :
    t.epochSeconds = n := by
  have hwall := t.wall_lt
  have hfits : n.natAbs < 2 ^ 53 := by
    simp only [epochMicros, microsPerSecond, microsPerDay, microsPerMinute, epochDay] at h
    simp only [calendarMicros, dayCount, microsPerDay, microsPerMinute, microsPerSecond] at hwall
    omega
  have hmicros : (n * microsPerSecond).natAbs = n.natAbs * microsPerSecond := by
    rw [Int.natAbs_mul, Int.natAbs_natCast]
  have hsign : decide (n * (microsPerSecond : Int) < 0) = decide (n < 0) := by
    rw [decide_eq_decide, microsPerSecond]
    omega
  rw [epochSeconds, h, hmicros, hsign, Number.Binary.truncate_ofQuotient_mul _ hfits (by decide)]
  cases hn : decide (n < 0) with
  | true =>
    have := of_decide_eq_true hn
    simp only [if_true]
    omega
  | false =>
    have := of_decide_eq_false hn
    simp only [Bool.false_eq_true, if_false]
    omega

theorem epochSeconds_minute (d : Day) {i : Nat} (hi : i < minutesPerDay) :
    (d.minute i).epochSeconds = 86400 * d.sinceEpoch + 60 * i := by
  apply epochSeconds_of_whole
  rw [minutesPerDay] at hi
  simp only [epochMicros, Day.minute, ofDay, TimeOfDay.ofMinutes, Day.sinceEpoch, microsPerDay,
    microsPerMinute, microsPerSecond, Nat.mod_eq_of_lt hi]
  omega

end Instant

namespace Output

open Schedule

structure MinuteRecord where
  hour : Int
  minute : Int
  second : Int
  epoch : Int
  state : Bool
  deriving DecidableEq, Repr

def readMark? (mark : String) : Option Bool :=
  if mark = "1" then some true else if mark = "0" then some false else none

def readMinute? (line : String) : Option MinuteRecord := do
  let [clock, epoch, mark] := Text.fields line | none
  let [hour, minute, second] := (Text.splitOnChar ':' clock.toList).map String.ofList | none
  return {
    hour := ← Text.readInteger? hour
    minute := ← Text.readInteger? minute
    second := ← Text.readInteger? second
    epoch := ← Text.readInteger? epoch
    state := ← readMark? mark }

section Reading

variable {i : Nat} {d : Day} {state : Bool}

def minuteRecord (d : Day) (i : Nat) (state : Bool) : MinuteRecord where
  hour := (i / 60 : Nat)
  minute := (i % 60 : Nat)
  second := 0
  epoch := 86400 * d.sinceEpoch + 60 * i
  state := state

def clockForm (hour minute : Nat) : String :=
  Text.padded 2 hour ++ ":" ++ Text.padded 2 minute ++ ":00"

/-- The line of a minute of a day, with the number of its seconds written out. -/
def minuteForm (d : Day) (i : Nat) (state : Bool) : String :=
  clockForm (i / 60) (i % 60) ++ " " ++ Text.decimal (86400 * d.sinceEpoch + 60 * i) ++ " " ++
    (if state then "1" else "0")

theorem clockText_ofMinutes (hi : i < minutesPerDay) :
    (TimeOfDay.ofMinutes i).clockText = clockForm (i / 60) (i % 60) := by
  have hmod : i % 1440 = i := Nat.mod_eq_of_lt hi
  have hhour : (TimeOfDay.ofMinutes i).hour = i / 60 := by
    simp only [TimeOfDay.hour, TimeOfDay.ofMinutes, hmod, microsPerMinute, microsPerSecond]
    omega
  have hminute : (TimeOfDay.ofMinutes i).minute = i % 60 := by
    simp only [TimeOfDay.minute, TimeOfDay.ofMinutes, hmod, microsPerMinute, microsPerSecond]
    omega
  have hsecond : (TimeOfDay.ofMinutes i).second = 0 := by
    simp only [TimeOfDay.second, TimeOfDay.ofMinutes, hmod, microsPerMinute, microsPerSecond]
    omega
  have hzeros : ":" ++ Text.padded 2 0 = ":00" := by decide
  rw [TimeOfDay.clockText, TimeOfDay.shortText, hhour, hminute, hsecond, clockForm,
    String.append_assoc, hzeros]

theorem minuteText_minute (hi : i < minutesPerDay) :
    minuteText (d.minute i) state = minuteForm d i state := by
  have htime : (d.minute i).timeOfDay = .ofMinutes i := Instant.timeOfDay_ofDay _ _ _
  rw [minuteText, htime, clockText_ofMinutes hi, Instant.epochSeconds_minute d hi,
    decimal_stateValue, minuteForm, stateText]

theorem toList_clockForm (hour minute : Nat) : (clockForm hour minute).toList =
    [':'].intercalate [(Text.padded 2 hour).toList, (Text.padded 2 minute).toList, ['0', '0']] := by
  simp [clockForm, String.toList_append, List.intercalate]

theorem splitOnChar_clockForm (hour minute : Nat) :
    Text.splitOnChar ':' (clockForm hour minute).toList =
      [(Text.padded 2 hour).toList, (Text.padded 2 minute).toList, ['0', '0']] := by
  have hpadded : ∀ n, ':' ∉ (Text.padded 2 n).toList := fun n hmem =>
    absurd (Text.isDigit_of_mem_padded hmem) (by decide)
  rw [Text.splitOnChar_eq_splitOn, toList_clockForm, List.splitOn_intercalate]
  · simp only [List.forall_mem_cons, hpadded, not_false_eq_true, true_and]
    decide
  · exact List.cons_ne_nil _ _

theorem word_clockForm (hour minute : Nat) : Text.Word (clockForm hour minute) := by
  have hcolon : Text.isBlank ':' = false := by decide
  have hzero : Text.isBlank '0' = false := by decide
  constructor
  · simp [clockForm, String.toList_append]
  · intro c hc
    simp only [clockForm, String.toList_append, List.mem_append] at hc
    rcases hc with ((hc | hc) | hc) | hc
    · exact Text.isBlank_of_isDigit (Text.isDigit_of_mem_padded hc)
    · rwa [List.mem_singleton.1 hc]
    · exact Text.isBlank_of_isDigit (Text.isDigit_of_mem_padded hc)
    · obtain rfl | rfl : c = ':' ∨ c = '0' := by simpa using hc
      · exact hcolon
      · exact hzero

theorem fields_minuteForm (d : Day) (i : Nat) (state : Bool) :
    Text.fields (minuteForm d i state) = [clockForm (i / 60) (i % 60),
      Text.decimal (86400 * d.sinceEpoch + 60 * i), if state then "1" else "0"] := by
  have hmark : Text.Word (if state then "1" else "0") := by
    cases state with
    | false => exact Text.word_decimal 0
    | true => exact Text.word_decimal 1
  rw [minuteForm, Text.fields_append_space, Text.fields_append_space,
    (word_clockForm _ _).fields_eq, (Text.word_decimal _).fields_eq, hmark.fields_eq]
  rfl

theorem isTooLongToWrite_seconds (d : Day) (hi : i < minutesPerDay) :
    Text.isTooLongToWrite (86400 * d.sinceEpoch + 60 * i) = false := by
  have hday := d.index_lt
  have hlt : (86400 * d.sinceEpoch + 60 * i).natAbs < 10 ^ 12 := by
    simp only [minutesPerDay, dayCount, Day.sinceEpoch, Instant.epochDay] at *
    omega
  exact Text.isTooLongToWrite_of_lt hlt (by decide)

theorem readMinute?_minuteForm (hi : i < minutesPerDay) :
    readMinute? (minuteForm d i state) = some (minuteRecord d i state) := by
  have hhour : Text.readInteger? (Text.padded 2 (i / 60)) = some ((i / 60 : Nat) : Int) :=
    Text.readInteger?_padded (by decide) (by decide) (by rw [minutesPerDay] at hi; omega)
  have hminute : Text.readInteger? (Text.padded 2 (i % 60)) = some ((i % 60 : Nat) : Int) :=
    Text.readInteger?_padded (by decide) (by decide) (by omega)
  have hsecond : Text.readInteger? (String.ofList ['0', '0']) = some 0 := by decide
  have hepoch := Text.readInteger?_decimal (isTooLongToWrite_seconds d hi)
  have hstate : readMark? (if state then "1" else "0") = some state := by
    cases state <;> decide
  simp only [readMinute?, fields_minuteForm, splitOnChar_clockForm, List.map_cons, List.map_nil,
    String.ofList_toList, hhour, hminute, hsecond, hepoch, hstate]
  rfl

end Reading

section Run

variable {σ : Type} {step : Step (ExceptT Failure (StateM σ))} {d : Day} {s s' : σ}
  {previous : Option Bool} {instants : List Instant} {states : List (Instant × Bool)}

theorem neverFails_thread (h : ∀ t ∈ instants, ∀ previous, NeverFails (step t previous)) :
    NeverFails (thread step previous instants) := by
  induction instants generalizing previous with
  | nil => exact .pure []
  | cons t rest ih =>
    exact (h t List.mem_cons_self previous).bind fun state =>
      (ih fun t ht => h t (List.mem_cons_of_mem _ ht)).bind fun more => .pure _

theorem instants_of_returns_stateVector
    (h : Returns (stateVector step d none minutesPerDay) s states s') :
    states.map (·.1) = (List.range minutesPerDay).map d.minute := by
  rw [stateVector_minutes] at h
  have hinstants : Returns (thread step none ((List.range minutesPerDay).map d.minute) >>=
      fun states => pure (states.map (·.1))) s (states.map (·.1)) s' :=
    returns_bind.2 ⟨states, s', h, rfl⟩
  rw [thread_bind_congr (g := fun _ => pure ((List.range minutesPerDay).map d.minute))
    fun _ hstates => by rw [hstates]] at hinstants
  obtain ⟨_, _, -, hpure⟩ := returns_bind.1 hinstants
  exact (returns_pure.1 hpure).1.symm

theorem exists_state_of_instants {n i : Nat}
    (h : states.map (·.1) = (List.range n).map d.minute) (hi : i < n) :
    ∃ state, states[i]? = some (d.minute i, state) := by
  have hat : (states.map (·.1))[i]? = some (d.minute i) := by
    rw [h, List.getElem?_map, List.getElem?_range hi, Option.map_some]
  rw [List.getElem?_map] at hat
  obtain ⟨⟨t, state⟩, hpair, rfl⟩ := Option.map_eq_some_iff.1 hat
  exact ⟨state, hpair⟩

theorem returns_minuteLines (h : Returns (stateVector step d none minutesPerDay) s states s') :
    Returns (minuteLines step d) s (states.map fun pair => minuteText pair.1 pair.2) s' := by
  rw [minuteLines_eq, map_eq_pure_bind]
  exact returns_bind.2 ⟨states, s', h, rfl⟩

def readAt (lines : List String) (i : Nat) : Option MinuteRecord := lines[i]?.bind readMinute?

structure Shows (d : Day) (states : List (Instant × Bool)) (lines : List String) : Prop where
  count : lines.length = 1440
  line : ∀ i < 1440, ∃ state, states[i]? = some (d.minute i, state) ∧
    lines[i]? = some (minuteForm d i state) ∧ readAt lines i = some (minuteRecord d i state)

theorem shows_of_instants (h : states.map (·.1) = (List.range minutesPerDay).map d.minute) :
    Shows d states (states.map fun pair => minuteText pair.1 pair.2) := by
  constructor
  · have hlength := congrArg List.length h
    rw [List.length_map, List.length_map, List.length_range] at hlength
    rw [List.length_map, hlength, minutesPerDay]
  · intro i hi
    obtain ⟨state, hstate⟩ := exists_state_of_instants h hi
    have hline : (states.map fun pair => minuteText pair.1 pair.2)[i]? =
        some (minuteForm d i state) := by
      rw [List.getElem?_map, hstate, Option.map_some, minuteText_minute hi]
    refine ⟨state, hstate, hline, ?_⟩
    rw [readAt, hline, Option.bind_some, readMinute?_minuteForm hi]

theorem exists_shows_of_returns {lines : List String}
    (h : Returns (minuteLines step d) s lines s') :
    ∃ states, Returns (stateVector step d none minutesPerDay) s states s' ∧
      Shows d states lines := by
  obtain ⟨states, s₁, hstates, -⟩ := returns_bind.1 h
  obtain ⟨rfl, rfl⟩ := h.unique (returns_minuteLines hstates)
  exact ⟨states, hstates, shows_of_instants (instants_of_returns_stateVector hstates)⟩

/-- A step that does not fail on a day, whatever it keeps to itself, gives the day 1440 lines. Each
line is the clock time, the seconds to that minute by the number of days since 1970-01-01, and the
state, and is read as such; and from the last line of a day to the first one of the next day it is a
minute. -/
theorem minuteLines_read (step : Step (ExceptT Failure (StateM σ))) (d : Day) (s : σ) :
    ((∀ i < 1440, ∀ previous, NeverFails (step (d.minute i) previous)) →
      ∃ states s', Returns (stateVector step d none minutesPerDay) s states s') ∧
    Civil.DaysFrom ⟨1970, 1, 1⟩ d.civil d.sinceEpoch ∧
    ∀ states s', Returns (stateVector step d none minutesPerDay) s states s' →
      ∃ lines, Returns (minuteLines step d) s lines s' ∧ lines.length = 1440 ∧
        (∀ i < 1440, ∃ state, states[i]? = some (d.minute i, state) ∧
          lines[i]? = some (minuteForm d i state) ∧
          readAt lines i = some (minuteRecord d i state)) ∧
        ∀ (next : Day) (step' : Step (ExceptT Failure (StateM σ))) (t t' : σ)
            (lines' : List String),
          next.index = d.index + 1 → Returns (minuteLines step' next) t lines' t' →
          next.civil = d.civil.next ∧ ∃ last first, readAt lines 1439 = some last ∧
            readAt lines' 0 = some first ∧ first.epoch - last.epoch = 60 := by
  refine ⟨?_, d.daysFrom_epoch, ?_⟩
  · intro hstep
    rw [stateVector_minutes]
    refine neverFails_thread (fun t ht previous => ?_) s
    obtain ⟨i, hi, rfl⟩ := List.mem_map.1 ht
    exact hstep i (List.mem_range.1 hi) previous
  · intro states s' hstates
    have hshows := shows_of_instants (instants_of_returns_stateVector hstates)
    refine ⟨_, returns_minuteLines hstates, hshows.count, hshows.line, ?_⟩
    intro next step' t t' lines' hnext hlines
    obtain ⟨states', -, hshows'⟩ := exists_shows_of_returns hlines
    obtain ⟨state, -, -, hlast⟩ := hshows.line 1439 (by decide)
    obtain ⟨state', -, -, hfirst⟩ := hshows'.line 0 (by decide)
    refine ⟨Day.civil_succ hnext, _, _, hlast, hfirst, ?_⟩
    simp only [minuteRecord, Day.sinceEpoch, hnext]
    omega

end Run

section Alternation

def alternation : Step (ExceptT Failure (StateM Nat)) := fun _ previous => do
  modify (· + 1)
  return !held previous

def shortFebruary : Day := ⟨693653, by decide⟩

def firstOfMarch : Day := ⟨693654, by decide⟩

/-- Over the end of a February seventy years before 1970, seconds go on by the minute. -/
theorem minuteLines_read_shortFebruary :
    shortFebruary.civil = ⟨1900, 2, 28⟩ ∧ firstOfMarch.civil = ⟨1900, 3, 1⟩ ∧
    ∃ lines lines' count count', Returns (minuteLines alternation shortFebruary) 0 lines count ∧
      Returns (minuteLines alternation firstOfMarch) count lines' count' ∧ lines.length = 1440 ∧
      (∃ state, readAt lines 1439 = some ⟨23, 59, 0, -2203891260, state⟩) ∧
      ∃ last first, readAt lines 1439 = some last ∧ readAt lines' 0 = some first ∧
        first.epoch - last.epoch = 60 := by
  have hstep : ∀ now previous, NeverFails (alternation now previous) := fun _ _ _ => ⟨_, _, rfl⟩
  have hfebruary := minuteLines_read alternation shortFebruary 0
  obtain ⟨states, count, hstates⟩ := hfebruary.1 fun _ _ previous => hstep _ previous
  obtain ⟨lines, hlines, hlength, hread, hnext⟩ := hfebruary.2.2 states count hstates
  have hmarch := minuteLines_read alternation firstOfMarch count
  obtain ⟨states', count', hstates'⟩ := hmarch.1 fun _ _ previous => hstep _ previous
  obtain ⟨lines', hlines', -⟩ := hmarch.2.2 states' count' hstates'
  obtain ⟨hcivil, hminute⟩ := hnext firstOfMarch alternation count count' lines' rfl hlines'
  obtain ⟨state, -, -, hlast⟩ := hread 1439 (by decide)
  have hdate : shortFebruary.civil = ⟨1900, 2, 28⟩ := by decide
  refine ⟨hdate, ?_, lines, lines', count, count', hlines, hlines', hlength, ⟨state, hlast⟩,
    hminute⟩
  rw [hcivil, hdate]
  decide

end Alternation

end Output

end TradingHours
