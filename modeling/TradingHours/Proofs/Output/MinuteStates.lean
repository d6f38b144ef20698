import TradingHours.Output.Minute
import TradingHours.Proofs.Clock.Minute
import TradingHours.Proofs.Resolution.Threading
/-!
The lines of the minutes of a day, which fail exactly as the states do, and the states that the lines
of a minute file show: those of resolving the market at the minutes of the day, from a state that was
never recorded.
-/
namespace TradingHours

namespace Schedule

section Thread

variable {m : Type → Type} [Monad m] [LawfulMonad m] {step : Step m} {previous : Option Bool}
  {instants : List Instant}

/-- A run has a state at every instant it was threaded over, in order; what follows it may rely on
that, whatever the step does besides. -/
theorem thread_bind_congr {β : Type} {f g : List (Instant × Bool) → m β}
    (h : ∀ states, states.map (·.1) = instants → f states = g states) :
    thread step previous instants >>= f = thread step previous instants >>= g := by
  induction instants generalizing previous f g with
  | nil => rw [thread, pure_bind, pure_bind, h [] rfl]
  | cons t rest ih =>
    simp only [thread, bind_assoc, pure_bind]
    refine bind_congr fun state => ih fun states hstates => h _ ?_
    rw [List.map_cons, hstates]

theorem stateVector_minutes [MonadExceptOf Failure m] (step : Step m) (d : Day) :
    stateVector step d none minutesPerDay =
      thread step none ((List.range minutesPerDay).map d.minute) := by
  rw [stateVector, minuteGrid_eq]
  exact pure_bind _ _

end Thread

end Schedule

namespace Output

open Traced (Answers)

variable {t : Instant} {state : Bool}

def stateMark (state : Bool) : Char := if state then '1' else '0'

theorem toList_decimal_stateValue (state : Bool) :
    (Text.decimal (stateValue state)).toList = [stateMark state] := by
  cases state <;> decide

def stateText (state : Bool) : String := if state then "1" else "0"

theorem decimal_stateValue : Text.decimal (stateValue state) = stateText state := by
  cases state <;> decide

def minuteText (t : Instant) (state : Bool) : String :=
  t.timeOfDay.clockText ++ " " ++ Text.decimal t.epochSeconds ++ " " ++
    Text.decimal (stateValue state)

theorem minuteLine_of_utc (h : t.offset = some 0) :
    minuteLine t state = .ok (minuteText t state) := by
  have hutc : t.toUtc = .ok t := Instant.toUtc_of_offset_zero h
  simp only [minuteLine, Instant.clock, Instant.epoch, hutc]
  rfl

theorem getLast?_minuteText (t : Instant) (state : Bool) :
    (minuteText t state).toList.getLast? = some (stateMark state) := by
  rw [minuteText, String.toList_append, toList_decimal_stateValue, List.getLast?_concat]

/-- The lines of a day come from its states alone. -/
theorem minuteLines_eq {m : Type → Type} [Monad m] [LawfulMonad m] [MonadExceptOf Failure m]
    (step : Schedule.Step m) (d : Day) :
    minuteLines step d = (·.map fun pair => minuteText pair.1 pair.2) <$>
      Schedule.stateVector step d none minutesPerDay := by
  rw [minuteLines, Schedule.stateVector_minutes, map_eq_pure_bind]
  refine Schedule.thread_bind_congr fun states hstates => mapM_eq_pure fun pair hpair => ?_
  have hmem : pair.1 ∈ (List.range minutesPerDay).map d.minute := by
    rw [← hstates]
    exact List.mem_map_of_mem hpair
  obtain ⟨i, -, hi⟩ := List.mem_map.1 hmem
  have hutc : pair.1.offset = some 0 := by rw [← hi]; rfl
  dsimp only
  rw [minuteLine_of_utc hutc]
  rfl

theorem minuteLines_answers {step : Schedule.Step Traced} {answer : Schedule.Step (Except Failure)}
    (d : Day) (hs : ∀ t previous, Answers (step t previous) (answer t previous)) :
    Answers (minuteLines step d) (minuteLines answer d) := by
  unfold minuteLines
  simp only [Traced.ofExcept_self]
  exact (Schedule.stateVector_answers hs d none minutesPerDay).bind fun states =>
    Answers.mapM (fun pair => .ofExcept _) states

theorem marks_of_minuteLines {step : Schedule.Step (Except Failure)} {d : Day} {lines : List String}
    (h : minuteLines step d = .ok lines) :
    ∃ grid states, minuteGrid d minutesPerDay = .ok grid ∧
      Schedule.thread step none grid = .ok states ∧
      lines.map (·.toList.getLast?) = states.map fun pair => some (stateMark pair.2) := by
  rw [minuteLines_eq] at h
  cases hstates : Schedule.stateVector step d none minutesPerDay with
  | error failure =>
    rw [hstates] at h
    cases h
  | ok states =>
    obtain ⟨grid, hgrid, hthread⟩ := ok_bind_iff.1 hstates
    rw [Traced.ofExcept_self] at hgrid
    rw [hstates] at h
    cases h
    refine ⟨grid, states, hgrid, hthread, ?_⟩
    rw [List.map_map]
    apply List.map_congr_left
    intro pair _
    rw [Function.comp_apply, getLast?_minuteText]

/-- The file of a market's minutes, where it can be written, shows the states of resolving the
market at the minutes of the day. -/
theorem marks_of_minuteStep {p : Policy} {market : Market} {d : Day} {lines : List String}
    (h : (minuteLines (p.minuteStep market) d).answer = .ok lines) :
    ∃ grid, minuteGrid d minutesPerDay = .ok grid ∧
      lines.map (·.toList.getLast?) =
        (p.statesOver market none grid).map fun state => some (stateMark state) := by
  rw [(minuteLines_answers d Policy.minuteStep_answers).answer_eq] at h
  obtain ⟨grid, states, hgrid, hthread, hmarks⟩ := marks_of_minuteLines h
  have hstates := Policy.thread_minuteAnswer (fun _ _ => rfl) hthread
  refine ⟨grid, hgrid, ?_⟩
  rw [hmarks, ← hstates, List.map_map]
  rfl

end Output

end TradingHours
