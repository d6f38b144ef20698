import TradingHours.Proofs.Trail
import TradingHours.Resolution.Policy
/-!
The state of one market from instant to instant. What resolving answers depends on the previous
state only through the state that is held, so a state that was never recorded and a closed one lead
to the same states.
-/
namespace TradingHours

namespace Schedule

variable {windows : List Window} {now : Instant} {previous : Option Bool} {g : Span}

theorem nextState_held (dayTrading : Option Bool) :
    nextState windows now (some (held previous)) dayTrading g =
      nextState windows now previous dayTrading g := by
  cases previous <;> rfl

theorem computeState_held {m : Type → Type} [Monad m] [MonadExceptOf Failure m]
    (tradingDay : Option (Instant → m Bool)) (tradingSession : Instant → m Bool) :
    computeState tradingDay tradingSession now (some (held previous)) g =
      computeState tradingDay tradingSession now previous g := by
  cases previous <;> rfl

section Answers

open Traced (Answers)

variable {step : Step Traced} {answer : Step (Except Failure)}

theorem thread_answers (h : ∀ t previous, Answers (step t previous) (answer t previous))
    (previous : Option Bool) (instants : List Instant) :
    Answers (thread step previous instants) (thread answer previous instants) := by
  induction instants generalizing previous with
  | nil => exact .pure []
  | cons t rest ih =>
    exact (h t previous).bind fun state => (ih (some state)).bind fun _ => .pure _

theorem stateVector_answers (h : ∀ t previous, Answers (step t previous) (answer t previous))
    (d : Day) (previous : Option Bool) (minutes : Nat) :
    Answers (stateVector step d previous minutes) (stateVector answer d previous minutes) := by
  unfold stateVector
  simp only [Traced.ofExcept_self]
  exact (Answers.ofExcept _).bind fun grid => thread_answers h previous grid

end Answers

end Schedule

namespace Policy

open Schedule (held nextState computeState windowsOf)
open Traced (Answers answer)

variable {p : Policy} {calendar : Calendar} {market : Market} {now : Instant}
  {previous : Option Bool}

def calendarAnswer (p : Policy) (calendar : Calendar) (tvKey : String) (now : Instant)
    (previous : Option Bool) : Except Failure Bool :=
  computeState (some (calendar.tradingDay tvKey)) (calendar.tradingSession tvKey) now previous
    p.grace

theorem calendarState_answers (p : Policy) (calendar : Calendar) (tvKey : String) (now : Instant)
    (previous : Option Bool) :
    Answers (p.calendarState calendar tvKey now previous)
      (p.calendarAnswer calendar tvKey now previous) := by
  unfold calendarState calendarAnswer computeState
  refine .bind (.ask _ _) fun day => ?_
  cases day with
  | false => exact .pure _
  | true =>
    simp only [Traced.ofExcept_self]
    refine .bind (.ofExcept _) fun ahead => .bind (.ask _ _) fun trades => ?_
    cases trades with
    | true => exact .pure _
    | false =>
      refine .bind (.ofExcept _) fun behind => .bind (.ask _ _) fun trades => ?_
      cases trades <;> exact .pure _

def kept (market : Market) (previous : Option Bool) (reason : Incident) : Resolution where
  marketId := market.id
  tvKey := market.tvKey
  state := held previous
  source := .fallback
  error := some (.incident reason)

theorem keep_answers (reason : Incident) :
    Answers (keep market previous reason) (.ok (kept market previous reason)) := fun _ => rfl

def byToken (market : Market) (token : String) (source : Basis) (state : Bool) : Resolution where
  marketId := market.id
  tvKey := market.tvKey
  state := state
  source := source
  token := some token
  error := if (windowsOf token).isEmpty then some (.incident (unusableToken token)) else none

theorem resolveToken_answers (token : String) (source : Basis) :
    Answers (p.resolveToken market token source now previous) (do
      return byToken market token source
        (← nextState (windowsOf token) now previous none p.grace)) := by
  unfold resolveToken byToken
  refine .bind (.ofExcept _) fun state => ?_
  split
  · exact .bind (g := fun _ => .ok _) (.note _) fun _ => .pure _
  · split
    · exact .bind (g := fun _ => .ok _) (.note _) fun _ => .pure _
    · exact .pure _

def byCalendar (market : Market) (previous : Option Bool) : Except Failure Bool → Resolution
  | .ok state => { marketId := market.id, tvKey := market.tvKey, state := state, source := .calendar }
  | .error failure =>
    kept market previous
      (.ofCalendar ("Calendar lookup failed: " ++ failure.message) market.tvKey)

theorem resolveCalendar_answers :
    Answers (p.resolveCalendar calendar market now previous)
      (.ok (byCalendar market previous (p.calendarAnswer calendar market.tvKey now previous))) := by
  have h := (calendarState_answers p calendar market.tvKey now previous).outcome
  refine .bind (g := fun answer => .ok (byCalendar market previous answer)) h fun answer => ?_
  cases answer with
  | ok state => exact .bind (g := fun _ => .ok _) (.note _) fun _ => .pure _
  | error failure => exact keep_answers _

def resolution (p : Policy) (market : Market) (now : Instant) (previous : Option Bool) :
    Except Failure Resolution :=
  match p.tokenFor? market with
  | some (token, source) => do
    return byToken market token source (← nextState (windowsOf token) now previous none p.grace)
  | none =>
    match p.calendar with
    | some calendar =>
      .ok (byCalendar market previous (p.calendarAnswer calendar market.tvKey now previous))
    | none => .ok (kept market previous (unknownVenue market.tvKey))

theorem resolve_answers (p : Policy) (market : Market) (now : Instant) (previous : Option Bool) :
    Answers (p.resolve market now previous) (p.resolution market now previous) := by
  unfold resolve resolution
  cases p.tokenFor? market with
  | some pair => exact resolveToken_answers pair.1 pair.2
  | none =>
    cases p.calendar with
    | some calendar => exact resolveCalendar_answers
    | none => exact keep_answers _

theorem calendarAnswer_held {tvKey : String} :
    p.calendarAnswer calendar tvKey now (some (held previous)) =
      p.calendarAnswer calendar tvKey now previous :=
  Schedule.computeState_held _ _

theorem byCalendar_held (answer : Except Failure Bool) :
    byCalendar market (some (held previous)) answer = byCalendar market previous answer := by
  cases answer <;> rfl

/-- A state that was never recorded counts as closed, whatever the state rests on. -/
theorem resolution_held :
    p.resolution market now (some (held previous)) = p.resolution market now previous := by
  unfold resolution
  cases p.tokenFor? market with
  | some pair => simp only [Schedule.nextState_held]
  | none =>
    cases p.calendar with
    | some calendar => simp only [calendarAnswer_held, byCalendar_held]
    | none => rfl

theorem marketId_of_resolution {r : Resolution} (h : p.resolution market now previous = .ok r) :
    r.marketId = market.id := by
  unfold resolution at h
  split at h
  · obtain ⟨state, -, h⟩ := ok_bind_iff.1 h
    cases h
    rfl
  · split at h
    · next calendar _ =>
      cases h
      cases p.calendarAnswer calendar market.tvKey now previous <;> rfl
    · cases h
      rfl

/-- The state that resolving a market gives. Resolving that fails keeps the state. -/
def stateAt (p : Policy) (market : Market) (now : Instant) (previous : Option Bool) : Bool :=
  match (p.resolve market now previous).answer with
  | .ok r => r.state
  | .error _ => held previous

def statesOver (p : Policy) (market : Market) : Option Bool → List Instant → List Bool
  | _, [] => []
  | previous, now :: rest =>
    p.stateAt market now previous ::
      p.statesOver market (some (p.stateAt market now previous)) rest

theorem stateAt_held : p.stateAt market now (some (held previous)) = p.stateAt market now previous := by
  simp only [stateAt, (resolve_answers _ _ _ _).answer_eq, resolution_held]
  rfl

theorem statesOver_held (instants : List Instant) :
    p.statesOver market (some (held previous)) instants = p.statesOver market previous instants := by
  cases instants with
  | nil => rfl
  | cons now rest => rw [statesOver, statesOver, stateAt_held]

/-- Without a token and a calendar a market keeps its state. -/
theorem stateAt_of_unknown (ht : p.tokenFor? market = none) (hc : p.calendar = none) :
    p.stateAt market now previous = held previous := by
  rw [stateAt, (resolve_answers _ _ _ _).answer_eq, resolution, ht, hc]
  rfl

section Minutes

def minuteAnswer (p : Policy) (market : Market) : Schedule.Step (Except Failure) :=
  match p.tokenFor? market with
  | some (token, _) => Schedule.windowStep (windowsOf token) p.grace
  | none =>
    match p.calendar with
    | some calendar => fun now previous =>
      tryCatch (p.calendarAnswer calendar market.tvKey now previous) fun _ => .ok (held previous)
    | none => fun _ _ => .ok false

theorem minuteStep_answers (now : Instant) (previous : Option Bool) :
    Answers (p.minuteStep market now previous) (p.minuteAnswer market now previous) := by
  unfold minuteStep minuteAnswer
  cases p.tokenFor? market with
  | some pair => exact .ofExcept _
  | none =>
    cases p.calendar with
    | none => exact .pure false
    | some calendar =>
      refine (calendarState_answers p calendar market.tvKey now previous).tryCatch fun failure => ?_
      exact .bind (g := fun _ => .ok _) (.note _) fun _ => .pure _

/-- A market keeps its state for want of a source only while it is closed. -/
def Grounded (p : Policy) (market : Market) (previous : Option Bool) : Prop :=
  p.tokenFor? market = none → p.calendar = none → held previous = false

theorem minuteAnswer_eq_stateAt {state : Bool} (hg : p.Grounded market previous)
    (h : p.minuteAnswer market now previous = .ok state) :
    p.stateAt market now previous = state ∧ p.Grounded market (some state) := by
  rw [stateAt, (resolve_answers _ _ _ _).answer_eq]
  unfold minuteAnswer at h
  unfold resolution
  cases ht : p.tokenFor? market with
  | some pair =>
    rw [ht] at h
    refine ⟨?_, fun hnone => by simp [hnone] at ht⟩
    simp only [Schedule.windowStep] at h
    simp [h, bind, Except.bind, pure, Except.pure, byToken]
  | none =>
    cases hc : p.calendar with
    | some calendar =>
      rw [ht, hc] at h
      refine ⟨?_, fun _ hnone => by simp [hnone] at hc⟩
      simp only at h ⊢
      cases hr : p.calendarAnswer calendar market.tvKey now previous with
      | ok state' =>
        rw [hr] at h
        cases h
        rfl
      | error failure =>
        rw [hr] at h
        cases h
        rfl
    | none =>
      -- here the step from minute to minute closes the market, and resolving keeps its state
      rw [ht, hc] at h
      cases h
      exact ⟨hg ht hc, fun _ _ => rfl⟩

/-- From a grounded state the step from minute to minute runs through the states of resolving. -/
theorem thread_minuteAnswer {states : List (Instant × Bool)} {instants : List Instant}
    (hg : p.Grounded market previous)
    (h : Schedule.thread (p.minuteAnswer market) previous instants = .ok states) :
    states.map (·.2) = p.statesOver market previous instants := by
  induction instants generalizing previous states with
  | nil =>
    cases h
    rfl
  | cons now rest ih =>
    rw [Schedule.thread] at h
    obtain ⟨state, hs, h⟩ := ok_bind_iff.1 h
    obtain ⟨more, ht, h⟩ := ok_bind_iff.1 h
    obtain ⟨hstate, hg'⟩ := minuteAnswer_eq_stateAt hg hs
    cases h
    rw [List.map_cons, ih hg' ht, statesOver, hstate]

end Minutes

end Policy

end TradingHours
