import TradingHours.Proofs.Resolution.Threading
import TradingHours.Proofs.Schedule.LatchForms
/-!
What the resolution of a market depends on. Of the sources it is what they say of the venue key. Of
the state before it is nothing at all, or the state that is held is the answer; so the answer for an
instant, taken as the state before, is the answer again.
-/
namespace TradingHours

namespace Schedule

variable {windows : List Window} {now : Instant} {g : Span} {dayTrading : Option Bool}

/-- An answer that does not look at the state before, other than to keep it. -/
def Latching (answer : Option Bool → Except Failure Bool) : Prop :=
  ∃ verdict : Except Failure (Option Bool), ∀ previous,
    answer previous = verdict.map (·.getD (held previous))

theorem Latching.const (answer : Except Failure Bool) : Latching fun _ => answer := by
  cases answer with
  | ok state => exact ⟨.ok (some state), fun _ => rfl⟩
  | error failure => exact ⟨.error failure, fun _ => rfl⟩

theorem Latching.held : Latching fun previous => .ok (held previous) := ⟨.ok none, fun _ => rfl⟩

theorem latching_latchOf (ahead behind : Except Failure Bool) :
    Latching fun previous => latchOf ahead behind previous := by
  cases ahead with
  | error failure => exact .const (.error failure)
  | ok trades =>
    cases trades with
    | true => exact .const (.ok true)
    | false =>
      cases behind with
      | error failure => exact .const (.error failure)
      | ok trades =>
        cases trades with
        | true => exact .held
        | false => exact .const (.ok false)

theorem latching_nextState :
    Latching fun previous => nextState windows now previous dayTrading g := by
  by_cases hday : dayTrading = some false
  · subst hday
    exact .const (.ok false)
  · by_cases hne : windows = []
    · subst hne
      simp only [nextState, if_neg hday]
      exact .held
    · simp only [nextState_eq_latchOf hne hday]
      exact latching_latchOf _ _

theorem latching_computeState (tradingDay : Option (Instant → Except Failure Bool))
    (tradingSession : Instant → Except Failure Bool) :
    Latching fun previous => computeState tradingDay tradingSession now previous g := by
  have hlatch : Latching fun previous => computeState none tradingSession now previous g := by
    simp only [computeState_eq_latchOf]
    exact latching_latchOf _ _
  cases tradingDay with
  | none => exact hlatch
  | some ask =>
    cases hask : ask now with
    | error failure =>
      simp only [computeState_of_failedDay hask]
      exact .const (.error failure)
    | ok trading =>
      cases trading with
      | true =>
        simp only [computeState_of_openDay hask]
        exact hlatch
      | false =>
        simp only [computeState_of_closedDay hask]
        exact .const (.ok false)

end Schedule

namespace Policy

open Schedule (held Latching)

variable {p p' : Policy} {market : Market} {now : Instant} {previous : Option Bool}

def stateOr (previous : Option Bool) : Except Failure Bool → Bool
  | .ok state => state
  | .error _ => held previous

theorem stateOr_of_latching {answer : Option Bool → Except Failure Bool} (h : Latching answer) :
    ∃ verdict : Option Bool, ∀ previous,
      stateOr previous (answer previous) = verdict.getD (held previous) := by
  obtain ⟨verdict, hanswer⟩ := h
  cases verdict with
  | ok verdict => exact ⟨verdict, fun previous => by rw [hanswer]; rfl⟩
  | error failure => exact ⟨none, fun previous => by rw [hanswer]; rfl⟩

theorem stateAt_of_token {token : String} {basis : Basis}
    (ht : p.tokenFor? market = some (token, basis)) :
    p.stateAt market now previous = stateOr previous
      (Schedule.nextState (Schedule.windowsOf token) now previous none p.grace) := by
  rw [stateAt, (resolve_answers _ _ _ _).answer_eq, resolution, ht]
  dsimp only
  cases Schedule.nextState (Schedule.windowsOf token) now previous none p.grace <;> rfl

theorem stateAt_of_calendar {calendar : Calendar} (ht : p.tokenFor? market = none)
    (hc : p.calendar = some calendar) :
    p.stateAt market now previous = stateOr previous
      (Schedule.computeState (some (calendar.tradingDay market.tvKey))
        (calendar.tradingSession market.tvKey) now previous p.grace) := by
  rw [stateAt, (resolve_answers _ _ _ _).answer_eq, resolution, ht, hc]
  dsimp only
  rw [calendarAnswer]
  cases Schedule.computeState (some (calendar.tradingDay market.tvKey))
    (calendar.tradingSession market.tvKey) now previous p.grace <;> rfl

theorem exists_verdict (p : Policy) (market : Market) (now : Instant) :
    ∃ verdict : Option Bool, ∀ previous, p.stateAt market now previous =
      verdict.getD (held previous) := by
  cases ht : p.tokenFor? market with
  | some pair =>
    obtain ⟨token, basis⟩ := pair
    simp only [stateAt_of_token ht]
    exact stateOr_of_latching Schedule.latching_nextState
  | none =>
    cases hc : p.calendar with
    | some calendar =>
      simp only [stateAt_of_calendar ht hc]
      exact stateOr_of_latching (Schedule.latching_computeState _ _)
    | none => exact ⟨none, fun previous => stateAt_of_unknown ht hc⟩

/-- Resolving again at the same instant, from the state that resolving gave, gives that state. -/
theorem stateAt_stateAt :
    p.stateAt market now (some (p.stateAt market now previous)) = p.stateAt market now previous := by
  obtain ⟨verdict, hverdict⟩ := p.exists_verdict market now
  simp only [hverdict]
  cases verdict <;> rfl

structure AgreeAt (p p' : Policy) (tvKey : String) : Prop where
  aggregated : p.aggregated.get? tvKey = p'.aggregated.get? tvKey
  definitions : p.definitions.get? tvKey = p'.definitions.get? tvKey
  calendar : p.calendar.map (fun c => (c.tradingDay tvKey, c.tradingSession tvKey)) =
    p'.calendar.map fun c => (c.tradingDay tvKey, c.tradingSession tvKey)
  grace : p.grace = p'.grace

theorem AgreeAt.tokenFor?_eq (h : AgreeAt p p' market.tvKey) :
    p.tokenFor? market = p'.tokenFor? market := by
  unfold tokenFor?
  rw [h.aggregated, h.definitions]

theorem AgreeAt.resolution_eq (h : AgreeAt p p' market.tvKey) :
    p.resolution market now previous = p'.resolution market now previous := by
  unfold resolution
  rw [h.tokenFor?_eq, h.grace]
  have hcalendar := h.calendar
  cases hc : p.calendar with
  | none =>
    cases hc' : p'.calendar with
    | none => rfl
    | some calendar' => simp [hc, hc'] at hcalendar
  | some calendar =>
    cases hc' : p'.calendar with
    | none => simp [hc, hc'] at hcalendar
    | some calendar' =>
      simp only [hc, hc', Option.map_some, Option.some_inj, Prod.mk.injEq] at hcalendar
      simp only [calendarAnswer, hcalendar.1, hcalendar.2, h.grace]

end Policy

end TradingHours
