import TradingHours.Proofs.Schedule.LatchRun
import TradingHours.Proofs.Schedule.StayingOpen
import TradingHours.Proofs.Trail
/-!
The two forms of the latch, over windows and over questions. Both make the same of the answers for the
samples ahead and behind; only without windows, which the one takes for missing data and the other for
a market that never trades, do they differ. Main statement: `computeState_eq_nextState_iff`.
-/
namespace TradingHours.Schedule

variable {windows : List Window} {now : Instant} {previous dayTrading : Option Bool} {g s : Span}
  {ahead behind : Except Failure Bool} {tradingDay : Option (Instant → Except Failure Bool)}
  {failure : Failure}

theorem latchOf_eq_error (h : latchOf ahead behind previous = .error failure) :
    ahead = .error failure ∨ behind = .error failure := by
  cases ahead with
  | error e => exact .inl h
  | ok a =>
    cases a with
    | true => simp [latchOf, bind, Except.bind] at h
    | false =>
      cases behind with
      | error e => exact .inr h
      | ok b => cases b <;> simp [latchOf, bind, Except.bind] at h

theorem nextState_of_closedDay : nextState windows now previous (some false) g = .ok false := rfl

section Questions

variable {session : Instant → Except Failure Bool} {ask : Instant → Except Failure Bool}

theorem computeState_of_failedDay (hday : ask now = .error failure) :
    computeState (some ask) session now previous g = .error failure := by
  rw [computeState, hday]
  rfl

theorem computeState_of_closedDay (hday : ask now = .ok false) :
    computeState (some ask) session now previous g = .ok false := by
  rw [computeState, hday]
  rfl

theorem computeState_of_openDay (hday : ask now = .ok true) :
    computeState (some ask) session now previous g = computeState none session now previous g := by
  rw [computeState, hday]
  rfl

theorem computeState_eq_latchOf :
    computeState none session now previous g =
      latchOf (now.shift g >>= session) (now.shift (-g) >>= session) previous := by
  simp only [computeState, latchOf, Traced.ofExcept_self, bind_assoc, pure_bind]
  rfl

end Questions

theorem computeState_isTrading (hday : tradingDay.map (· now) = dayTrading.map .ok)
    (hopen : dayTrading ≠ some false) :
    computeState tradingDay (isTrading windows) now previous g =
      latchOf (tradingAfter windows g now) (tradingAfter windows (-g) now) previous := by
  cases tradingDay with
  | none => exact computeState_eq_latchOf
  | some ask =>
    cases dayTrading with
    | none => simp at hday
    | some day =>
      have hask : ask now = .ok day := Option.some_inj.1 hday
      obtain rfl : day = true := by simpa using hopen
      rw [computeState_of_openDay hask]
      exact computeState_eq_latchOf

theorem tradingAfter_eq_error (hne : windows ≠ []) (h : tradingAfter windows s now = .error failure) :
    failure = .dateOutOfRange := by
  have hsample : tradingAfter windows s now = (now.sample s).map (openAt windows) :=
    isTrading_shift hne s
  rw [hsample] at h
  cases hm : now.sample s with
  | error e =>
    rw [hm] at h
    cases h
    exact Instant.sample_eq_error hm
  | ok m => simp [hm, Except.map] at h

/-- The latch over windows fails only where a sample is not in the calendar. -/
theorem nextState_eq_error (h : nextState windows now previous dayTrading g = .error failure) :
    failure = .dateOutOfRange := by
  by_cases hday : dayTrading = some false
  · rw [hday, nextState_of_closedDay] at h
    cases h
  · by_cases hne : windows = []
    · rw [hne, nextState, if_neg hday] at h
      cases h
    · rw [nextState_eq_latchOf hne hday] at h
      rcases latchOf_eq_error h with h | h <;> exact tradingAfter_eq_error hne h

theorem tradingAfter_nil (h : ∃ t, now.shift s = .ok t) : tradingAfter [] s now = .ok false := by
  obtain ⟨t, ht⟩ := h
  rw [tradingAfter, ht]
  rfl

theorem held_eq_false_iff : held previous = false ↔ previous ≠ some true := by
  cases previous with
  | none => simp [held]
  | some state => simp [held]

/-- Over the same windows, with the same answer about the day or with none, both forms of the latch
give the same state or fail alike. Without windows and on a day that is not known to be closed they
agree only if there is no open state to keep. -/
theorem computeState_eq_nextState_iff (hday : tradingDay.map (· now) = dayTrading.map .ok) :
    (windows ≠ [] ∨ dayTrading = some false →
      computeState tradingDay (isTrading windows) now previous g =
        nextState windows now previous dayTrading g ∧
      ∀ failure, nextState windows now previous dayTrading g = .error failure →
        failure = .dateOutOfRange) ∧
    (windows = [] → dayTrading ≠ some false → (∃ t, now.shift g = .ok t) →
      (∃ t, now.shift (-g) = .ok t) →
      (computeState tradingDay (isTrading windows) now previous g =
          nextState windows now previous dayTrading g ↔ previous ≠ some true)) := by
  refine ⟨fun h => ⟨?_, fun failure => nextState_eq_error⟩, ?_⟩
  · by_cases hclosed : dayTrading = some false
    · subst hclosed
      obtain ⟨ask, rfl, hask⟩ := Option.map_eq_some_iff.1 hday
      rw [computeState_of_closedDay hask, nextState_of_closedDay]
    · have hne := h.resolve_right hclosed
      rw [computeState_isTrading hday hclosed, nextState_eq_latchOf hne hclosed]
  · rintro rfl hopen hahead hbehind
    have hstate : nextState [] now previous dayTrading g = .ok (held previous) := if_neg hopen
    rw [computeState_isTrading hday hopen, tradingAfter_nil hahead, tradingAfter_nil hbehind, hstate,
      ← held_eq_false_iff]
    change (.ok false : Except Failure Bool) = .ok (held previous) ↔ _
    rw [Except.ok.injEq, eq_comm]

/-- In a session both forms open the market. Without windows the one keeps it open and the other
closes it. -/
theorem computeState_eq_nextState_noon :
    computeState (some fun _ => .ok true) (isTrading (windowsOf "p09301600")) (midMinute 720) none
        (spanOfMinutes 5) =
      nextState (windowsOf "p09301600") (midMinute 720) none (some true) (spanOfMinutes 5) ∧
    computeState none (isTrading []) (midMinute 720) (some true) (spanOfMinutes 5) ≠
      nextState [] (midMinute 720) (some true) none (spanOfMinutes 5) := by
  have hne : windowsOf "p09301600" ≠ [] := by decide +kernel
  have hunasked : (none : Option (Instant → Except Failure Bool)).map (· (midMinute 720)) =
      (none : Option Bool).map .ok := rfl
  have hahead : (midMinute 720).shift (spanOfMinutes 5) = .ok (midMinute 725) :=
    Instant.shift_eq_ok_iff.2 ⟨by decide, rfl⟩
  have hbehind : (midMinute 720).shift (-spanOfMinutes 5) = .ok (midMinute 715) :=
    Instant.shift_eq_ok_iff.2 ⟨by decide, rfl⟩
  refine ⟨((computeState_eq_nextState_iff rfl).1 (.inl hne)).1, fun h => ?_⟩
  exact ((computeState_eq_nextState_iff hunasked).2 rfl (by simp) ⟨_, hahead⟩ ⟨_, hbehind⟩).1 h rfl

end TradingHours.Schedule
