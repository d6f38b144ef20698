import TradingHours.Proofs.Resolution.Threading
import TradingHours.Proofs.Schedule.DayVector
import TradingHours.Proofs.Schedule.LatchForms
/-!
When resolving a market returns. A calendar that fails and a venue that no source knows are dealt
with, but a schedule is sampled without a guard: resolving fails exactly where a sample that the
latch looks at strays from the calendar. Main statement: `resolve_returns_or_strays`.
-/
namespace TradingHours

namespace Schedule

variable {windows : List Window} {now : Instant} {previous : Option Bool} {g s : Span}
  {failure : Failure}

/-- A sample that the latch looks at is not in the calendar: the one ahead, or the one behind unless
the market trades ahead. -/
def Strays (windows : List Window) (g : Span) (now : Instant) : Prop :=
  ¬ now.Reaches g ∨ tradesAfter windows g now = false ∧ ¬ now.Reaches (-g)

theorem exists_tradingAfter_iff (hne : windows ≠ []) :
    (∃ trading, tradingAfter windows s now = .ok trading) ↔ now.Reaches s := by
  rw [Instant.Reaches, ← Instant.exists_sample_iff, tradingAfter_eq hne]
  cases now.sample s <;> simp [Except.map]

theorem decided_iff_not_strays (hne : windows ≠ []) :
    Decided windows g now ↔ ¬ Strays windows g now := by
  rw [Strays, ← exists_tradingAfter_iff hne, ← exists_tradingAfter_iff hne, Decided]
  cases hahead : tradingAfter windows g now with
  | error e => simp
  | ok ahead =>
    have htrades : tradesAfter windows g now = ahead := tradesAfter_eq hahead
    generalize (∃ behind, tradingAfter windows (-g) now = .ok behind) = reached
    cases ahead <;> simp [htrades]

/-- The latch of a schedule fails exactly where a sample strays. -/
theorem nextState_eq_error_iff (hne : windows ≠ []) :
    nextState windows now previous none g = .error failure ↔
      failure = .dateOutOfRange ∧ Strays windows g now := by
  by_cases hstrays : Strays windows g now
  · cases hr : nextState windows now previous none g with
    | error e => simp [nextState_eq_error hr, hstrays, eq_comm]
    | ok state =>
      exact absurd hstrays ((decided_iff_not_strays hne).1 ((nextState_eq_ok_iff hne).1 hr).1)
  · have hstate : nextState windows now previous none g = .ok _ :=
      (nextState_eq_ok_iff hne).2 ⟨(decided_iff_not_strays hne).2 hstrays, rfl⟩
    simp [hstate, hstrays]

theorem thread_eq_error {step : Step (Except Failure)} {instants : List Instant}
    (h : thread step previous instants = .error failure) :
    ∃ t before, step t before = .error failure := by
  induction instants generalizing previous with
  | nil => cases h
  | cons t rest ih =>
    rw [thread] at h
    cases hstep : step t previous with
    | error e =>
      rw [hstep] at h
      cases h
      exact ⟨t, previous, hstep⟩
    | ok state =>
      rw [hstep] at h
      change (thread step (some state) rest >>= _) = _ at h
      cases hrest : thread step (some state) rest with
      | error e =>
        rw [hrest] at h
        cases h
        exact ih hrest
      | ok states =>
        rw [hrest] at h
        cases h

section Vector

variable {token : Option String} {d : Day}

theorem tokenVector_eq_error (h : tokenVector token d previous g = .error failure) :
    failure = .dateOutOfRange := by
  rw [tokenVector, stateVector_eq_thread] at h
  cases hrun : thread (windowStep (windowsOf? token) g) previous
      ((List.range minutesPerDay).map d.minute) with
  | error e =>
    rw [hrun] at h
    cases h
    obtain ⟨t, before, hstep⟩ := thread_eq_error hrun
    exact nextState_eq_error hstep
  | ok states =>
    rw [hrun] at h
    cases h

/-- The vector of a token fails exactly if the latch strays at a minute of the day. -/
theorem tokenVector_eq_error_iff :
    tokenVector token d previous g = .error failure ↔
      failure = .dateOutOfRange ∧ windowsOf? token ≠ [] ∧
        ∃ i < minutesPerDay, Strays (windowsOf? token) g (d.minute i) := by
  by_cases hne : windowsOf? token = []
  · rw [tokenVector_of_nil hne]
    simp [hne]
  · cases hvector : tokenVector token d previous g with
    | ok states =>
      have hdecided := ((tokenVector_eq_ok_iff hne).1 hvector).1
      refine iff_of_false nofun ?_
      rintro ⟨-, -, i, hi, hstrays⟩
      exact (decided_iff_not_strays hne).1 (hdecided i hi) hstrays
    | error e =>
      obtain rfl := tokenVector_eq_error hvector
      have hstrays : ∃ i < minutesPerDay, Strays (windowsOf? token) g (d.minute i) := by
        refine Classical.byContradiction fun hnone => ?_
        have hdecided : ∀ i < minutesPerDay, Decided (windowsOf? token) g (d.minute i) :=
          fun i hi => (decided_iff_not_strays hne).2 fun hstrays => hnone ⟨i, hi, hstrays⟩
        have hok : tokenVector token d previous g = .ok _ :=
          (tokenVector_eq_ok_iff hne).2 ⟨hdecided, rfl⟩
        rw [hvector] at hok
        cases hok
      simp [hne, hstrays, eq_comm]

end Vector

end Schedule

namespace Policy

open Schedule (windowsOf)

variable {p : Policy} {market : Market} {now : Instant} {previous : Option Bool} {failure : Failure}

/-- The market has a schedule, and a sample of it strays from the calendar. -/
def Strays (p : Policy) (market : Market) (now : Instant) : Prop :=
  ∃ token basis, p.tokenFor? market = some (token, basis) ∧ windowsOf token ≠ [] ∧
    Schedule.Strays (windowsOf token) p.grace now

theorem resolution_eq_error_iff :
    p.resolution market now previous = .error failure ↔
      failure = .dateOutOfRange ∧ p.Strays market now := by
  unfold resolution Strays
  cases ht : p.tokenFor? market with
  | none => cases p.calendar <;> simp
  | some pair =>
    obtain ⟨token, basis⟩ := pair
    by_cases hne : windowsOf token = []
    · simp [hne, Schedule.nextState, bind, Except.bind, pure, Except.pure]
    · have hstep :
          Schedule.nextState (windowsOf token) now previous none p.grace = .error failure ↔ _ :=
        Schedule.nextState_eq_error_iff hne
      cases hr : Schedule.nextState (windowsOf token) now previous none p.grace with
      | error e =>
        rw [hr] at hstep
        simpa [hr, bind, Except.bind, hne] using hstep
      | ok state =>
        rw [hr] at hstep
        simpa [hr, bind, Except.bind, pure, Except.pure, hne] using hstep

/-- Resolving a market returns a resolution of that market, whatever its sources, its calendar and
the state before, unless a sample of its schedule strays from the calendar: then it fails. -/
theorem resolve_returns_or_strays (p : Policy) (market : Market) (now : Instant)
    (previous : Option Bool) (trail : Trail) :
    (¬ p.Strays market now ∧ ∃ r trail', Returns (p.resolve market now previous) trail r trail' ∧
      r.marketId = market.id) ∨
    (p.Strays market now ∧
      (exec (p.resolve market now previous) trail).1 = .error .dateOutOfRange) := by
  have hanswer : (exec (p.resolve market now previous) trail).1 =
      p.resolution market now previous := resolve_answers p market now previous trail
  cases hr : p.resolution market now previous with
  | error failure =>
    obtain ⟨rfl, hstrays⟩ := resolution_eq_error_iff.1 hr
    exact .inr ⟨hstrays, hanswer.trans hr⟩
  | ok r =>
    refine .inl ⟨fun hstrays => ?_, r, _, Prod.ext (hanswer.trans hr) rfl,
      marketId_of_resolution hr⟩
    have hfails : p.resolution market now previous = .error .dateOutOfRange :=
      resolution_eq_error_iff.2 ⟨rfl, hstrays⟩
    rw [hr] at hfails
    cases hfails

def dayPolicy : Policy := ⟨[("tv.X", "p09301600")], [], none, spanOfMinutes 5⟩

def lastMinute : Instant := .ofDay ⟨3652058, by decide⟩ (.ofMinutes 1439) (some 0)

/-- At the last minute of the calendar a market with a schedule is not resolved. -/
theorem resolve_fails_at_lastMinute :
    (exec (dayPolicy.resolve ⟨"x", "tv.X", "k"⟩ lastMinute (some true)) {}).1 =
      .error .dateOutOfRange := by
  have hstrays : dayPolicy.Strays ⟨"x", "tv.X", "k"⟩ lastMinute := by
    refine ⟨"p09301600", .aggregated, rfl, by decide +kernel, .inl ?_⟩
    unfold Instant.Reaches
    decide +kernel
  exact (resolve_answers _ _ _ _ _).trans (resolution_eq_error_iff.2 ⟨rfl, hstrays⟩)

end Policy

end TradingHours
