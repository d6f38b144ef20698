import TradingHours.Proofs.Schedule.Dilation
/-!
Polling past midnight beside the vector of the new day. A run goes on from the state that it has come
to, and a vector starts closed; so the two differ while the first minutes of the day hold the state of
an open market, and never again. Main statement: `stateVector_past_midnight`.
-/
namespace TradingHours

def minuteOver (d next : Day) (i : Nat) : Instant :=
  if i < minutesPerDay then d.minute i else next.minute i

theorem minuteOver_of_lt (d next : Day) {i : Nat} (hi : i < minutesPerDay) :
    minuteOver d next i = d.minute i :=
  if_pos hi

theorem minuteOver_add (d next : Day) (i : Nat) :
    minuteOver d next (minutesPerDay + i) = next.minute i := by
  rw [minuteOver, if_neg (by omega), ← Day.minute_mod, minutesPerDay, Nat.add_mod_left,
    Day.minute_mod]

theorem shift?_past_midnight {d next : Day} (hnext : next.index = d.index + 1) {i : Nat}
    (hi : i < 2 * minutesPerDay) :
    (Instant.startOfDay d).shift? (i * microsPerMinute : Nat) = some (minuteOver d next i) := by
  by_cases h : i < minutesPerDay
  · rw [minuteOver_of_lt d next h, shift?_startOfDay d h]
  · obtain ⟨j, rfl⟩ := Nat.exists_eq_add_of_le (Nat.le_of_not_lt h)
    have hmod : j % 1440 = j := Nat.mod_eq_of_lt (by rw [minutesPerDay] at hi; omega)
    rw [minuteOver_add, Instant.shift?, Instant.ofWall?_eq_some_iff]
    refine ⟨?_, rfl⟩
    simp only [Instant.startOfDay, Day.minute, Instant.ofDay, TimeOfDay.midnight,
      TimeOfDay.ofMinutes, hmod, hnext, minutesPerDay, microsPerDay, microsPerMinute, microsPerSecond]
    push_cast
    omega

/-- The minutes of one day are followed by those of the next one. -/
theorem minuteGrid_two_days {d next : Day} (hnext : next.index = d.index + 1) :
    minuteGrid d (2 * minutesPerDay) =
      .ok ((List.range (2 * minutesPerDay)).map (minuteOver d next)) := by
  rw [minuteGrid, inCalendar_eq_ok_iff, minuteGrid?]
  exact mapM_eq_pure fun i hi => shift?_past_midnight hnext (List.mem_range.1 hi)

namespace Schedule

/-- The schedule trades a grace before an instant and not a grace after it, so a state is held. -/
def HoldsAt (windows : List Window) (g : Span) (t : Instant) : Prop :=
  tradesAfter windows g t = false ∧ tradesAfter windows (-g) t = true

section Days

variable {windows : List Window} {d next : Day} {previous : Option Bool} {g : Span}

def twoDayState (windows : List Window) (g : Span) (d next : Day) (previous : Option Bool) :
    Nat → Bool :=
  latchedAt (fun i => tradesAfter windows g (minuteOver d next i))
    (fun i => tradesAfter windows (-g) (minuteOver d next i)) (held previous)

theorem twoDayState_of_lt {i : Nat} (hi : i < minutesPerDay) :
    twoDayState windows g d next previous i = dayState windows g d previous i := by
  apply latchedAt_congr <;> intro j hj <;> rw [minuteOver_of_lt d next (by omega)]

theorem twoDayState_add (i : Nat) :
    twoDayState windows g d next previous (minutesPerDay + i) =
      dayState windows g next
        (some (twoDayState windows g d next previous (minutesPerDay - 1))) i := by
  have hgoesOn := latchedAt_add (fun i => tradesAfter windows g (minuteOver d next i))
    (fun i => tradesAfter windows (-g) (minuteOver d next i)) (held previous) (minutesPerDay - 1) i
  have hpred : minutesPerDay - 1 + 1 = minutesPerDay := rfl
  simp only [hpred, minuteOver_add] at hgoesOn
  exact hgoesOn

/-- The run past midnight and the run that starts at midnight. -/
theorem twoDayState_beside_dayState (i : Nat) :
    (twoDayState windows g d next previous (minutesPerDay - 1) = true ∧
        (∀ j ≤ i, HoldsAt windows g (next.minute j)) →
      twoDayState windows g d next previous (minutesPerDay + i) = true ∧
        dayState windows g next none i = false) ∧
    (¬ (twoDayState windows g d next previous (minutesPerDay - 1) = true ∧
        ∀ j ≤ i, HoldsAt windows g (next.minute j)) →
      twoDayState windows g d next previous (minutesPerDay + i) =
        dayState windows g next none i) := by
  rw [twoDayState_add]
  constructor
  · rintro ⟨hopen, hholds⟩
    rw [hopen]
    exact ⟨latchedAt_of_held hholds, latchedAt_of_held hholds⟩
  · intro h
    by_cases hholds : ∀ j ≤ i, HoldsAt windows g (next.minute j)
    · have hclosed : twoDayState windows g d next previous (minutesPerDay - 1) = false :=
        Bool.eq_false_iff.2 fun hopen => h ⟨hopen, hholds⟩
      rw [hclosed, dayState, dayState, held, held]
      rfl
    · exact latchedAt_of_not_held hholds

theorem stateVector_two_days (hne : windows ≠ []) (hnext : next.index = d.index + 1)
    (htoday : ∀ i < minutesPerDay, Decided windows g (d.minute i))
    (htomorrow : ∀ i < minutesPerDay, Decided windows g (next.minute i)) :
    stateVector (windowStep windows g) d previous (2 * minutesPerDay) =
      .ok ((List.range (2 * minutesPerDay)).map fun i =>
        (minuteOver d next i, twoDayState windows g d next previous i)) := by
  have hdecided : ∀ i < 2 * minutesPerDay, Decided windows g (minuteOver d next i) := by
    intro i hi
    by_cases h : i < minutesPerDay
    · rw [minuteOver_of_lt d next h]
      exact htoday i h
    · obtain ⟨j, rfl⟩ := Nat.exists_eq_add_of_le (Nat.le_of_not_lt h)
      rw [minuteOver_add]
      exact htomorrow j (by omega)
  rw [stateVector_of_minuteGrid (minuteGrid_two_days hnext)]
  exact (thread_windowStep_eq_ok_iff hne).2 ⟨hdecided, rfl⟩

end Days

section Token

variable {token : Option String} {d next : Day} {previous : Option Bool} {g : Span}
  {today tomorrow : List Bool}

/-- Two days of polling give the vector of the first day and then that of the second day, but for the
minutes from midnight on that hold the state of a market that is open at the last minute before it:
there polling says open and the vector closed. -/
theorem stateVector_past_midnight (hne : windowsOf? token ≠ []) (hnext : next.index = d.index + 1)
    (htoday : tokenVector token d previous g = .ok today)
    (htomorrow : tokenVector token next none g = .ok tomorrow) :
    ∃ polled fresh : Nat → Bool,
      stateVector (windowStep (windowsOf? token) g) d previous (2 * minutesPerDay) =
        .ok ((List.range (2 * minutesPerDay)).map fun i => (minuteOver d next i, polled i)) ∧
      today = (List.range minutesPerDay).map polled ∧
      tomorrow = (List.range minutesPerDay).map fresh ∧
      ∀ i < minutesPerDay,
        (polled (minutesPerDay - 1) = true ∧
            (∀ j ≤ i, HoldsAt (windowsOf? token) g (next.minute j)) →
          polled (minutesPerDay + i) = true ∧ fresh i = false) ∧
        (¬ (polled (minutesPerDay - 1) = true ∧
            ∀ j ≤ i, HoldsAt (windowsOf? token) g (next.minute j)) →
          polled (minutesPerDay + i) = fresh i) := by
  obtain ⟨hdecided, hstates⟩ := (tokenVector_eq_ok_iff hne).1 htoday
  obtain ⟨hdecided', hstates'⟩ := (tokenVector_eq_ok_iff hne).1 htomorrow
  refine ⟨twoDayState (windowsOf? token) g d next previous, dayState (windowsOf? token) g next none,
    stateVector_two_days hne hnext hdecided hdecided', ?_, hstates',
    fun i _ => twoDayState_beside_dayState i⟩
  rw [hstates]
  refine List.map_congr_left fun i hi => ?_
  exact (twoDayState_of_lt (List.mem_range.1 hi)).symm

def leapEve : Day := ⟨738943, by decide⟩

def leapDay : Day := ⟨738944, by decide⟩

/-- A session that ends five minutes past midnight of a leap day. Polling keeps the market open for the
grace of five minutes after it, and the vector of the leap day never opens it there. -/
theorem stateVector_past_midnight_leapDay : ∃ polled fresh : Nat → Bool,
    tokenVector (some "p12000005") leapEve none (spanOfMinutes 5) =
      .ok ((List.range minutesPerDay).map polled) ∧
    tokenVector (some "p12000005") leapDay none (spanOfMinutes 5) =
      .ok ((List.range minutesPerDay).map fresh) ∧
    stateVector (windowStep (windowsOf? (some "p12000005")) (spanOfMinutes 5)) leapEve none
        (2 * minutesPerDay) =
      .ok ((List.range (2 * minutesPerDay)).map fun i => (minuteOver leapEve leapDay i, polled i)) ∧
    (∀ i < 10, polled (minutesPerDay + i) = true ∧ fresh i = false) ∧
    ∀ i < minutesPerDay, 10 ≤ i → polled (minutesPerDay + i) = fresh i := by
  have hne : windowsOf? (some "p12000005") ≠ [] := by decide +kernel
  have hreach : ∀ d : Day, 0 < d.index → d.index + 1 < dayCount → ∀ i < minutesPerDay,
      (d.minute i).InReach (spanOfMinutes 5) :=
    fun d hfirst hlast i _ => inReach_minute (g := 5) hfirst hlast (by decide) i
  have htoday : tokenVector (some "p12000005") leapEve none (spanOfMinutes 5) = .ok _ :=
    tokenVector_of_inReach hne (hreach leapEve (by decide) (by decide))
  have htomorrow : tokenVector (some "p12000005") leapDay none (spanOfMinutes 5) = .ok _ :=
    tokenVector_of_inReach hne (hreach leapDay (by decide) (by decide))
  obtain ⟨polled, fresh, hpolled, htodayStates, hfreshStates, hbeside⟩ :=
    stateVector_past_midnight hne rfl htoday htomorrow
  rw [htodayStates] at htoday
  rw [hfreshStates] at htomorrow
  have hlast : polled (minutesPerDay - 1) = true := by
    have hsame := List.map_inj_left.1 htodayStates (minutesPerDay - 1)
      (List.mem_range.2 (by decide))
    rw [← hsame]
    exact latchedAt_of_ahead (by decide +kernel)
  have hholds : ∀ j < 10, HoldsAt (windowsOf? (some "p12000005")) (spanOfMinutes 5)
      (leapDay.minute j) := by
    unfold HoldsAt
    decide +kernel
  have hends : ¬ HoldsAt (windowsOf? (some "p12000005")) (spanOfMinutes 5) (leapDay.minute 10) := by
    unfold HoldsAt
    decide +kernel
  refine ⟨polled, fresh, htoday, htomorrow, hpolled, fun i hi => ?_, fun i hi hlate => ?_⟩
  · exact (hbeside i (Nat.lt_trans hi (by decide))).1 ⟨hlast, fun j hj => hholds j (by omega)⟩
  · exact (hbeside i hi).2 fun h => hends (h.2 10 hlate)

end Token

end Schedule

end TradingHours
