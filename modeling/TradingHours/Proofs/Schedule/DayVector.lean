import TradingHours.Proofs.Clock.Minute
import TradingHours.Proofs.Schedule.LatchRun
/-!
The states of a token over a day as a run of the latch from minute to minute.
-/
namespace TradingHours.Schedule

section Samples

variable {windows : List Window} {t : Instant} {g s : Span} {m : TimeOfDay}

theorem tradingAfter_eq (hne : windows ≠ []) (s : Span) :
    tradingAfter windows s t = (t.sample s).map (openAt windows) :=
  isTrading_shift hne s

theorem tradesAfter_of_sample (hne : windows ≠ []) (h : t.sample s = .ok m) :
    tradesAfter windows s t = openAt windows m := by
  apply tradesAfter_eq
  rw [tradingAfter_eq hne, h]
  rfl

theorem Decided.sample_ahead (hne : windows ≠ []) (h : Decided windows g t) :
    ∃ a, t.sample g = .ok a := by
  obtain ⟨ahead, hahead, -⟩ := h
  rw [tradingAfter_eq hne] at hahead
  cases ha : t.sample g with
  | error e => simp [ha, Except.map] at hahead
  | ok a => exact ⟨a, rfl⟩

theorem decided_of_samples {a b : TimeOfDay} (hne : windows ≠ []) (ha : t.sample g = .ok a)
    (hb : t.sample (-g) = .ok b) : Decided windows g t := by
  refine ⟨openAt windows a, ?_, .inr ⟨openAt windows b, ?_⟩⟩
  · rw [tradingAfter_eq hne, ha]
    rfl
  · rw [tradingAfter_eq hne, hb]
    rfl

end Samples

/-- A latch that is sampled `n 0, …, n (k - 1)`, without these instants. -/
theorem map_thread_windowStep_eq_ok_iff {windows : List Window} {g : Span} {previous : Option Bool}
    (hne : windows ≠ []) {n : Nat → Instant} {k : Nat} {states : List Bool} :
    (thread (windowStep windows g) previous ((List.range k).map n)).map (·.map (·.2)) = .ok states ↔
      (∀ i < k, Decided windows g (n i)) ∧
        states = (List.range k).map (latchedAt (fun j => tradesAfter windows g (n j))
          (fun j => tradesAfter windows (-g) (n j)) (held previous)) := by
  constructor
  · intro h
    cases hrun : thread (windowStep windows g) previous ((List.range k).map n) with
    | error e => simp [hrun, Except.map] at h
    | ok run =>
      obtain ⟨hdecided, rfl⟩ := (thread_windowStep_eq_ok_iff hne).1 hrun
      rw [hrun, Except.map, List.map_map] at h
      exact ⟨hdecided, (Except.ok.inj h).symm⟩
  · rintro ⟨hdecided, rfl⟩
    rw [(thread_windowStep_eq_ok_iff hne).2 ⟨hdecided, rfl⟩, Except.map, List.map_map]
    rfl

variable {token : Option String} {d : Day} {previous : Option Bool} {g : Span}

def dayState (windows : List Window) (g : Span) (d : Day) (previous : Option Bool) : Nat → Bool :=
  latchedAt (fun i => tradesAfter windows g (d.minute i))
    (fun i => tradesAfter windows (-g) (d.minute i)) (held previous)

theorem stateVector_of_minuteGrid {step : Step (Except Failure)} {minutes : Nat}
    {grid : List Instant} (h : minuteGrid d minutes = .ok grid) :
    stateVector step d previous minutes = thread step previous grid := by
  rw [stateVector, h]
  rfl

theorem stateVector_eq_thread (step : Step (Except Failure)) :
    stateVector step d previous minutesPerDay =
      thread step previous ((List.range minutesPerDay).map d.minute) :=
  stateVector_of_minuteGrid (minuteGrid_eq d)

theorem tokenVector_some (token : String) (d : Day) (previous : Option Bool) (g : Span) :
    tokenVector (some token) d previous g =
      (stateVector (windowStep (windowsOf token) g) d previous minutesPerDay).map (·.map (·.2)) := by
  rw [tokenVector, windowsOf?, Option.map_some, Option.getD_some]

theorem tokenVector_eq_ok_iff (hne : windowsOf? token ≠ []) {states : List Bool} :
    tokenVector token d previous g = .ok states ↔
      (∀ i < minutesPerDay, Decided (windowsOf? token) g (d.minute i)) ∧
        states = (List.range minutesPerDay).map (dayState (windowsOf? token) g d previous) := by
  rw [tokenVector, stateVector_eq_thread]
  exact map_thread_windowStep_eq_ok_iff hne

theorem tokenVector_of_nil (h : windowsOf? token = []) : tokenVector token d previous g =
    .ok (List.replicate minutesPerDay (held previous)) := by
  have hconst : ∀ instants : List Instant,
      (thread (windowStep [] g) previous instants).map (·.map (·.2)) =
        .ok (List.replicate instants.length (held previous)) := by
    intro instants
    rw [thread_windowStep_nil, Except.map, List.map_map, ← List.map_const']
    rfl
  rw [tokenVector, stateVector_eq_thread, h, hconst, List.length_map, List.length_range]

end TradingHours.Schedule
