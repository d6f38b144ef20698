import Mathlib.Algebra.BigOperators.Intervals
import TradingHours.Proofs.Schedule.DayVector
import TradingHours.Proofs.Schedule.TokenMeaning
/-!
How often a market changes its state in a day. It opens only where the sample ahead begins to trade,
around the clock this happens at most once for each window, and between two closings it opens. Main
statement: `countTransitions_tokenVector_le`.
-/
namespace TradingHours.Schedule

def rises (f : Nat → Bool) (n : Nat) : Finset Nat :=
  (Finset.range n).filter fun i => f i = false ∧ f (i + 1) = true

section Sequences

variable {f g : Nat → Bool} {n : Nat}

theorem mem_rises {i : Nat} : i ∈ rises f n ↔ i < n ∧ f i = false ∧ f (i + 1) = true := by
  rw [rises, Finset.mem_filter, Finset.mem_range]

theorem card_rises_succ : (rises f (n + 1)).card =
    (rises f n).card + if f n = false ∧ f (n + 1) = true then 1 else 0 := by
  rw [rises, rises, Finset.card_filter, Finset.card_filter, Finset.sum_range_succ]

theorem card_rises_shift : (rises f (n + 1)).card =
    (rises (fun i => f (i + 1)) n).card + if f 0 = false ∧ f 1 = true then 1 else 0 := by
  rw [rises, rises, Finset.card_filter, Finset.card_filter, Finset.sum_range_succ']

/-- Rises and falls take turns, so the ends of a sequence tell how many falls there are. -/
theorem countTransitions_range (f : Nat → Bool) (n : Nat) :
    countTransitions ((List.range (n + 1)).map f) + (f n).toNat =
      2 * (rises f n).card + (f 0).toNat := by
  induction n generalizing f with
  | zero => simp [countTransitions, rises]
  | succ n ih =>
    have hrest := ih fun i => f (i + 1)
    rw [map_range_succ] at hrest
    rw [map_range_succ, map_range_succ, countTransitions, card_rises_shift]
    cases h0 : f 0 <;> cases h1 : f 1 <;> simp [h1] at hrest ⊢ <;> omega

theorem countTransitions_replicate (n : Nat) (b : Bool) :
    countTransitions (List.replicate n b) = 0 := by
  have h := countTransitions_range (fun _ => b) (n - 1)
  cases n with
  | zero => rfl
  | succ n =>
    rw [List.map_const', List.length_range] at h
    simpa [rises] using h

/-- A latch that opens was set, and it was not before. -/
theorem rises_latchedAt_subset (ahead behind : Nat → Bool) (previous : Bool) (n : Nat) :
    rises (latchedAt ahead behind previous) n ⊆ rises ahead n := by
  intro i hi
  obtain ⟨hn, hclosed, hopen⟩ := mem_rises.1 hi
  have hset : ahead (i + 1) = true := by simpa [latchedAt, hclosed] using hopen
  have hbefore : ahead i = false := by
    cases hahead : ahead i with
    | false => rfl
    | true => simp [latchedAt_of_ahead hahead] at hclosed
  exact mem_rises.2 ⟨hn, hbefore, hset⟩

theorem rises_or_subset : rises (fun i => f i || g i) n ⊆ rises f n ∪ rises g n := by
  intro i hi
  obtain ⟨hn, hlow, hhigh⟩ := mem_rises.1 hi
  obtain ⟨hf, hg⟩ := Bool.or_eq_false_iff.1 hlow
  rw [Finset.mem_union, mem_rises, mem_rises]
  exact (Bool.or_eq_true_iff.1 hhigh).imp (fun h => ⟨hn, hf, h⟩) fun h => ⟨hn, hg, h⟩

/-- Around a circle of samples a latch changes twice for each rise ahead, and once more if it was on at
first. A latch that was off is only on at the start if the sample there was set: by a rise that is
counted, or by the last sample, which leaves it on at the end. -/
theorem countTransitions_latchedAt_le (ahead behind : Nat → Bool) (previous : Bool) (hpos : 0 < n)
    (hcircle : ahead n = ahead 0) :
    countTransitions ((List.range n).map (latchedAt ahead behind previous)) ≤
      2 * (rises ahead n).card + previous.toNat := by
  obtain ⟨n, rfl⟩ := Nat.exists_eq_add_one.2 hpos
  have hcount := countTransitions_range (latchedAt ahead behind previous) n
  have hrises := Finset.card_le_card (rises_latchedAt_subset ahead behind previous n)
  rw [card_rises_succ, hcircle]
  cases previous with
  | true =>
    have hfirst := Bool.toNat_le (latchedAt ahead behind true 0)
    simp only [Bool.toNat_true]
    omega
  | false =>
    have hfirst : latchedAt ahead behind false 0 = ahead 0 := by simp [latchedAt]
    rw [hfirst] at hcount
    cases h0 : ahead 0 with
    | false =>
      simp only [h0, Bool.toNat_false] at hcount ⊢
      omega
    | true =>
      cases hn : ahead n with
      | false =>
        simp only [h0, and_self, if_true, Bool.toNat_true, Bool.toNat_false] at hcount ⊢
        omega
      | true =>
        rw [latchedAt_of_ahead hn, h0] at hcount
        simp only [Bool.toNat_false]
        omega

end Sequences

section Circle

variable {moment : Nat → TimeOfDay} {s : Span}

/-- A moment that a window holds, when it does not hold the moment a minute before, comes less than a
minute after the window opens. -/
theorem Window.opened_before {w : Window} {m m' : TimeOfDay} (hm : w.contains m = false)
    (hm' : w.contains m' = true)
    (h : (m'.micros : Int) = (m.micros + (microsPerMinute : Int)) % microsPerDay) :
    ((m'.micros : Int) - w.start.micros) % microsPerDay < microsPerMinute := by
  have hstart := w.start.micros_lt
  have hfinish := w.finish.micros_lt
  have hlt := m.micros_lt
  have hlt' := m'.micros_lt
  cases hc : w.coversDay with
  | true => simp [contains, hc] at hm
  | false =>
    rw [← Bool.not_eq_true] at hm
    simp only [microsPerDay, microsPerMinute, microsPerSecond] at *
    cases ho : w.overnight with
    | true =>
      rw [contains_overnight_iff hc ho] at hm hm'
      omega
    | false =>
      rw [contains_daytime_iff hc ho] at hm hm'
      omega

/-- Around the clock a window opens once. -/
theorem card_rises_contains_le (hmoment : ∀ i, ((moment i).micros : Int) =
    ((i * microsPerMinute : Nat) + s) % microsPerDay) (w : Window) :
    (rises (fun i => w.contains (moment i)) minutesPerDay).card ≤ 1 := by
  refine Finset.card_le_one.2 fun i hi j hj => ?_
  have hopened : ∀ i ∈ rises (fun i => w.contains (moment i)) minutesPerDay,
      i < minutesPerDay ∧ ((((i + 1) * microsPerMinute : Nat) : Int) + s - w.start.micros) %
        microsPerDay < microsPerMinute := by
    intro i hi
    obtain ⟨hn, hbefore, hin⟩ := mem_rises.1 hi
    have hstep : ((moment (i + 1)).micros : Int) =
        ((moment i).micros + (microsPerMinute : Int)) % microsPerDay := by
      rw [hmoment, hmoment]
      simp only [microsPerDay, microsPerMinute, microsPerSecond]
      omega
    have h := Window.opened_before hbefore hin hstep
    rw [hmoment] at h
    refine ⟨hn, ?_⟩
    simp only [microsPerDay, microsPerMinute, microsPerSecond] at h ⊢
    omega
  obtain ⟨hi, hi'⟩ := hopened i hi
  obtain ⟨hj, hj'⟩ := hopened j hj
  simp only [minutesPerDay, microsPerDay, microsPerMinute, microsPerSecond] at *
  omega

theorem card_rises_openAt_le (hmoment : ∀ i, ((moment i).micros : Int) =
    ((i * microsPerMinute : Nat) + s) % microsPerDay) (windows : List Window) :
    (rises (fun i => openAt windows (moment i)) minutesPerDay).card ≤ windows.length := by
  induction windows with
  | nil => simp [rises, openAt]
  | cons w windows ih =>
    have hfirst := card_rises_contains_le hmoment w
    calc (rises (fun i => openAt (w :: windows) (moment i)) minutesPerDay).card
        ≤ (rises (fun i => w.contains (moment i)) minutesPerDay ∪
            rises (fun i => openAt windows (moment i)) minutesPerDay).card :=
          Finset.card_le_card rises_or_subset
      _ ≤ (rises (fun i => w.contains (moment i)) minutesPerDay).card +
            (rises (fun i => openAt windows (moment i)) minutesPerDay).card :=
          Finset.card_union_le ..
      _ ≤ (w :: windows).length := by
          rw [List.length_cons]
          omega

end Circle

section Day

variable {windows : List Window} {d : Day} {g : Span} {previous : Option Bool}

theorem card_rises_tradesAfter_le (hne : windows ≠ [])
    (hdecided : ∀ i < minutesPerDay, Decided windows g (d.minute i)) :
    (rises (fun i => tradesAfter windows g (d.minute i)) minutesPerDay).card ≤ windows.length := by
  have hsample : ∀ i, ∃ m, (d.minute i).sample g = .ok m := by
    intro i
    rw [← Day.minute_mod]
    exact (hdecided _ (Nat.mod_lt i (by decide))).sample_ahead hne
  choose moment hmoment using hsample
  have htrades : ∀ i, tradesAfter windows g (d.minute i) = openAt windows (moment i) :=
    fun i => tradesAfter_of_sample hne (hmoment i)
  simp only [htrades]
  exact card_rises_openAt_le (fun i => sample_minute (hmoment i)) windows

/-- In a day a market changes its state at most twice for each window, and once more if it was open
before; without windows it never does. -/
theorem countTransitions_tokenVector_le {token : Option String} {states : List Bool}
    (h : tokenVector token d previous g = .ok states) :
    countTransitions states ≤
        2 * (windowsOf? token).length + (if previous = some true then 1 else 0) ∧
      (windowsOf? token = [] → countTransitions states = 0) := by
  by_cases hne : windowsOf? token = []
  · rw [tokenVector_of_nil hne] at h
    cases h
    rw [countTransitions_replicate]
    exact ⟨Nat.zero_le _, fun _ => rfl⟩
  · obtain ⟨hdecided, hstates⟩ := (tokenVector_eq_ok_iff hne).1 h
    refine ⟨?_, fun hnil => absurd hnil hne⟩
    rw [hstates]
    have hrises := card_rises_tradesAfter_le hne hdecided
    have hwrap := congrArg (tradesAfter (windowsOf? token) g) d.minute_wrap
    have hheld : (held previous).toNat = if previous = some true then 1 else 0 := by
      rcases previous with _ | _ | _ <;> rfl
    have hlatch := countTransitions_latchedAt_le (n := minutesPerDay)
      (fun i => tradesAfter (windowsOf? token) g (d.minute i))
      (fun i => tradesAfter (windowsOf? token) (-g) (d.minute i)) (held previous) (by decide) hwrap
    rw [hheld] at hlatch
    unfold dayState
    omega

/-- The bound is met by a window of seven hours with a grace of six: it is held open at midnight, closes,
opens six hours before noon, and closes before the day ends. -/
theorem countTransitions_long_grace : ∃ states,
    tokenVector (some "12001900") ⟨739620, by decide⟩ (some true) (spanOfMinutes 360) = .ok states ∧
      countTransitions states = 3 ∧
      countTransitions states ≤ 2 * (windowsOf? (some "12001900")).length + 1 := by
  have hcount : ((tokenVector (some "12001900") ⟨739620, by decide⟩ (some true)
      (spanOfMinutes 360)).map countTransitions).toOption = some 3 := by decide +kernel
  cases hstates : tokenVector (some "12001900") ⟨739620, by decide⟩ (some true)
      (spanOfMinutes 360) with
  | error e =>
    rw [hstates] at hcount
    cases hcount
  | ok states =>
    rw [hstates] at hcount
    have hle := (countTransitions_tokenVector_le hstates).1
    rw [if_pos rfl] at hle
    exact ⟨states, rfl, Option.some.inj hcount, hle⟩

end Day

end TradingHours.Schedule
