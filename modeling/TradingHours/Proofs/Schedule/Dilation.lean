import Mathlib.Data.Nat.Find
import TradingHours.Proofs.Schedule.DayVector
import TradingHours.Proofs.Schedule.StayingOpen
/-!
The states of a day without its history. If the schedule never trades for less than two graces at a
time, the latch widens it by a grace on both sides: a market is open exactly at the minutes that have
a trading minute within a grace. Main statement: `tokenVector_dilates`.
-/
namespace TradingHours.Schedule

/-- A stretch of trading minutes between two idle ones, around the clock. A schedule that trades all
day has none. -/
structure Stretch (windows : List Window) (first length : Nat) : Prop where
  pos : 0 < length
  trades : ∀ k < length, tradesAtMinute windows (first + k) = true
  before : tradesAtMinute windows (first + 1439) = false
  after : tradesAtMinute windows (first + length) = false

/-- Some minute within `g` minutes of a minute trades, around the clock. -/
def TradesNear (windows : List Window) (g i : Nat) : Prop :=
  ∃ t : Int, (i : Int) - g ≤ t ∧ t ≤ i + g ∧ tradesAtMinute windows (t % 1440).toNat = true

section Circle

variable {windows : List Window} {g i j u m v : Nat}

theorem tradesAtMinute_congr (h : i % 1440 = j % 1440) :
    tradesAtMinute windows i = tradesAtMinute windows j := by
  have hminutes : TimeOfDay.ofMinutes i = TimeOfDay.ofMinutes j := by
    apply TimeOfDay.ext_micros
    simp only [TimeOfDay.ofMinutes, h]
  rw [tradesAtMinute, tradesAtMinute, hminutes]

theorem exists_last_idle (hu : tradesAtMinute windows u = false)
    (hm : tradesAtMinute windows m = true) (hum : u < m) :
    ∃ p, u ≤ p ∧ p < m ∧ tradesAtMinute windows p = false ∧
      ∀ k, p < k → k ≤ m → tradesAtMinute windows k = true := by
  have hidle := Nat.findGreatest_spec (P := fun k => tradesAtMinute windows k = false)
    (Nat.le_of_lt hum) hu
  refine ⟨_, Nat.le_findGreatest (Nat.le_of_lt hum) hu, ?_, hidle,
    fun k hk hkm => eq_true_of_ne_false (Nat.findGreatest_is_greatest hk hkm)⟩
  refine lt_of_le_of_ne (Nat.findGreatest_le m) fun heq => ?_
  rw [heq] at hidle
  simp [hm] at hidle

theorem exists_next_idle (hv : tradesAtMinute windows v = false) (hmv : m < v) :
    ∃ q, m < q ∧ q ≤ v ∧ tradesAtMinute windows q = false ∧
      ∀ k, m < k → k < q → tradesAtMinute windows k = true := by
  have hexists : ∃ k, m < k ∧ tradesAtMinute windows k = false := ⟨v, hmv, hv⟩
  obtain ⟨hnext, hidle⟩ := Nat.find_spec hexists
  exact ⟨_, hnext, Nat.find_min' hexists ⟨hmv, hv⟩, hidle, fun k hmk hk =>
    eq_true_of_ne_false fun hidle => Nat.find_min hexists hk ⟨hmk, hidle⟩⟩

/-- A trading minute between two idle ones lies in a stretch between them. -/
theorem exists_stretch (hu : tradesAtMinute windows u = false)
    (hm : tradesAtMinute windows m = true) (hv : tradesAtMinute windows v = false) (hum : u < m)
    (hmv : m < v) : ∃ first length, Stretch windows first length ∧ u + length < v := by
  obtain ⟨p, hup, hpm, hp, hlast⟩ := exists_last_idle hu hm hum
  obtain ⟨q, hmq, hqv, hq, hnext⟩ := exists_next_idle hv hmv
  refine ⟨p + 1, q - (p + 1), ⟨by omega, fun k hk => ?_, ?_, ?_⟩, by omega⟩
  · by_cases hkm : p + 1 + k ≤ m
    · exact hlast _ (by omega) hkm
    · exact hnext _ (by omega) (by omega)
  · rw [← hp]
    exact tradesAtMinute_congr (by omega)
  · rwa [show p + 1 + (q - (p + 1)) = q by omega]

theorem tradesNear_iff (hg : g ≤ 1440) :
    TradesNear windows g i ↔ ∃ k ≤ 2 * g, tradesAtMinute windows (i + (1440 - g) + k) = true := by
  constructor
  · rintro ⟨t, hlow, hhigh, ht⟩
    refine ⟨(t - i + g).toNat, by omega, ?_⟩
    rwa [tradesAtMinute_congr (j := (t % 1440).toNat) (by omega)]
  · rintro ⟨k, hk, h⟩
    refine ⟨(i : Int) - g + k, by omega, by omega, ?_⟩
    rwa [tradesAtMinute_congr (j := i + (1440 - g) + k) (by omega)]

/-- Where neither sample trades nothing in between does. -/
theorem not_tradesNear (hg : g ≤ 1440)
    (hlong : ∀ first length, Stretch windows first length → 2 * g ≤ length)
    (hahead : tradesAtMinute windows (i + g) = false)
    (hbehind : tradesAtMinute windows (i + (1440 - g)) = false) : ¬ TradesNear windows g i := by
  rw [tradesNear_iff hg]
  rintro ⟨k, hk, h⟩
  have hend : tradesAtMinute windows (i + (1440 - g) + 2 * g) = false := by
    rw [← hahead]
    exact tradesAtMinute_congr (by omega)
  have hpos : 0 < k := by
    rcases Nat.eq_zero_or_pos k with rfl | hk
    · exact absurd (hbehind.symm.trans h) Bool.false_ne_true
    · exact hk
  have hlt : k < 2 * g := by
    refine lt_of_le_of_ne hk fun heq => ?_
    rw [heq] at h
    simp [h] at hend
  obtain ⟨first, length, hstretch, hshort⟩ :=
    exists_stretch hbehind h hend (by omega) (by omega)
  have := hlong first length hstretch
  omega

/-- The latch widens the schedule: the only minutes at which it keeps its state are those that follow
an open one. -/
theorem latchedAt_iff_tradesNear (hpos : 1 ≤ g) (hg : g ≤ 1440)
    (hlong : ∀ first length, Stretch windows first length → 2 * g ≤ length) {previous : Bool}
    (hprevious : tradesAtMinute windows g = false → tradesAtMinute windows (1440 - g) = true →
      previous = true) (i : Nat) :
    latchedAt (fun j => tradesAtMinute windows (j + g))
        (fun j => tradesAtMinute windows (j + (1440 - g))) previous i = true ↔
      TradesNear windows g i := by
  have hset : ∀ i, tradesAtMinute windows (i + g) = true → TradesNear windows g i := by
    intro i h
    refine (tradesNear_iff hg).2 ⟨2 * g, Nat.le_refl _, ?_⟩
    rwa [tradesAtMinute_congr (j := i + g) (by omega)]
  have hheld : ∀ i, tradesAtMinute windows (i + (1440 - g)) = true → TradesNear windows g i :=
    fun i h => (tradesNear_iff hg).2 ⟨0, Nat.zero_le _, h⟩
  induction i with
  | zero =>
    rw [latchedAt]
    cases ha : tradesAtMinute windows (0 + g) with
    | true => simpa using hset 0 ha
    | false =>
      cases hb : tradesAtMinute windows (0 + (1440 - g)) with
      | true =>
        rw [Nat.zero_add] at ha hb
        have hp := hprevious ha hb
        simpa [hp] using hheld 0 (by rwa [Nat.zero_add])
      | false => simpa using not_tradesNear hg hlong ha hb
  | succ i ih =>
    rw [latchedAt]
    cases ha : tradesAtMinute windows (i + 1 + g) with
    | true => simpa using hset (i + 1) ha
    | false =>
      cases hb : tradesAtMinute windows (i + 1 + (1440 - g)) with
      | true =>
        -- the minute behind is also within a grace of the minute before
        have hnear : TradesNear windows g i := by
          refine (tradesNear_iff hg).2 ⟨1, by omega, ?_⟩
          rwa [tradesAtMinute_congr (j := i + 1 + (1440 - g)) (by omega)]
        simpa [ih.2 hnear] using hheld (i + 1) hb
      | false => simpa using not_tradesNear hg hlong ha hb

end Circle

section Day

variable {windows : List Window} {d : Day} {g : Nat}

theorem tradesAfter_minute (hnormal : ∀ w ∈ windows, w.Normal) (hne : windows ≠ []) (hg : g ≤ 1440)
    {i : Nat} (hreach : (d.minute i).InReach (spanOfMinutes g)) :
    tradesAfter windows (spanOfMinutes g) (d.minute i) = tradesAtMinute windows (i + g) ∧
      tradesAfter windows (-spanOfMinutes g) (d.minute i) =
        tradesAtMinute windows (i + (1440 - g)) := by
  obtain ⟨⟨a, ha⟩, b, hb⟩ := hreach
  have hahead := sample_minute ha
  have hbehind := sample_minute hb
  rw [tradesAfter_of_sample hne ha, tradesAfter_of_sample hne hb]
  simp only [spanOfMinutes, microsPerDay, microsPerMinute, microsPerSecond] at hahead hbehind
  constructor
  · apply openAt_minute hnormal
    simp only [microsPerMinute, microsPerSecond]
    omega
  · apply openAt_minute hnormal
    simp only [microsPerMinute, microsPerSecond]
    omega

theorem tokenVector_of_inReach {token : String} {previous : Option Bool} {s : Span}
    (hne : windowsOf token ≠ []) (hreach : ∀ i < minutesPerDay, (d.minute i).InReach s) :
    tokenVector (some token) d previous s =
      .ok ((List.range minutesPerDay).map (dayState (windowsOf token) s d previous)) := by
  have hne' : windowsOf? (some token) ≠ [] := hne
  refine (tokenVector_eq_ok_iff hne').2 ⟨fun i hi => ?_, rfl⟩
  obtain ⟨⟨a, ha⟩, b, hb⟩ := hreach i hi
  exact decided_of_samples hne ha hb

/-- From a state that is open if the schedule closes within a grace of midnight, the states of a day are
those of the widened schedule. The day is neither the first nor the last one of the calendar. -/
theorem tokenVector_dilates {token : String} {previous : Option Bool} (hne : windowsOf token ≠ [])
    (hpos : 1 ≤ g) (hg : g ≤ 60) (hfirst : 0 < d.index) (hlast : d.index + 1 < dayCount)
    (hlong : ∀ first length, Stretch (windowsOf token) first length → 2 * g ≤ length)
    (hprevious : tradesAtMinute (windowsOf token) g = false →
      tradesAtMinute (windowsOf token) (1440 - g) = true → previous = some true) :
    ∃ state : Nat → Bool,
      tokenVector (some token) d previous (spanOfMinutes g) =
        .ok ((List.range minutesPerDay).map state) ∧
      ∀ i < minutesPerDay, state i = true ↔ TradesNear (windowsOf token) g i := by
  have hnormal : ∀ w ∈ windowsOf token, w.Normal := fun w hw => normal_of_mem_windowsOf hw
  have hreach : ∀ i, (d.minute i).InReach (spanOfMinutes g) := inReach_minute hfirst hlast (by omega)
  have hsamples := fun i => tradesAfter_minute hnormal hne (by omega) (hreach i)
  refine ⟨dayState (windowsOf token) (spanOfMinutes g) d previous, ?_, fun i _ => ?_⟩
  · exact tokenVector_of_inReach hne fun i _ => hreach i
  · have hheld := fun ha hb => held_eq_true_iff.2 (hprevious ha hb)
    rw [dayState, ← latchedAt_iff_tradesNear hpos (by omega) hlong hheld]
    simp only [hsamples]

theorem tokenVector_dilates_past_midnight : ∃ state : Nat → Bool,
    tokenVector (some "p09301600-22000100") ⟨1, by decide⟩ (some true) (spanOfMinutes 60) =
      .ok ((List.range minutesPerDay).map state) ∧
    ∀ i < minutesPerDay, state i = true ↔ TradesNear (windowsOf "p09301600-22000100") 60 i := by
  have hwindows : windowsOf "p09301600-22000100" =
      [⟨.ofMinutes 570, .ofMinutes 960, false, false⟩,
        ⟨.ofMinutes 1320, .ofMinutes 60, true, false⟩] := by decide +kernel
  have htrades : ∀ i, tradesAtMinute (windowsOf "p09301600-22000100") i = true ↔
      (570 ≤ i % 1440 ∧ i % 1440 < 960) ∨ 1320 ≤ i % 1440 ∨ i % 1440 < 60 := by
    intro i
    rw [hwindows]
    simp only [tradesAtMinute, openAt, List.any_cons, List.any_nil, Bool.or_false, Bool.or_eq_true]
    rw [Window.contains_daytime_iff (by decide) rfl, Window.contains_overnight_iff (by decide) rfl]
    simp only [TimeOfDay.ofMinutes, microsPerMinute, microsPerSecond]
    omega
  refine tokenVector_dilates (g := 60) (by simp [hwindows]) (by decide) (by decide) (by decide) (by decide)
    (fun first length h => ?_) fun _ _ => rfl
  have hbefore := (htrades (first + 1439)).not.1 (by simp [h.before])
  have hstart := (htrades (first + 0)).1 (h.trades 0 h.pos)
  have hafter := (htrades (first + length)).not.1 (by simp [h.after])
  omega

end Day

end TradingHours.Schedule
