import Mathlib.Data.Prod.Lex
import Mathlib.Order.Monotone.Basic
import TradingHours.Proofs.Clock.Civil
import TradingHours.Proofs.Clock.Shift
/-!
What a conversion to UTC keeps: a clock face by its date, time and offset, and its distance from
1970 by counting dates. Main statement: `toUtc_exact`.
-/
namespace TradingHours

namespace Civil

variable {a b c : Civil}

def rank (c : Civil) : ℕ ×ₗ ℕ ×ₗ ℕ := toLex (c.year, toLex (c.month, c.day))

theorem rank_lt_next (c : Civil) : c.rank < c.next.rank := by
  rw [next]
  split
  · simp [rank, Prod.Lex.toLex_lt_toLex]
  · split <;> simp [rank, Prod.Lex.toLex_lt_toLex]

theorem strictMono_rank_iterate (c : Civil) : StrictMono fun k => (next^[k] c).rank :=
  strictMono_nat_of_lt_succ fun k => by
    rw [Function.iterate_succ_apply']
    exact rank_lt_next _

theorem iterate_next_inj {k l : ℕ} (h : next^[k] c = next^[l] c) : k = l :=
  (strictMono_rank_iterate c).injective (congrArg rank h)

/-- Two dates are one number of days apart. -/
theorem DaysFrom.unique {m n : Int} (h : DaysFrom a b m) (h' : DaysFrom a b n) : m = n := by
  rw [DaysFrom] at h h'
  split at h <;> split at h'
  · have := iterate_next_inj (h.trans h'.symm)
    omega
  · rw [← h, ← Function.iterate_add_apply] at h'
    have := @iterate_next_inj _ _ 0 h'
    omega
  · rw [← h', ← Function.iterate_add_apply] at h
    have := @iterate_next_inj _ _ 0 h
    omega
  · have := iterate_next_inj (h.trans h'.symm)
    omega

structure Valid (c : Civil) : Prop where
  year_pos : 1 ≤ c.year
  year_le : c.year ≤ 9999
  month_pos : 1 ≤ c.month
  month_le : c.month ≤ 12
  day_pos : 1 ≤ c.day
  day_le : c.day ≤ (monthLengths (isLeapYear c.year)).getD (c.month - 1) 0

end Civil

section Months

variable {lengths : List Nat} {first k j n : Nat}

theorem exists_monthAndDay_eq (hn : n < lengths.sum) : ∃ k j, k < lengths.length ∧
    j < lengths.getD k 0 ∧ monthAndDay lengths first n = (first + k, j + 1) := by
  induction lengths generalizing first n with
  | nil => simp at hn
  | cons length rest ih =>
    rw [List.sum_cons] at hn
    by_cases hlt : n < length
    · exact ⟨0, n, by simp, by simpa using hlt, by simp [monthAndDay, hlt]⟩
    · obtain ⟨k, j, hk, hj, heq⟩ := @ih (first + 1) (n - length) (by omega)
      exact ⟨k + 1, j, by simpa using hk, by simpa using hj, by
        rw [monthAndDay, if_neg hlt, heq, Nat.add_right_comm, Nat.add_assoc]⟩

theorem monthAndDay_sum_take (hj : j < lengths.getD k 0) :
    monthAndDay lengths first ((lengths.take k).sum + j) = (first + k, j + 1) := by
  induction lengths generalizing first k with
  | nil => simp at hj
  | cons length rest ih =>
    cases k with
    | zero =>
      have hlt : j < length := hj
      simp [monthAndDay, hlt]
    | succ k =>
      rw [List.getD_cons_succ] at hj
      rw [List.take_succ_cons, List.sum_cons, monthAndDay, if_neg (by omega), Nat.add_assoc,
        Nat.add_sub_cancel_left, ih hj, Nat.add_right_comm, Nat.add_assoc]

theorem sum_take_add_lt (hj : j < lengths.getD k 0) : (lengths.take k).sum + j < lengths.sum := by
  induction lengths generalizing k with
  | nil => simp at hj
  | cons length rest ih =>
    cases k with
    | zero =>
      rw [List.getD_cons_zero] at hj
      simp only [List.take_zero, List.sum_nil, List.sum_cons]
      omega
    | succ k =>
      have := ih hj
      simp only [List.take_succ_cons, List.sum_cons]
      omega

end Months

namespace Day

theorem civil_valid (d : Day) : d.civil.Valid := by
  obtain ⟨year, n, hyear, hn, hindex, hcivil⟩ := d.exists_civil_eq
  have hle : year ≤ 9999 := by
    by_contra hgt
    have hend : daysBeforeYear 10000 = dayCount := by decide
    have hbefore : daysBeforeYear 10000 ≤ daysBeforeYear year := by
      rcases Nat.eq_or_lt_of_le (Nat.lt_of_not_le hgt) with rfl | hlt
      · exact Nat.le_refl _
      · exact Nat.le_of_add_right_le (daysBeforeYear_add_le (by decide) hlt)
    have := d.index_lt
    omega
  rw [← sum_monthLengths] at hn
  obtain ⟨k, j, hk, hj, heq⟩ := @exists_monthAndDay_eq _ 1 _ hn
  have hk : k < 12 := hk
  rw [hcivil, dateIn, heq]
  refine ⟨hyear, hle, Nat.le_add_right 1 k, by dsimp only; omega, Nat.le_add_left 1 j, ?_⟩
  dsimp only
  rw [Nat.add_sub_cancel_left]
  exact hj

/-- The calendar holds every date of the years 1 to 9999. -/
theorem exists_of_valid {c : Civil} (h : c.Valid) : ∃ d : Day, d.civil = c := by
  obtain ⟨hyear, hyear', hmonth, hmonth', hday, hday'⟩ := h
  obtain ⟨k, hk⟩ := Nat.exists_eq_add_of_le hmonth
  obtain ⟨j, hj⟩ := Nat.exists_eq_add_of_le hday
  have hlt : j < (monthLengths (isLeapYear c.year)).getD k 0 := by
    rw [hk, Nat.add_sub_cancel_left] at hday'
    omega
  generalize hn : ((monthLengths (isLeapYear c.year)).take k).sum + j = n
  have hn' : n < yearLength (isLeapYear c.year) := by
    rw [← sum_monthLengths, ← hn]
    exact sum_take_add_lt hlt
  have hindex : daysBeforeYear c.year + n < dayCount := by
    have hend : daysBeforeYear 10000 = dayCount := by decide
    have := daysBeforeYear_add_le hyear (show c.year < 10000 by omega)
    omega
  refine ⟨⟨daysBeforeYear c.year + n, hindex⟩, ?_⟩
  rw [civil_eq_dateIn hyear hn' rfl, dateIn, ← hn, monthAndDay_sum_take hlt, ← hk, Nat.add_comm,
    ← hj]

end Day

structure Face where
  date : Civil
  hour : Nat
  minute : Nat
  second : Nat
  microsecond : Nat
  offset : Option Span
  deriving DecidableEq, Repr

namespace Face

structure Valid (f : Face) : Prop where
  date : f.date.Valid
  hour_lt : f.hour < 24
  minute_lt : f.minute < 60
  second_lt : f.second < 60
  microsecond_lt : f.microsecond < 1000000

def micros (f : Face) : Nat := ((f.hour * 60 + f.minute) * 60 + f.second) * 1000000 + f.microsecond

/-- How many microseconds the moment is after the start of 1970 UTC: as many days as there are
dates from 1970-01-01 on, the time on the clock, less what the clock is ahead. A clock that does
not say how far it is ahead shows UTC. -/
def MicrosFrom1970 (f : Face) (n : Int) : Prop :=
  ∃ days, Civil.DaysFrom ⟨1970, 1, 1⟩ f.date days ∧
    n = days * (24 * 60 * 60 * 1000000) + f.micros - f.offset.getD 0

end Face

namespace Instant

variable {t u : Instant}

def face (t : Instant) : Face :=
  ⟨t.day.civil, t.timeOfDay.hour, t.timeOfDay.minute, t.timeOfDay.second, t.timeOfDay.microsecond,
    t.offset⟩

theorem face_valid (t : Instant) : t.face.Valid := by
  have hlt := t.timeOfDay.micros_lt
  simp only [microsPerDay, microsPerMinute, microsPerSecond] at hlt
  refine ⟨t.day.civil_valid, ?_, Nat.mod_lt _ (by decide), Nat.mod_lt _ (by decide),
    Nat.mod_lt _ (by decide)⟩
  simp only [face, TimeOfDay.hour, microsPerMinute, microsPerSecond]
  omega

theorem micros_face (t : Instant) : t.face.micros = t.timeOfDay.micros := by
  simp only [Face.micros, face, TimeOfDay.hour, TimeOfDay.minute, TimeOfDay.second,
    TimeOfDay.microsecond, microsPerMinute, microsPerSecond]
  omega

theorem wall_eq (t : Instant) : t.wall = t.day.index * microsPerDay + t.timeOfDay.micros :=
  (Nat.div_add_mod' t.wall microsPerDay).symm

theorem microsFrom1970_face_iff {n : Int} :
    t.face.MicrosFrom1970 n ↔ n = t.epochMicros - t.offset.getD 0 := by
  have hmicros : t.epochMicros - t.offset.getD 0 =
      t.day.sinceEpoch * (24 * 60 * 60 * 1000000) + t.face.micros - t.face.offset.getD 0 := by
    rw [epochMicros, wall_eq, micros_face, Day.sinceEpoch, face]
    simp only [microsPerDay, microsPerMinute, microsPerSecond, epochDay]
    omega
  rw [hmicros, Face.MicrosFrom1970]
  constructor
  · rintro ⟨days, hdays, hn⟩
    rw [hn, hdays.unique t.day.daysFrom_epoch]
  · exact fun hn => ⟨t.day.sinceEpoch, t.day.daysFrom_epoch, hn⟩

theorem day_ofDay (d : Day) (m : TimeOfDay) (offset : Option Span) :
    (ofDay d m offset).day = d := by
  have hindex : (d.index * microsPerDay + m.micros) / microsPerDay = d.index := by
    rw [Nat.add_comm, Nat.add_mul_div_right _ _ (by decide), Nat.div_eq_of_lt m.micros_lt,
      Nat.zero_add]
  simp only [day, ofDay, hindex]

/-- Every valid clock face is that of an instant. -/
theorem exists_face_eq {f : Face} (h : f.Valid) : ∃ t : Instant, t.face = f := by
  obtain ⟨hdate, hhour, hminute, hsecond, hmicro⟩ := h
  obtain ⟨d, hd⟩ := Day.exists_of_valid hdate
  have hlt : f.micros < microsPerDay := by
    simp only [Face.micros, microsPerDay, microsPerMinute, microsPerSecond]
    omega
  refine ⟨ofDay d ⟨f.micros, hlt⟩ f.offset, ?_⟩
  obtain ⟨date, hour, minute, second, micro, offset⟩ := f
  simp only [face, day_ofDay, timeOfDay_ofDay, TimeOfDay.hour, TimeOfDay.minute, TimeOfDay.second,
    TimeOfDay.microsecond, hd, Face.micros, microsPerMinute, microsPerSecond, Face.mk.injEq,
    true_and]
  dsimp only at hhour hminute hsecond hmicro
  refine ⟨?_, ?_, ?_, ?_, rfl⟩ <;> omega

theorem toUtc_eq_ok_iff_epochMicros :
    t.toUtc = .ok u ↔ u.epochMicros = t.epochMicros - t.offset.getD 0 ∧ u.offset = some 0 := by
  rw [toUtc_eq_ok_iff, epochMicros, epochMicros]
  constructor <;> exact fun h => ⟨by omega, h.2⟩

theorem microsFrom1970_toUtc_iff {n : Int} (h : t.toUtc = .ok u) :
    u.face.MicrosFrom1970 n ↔ t.face.MicrosFrom1970 n := by
  obtain ⟨hmicros, hoffset⟩ := toUtc_eq_ok_iff_epochMicros.1 h
  rw [microsFrom1970_face_iff, microsFrom1970_face_iff, hoffset, hmicros, Option.getD_some,
    Int.sub_zero]

/-- A conversion to UTC fails where no date of the years 1 to 9999 is that of the moment. -/
theorem toUtc_eq_error_iff_forall_face {n : Int} {failure : Failure}
    (hn : t.face.MicrosFrom1970 n) : t.toUtc = .error failure ↔ failure = .dateOutOfRange ∧
      ∀ f : Face, f.Valid → f.offset = some 0 → ¬ f.MicrosFrom1970 n := by
  cases h : t.toUtc with
  | ok u =>
    have hu : u.face.MicrosFrom1970 n := (microsFrom1970_toUtc_iff h).2 hn
    simp only [reduceCtorEq, false_iff, not_and]
    exact fun _ hnone => hnone u.face u.face_valid (toUtc_eq_ok_iff.1 h).2 hu
  | error failure' =>
    obtain ⟨rfl, -⟩ := toUtc_eq_error_iff.1 h
    simp only [Except.error.injEq, eq_comm, iff_self_and]
    rintro rfl f hf hoffset hmicros
    obtain ⟨u, rfl⟩ := exists_face_eq hf
    have hu : t.toUtc = .ok u := by
      have hoffset : u.offset = some 0 := hoffset
      rw [microsFrom1970_face_iff] at hn hmicros
      rw [hoffset, Option.getD_some, Int.sub_zero] at hmicros
      exact toUtc_eq_ok_iff_epochMicros.2 ⟨hmicros.symm.trans hn, hoffset⟩
    rw [h] at hu
    cases hu

theorem shift_startOfDay (h : t.offset = some 0) :
    (startOfDay t.day).shift t.timeOfDay.micros = .ok t := by
  have hstart : (startOfDay t.day).wall = t.day.index * microsPerDay := Nat.add_zero _
  refine shift_eq_ok_iff.2 ⟨?_, h⟩
  rw [hstart, wall_eq]
  exact Int.natCast_add _ _

/-- An instant without offset is its own clock reading in UTC. -/
theorem face_toUtc_of_naive (h : t.offset = none) :
    ∃ u, t.toUtc = .ok u ∧ u.face = { t.face with offset := some 0 } :=
  ⟨{ t with offset := some 0 }, toUtc_eq_ok_iff.2 ⟨by simp [h], rfl⟩, rfl⟩

/-- The conversion to UTC is exact. It keeps the distance from 1970, it is done once and for all,
and the day and the time of day it leads to make it up again. It fails where the moment is in no
year from 1 to 9999, and never for an instant without offset, which keeps its fields. -/
theorem toUtc_exact (t : Instant) : ∃ n : Int, (∀ k, t.face.MicrosFrom1970 k ↔ k = n) ∧
    (∀ u, t.toUtc = .ok u →
      u.offset = some 0 ∧ (∀ k, u.face.MicrosFrom1970 k ↔ k = n) ∧ u.toUtc = .ok u ∧
        ∃ d m, t.utcDay = .ok d ∧ t.utcTimeOfDay = .ok m ∧
          (startOfDay d).shift m.micros = .ok u) ∧
    (∀ failure, t.toUtc = .error failure ↔ failure = .dateOutOfRange ∧
      ∀ f : Face, f.Valid → f.offset = some 0 → ¬ f.MicrosFrom1970 n) ∧
    (t.offset = none → ∃ u, t.toUtc = .ok u ∧ u.face = { t.face with offset := some 0 }) := by
  refine ⟨t.epochMicros - t.offset.getD 0, fun _ => microsFrom1970_face_iff, ?_, ?_,
    face_toUtc_of_naive⟩
  · intro u hu
    have hoffset : u.offset = some 0 := (toUtc_eq_ok_iff.1 hu).2
    refine ⟨hoffset, fun k => ?_, toUtc_of_offset_zero hoffset, u.day, u.timeOfDay, ?_, ?_,
      shift_startOfDay hoffset⟩
    · rw [microsFrom1970_toUtc_iff hu, microsFrom1970_face_iff]
    · rw [utcDay, hu, Except.map]
    · rw [utcTimeOfDay, hu, Except.map]
  · exact fun failure => toUtc_eq_error_iff_forall_face (microsFrom1970_face_iff.2 rfl)

def februaryEve : Instant :=
  ofDay ⟨584080, by decide⟩ ⟨1410 * microsPerMinute, by decide⟩ (some (-300 * microsPerMinute))

def firstAhead : Instant := ⟨0, some (60 * microsPerMinute), by decide⟩

/-- A clock behind UTC is turned to the last day of a long February, one ahead of UTC does not reach
the start of the calendar, and one that does not say keeps its fields. -/
theorem toUtc_exact_at_the_turns :
    (∃ u d m, februaryEve.toUtc = .ok u ∧ u.face = ⟨⟨1600, 2, 29⟩, 4, 30, 0, 0, some 0⟩ ∧
      februaryEve.utcDay = .ok d ∧ februaryEve.utcTimeOfDay = .ok m ∧
      (startOfDay d).shift m.micros = .ok u) ∧
    (∃ n, firstAhead.face.MicrosFrom1970 n ∧ firstAhead.toUtc = .error .dateOutOfRange ∧
      ∀ f : Face, f.Valid → f.offset = some 0 → ¬ f.MicrosFrom1970 n) ∧
    ∃ u, (⟨0, none, by decide⟩ : Instant).toUtc = .ok u ∧
      u.face = ⟨⟨1, 1, 1⟩, 0, 0, 0, 0, some 0⟩ := by
  have heve : februaryEve.toUtc =
      .ok (ofDay ⟨584081, by decide⟩ ⟨270 * microsPerMinute, by decide⟩ (some 0)) :=
    toUtc_eq_ok_iff.2 ⟨by decide, rfl⟩
  have hahead : firstAhead.toUtc = .error .dateOutOfRange := rfl
  obtain ⟨_, -, heve', -⟩ := toUtc_exact februaryEve
  obtain ⟨n, hn, -, hahead', -⟩ := toUtc_exact firstAhead
  obtain ⟨_, -, -, -, hnaive⟩ := toUtc_exact ⟨0, none, by decide⟩
  obtain ⟨-, -, -, d, m, hd, hm, hsum⟩ := heve' _ heve
  exact ⟨⟨_, d, m, heve, by decide, hd, hm, hsum⟩,
    ⟨n, (hn n).2 rfl, hahead, ((hahead' _).1 hahead).2⟩, hnaive rfl⟩

end Instant

end TradingHours
