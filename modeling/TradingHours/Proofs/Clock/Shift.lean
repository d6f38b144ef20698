import TradingHours.Clock.Checked
/-!
How shifts of an instant move its UTC time of day around the clock, and which instants they reach.
-/
namespace TradingHours

theorem inCalendar_eq_ok_iff {α : Type} {o : Option α} {a : α} :
    inCalendar o = .ok a ↔ o = some a := by
  cases o <;> simp [inCalendar]

theorem inCalendar_eq_error_iff {α : Type} {o : Option α} {f : Failure} :
    inCalendar o = .error f ↔ o = none ∧ f = .dateOutOfRange := by
  cases o <;> simp [inCalendar, eq_comm]

namespace Instant

theorem ofWall?_eq_some_iff {wall : Int} {offset : Option Span} {t : Instant} :
    ofWall? wall offset = some t ↔ (t.wall : Int) = wall ∧ t.offset = offset := by
  obtain ⟨w, o, hw⟩ := t
  unfold ofWall?
  split
  · simp only [Option.some_inj, Instant.mk.injEq]
    constructor
    · rintro ⟨hwall, ho⟩
      exact ⟨by omega, ho.symm⟩
    · rintro ⟨hwall, ho⟩
      exact ⟨by omega, ho.symm⟩
  · simp only [reduceCtorEq, false_iff, not_and]
    omega

theorem shift_eq_ok_iff {t t' : Instant} {s : Span} :
    t.shift s = .ok t' ↔ (t'.wall : Int) = t.wall + s ∧ t'.offset = t.offset := by
  rw [shift, inCalendar_eq_ok_iff, shift?, ofWall?_eq_some_iff]

theorem toUtc_eq_ok_iff {t u : Instant} :
    t.toUtc = .ok u ↔ (u.wall : Int) = t.wall - t.offset.getD 0 ∧ u.offset = some 0 := by
  rw [toUtc, inCalendar_eq_ok_iff, toUtc?, ofWall?_eq_some_iff]

theorem toUtc_of_offset_zero {t : Instant} (h : t.offset = some 0) : t.toUtc = .ok t :=
  toUtc_eq_ok_iff.2 ⟨by simp [h], h⟩

theorem utcDay_of_offset_zero {t : Instant} (h : t.offset = some 0) : t.utcDay = .ok t.day := by
  rw [utcDay, toUtc_of_offset_zero h]
  rfl

theorem utcDay_of_toUtc {t u : Instant} (h : t.toUtc = .ok u) : u.utcDay = t.utcDay := by
  rw [utcDay, utcDay, toUtc_of_offset_zero (toUtc_eq_ok_iff.1 h).2, h]

theorem timeOfDay_ofDay (d : Day) (m : TimeOfDay) (offset : Option Span) :
    (ofDay d m offset).timeOfDay = m := by
  apply TimeOfDay.ext_micros
  simp only [timeOfDay, ofDay]
  rw [Nat.mul_add_mod_self_right, Nat.mod_eq_of_lt m.micros_lt]

theorem utcTimeOfDay_ofDay (d : Day) (m : TimeOfDay) :
    (ofDay d m (some 0)).utcTimeOfDay = .ok m := by
  rw [utcTimeOfDay, toUtc_of_offset_zero rfl, Except.map, timeOfDay_ofDay]

def sample (t : Instant) (s : Span) : Except Failure TimeOfDay := do
  (← t.shift s).utcTimeOfDay

theorem utcTimeOfDay_eq_ok {t : Instant} {m : TimeOfDay} (h : t.utcTimeOfDay = .ok m) :
    0 ≤ (t.wall : Int) - t.offset.getD 0 ∧
      (m.micros : Int) = ((t.wall : Int) - t.offset.getD 0) % microsPerDay := by
  cases hu : t.toUtc with
  | error e => simp [utcTimeOfDay, hu, Except.map] at h
  | ok u =>
    obtain ⟨hw, -⟩ := toUtc_eq_ok_iff.1 hu
    have hm : u.timeOfDay = m := by simpa [utcTimeOfDay, hu, Except.map] using h
    rw [← hm, timeOfDay, ← hw]
    simp

theorem sample_eq_ok {t : Instant} {s : Span} {m : TimeOfDay} (h : t.sample s = .ok m) :
    (m.micros : Int) = ((t.wall : Int) + s - t.offset.getD 0) % microsPerDay := by
  cases ht : t.shift s with
  | error e => simp [sample, ht, bind, Except.bind] at h
  | ok t' =>
    obtain ⟨hw, ho⟩ := shift_eq_ok_iff.1 ht
    have hm : t'.utcTimeOfDay = .ok m := by simpa [sample, ht, bind, Except.bind] using h
    rw [(utcTimeOfDay_eq_ok hm).2, hw, ho]

theorem sample_eq_error {t : Instant} {s : Span} {failure : Failure}
    (h : t.sample s = .error failure) : failure = .dateOutOfRange := by
  cases ht : t.shift s with
  | error e =>
    have he : e = failure := by simpa [sample, ht, bind, Except.bind] using h
    exact he ▸ (inCalendar_eq_error_iff.1 ht).2
  | ok t' =>
    cases hu : t'.toUtc with
    | error e =>
      have he : e = failure := by
        simpa [sample, ht, bind, Except.bind, utcTimeOfDay, hu, Except.map] using h
      exact he ▸ (inCalendar_eq_error_iff.1 hu).2
    | ok u => simp [sample, ht, bind, Except.bind, utcTimeOfDay, hu, Except.map] at h

/-- A shift reaches the instants that the calendar holds, on the clock of the instant and in UTC. -/
theorem exists_sample_iff {t : Instant} {s : Span} :
    (∃ m, t.sample s = .ok m) ↔
      (0 ≤ (t.wall : Int) + s ∧ (t.wall : Int) + s < calendarMicros) ∧
        0 ≤ (t.wall : Int) + s - t.offset.getD 0 ∧
        (t.wall : Int) + s - t.offset.getD 0 < calendarMicros := by
  constructor
  · rintro ⟨m, hm⟩
    cases ht : t.shift s with
    | error e => simp [sample, ht, bind, Except.bind] at hm
    | ok t' =>
      obtain ⟨hw, ho⟩ := shift_eq_ok_iff.1 ht
      cases hu : t'.toUtc with
      | error e => simp [sample, ht, bind, Except.bind, utcTimeOfDay, hu, Except.map] at hm
      | ok u =>
        obtain ⟨hwu, -⟩ := toUtc_eq_ok_iff.1 hu
        have ht' := t'.wall_lt
        have hu' := u.wall_lt
        rw [ho] at hwu
        omega
  · rintro ⟨hwall, hutc⟩
    have ht : t.shift s = .ok ⟨((t.wall : Int) + s).toNat, t.offset, by omega⟩ :=
      shift_eq_ok_iff.2 ⟨by simp only; omega, rfl⟩
    have hu : (⟨((t.wall : Int) + s).toNat, t.offset, by omega⟩ : Instant).toUtc =
        .ok ⟨((t.wall : Int) + s - t.offset.getD 0).toNat, some 0, by omega⟩ :=
      toUtc_eq_ok_iff.2 ⟨by simp only; omega, rfl⟩
    exact ⟨_, by simp only [sample, ht, bind, Except.bind, utcTimeOfDay, hu, Except.map]; rfl⟩

/-- The calendar holds the instant a span after another one, on its clock and in UTC. -/
def Reaches (t : Instant) (s : Span) : Prop :=
  (0 ≤ (t.wall : Int) + s ∧ (t.wall : Int) + s < calendarMicros) ∧
    0 ≤ (t.wall : Int) + s - t.offset.getD 0 ∧ (t.wall : Int) + s - t.offset.getD 0 < calendarMicros

theorem toUtc_eq_error_iff {t : Instant} {f : Failure} :
    t.toUtc = .error f ↔ f = .dateOutOfRange ∧ ¬ t.Reaches 0 := by
  have hwall := t.wall_lt
  rw [toUtc, inCalendar_eq_error_iff, toUtc?, ofWall?, Reaches]
  split
  · simp only [reduceCtorEq, false_and, false_iff, not_and]
    omega
  · simp only [true_and, iff_self_and]
    omega

/-- A shift moves the UTC time of day around the clock. -/
theorem sample_micros {t : Instant} {s : Span} {m m' : TimeOfDay} (h : t.utcTimeOfDay = .ok m)
    (h' : t.sample s = .ok m') : (m'.micros : Int) = (m.micros + s) % microsPerDay := by
  rw [sample_eq_ok h', (utcTimeOfDay_eq_ok h).2, Int.emod_add_emod]
  congr 1
  omega

end Instant

section Grid

variable {d : Day} {minutes : Nat} {grid : List Instant}

theorem offset_of_mem_minuteGrid (h : minuteGrid d minutes = .ok grid) {t : Instant}
    (ht : t ∈ grid) : t.offset = some 0 := by
  rw [minuteGrid, inCalendar_eq_ok_iff, minuteGrid?] at h
  generalize List.range minutes = minutes at h
  induction minutes generalizing grid with
  | nil =>
    cases h
    cases ht
  | cons i rest ih =>
    rw [List.mapM_cons] at h
    obtain ⟨first, hfirst, h⟩ := Option.bind_eq_some_iff.1 h
    obtain ⟨more, hmore, h⟩ := Option.bind_eq_some_iff.1 h
    cases h
    rcases List.mem_cons.1 ht with rfl | ht
    · exact (Instant.ofWall?_eq_some_iff.1 hfirst).2
    · exact ih ht hmore

/-- The minutes of a day are UTC instants. -/
theorem mapM_toUtc_minuteGrid (h : minuteGrid d minutes = .ok grid) :
    grid.mapM Instant.toUtc = .ok grid := by
  have hutc : ∀ l : List Instant, (∀ t ∈ l, t.offset = some 0) → l.mapM Instant.toUtc = .ok l := by
    intro l hl
    induction l with
    | nil => rfl
    | cons t rest ih =>
      rw [List.mapM_cons, Instant.toUtc_of_offset_zero (hl t List.mem_cons_self),
        ih fun t' ht' => hl t' (List.mem_cons_of_mem t ht')]
      rfl
  exact hutc grid fun _ => offset_of_mem_minuteGrid h

end Grid

end TradingHours
