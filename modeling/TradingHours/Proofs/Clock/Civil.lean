import Mathlib.Algebra.Ring.Nat
import Mathlib.Logic.Function.Iterate
import TradingHours.Clock.Instant
/-!
Dates in the order of the calendar. The date of a day follows the date of the day before it, over
the ends of months, of common and leap years and of centuries, so the distance of two days counts
the dates from one to the other. Main statement: `civil_succ`.
-/
namespace TradingHours

def Civil.next (c : Civil) : Civil :=
  if c.day < (monthLengths (isLeapYear c.year)).getD (c.month - 1) 0 then
    { c with day := c.day + 1 }
  else if c.month < 12 then ⟨c.year, c.month + 1, 1⟩
  else ⟨c.year + 1, 1, 1⟩

/-- How many dates it is from one date on to another one, or back if the number is negative. -/
def Civil.DaysFrom (a b : Civil) (n : Int) : Prop :=
  if 0 ≤ n then Civil.next^[n.toNat] a = b else Civil.next^[(-n).toNat] b = a

def yearLength (leap : Bool) : Nat := if leap then 366 else 365

theorem sum_monthLengths (leap : Bool) : (monthLengths leap).sum = yearLength leap := by
  cases leap <;> rfl

section Months

variable {lengths : List Nat} {first n : Nat}

theorem first_le_monthAndDay (lengths : List Nat) (first n : Nat) :
    first ≤ (monthAndDay lengths first n).1 := by
  induction lengths generalizing first n with
  | nil => exact Nat.le_refl first
  | cons length rest ih =>
    rw [monthAndDay]
    split
    · exact Nat.le_refl first
    · exact Nat.le_trans (Nat.le_succ first) (ih (first + 1) (n - length))

theorem monthAndDay_lt (hn : n < lengths.sum) :
    (monthAndDay lengths first n).1 < first + lengths.length := by
  induction lengths generalizing first n with
  | nil => simp at hn
  | cons length rest ih =>
    rw [List.sum_cons] at hn
    rw [monthAndDay, List.length_cons]
    split
    · exact Nat.lt_add_of_pos_right (Nat.succ_pos rest.length)
    · have hrest : (monthAndDay rest (first + 1) (n - length)).1 < first + 1 + rest.length :=
        ih (by omega)
      omega

/-- The day after a day of some months is in the same month, or it is the first of the next one. -/
theorem monthAndDay_succ (hpos : ∀ length ∈ lengths, 0 < length) (hn : n + 1 < lengths.sum) :
    monthAndDay lengths first (n + 1) =
      let (month, day) := monthAndDay lengths first n
      if day < lengths.getD (month - first) 0 then (month, day + 1) else (month + 1, 1) := by
  induction lengths generalizing first n with
  | nil => simp at hn
  | cons length rest ih =>
    have hrest : ∀ length ∈ rest, 0 < length := fun l hl => hpos l (List.mem_cons_of_mem length hl)
    rw [List.sum_cons] at hn
    by_cases hlast : n + 1 < length
    · have hlt : n < length := by omega
      simp [monthAndDay, hlast, hlt]
    · by_cases hlt : n < length
      · -- the month ends here, and another one follows
        obtain rfl : length = n + 1 := by omega
        cases rest with
        | nil => simp at hn
        | cons second rest =>
          have hsecond : 0 < second := hrest second List.mem_cons_self
          simp [monthAndDay, hsecond]
      · have hle : length ≤ n := Nat.le_of_not_lt hlt
        have hnext := @ih (first + 1) (n - length) hrest (by omega)
        have hmonth := first_le_monthAndDay rest (first + 1) (n - length)
        rw [monthAndDay, if_neg hlast, monthAndDay, if_neg hlt, Nat.sub_add_comm hle, hnext]
        dsimp only
        obtain ⟨k, hk⟩ := Nat.exists_eq_add_of_le hmonth
        have hindex : (monthAndDay rest (first + 1) (n - length)).1 - first = k + 1 := by omega
        rw [hindex, List.getD_cons_succ, hk, Nat.add_sub_cancel_left]

end Months

section Years

variable {year n : Nat}

theorem isLeapYear_iff :
    isLeapYear year = true ↔ year % 4 = 0 ∧ (year % 100 ≠ 0 ∨ year % 400 = 0) := by
  simp [isLeapYear]

theorem yearLength_isLeapYear (year : Nat) : yearLength (isLeapYear year) =
    if year % 4 = 0 ∧ (year % 100 ≠ 0 ∨ year % 400 = 0) then 366 else 365 := by
  rw [yearLength]
  simp only [isLeapYear_iff]

theorem daysBeforeYear_succ (h : 0 < year) :
    daysBeforeYear (year + 1) = daysBeforeYear year + yearLength (isLeapYear year) := by
  obtain ⟨past, rfl⟩ : ∃ past, year = past + 1 := ⟨year - 1, by omega⟩
  have hle : past / 100 ≤ past / 4 := by omega
  have hfours : (past + 1) % 100 = 0 → (past + 1) % 4 = 0 := by omega
  have hhundreds : (past + 1) % 400 = 0 → (past + 1) % 100 = 0 := by omega
  simp only [daysBeforeYear, Nat.add_sub_cancel, yearLength_isLeapYear]
  by_cases h4 : (past + 1) % 4 = 0
  · rw [Nat.succ_div_of_mod_eq_zero h4]
    by_cases h100 : (past + 1) % 100 = 0
    · rw [Nat.succ_div_of_mod_eq_zero h100]
      by_cases h400 : (past + 1) % 400 = 0
      · rw [Nat.succ_div_of_mod_eq_zero h400, if_pos ⟨h4, .inr h400⟩]
        omega
      · rw [Nat.succ_div_of_mod_ne_zero h400, if_neg (by omega)]
        omega
    · rw [Nat.succ_div_of_mod_ne_zero h100, Nat.succ_div_of_mod_ne_zero (mt hhundreds h100),
        if_pos ⟨h4, .inl h100⟩]
      omega
  · rw [Nat.succ_div_of_mod_ne_zero h4, Nat.succ_div_of_mod_ne_zero (mt hfours h4),
      Nat.succ_div_of_mod_ne_zero (mt hhundreds (mt hfours h4)), if_neg (by omega)]
    omega

section Cycles

variable (eras centuries fours years : Nat) (hcenturies : centuries < 4) (hfours : fours < 25)
  (hyears : years < 4) (hyear : year = eras * 400 + centuries * 100 + fours * 4 + (years + 1))

include hcenturies hfours hyears hyear

/-- The days before a year and those of the year, by the cycles of 400, 100, 4 and 1 years. -/
theorem year_cycles :
    daysBeforeYear year = eras * 146097 + centuries * 36524 + fours * 1461 + years * 365 ∧
      yearLength (isLeapYear year) =
        if years = 3 ∧ (fours < 24 ∨ centuries = 3) then 366 else 365 := by
  have h4 : (year - 1) / 4 = eras * 100 + centuries * 25 + fours := by omega
  have h100 : (year - 1) / 100 = eras * 4 + centuries := by omega
  have h400 : (year - 1) / 400 = eras := by omega
  have hleap : year % 4 = 0 ∧ (year % 100 ≠ 0 ∨ year % 400 = 0) ↔
      years = 3 ∧ (fours < 24 ∨ centuries = 3) := by
    omega
  constructor
  · rw [daysBeforeYear, h4, h100, h400]
    omega
  · rw [yearLength_isLeapYear]
    simp only [hleap]

end Cycles

theorem daysBeforeYear_add_le {later : Nat} (h : 0 < year) (hlater : year < later) :
    daysBeforeYear year + yearLength (isLeapYear year) ≤ daysBeforeYear later := by
  induction later with
  | zero => exact absurd hlater (Nat.not_lt_zero year)
  | succ later ih =>
    rcases Nat.lt_succ_iff_lt_or_eq.1 hlater with hlt | rfl
    · rw [daysBeforeYear_succ (Nat.zero_lt_of_lt hlt)]
      exact Nat.le_trans (ih hlt) (Nat.le_add_right _ _)
    · exact Nat.le_of_eq (daysBeforeYear_succ h).symm

def dateIn (year n : Nat) : Civil :=
  ⟨year, (monthAndDay (monthLengths (isLeapYear year)) 1 n).1,
    (monthAndDay (monthLengths (isLeapYear year)) 1 n).2⟩

theorem next_dateIn (hn : n + 1 < yearLength (isLeapYear year)) :
    (dateIn year n).next = dateIn year (n + 1) := by
  have hpos : ∀ length ∈ monthLengths (isLeapYear year), 0 < length := by
    cases isLeapYear year <;> decide
  rw [← sum_monthLengths] at hn
  have hlt : (monthAndDay (monthLengths (isLeapYear year)) 1 (n + 1)).1 < 1 + 12 :=
    monthAndDay_lt hn
  have hsucc := @monthAndDay_succ _ 1 _ hpos hn
  rw [hsucc] at hlt
  rw [Civil.next, dateIn, dateIn, hsucc]
  generalize monthAndDay (monthLengths (isLeapYear year)) 1 n = place at hlt ⊢
  obtain ⟨month, day⟩ := place
  dsimp only at hlt ⊢
  split
  · rfl
  · next hlast =>
    rw [if_neg hlast] at hlt
    rw [if_pos (Nat.lt_of_succ_lt_succ (hlt : month + 1 < 12 + 1))]

theorem dateIn_last (hn : n + 1 = yearLength (isLeapYear year)) :
    dateIn year n = ⟨year, 12, 31⟩ := by
  obtain rfl : n = yearLength (isLeapYear year) - 1 := by omega
  rw [dateIn]
  cases isLeapYear year <;> rfl

theorem next_dateIn_last (hn : n + 1 = yearLength (isLeapYear year)) :
    (dateIn year n).next = dateIn (year + 1) 0 := by
  have hfirst : dateIn (year + 1) 0 = ⟨year + 1, 1, 1⟩ := rfl
  rw [hfirst, dateIn_last hn]
  rfl

end Years

namespace Day

variable {d d' : Day}

/-- Every day is in a year, and its date is the one at its distance from the start of the year. -/
theorem exists_civil_eq (d : Day) : ∃ year n, 0 < year ∧ n < yearLength (isLeapYear year) ∧
    d.index = daysBeforeYear year + n ∧ d.civil = dateIn year n := by
  rw [civil]
  generalize d.index = index
  generalize heras : index / 146097 = eras
  generalize hinEra : index % 146097 = inEra
  generalize hcenturies : inEra / 36524 = centuries
  generalize hinCentury : inEra % 36524 = inCentury
  generalize hfours : inCentury / 1461 = fours
  generalize hinFours : inCentury % 1461 = inFours
  generalize hyears : inFours / 365 = years
  generalize hrest : inFours % 365 = rest
  have hrest' : rest < 365 := by omega
  have hfours' : fours < 25 := by omega
  have hsum : index = eras * 146097 + centuries * 36524 + fours * 1461 + years * 365 + rest := by
    omega
  by_cases hera : centuries = 4
  · -- the last day of 400 years, in the last year of their last century
    obtain ⟨year, hyear⟩ : ∃ year, year = eras * 400 + centuries * 100 + fours * 4 + years :=
      ⟨_, rfl⟩
    have hcycles : year = eras * 400 + 3 * 100 + 24 * 4 + (3 + 1) := by omega
    obtain ⟨hbefore, hlength⟩ :=
      year_cycles eras 3 24 3 (by decide) (by decide) (by decide) hcycles
    refine ⟨year, 365, by omega, Nat.lt_of_lt_of_eq (by decide) hlength.symm, by omega, ?_⟩
    rw [dateIn_last hlength.symm, if_pos (by simp [hera]), ← hyear]
    rfl
  · have hcenturies' : centuries < 4 := by omega
    by_cases hfour : years = 4
    · -- the last day of four years, in the last one of them
      obtain ⟨year, hyear⟩ : ∃ year, year = eras * 400 + centuries * 100 + fours * 4 + years :=
        ⟨_, rfl⟩
      have hcycles : year = eras * 400 + centuries * 100 + fours * 4 + (3 + 1) := by omega
      obtain ⟨hbefore, hlength⟩ :=
        year_cycles eras centuries fours 3 hcenturies' hfours' (by decide) hcycles
      rw [if_pos (by omega)] at hlength
      refine ⟨year, 365, by omega, Nat.lt_of_lt_of_eq (by decide) hlength.symm, by omega, ?_⟩
      rw [dateIn_last hlength.symm, if_pos (by simp [hfour]), ← hyear]
      rfl
    · obtain ⟨year, hyear⟩ : ∃ year,
          year = eras * 400 + centuries * 100 + fours * 4 + (years + 1) := ⟨_, rfl⟩
      obtain ⟨hbefore, hlength⟩ :=
        year_cycles eras centuries fours years hcenturies' hfours' (by omega) hyear
      refine ⟨year, rest, by omega, ?_, by omega, ?_⟩
      · rw [hlength]
        split <;> omega
      · rw [if_neg (by simp [hera, hfour]), Nat.add_assoc _ years 1, ← hyear]
        rfl

theorem civil_eq_dateIn {year n : Nat} (h : 0 < year) (hn : n < yearLength (isLeapYear year))
    (hindex : d.index = daysBeforeYear year + n) : d.civil = dateIn year n := by
  obtain ⟨year', n', h', hn', hindex', hcivil⟩ := d.exists_civil_eq
  rcases Nat.lt_trichotomy year year' with hlt | rfl | hlt
  · have := daysBeforeYear_add_le h hlt
    omega
  · obtain rfl : n = n' := by omega
    exact hcivil
  · have := daysBeforeYear_add_le h' hlt
    omega

/-- The date of the next day is the next date. -/
theorem civil_succ (h : d'.index = d.index + 1) : d'.civil = d.civil.next := by
  obtain ⟨year, n, hyear, hn, hindex, hcivil⟩ := d.exists_civil_eq
  rw [hcivil]
  by_cases hlast : n + 1 = yearLength (isLeapYear year)
  · rw [next_dateIn_last hlast]
    apply civil_eq_dateIn (Nat.succ_pos year)
    · rw [yearLength]
      split <;> decide
    · rw [h, hindex, daysBeforeYear_succ hyear, ← hlast]
      rfl
  · have hlt : n + 1 < yearLength (isLeapYear year) := by omega
    rw [next_dateIn hlt]
    exact civil_eq_dateIn hyear hlt (by omega)

theorem civil_iterate {k : Nat} (h : d'.index = d.index + k) :
    Civil.next^[k] d.civil = d'.civil := by
  induction k generalizing d' with
  | zero =>
    obtain rfl : d' = d := by
      cases d; cases d'; simpa using h
    rfl
  | succ k ih =>
    have hlt : d.index + k < dayCount := by
      have := d'.index_lt
      omega
    rw [Function.iterate_succ_apply', @ih ⟨d.index + k, hlt⟩ rfl]
    exact (civil_succ h).symm

def sinceEpoch (d : Day) : Int := (d.index : Int) - Instant.epochDay

theorem daysFrom_epoch (d : Day) : Civil.DaysFrom ⟨1970, 1, 1⟩ d.civil d.sinceEpoch := by
  have hepoch : (⟨Instant.epochDay, by decide⟩ : Day).civil = ⟨1970, 1, 1⟩ := by decide
  rw [Civil.DaysFrom, ← hepoch, sinceEpoch]
  split
  · exact civil_iterate (by dsimp only; omega)
  · exact civil_iterate (by dsimp only; omega)

end Day

end TradingHours
