import Mathlib.Algebra.Ring.Nat
import Mathlib.Tactic.ByContra
import TradingHours.Schedule.Fragment
/-!
The grammar of fragments, said by position and local context alone, and the proof that one scan from
left to right finds exactly its fragments. Main statement: `scan_meets_grammar`.
-/
namespace TradingHours.Schedule

def digitAt (cs : List Char) (i : Nat) : Bool := cs[i]?.any Text.isAsciiDigit

def markAt (cs : List Char) (i : Nat) : Bool :=
  cs[i]?.any fun c => isMarker c || isOvernightMarker c

def MarksWindow (cs : List Char) (i : Nat) : Prop :=
  markAt cs i = true ∧ ∀ j < 8, digitAt cs (i + 1 + j) = true

instance (cs : List Char) (i : Nat) : Decidable (MarksWindow cs i) :=
  inferInstanceAs (Decidable (_ ∧ _))

structure DigitRun (cs : List Char) (s e : Nat) : Prop where
  nonempty : s < e
  digits : ∀ i, s ≤ i → i < e → digitAt cs i = true
  first : ∀ i, i + 1 = s → digitAt cs i = false
  last : digitAt cs e = false

/-- Where the plain windows of a run start: behind the eight digits that a mark takes. -/
def plainStart (cs : List Char) (s : Nat) : Nat :=
  if 0 < s ∧ MarksWindow cs (s - 1) then s + 8 else s

/-- The fragments of a text by position: marked windows, the eights of a digit run with what is left
over of it, and every other character alone. -/
inductive IsFragment (cs : List Char) : Fragment → Prop
  | marker {i : Nat} {c : Char} (here : cs[i]? = some c) (mark : isMarker c = true)
      (window : MarksWindow cs i) : IsFragment cs ⟨.markerWindow, cs.extract i (i + 9), i⟩
  | overnight {i : Nat} {c : Char} (here : cs[i]? = some c) (mark : isOvernightMarker c = true)
      (window : MarksWindow cs i) : IsFragment cs ⟨.overnightWindow, cs.extract i (i + 9), i⟩
  | plain {s e i k : Nat} (run : DigitRun cs s e) (start : i = plainStart cs s + 8 * k)
      (fits : i + 8 ≤ e) : IsFragment cs ⟨.plainWindow, cs.extract i (i + 8), i⟩
  | leftover {s e i k : Nat} (run : DigitRun cs s e) (start : i = plainStart cs s + 8 * k)
      (some : i < e) (short : e < i + 8) : IsFragment cs ⟨.skip, cs.extract i e, i⟩
  | other {i : Nat} {c : Char} (here : cs[i]? = some c) (nonDigit : digitAt cs i = false)
      (noWindow : ¬ MarksWindow cs i) : IsFragment cs ⟨.skip, [c], i⟩

theorem digitAt_eq_true_iff (cs : List Char) (i : Nat) :
    digitAt cs i = true ↔ ∃ c, cs[i]? = some c ∧ Text.isAsciiDigit c = true := by
  cases h : cs[i]? <;> simp [digitAt, h]

theorem lt_length_of_digitAt {cs : List Char} {i : Nat} (h : digitAt cs i = true) :
    i < cs.length := by
  obtain ⟨c, hc, -⟩ := (digitAt_eq_true_iff cs i).1 h
  exact (List.getElem?_eq_some_iff.1 hc).1

theorem digitAt_drop (cs : List Char) (i j : Nat) : digitAt (cs.drop i) j = digitAt cs (i + j) := by
  simp [digitAt, List.getElem?_drop]

theorem nonDigit_of_mark {c : Char} (h : (isMarker c || isOvernightMarker c) = true) :
    Text.isAsciiDigit c = false := by
  simp only [isMarker, isOvernightMarker, Bool.or_eq_true, decide_eq_true_eq] at h
  obtain ((rfl | rfl) | rfl) | rfl := h <;> decide

theorem digitAt_of_markAt {cs : List Char} {i : Nat} (h : markAt cs i = true) :
    digitAt cs i = false := by
  cases hc : cs[i]? with
  | none => simp [digitAt, hc]
  | some c =>
    have hm : (isMarker c || isOvernightMarker c) = true := by simpa [markAt, hc] using h
    simpa [digitAt, hc] using nonDigit_of_mark hm

theorem all_take_iff (p : Char → Bool) (n : Nat) (cs : List Char) :
    (cs.take n).length = n ∧ (cs.take n).all p = true ↔ ∀ j < n, cs[j]?.any p = true := by
  induction n generalizing cs with
  | zero => simp
  | succ n ih =>
    cases cs with
    | nil =>
      simp only [List.take_nil, List.length_nil]
      constructor
      · intro h
        omega
      · intro h
        simpa using h 0 (by omega)
    | cons c rest =>
      have hrest := ih rest
      simp only [List.take_succ_cons, List.length_cons, List.all_cons, Bool.and_eq_true,
        Nat.add_right_cancel_iff]
      constructor
      · rintro ⟨hn, hc, hall⟩ j hj
        cases j with
        | zero => simpa using hc
        | succ j => simpa using hrest.1 ⟨hn, hall⟩ j (by omega)
      · intro h
        have htail := hrest.2 fun j hj => by simpa using h (j + 1) (by omega)
        exact ⟨htail.1, by simpa using h 0 (by omega), htail.2⟩

theorem startsWithWindow_drop_iff (cs : List Char) (i : Nat) :
    startsWithWindow (cs.drop i) = true ↔ ∀ j < 8, digitAt cs (i + j) = true := by
  simp only [startsWithWindow, Bool.and_eq_true, decide_eq_true_eq]
  rw [all_take_iff Text.isAsciiDigit 8 (cs.drop i)]
  simp only [digitAt, List.getElem?_drop]

namespace DigitRun

variable {cs : List Char} {s e s' e' i : Nat}

theorem unique (h : DigitRun cs s e) (h' : DigitRun cs s' e') (hs : s ≤ i) (he : i < e)
    (hs' : s' ≤ i) (he' : i < e') : s = s' ∧ e = e' := by
  constructor
  · rcases Nat.lt_trichotomy s s' with hlt | heq | hgt
    · have hd := h.digits (s' - 1) (by omega) (by omega)
      have hf := h'.first (s' - 1) (by omega)
      simp [hd] at hf
    · exact heq
    · have hd := h'.digits (s - 1) (by omega) (by omega)
      have hf := h.first (s - 1) (by omega)
      simp [hd] at hf
  · rcases Nat.lt_trichotomy e e' with hlt | heq | hgt
    · have hd := h'.digits e (by omega) (by omega)
      simp [h.last] at hd
    · exact heq
    · have hd := h.digits e' (by omega) (by omega)
      simp [h'.last] at hd

/-- A run starts behind the last position without a digit. -/
theorem start_eq (h : DigitRun cs s e) (hs : s ≤ i) (he : i < e) {p : Nat} (hp : p < i)
    (hd : digitAt cs p = false) (hall : ∀ j, p < j → j ≤ i → digitAt cs j = true) : s = p + 1 := by
  rcases Nat.lt_trichotomy s (p + 1) with hlt | heq | hgt
  · have hp' := h.digits p (by omega) (by omega)
    simp [hd] at hp'
  · exact heq
  · have hf := h.first (s - 1) (by omega)
    rw [hall (s - 1) (by omega) (by omega)] at hf
    simp at hf

theorem exists_start (h : digitAt cs i = true) :
    ∃ s ≤ i, (∀ j, s ≤ j → j ≤ i → digitAt cs j = true) ∧
      ∀ j, j + 1 = s → digitAt cs j = false := by
  induction i with
  | zero =>
    refine ⟨0, Nat.le_refl 0, ?_, by omega⟩
    intro j _ hj
    obtain rfl : j = 0 := by omega
    exact h
  | succ i ih =>
    cases hi : digitAt cs i with
    | false =>
      refine ⟨i + 1, Nat.le_refl _, ?_, ?_⟩
      · intro j hj hj'
        obtain rfl : j = i + 1 := by omega
        exact h
      · intro j hj
        obtain rfl : j = i := by omega
        exact hi
    | true =>
      obtain ⟨s, hs, hd, hf⟩ := ih hi
      refine ⟨s, by omega, ?_, hf⟩
      intro j hj hj'
      by_cases hlast : j = i + 1
      · subst hlast
        exact h
      · exact hd j hj (by omega)

/-- The digits at the front of a text end where `takeWhile` ends. -/
theorem digitAt_takeWhile (cs : List Char) :
    (∀ j < (cs.takeWhile Text.isAsciiDigit).length, digitAt cs j = true) ∧
      digitAt cs (cs.takeWhile Text.isAsciiDigit).length = false := by
  induction cs with
  | nil => simp [digitAt]
  | cons c rest ih =>
    cases hc : Text.isAsciiDigit c with
    | false => simp [digitAt, hc]
    | true =>
      simp only [List.takeWhile_cons, hc, if_true, List.length_cons]
      constructor
      · intro j hj
        cases j with
        | zero => simpa [digitAt] using hc
        | succ j => simpa [digitAt] using ih.1 j (by omega)
      · simpa [digitAt] using ih.2

/-- Every digit lies in a run, and the run ends where the digits from there on end. -/
theorem exists_of_digitAt (h : digitAt cs i = true) :
    ∃ s ≤ i, DigitRun cs s (i + ((cs.drop i).takeWhile Text.isAsciiDigit).length) := by
  obtain ⟨s, hs, hd, hf⟩ := exists_start h
  obtain ⟨hfront, hend⟩ := digitAt_takeWhile (cs.drop i)
  have hpos : 0 < ((cs.drop i).takeWhile Text.isAsciiDigit).length := by
    by_contra hzero
    rw [show ((cs.drop i).takeWhile Text.isAsciiDigit).length = 0 by omega, digitAt_drop] at hend
    simp [h] at hend
  refine ⟨s, hs, by omega, ?_, hf, by rw [← digitAt_drop]; exact hend⟩
  intro j hj hj'
  by_cases hle : j ≤ i
  · exact hd j hj hle
  · have hj'' := hfront (j - i) (by omega)
    rwa [digitAt_drop, show i + (j - i) = j by omega] at hj''

end DigitRun

theorem le_plainStart (cs : List Char) (s : Nat) : s ≤ plainStart cs s := by
  unfold plainStart
  split <;> omega

theorem plainStart_of_marked {cs : List Char} {i : Nat} (h : MarksWindow cs i) :
    plainStart cs (i + 1) = i + 9 := by
  simp [plainStart, h]

theorem plainStart_of_unmarked {cs : List Char} {i : Nat} (h : ¬ MarksWindow cs i) :
    plainStart cs (i + 1) = i + 1 := by
  simp [plainStart, h]

theorem length_extract_of_le {cs : List Char} {i e : Nat} (h : e ≤ cs.length) :
    (cs.extract i e).length = e - i := by
  simp [List.extract]
  omega

def fragmentOfMark (cs : List Char) (i : Nat) (c : Char) : Fragment :=
  if MarksWindow cs i then
    ⟨if isOvernightMarker c then .overnightWindow else .markerWindow, cs.extract i (i + 9), i⟩
  else ⟨.skip, [c], i⟩

def fragmentOfRun (cs : List Char) (i e : Nat) : Fragment :=
  if i + 8 ≤ e then ⟨.plainWindow, cs.extract i (i + 8), i⟩ else ⟨.skip, cs.extract i e, i⟩

namespace IsFragment

variable {cs : List Char} {f : Fragment}

theorem of_mark {i : Nat} {c : Char} (hc : cs[i]? = some c) (hd : digitAt cs i = false) :
    IsFragment cs (fragmentOfMark cs i c) := by
  unfold fragmentOfMark
  split
  next hw =>
    cases ho : isOvernightMarker c with
    | true => exact .overnight hc ho hw
    | false =>
      have hm : isMarker c = true := by simpa [markAt, hc, ho] using hw.1
      exact .marker hc hm hw
  next hw => exact .other hc hd hw

theorem of_run {s e i k : Nat} (run : DigitRun cs s e) (start : i = plainStart cs s + 8 * k)
    (hi : i < e) : IsFragment cs (fragmentOfRun cs i e) := by
  unfold fragmentOfRun
  split
  next hfit => exact .plain run start hfit
  next hshort => exact .leftover run start hi (by omega)

theorem eq_of_nonDigit (h : IsFragment cs f) {c : Char} (hc : cs[f.position]? = some c)
    (hd : digitAt cs f.position = false) : f = fragmentOfMark cs f.position c := by
  cases h with
  | @marker i c' here mark window =>
    obtain rfl : c' = c := by simpa [here] using hc
    have ho : isOvernightMarker c' = false := by
      simp only [isMarker, Bool.or_eq_true, decide_eq_true_eq] at mark
      obtain (rfl | rfl) | rfl := mark <;> decide
    simp [fragmentOfMark, window, ho]
  | @overnight i c' here mark window =>
    obtain rfl : c' = c := by simpa [here] using hc
    simp [fragmentOfMark, window, mark]
  | @plain s e i k run start fits =>
    have := le_plainStart cs s
    have := run.digits i (by omega) (by omega)
    simp [this] at hd
  | @leftover s e i k run start some short =>
    have := le_plainStart cs s
    have := run.digits i (by omega) (by omega)
    simp [this] at hd
  | @other i c' here nonDigit noWindow =>
    obtain rfl : c' = c := by simpa [here] using hc
    simp [fragmentOfMark, noWindow]

theorem exists_run (h : IsFragment cs f) (hd : digitAt cs f.position = true) :
    ∃ s e k, DigitRun cs s e ∧ f.position = plainStart cs s + 8 * k ∧ f.position < e ∧
      f = fragmentOfRun cs f.position e := by
  cases h with
  | marker here mark window => simp [digitAt_of_markAt window.1] at hd
  | overnight here mark window => simp [digitAt_of_markAt window.1] at hd
  | @plain s e i k run start fits =>
    exact ⟨s, e, k, run, start, by simp only; omega, by simp [fragmentOfRun, fits]⟩
  | @leftover s e i k run start some short =>
    exact ⟨s, e, k, run, start, some, by simp [fragmentOfRun, show ¬ i + 8 ≤ e by omega]⟩
  | other here nonDigit noWindow => simp [nonDigit] at hd

theorem position_lt (h : IsFragment cs f) : f.position < cs.length := by
  cases h with
  | marker here | overnight here | other here => exact (List.getElem?_eq_some_iff.1 here).1
  | @plain s e i k run start fits =>
    have := le_plainStart cs s
    exact lt_length_of_digitAt (run.digits i (by omega) (by omega))
  | @leftover s e i k run start some =>
    have := le_plainStart cs s
    exact lt_length_of_digitAt (run.digits i (by omega) some)

theorem halves_of_digits {i : Nat} (h : f.digits = cs.extract i (i + 8)) :
    f.opening = cs.extract i (i + 4) ∧ f.closing = cs.extract (i + 4) (i + 8) := by
  constructor
  · rw [Fragment.opening, h]
    simp [List.extract, List.take_take]
  · rw [Fragment.closing, h]
    simp only [List.extract, List.drop_take, List.drop_drop]
    rw [show i + 8 - i - 4 = i + 8 - (i + 4) by omega]

theorem digits_of_marked (i : Nat) {kind : FragmentKind} (hk : kind ≠ .plainWindow) :
    (⟨kind, cs.extract i (i + 9), i⟩ : Fragment).digits = cs.extract (i + 1) (i + 1 + 8) := by
  simp only [Fragment.digits, if_neg hk, List.extract, List.drop_take, List.drop_drop]
  rw [show i + 9 - i - 1 = i + 1 + 8 - (i + 1) by omega]

theorem end_of_marked {i : Nat} (window : MarksWindow cs i) :
    i + (cs.extract i (i + 9)).length = i + 1 + 8 := by
  have := lt_length_of_digitAt (window.2 7 (by omega))
  rw [length_extract_of_le (by omega)]
  omega

/-- The start and the end of a window are the two halves of the eight digits that it ends in. -/
theorem halves (h : IsFragment cs f) (hw : f.isWindow = true) :
    ∃ i, f.position + f.text.length = i + 8 ∧ f.opening = cs.extract i (i + 4) ∧
      f.closing = cs.extract (i + 4) (i + 8) ∧ ∀ j < 8, digitAt cs (i + j) = true := by
  cases h with
  | @marker i c here mark window =>
    have hkind : FragmentKind.markerWindow ≠ .plainWindow := nofun
    obtain ⟨ho, hc⟩ := halves_of_digits (digits_of_marked i hkind)
    exact ⟨i + 1, end_of_marked window, ho, hc, window.2⟩
  | @overnight i c here mark window =>
    have hkind : FragmentKind.overnightWindow ≠ .plainWindow := nofun
    obtain ⟨ho, hc⟩ := halves_of_digits (digits_of_marked i hkind)
    exact ⟨i + 1, end_of_marked window, ho, hc, window.2⟩
  | @plain s e i k run start fits =>
    have := le_plainStart cs s
    have hall : ∀ j < 8, digitAt cs (i + j) = true := fun j hj =>
      run.digits (i + j) (by omega) (by omega)
    have hlen := lt_length_of_digitAt (hall 7 (by omega))
    have hd : (⟨.plainWindow, cs.extract i (i + 8), i⟩ : Fragment).digits = cs.extract i (i + 8) :=
      rfl
    obtain ⟨ho, hc⟩ := halves_of_digits hd
    refine ⟨i, ?_, ho, hc, hall⟩
    simp only [length_extract_of_le (show i + 8 ≤ cs.length by omega)]
    omega
  | leftover | other => simp [Fragment.isWindow] at hw

end IsFragment

/-- A position at which a fragment starts: if it lies in a run, it lies where an eight starts. -/
def Seam (cs : List Char) (p : Nat) : Prop :=
  ∀ s e, DigitRun cs s e → s ≤ p → p < e → ∃ k, p = plainStart cs s + 8 * k

theorem seam_zero (cs : List Char) : Seam cs 0 := by
  intro s e _ hs _
  exact ⟨0, by simp [plainStart, show s = 0 by omega]⟩

theorem Seam.of_nonDigit {cs : List Char} {p : Nat} (h : digitAt cs p = false) : Seam cs p := by
  intro s e run hs he
  have := run.digits p hs he
  simp [h] at this

/-- A fragment that the scan from a position finds first. Up to its end the grammar knows no other
one, and from there the scan goes on. -/
structure FoundFirst (cs : List Char) (p : Nat) (f : Fragment) : Prop where
  fragment : IsFragment cs f
  position : f.position = p
  nonempty : f.text ≠ []
  within : p + f.text.length ≤ cs.length
  seam : Seam cs (p + f.text.length)
  rest : scanFrom p (cs.drop p) =
    f :: scanFrom (p + f.text.length) (cs.drop (p + f.text.length))
  only : ∀ g, IsFragment cs g → p ≤ g.position → g.position < p + f.text.length → g = f

section Step

variable {cs : List Char} {p : Nat} {c : Char}

theorem drop_of_getElem? (hc : cs[p]? = some c) : cs.drop p = c :: cs.drop (p + 1) := by
  obtain ⟨hp, rfl⟩ := List.getElem?_eq_some_iff.1 hc
  exact List.drop_eq_getElem_cons hp

theorem markAt_of_getElem? (hc : cs[p]? = some c) :
    markAt cs p = (isMarker c || isOvernightMarker c) := by
  simp [markAt, hc]

theorem foundFirst_window (hc : cs[p]? = some c) (hw : MarksWindow cs p) :
    FoundFirst cs p (fragmentOfMark cs p c) := by
  have hm : (isMarker c || isOvernightMarker c) = true := by
    rw [← markAt_of_getElem? hc]
    exact hw.1
  have hd : digitAt cs p = false := digitAt_of_markAt hw.1
  have hall : ∀ j, p < j → j ≤ p + 8 → digitAt cs j = true := by
    intro j hj hj'
    have h := hw.2 (j - (p + 1)) (by omega)
    rwa [show p + 1 + (j - (p + 1)) = j by omega] at h
  have hstart : startsWithWindow (cs.drop (p + 1)) = true :=
    (startsWithWindow_drop_iff cs (p + 1)).2 hw.2
  have hlen : p + 9 ≤ cs.length := by
    have := lt_length_of_digitAt (hall (p + 8) (by omega) (by omega))
    omega
  have hnine : (fragmentOfMark cs p c).text.length = 9 := by
    simp only [fragmentOfMark, hw, if_true, length_extract_of_le hlen]
    omega
  refine ⟨.of_mark hc hd, by unfold fragmentOfMark; split <;> rfl, ?_, by omega, ?_, ?_, ?_⟩
  · intro hnil
    simp [hnil] at hnine
  · intro s e run hs he
    rw [hnine] at hs he
    have hsp : s = p + 1 := by
      by_cases hlast : digitAt cs (p + 9) = true
      · refine run.start_eq hs he (by omega) hd ?_
        intro j hj hj'
        by_cases hj9 : j = p + 9
        · rw [hj9]
          exact hlast
        · exact hall j hj (by omega)
      · exact absurd (run.digits (p + 9) hs he) hlast
    exact ⟨0, by rw [hsp, plainStart_of_marked hw, hnine]⟩
  · rw [hnine, drop_of_getElem? hc, scanFrom]
    simp only [hm, hstart, if_true]
    simp [fragmentOfMark, hw, List.extract, drop_of_getElem? hc]
  · intro g hg hp hlt
    by_cases heq : g.position = p
    · have h := hg.eq_of_nonDigit (by rw [heq]; exact hc) (by rw [heq]; exact hd)
      rwa [heq] at h
    · -- the digits of the window belong to a run whose plain windows start behind them
      obtain ⟨s, e, k, run, hk, hge, -⟩ := hg.exists_run (hall g.position (by omega) (by omega))
      have := le_plainStart cs s
      have hsp := run.start_eq (by omega) hge (p := p) (by omega) hd fun j hj hj' =>
        hall j hj (by omega)
      rw [hsp, plainStart_of_marked hw] at hk
      omega

theorem foundFirst_other (hc : cs[p]? = some c) (hd : digitAt cs p = false)
    (hw : ¬ MarksWindow cs p) : FoundFirst cs p (fragmentOfMark cs p c) := by
  have hp : p < cs.length := (List.getElem?_eq_some_iff.1 hc).1
  have heq : fragmentOfMark cs p c = ⟨.skip, [c], p⟩ := by simp [fragmentOfMark, hw]
  have hc' : Text.isAsciiDigit c = false := by simpa [digitAt, hc] using hd
  rw [heq]
  refine ⟨.other hc hd hw, rfl, by simp, hp, ?_, ?_, ?_⟩
  · intro s e run hs he
    simp only [List.length_singleton] at hs he ⊢
    have hsp := run.start_eq hs he (p := p) (by omega) hd fun j hj hj' => by
      obtain rfl : j = p + 1 := by omega
      exact run.digits (p + 1) hs he
    exact ⟨0, by rw [hsp, plainStart_of_unmarked hw]⟩
  · rw [drop_of_getElem? hc, scanFrom]
    by_cases hm : (isMarker c || isOvernightMarker c) = true
    · have hstart : ¬ startsWithWindow (cs.drop (p + 1)) = true := fun h =>
        hw ⟨by rw [markAt_of_getElem? hc]; exact hm, (startsWithWindow_drop_iff cs (p + 1)).1 h⟩
      simp [hm, hstart]
    · simp [hm, hc']
  · intro g hg hp hlt
    have hgp : g.position = p := by
      simp only [List.length_singleton] at hlt
      omega
    have h := hg.eq_of_nonDigit (by rw [hgp]; exact hc) (by rw [hgp]; exact hd)
    rwa [hgp, heq] at h

/-- Where a scan meets a digit, an eight of the run starts. -/
theorem Seam.exists_run (seam : Seam cs p) (hd : digitAt cs p = true) :
    ∃ s k, DigitRun cs s (p + ((cs.drop p).takeWhile Text.isAsciiDigit).length) ∧ s ≤ p ∧
      p = plainStart cs s + 8 * k := by
  obtain ⟨s, hs, run⟩ := DigitRun.exists_of_digitAt hd
  obtain ⟨k, hk⟩ := seam s _ run hs (by
    by_contra hend
    have := run.last
    rw [show p + ((cs.drop p).takeWhile Text.isAsciiDigit).length = p by omega] at this
    simp [hd] at this)
  exact ⟨s, k, run, hs, hk⟩

/-- In a run, the next fragment of the grammar is the one where the next eight starts. -/
theorem eq_fragmentOfRun {s e k : Nat} (run : DigitRun cs s e) (hs : s ≤ p)
    (hk : p = plainStart cs s + 8 * k) {g : Fragment} (hg : IsFragment cs g) (hp : p ≤ g.position)
    (hlt : g.position < p + 8) (he : g.position < e) : g = fragmentOfRun cs p e := by
  obtain ⟨s', e', k', run', hk', he', heq⟩ :=
    hg.exists_run (run.digits g.position (by omega) he)
  have := le_plainStart cs s'
  obtain ⟨rfl, rfl⟩ := run.unique run' (by omega) he (by omega) he'
  have hpos : g.position = p := by omega
  rwa [hpos] at heq

theorem foundFirst_plain (hc : cs[p]? = some c) {s e k : Nat} (run : DigitRun cs s e) (hs : s ≤ p)
    (hk : p = plainStart cs s + 8 * k) (hfit : p + 8 ≤ e) (hlen : e ≤ cs.length) :
    FoundFirst cs p (fragmentOfRun cs p e) := by
  have hd : Text.isAsciiDigit c = true := by
    simpa [digitAt, hc] using run.digits p hs (by omega)
  have hm : ¬ (isMarker c || isOvernightMarker c) = true := fun h => by
    simp [nonDigit_of_mark h] at hd
  have hstart : startsWithWindow (c :: cs.drop (p + 1)) = true := by
    rw [← drop_of_getElem? hc, startsWithWindow_drop_iff]
    intro j hj
    exact run.digits (p + j) (by omega) (by omega)
  have heq : fragmentOfRun cs p e = ⟨.plainWindow, cs.extract p (p + 8), p⟩ := by
    simp [fragmentOfRun, hfit]
  have height : (fragmentOfRun cs p e).text.length = 8 := by
    rw [heq, length_extract_of_le (by omega)]
    omega
  refine ⟨.of_run run hk (by omega), by rw [heq], ?_, by omega, ?_, ?_, ?_⟩
  · intro hnil
    simp [hnil] at height
  · intro s' e' run' hs' he'
    rw [height] at hs' he' ⊢
    have hp : p + 8 < e := by
      by_contra hend
      have hlast := run.last
      rw [show e = p + 8 by omega] at hlast
      simp [run'.digits (p + 8) hs' he'] at hlast
    obtain ⟨rfl, rfl⟩ := run.unique run' (by omega) hp hs' he'
    exact ⟨k + 1, by omega⟩
  · rw [height, heq, drop_of_getElem? hc, scanFrom]
    simp only [hm, hd, hstart, if_true]
    simp [List.extract, drop_of_getElem? hc]
  · intro g hg hp hlt
    exact eq_fragmentOfRun run hs hk hg hp (by omega) (by omega)

theorem foundFirst_leftover (hc : cs[p]? = some c) {s k : Nat}
    (run : DigitRun cs s (p + ((cs.drop p).takeWhile Text.isAsciiDigit).length)) (hs : s ≤ p)
    (hd : Text.isAsciiDigit c = true) (hk : p = plainStart cs s + 8 * k)
    (hshort : ((cs.drop p).takeWhile Text.isAsciiDigit).length < 8) :
    FoundFirst cs p
      (fragmentOfRun cs p (p + ((cs.drop p).takeWhile Text.isAsciiDigit).length)) := by
  have hm : ¬ (isMarker c || isOvernightMarker c) = true := fun h => by
    simp [nonDigit_of_mark h] at hd
  have hsplit := List.takeWhile_append_dropWhile (p := Text.isAsciiDigit) (l := cs.drop p)
  generalize hdigits : (cs.drop p).takeWhile Text.isAsciiDigit = digits at run hshort hsplit
  have hstart : ¬ startsWithWindow (c :: cs.drop (p + 1)) = true := by
    rw [← drop_of_getElem? hc, startsWithWindow_drop_iff]
    intro h
    have hlast := run.last
    simp [h digits.length hshort] at hlast
  have hcons : digits = c :: (cs.drop (p + 1)).takeWhile Text.isAsciiDigit := by
    rw [← hdigits, drop_of_getElem? hc, List.takeWhile_cons_of_pos hd]
  have htext : cs.extract p (p + digits.length) = digits := by
    rw [List.extract, ← hsplit, Nat.add_sub_cancel_left, List.take_left]
  have hdrop : cs.drop (p + digits.length) = (cs.drop (p + 1)).dropWhile Text.isAsciiDigit := by
    rw [← List.drop_drop, ← hsplit, List.drop_left, drop_of_getElem? hc,
      List.dropWhile_cons_of_pos hd]
  have hwithin : p + digits.length ≤ cs.length := by
    have hp := (List.getElem?_eq_some_iff.1 hc).1
    have := congrArg List.length hsplit
    simp only [List.length_append, List.length_drop] at this
    omega
  have hpos : 0 < digits.length := by simp [hcons]
  have heq : fragmentOfRun cs p (p + digits.length) = ⟨.skip, digits, p⟩ := by
    simp [fragmentOfRun, show ¬ 8 ≤ digits.length by omega, htext]
  have hfragment := IsFragment.of_run run hk (by omega)
  rw [heq] at hfragment ⊢
  refine ⟨hfragment, rfl, List.length_pos_iff.1 hpos, hwithin, .of_nonDigit run.last, ?_, ?_⟩
  · rw [hdrop, drop_of_getElem? hc, scanFrom]
    simp only [hm, hd, hstart, if_true]
    simp [hcons]
  · intro g hg hp hlt
    simp only at hlt
    rw [← heq]
    exact eq_fragmentOfRun run hs hk hg hp (by omega) hlt

end Step

/-- From every seam inside a text the scan finds a first fragment of the grammar. -/
theorem exists_foundFirst {cs : List Char} {p : Nat} (hp : p < cs.length) (seam : Seam cs p) :
    ∃ f, FoundFirst cs p f := by
  have hc : cs[p]? = some cs[p] := List.getElem?_eq_getElem hp
  cases hd : digitAt cs p with
  | false =>
    by_cases hw : MarksWindow cs p
    · exact ⟨_, foundFirst_window hc hw⟩
    · exact ⟨_, foundFirst_other hc hd hw⟩
  | true =>
    obtain ⟨s, k, run, hs, hk⟩ := seam.exists_run hd
    have hlen : p + ((cs.drop p).takeWhile Text.isAsciiDigit).length ≤ cs.length := by
      have := (List.takeWhile_prefix Text.isAsciiDigit (l := cs.drop p)).length_le
      simp only [List.length_drop] at this
      omega
    by_cases hfit : 8 ≤ ((cs.drop p).takeWhile Text.isAsciiDigit).length
    · exact ⟨_, foundFirst_plain hc run hs hk (by omega) hlen⟩
    · exact ⟨_, foundFirst_leftover hc run hs (by simpa [digitAt, hc] using hd) hk (by omega)⟩

/-- What a scan from a seam finds: the fragments of the grammar from there on, each one where the
one before it ends. -/
theorem scanFrom_meets_grammar {cs : List Char} {p : Nat} (hp : p ≤ cs.length) (seam : Seam cs p) :
    (∀ f, f ∈ scanFrom p (cs.drop p) ↔ IsFragment cs f ∧ p ≤ f.position) ∧
      (scanFrom p (cs.drop p)).Pairwise (fun f g => f.position < g.position) ∧
      ∀ before f after, scanFrom p (cs.drop p) = before ++ f :: after →
        f.text ≠ [] ∧ f.position = p + (before.map (·.text.length)).sum := by
  by_cases hend : p = cs.length
  · have hnil : scanFrom p (cs.drop p) = [] := by rw [hend, List.drop_length, scanFrom]
    rw [hnil]
    refine ⟨?_, .nil, by simp⟩
    intro f
    simp only [List.not_mem_nil, false_iff, not_and, Nat.not_le]
    intro hf
    have := hf.position_lt
    omega
  · -- induction on what is left of the text: the first fragment ends at a seam again
    obtain ⟨first, hfirst⟩ := exists_foundFirst (by omega) seam
    have hpos := List.length_pos_iff.2 hfirst.nonempty
    obtain ⟨hmem, hsorted, hplace⟩ := scanFrom_meets_grammar hfirst.within hfirst.seam
    rw [hfirst.rest]
    refine ⟨?_, ?_, ?_⟩
    · intro f
      rw [List.mem_cons, hmem]
      constructor
      · rintro (rfl | ⟨hf, hle⟩)
        · exact ⟨hfirst.fragment, Nat.le_of_eq hfirst.position.symm⟩
        · exact ⟨hf, by omega⟩
      · rintro ⟨hf, hle⟩
        by_cases hlt : f.position < p + first.text.length
        · exact .inl (hfirst.only f hf hle hlt)
        · exact .inr ⟨hf, by omega⟩
    · refine List.pairwise_cons.2 ⟨?_, hsorted⟩
      intro g hg
      have := ((hmem g).1 hg).2
      have := hfirst.position
      omega
    · intro before f after h
      cases before with
      | nil =>
        obtain ⟨rfl, -⟩ := List.cons.inj h
        exact ⟨hfirst.nonempty, by simpa using hfirst.position⟩
      | cons b before =>
        obtain ⟨rfl, htail⟩ := List.cons.inj h
        obtain ⟨hne, hat⟩ := hplace before f after htail
        exact ⟨hne, by rw [hat, List.map_cons, List.sum_cons]; omega⟩
termination_by cs.length - p

theorem mem_scan_iff {cs : List Char} {f : Fragment} : f ∈ scan cs ↔ IsFragment cs f := by
  simpa [scan] using (scanFrom_meets_grammar (Nat.zero_le cs.length) (seam_zero cs)).1 f

theorem text_ne_nil_of_mem_scan {cs : List Char} {f : Fragment} (hf : f ∈ scan cs) :
    f.text ≠ [] := by
  obtain ⟨before, after, h⟩ := List.append_of_mem hf
  exact ((scanFrom_meets_grammar (Nat.zero_le cs.length) (seam_zero cs)).2.2 before f after h).1

/-- One scan finds exactly the fragments of the grammar, in the order of their positions; they are
not empty, and together they are the text. -/
theorem scan_meets_grammar (cs : List Char) :
    (∀ f, f ∈ scan cs ↔ IsFragment cs f) ∧
      (scan cs).Pairwise (fun f g => f.position < g.position) ∧
      (∀ before f after, scan cs = before ++ f :: after →
        f.text ≠ [] ∧ f.position = (before.map (·.text.length)).sum) ∧
      (∀ f ∈ scan cs, f.isWindow = true →
        ∃ i, f.position + f.text.length = i + 8 ∧ f.opening = cs.extract i (i + 4) ∧
          f.closing = cs.extract (i + 4) (i + 8) ∧ ∀ j < 8, digitAt cs (i + j) = true) ∧
      (scan cs).flatMap Fragment.text = cs := by
  obtain ⟨-, hsorted, hplace⟩ := scanFrom_meets_grammar (Nat.zero_le cs.length) (seam_zero cs)
  refine ⟨fun f => mem_scan_iff, hsorted, ?_, ?_, flatMap_text_scan cs⟩
  · intro before f after h
    simpa using hplace before f after h
  · intro f hf hw
    exact (mem_scan_iff.1 hf).halves hw

end TradingHours.Schedule
