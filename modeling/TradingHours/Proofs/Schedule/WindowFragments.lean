import TradingHours.Proofs.Schedule.FragmentGrammar
import TradingHours.Proofs.Text.Trim
/-!
The window fragments of a text, wherever they stand. Text that belongs to no window adds none at
either end, and windows put together are found again, one by one. Main statements:
`windowFragments_trimChars`, `scan_flatMap_text`.
-/
namespace TradingHours.Schedule

def Fragment.movedTo (f : Fragment) (position : Nat) : Fragment := { f with position := position }

theorem scanFrom_position (p q : Nat) (cs : List Char) :
    (scanFrom p cs).map (·.movedTo 0) = (scanFrom q cs).map (·.movedTo 0) := by
  fun_induction scanFrom p cs generalizing q with
  | case1 => simp [scanFrom]
  | case2 p c rest hmark hstart ih =>
    rw [scanFrom, if_pos hmark, if_pos hstart, List.map_cons, List.map_cons, ih (q + 9)]
    rfl
  | case3 p c rest hmark hstart ih =>
    rw [scanFrom, if_pos hmark, if_neg hstart, List.map_cons, List.map_cons, ih (q + 1)]
    rfl
  | case4 p c rest hmark hdigit hstart ih =>
    rw [scanFrom, if_neg hmark, if_pos hdigit, if_pos hstart, List.map_cons, List.map_cons,
      ih (q + 8)]
    rfl
  | case5 p c rest hmark hdigit hstart run ih =>
    rw [scanFrom, if_neg hmark, if_pos hdigit, if_neg hstart, List.map_cons, List.map_cons,
      ih (q + run.length)]
    rfl
  | case6 p c rest hmark hdigit ih =>
    rw [scanFrom, if_neg hmark, if_neg hdigit, List.map_cons, List.map_cons, ih (q + 1)]
    rfl

def windowFragments (cs : List Char) : List Fragment :=
  ((scan cs).filter Fragment.isWindow).map (·.movedTo 0)

theorem windowFragments_of_scanFrom (p : Nat) (cs : List Char) :
    ((scanFrom p cs).filter Fragment.isWindow).map (·.movedTo 0) = windowFragments cs := by
  have hfilter : ∀ fs : List Fragment, (fs.filter Fragment.isWindow).map (·.movedTo 0) =
      (fs.map (·.movedTo 0)).filter Fragment.isWindow := by
    intro fs
    rw [List.filter_map]
    rfl
  rw [windowFragments, hfilter, hfilter, scan, scanFrom_position p 0]

section Cons

variable {c : Char} {rest : List Char}

theorem windowFragments_marked (hmark : (isMarker c || isOvernightMarker c) = true)
    (hstart : startsWithWindow rest = true) :
    windowFragments (c :: rest) =
      ⟨if isOvernightMarker c then .overnightWindow else .markerWindow, c :: rest.take 8, 0⟩ ::
        windowFragments (rest.drop 8) := by
  have hwindow : Fragment.isWindow ⟨if isOvernightMarker c then .overnightWindow else .markerWindow,
      c :: rest.take 8, 0⟩ = true := by
    cases isOvernightMarker c <;> rfl
  rw [windowFragments, scan, scanFrom, if_pos hmark, if_pos hstart, List.filter_cons_of_pos hwindow,
    List.map_cons, windowFragments_of_scanFrom]
  rfl

theorem windowFragments_plain (hdigit : Text.isAsciiDigit c = true)
    (hstart : startsWithWindow (c :: rest) = true) :
    windowFragments (c :: rest) =
      ⟨.plainWindow, c :: rest.take 7, 0⟩ :: windowFragments (rest.drop 7) := by
  have hmark : ¬ (isMarker c || isOvernightMarker c) = true := fun h => by
    simp [nonDigit_of_mark h] at hdigit
  rw [windowFragments, scan, scanFrom, if_neg hmark, if_pos hdigit, if_pos hstart,
    List.filter_cons_of_pos rfl, List.map_cons, windowFragments_of_scanFrom]
  rfl

theorem windowFragments_leftover (hdigit : Text.isAsciiDigit c = true)
    (hstart : ¬ startsWithWindow (c :: rest) = true) :
    windowFragments (c :: rest) = windowFragments (rest.dropWhile Text.isAsciiDigit) := by
  have hmark : ¬ (isMarker c || isOvernightMarker c) = true := fun h => by
    simp [nonDigit_of_mark h] at hdigit
  rw [windowFragments, scan, scanFrom, if_neg hmark, if_pos hdigit, if_neg hstart]
  exact windowFragments_of_scanFrom _ _

theorem windowFragments_other (hdigit : ¬ Text.isAsciiDigit c = true)
    (hstart : (isMarker c || isOvernightMarker c) = true → ¬ startsWithWindow rest = true) :
    windowFragments (c :: rest) = windowFragments rest := by
  rw [windowFragments, scan, scanFrom]
  by_cases hmark : (isMarker c || isOvernightMarker c) = true
  · rw [if_pos hmark, if_neg (hstart hmark)]
    exact windowFragments_of_scanFrom _ _
  · rw [if_neg hmark, if_neg hdigit]
    exact windowFragments_of_scanFrom _ _

end Cons

def isIdle (c : Char) : Bool :=
  !(isMarker c || isOvernightMarker c || Text.isAsciiDigit c)

theorem isIdle_of_isBlank {c : Char} (h : Text.isBlank c = true) : isIdle c = true := by
  have hmark : (isMarker c || isOvernightMarker c) = false := by
    by_contra hm
    simp only [Bool.not_eq_false, isMarker, isOvernightMarker, Bool.or_eq_true,
      decide_eq_true_eq] at hm
    obtain ((rfl | rfl) | rfl) | rfl := hm <;> simp [Text.isBlank] at h
  have hdigit : Text.isAsciiDigit c = false := by
    by_contra hd
    simp only [Bool.not_eq_false, Text.isAsciiDigit, Bool.and_eq_true, decide_eq_true_eq,
      Char.le_def, UInt32.le_iff_toNat_le] at hd
    simp only [Text.isBlank, Char.toNat, Bool.or_eq_true, Bool.and_eq_true, decide_eq_true_eq,
      beq_iff_eq] at h
    have h0 : ('0' : Char).val.toNat = 48 := rfl
    have h9 : ('9' : Char).val.toNat = 57 := rfl
    omega
  simp [isIdle, hmark, hdigit]

theorem all_isIdle_of_all_isBlank {cs : List Char} (h : cs.all Text.isBlank = true) :
    cs.all isIdle = true :=
  List.all_eq_true.2 fun c hc => isIdle_of_isBlank (List.all_eq_true.1 h c hc)

theorem isIdle_iff {c : Char} :
    isIdle c = true ↔
      (isMarker c || isOvernightMarker c) = false ∧ Text.isAsciiDigit c = false := by
  rw [isIdle, Bool.not_eq_true', Bool.or_eq_false_iff]

theorem nonDigit_of_isIdle {c : Char} (h : isIdle c = true) : Text.isAsciiDigit c = false :=
  (isIdle_iff.1 h).2

theorem windowFragments_idle_append {idle : List Char} (h : idle.all isIdle = true)
    (cs : List Char) : windowFragments (idle ++ cs) = windowFragments cs := by
  induction idle with
  | nil => rfl
  | cons c idle ih =>
    simp only [List.all_cons, Bool.and_eq_true] at h
    obtain ⟨hmark, hdigit⟩ := isIdle_iff.1 h.1
    rw [List.cons_append, windowFragments_other (by simp [hdigit]) (by simp [hmark]), ih h.2]

theorem eight_le_length_of_startsWithWindow {cs : List Char} (h : startsWithWindow cs = true) :
    8 ≤ cs.length := by
  simp only [startsWithWindow, Bool.and_eq_true, decide_eq_true_eq, List.length_take] at h
  omega

section Append

variable {idle : List Char} (hidle : idle.all isIdle = true)
include hidle

theorem digitAt_append_idle (cs : List Char) (i : Nat) :
    digitAt (cs ++ idle) i = digitAt cs i := by
  by_cases hi : i < cs.length
  · simp [digitAt, List.getElem?_append_left hi]
  · have hnone : cs[i]? = none := List.getElem?_eq_none (by omega)
    rw [digitAt, digitAt, List.getElem?_append_right (by omega), hnone]
    cases hc : idle[i - cs.length]? with
    | none => rfl
    | some c => exact nonDigit_of_isIdle (List.all_eq_true.1 hidle c (List.mem_of_getElem? hc))

theorem startsWithWindow_append_idle (cs : List Char) :
    startsWithWindow (cs ++ idle) = startsWithWindow cs := by
  have h := startsWithWindow_drop_iff (cs ++ idle) 0
  simp only [digitAt_append_idle hidle, List.drop_zero] at h
  exact Bool.eq_iff_iff.2 (h.trans (startsWithWindow_drop_iff cs 0).symm)

theorem dropWhile_digits_append_idle (cs : List Char) :
    (cs ++ idle).dropWhile Text.isAsciiDigit = cs.dropWhile Text.isAsciiDigit ++ idle := by
  induction cs with
  | nil =>
    cases idle with
    | nil => rfl
    | cons c idle =>
      simp only [List.all_cons, Bool.and_eq_true] at hidle
      simp [nonDigit_of_isIdle hidle.1]
  | cons c cs ih => cases hc : Text.isAsciiDigit c <;> simp [hc, ih]

theorem windowFragments_append_idle (cs : List Char) :
    windowFragments (cs ++ idle) = windowFragments cs := by
  -- along the scan: what it looks ahead for ends where the idle text begins
  fun_induction scanFrom 0 cs with
  | case1 p => simpa using windowFragments_idle_append hidle []
  | case2 p c rest hmark hstart ih =>
    have hlen := eight_le_length_of_startsWithWindow hstart
    rw [List.cons_append,
      windowFragments_marked hmark ((startsWithWindow_append_idle hidle rest).trans hstart),
      windowFragments_marked hmark hstart, List.take_append_of_le_length hlen,
      List.drop_append_of_le_length hlen, ih]
  | case3 p c rest hmark hstart ih =>
    have hdigit : ¬ Text.isAsciiDigit c = true := by simp [nonDigit_of_mark hmark]
    rw [List.cons_append, windowFragments_other hdigit fun _ => hstart, ← ih]
    exact windowFragments_other hdigit fun _ => by rwa [startsWithWindow_append_idle hidle]
  | case4 p c rest hmark hdigit hstart ih =>
    have hlen := eight_le_length_of_startsWithWindow hstart
    simp only [List.length_cons] at hlen
    have happend := (startsWithWindow_append_idle hidle (c :: rest)).trans hstart
    rw [List.cons_append] at happend ⊢
    rw [windowFragments_plain hdigit happend, windowFragments_plain hdigit hstart,
      List.take_append_of_le_length (by omega), List.drop_append_of_le_length (by omega), ih]
  | case5 p c rest hmark hdigit hstart run ih =>
    have happend : ¬ startsWithWindow (c :: rest ++ idle) = true := by
      rwa [startsWithWindow_append_idle hidle]
    rw [List.cons_append] at happend ⊢
    rw [windowFragments_leftover hdigit happend, windowFragments_leftover hdigit hstart,
      dropWhile_digits_append_idle hidle, ih]
  | case6 p c rest hmark hdigit ih =>
    rw [List.cons_append, windowFragments_other hdigit (absurd · hmark),
      windowFragments_other hdigit (absurd · hmark), ih]

end Append

/-- The blanks around a text hold no windows. -/
theorem windowFragments_trimChars (cs : List Char) :
    windowFragments (Text.trimChars cs) = windowFragments cs := by
  obtain ⟨front, back, hcs, hfront, hback⟩ := Text.exists_trimChars cs
  conv_rhs => rw [hcs]
  rw [windowFragments_idle_append (all_isIdle_of_all_isBlank hfront),
    windowFragments_append_idle (all_isIdle_of_all_isBlank hback)]

theorem exists_window_of_digits {cs : List Char} {i : Nat} (h : ∀ j < 8, digitAt cs (i + j) = true) :
    ∃ f ∈ scan cs, f.isWindow = true := by
  obtain ⟨s, hs, run⟩ := DigitRun.exists_of_digitAt (h 0 (by omega))
  generalize hend : i + 0 + ((cs.drop (i + 0)).takeWhile Text.isAsciiDigit).length = e at run
  have hfit : i + 8 ≤ e := by
    by_contra hshort
    have hlast := run.last
    rw [show e = i + (e - i) by omega, h (e - i) (by omega)] at hlast
    simp at hlast
  by_cases hmarked : 0 < s ∧ MarksWindow cs (s - 1)
  · obtain ⟨c, hc⟩ : ∃ c, cs[s - 1]? = some c := by
      have hmark := hmarked.2.1
      cases hc : cs[s - 1]? with
      | none => simp [markAt, hc] at hmark
      | some c => exact ⟨c, rfl⟩
    refine ⟨_, mem_scan_iff.2 (IsFragment.of_mark hc (digitAt_of_markAt hmarked.2.1)), ?_⟩
    rw [fragmentOfMark, if_pos hmarked.2]
    cases isOvernightMarker c <;> rfl
  · have hstart : s = plainStart cs s + 8 * 0 := by simp [plainStart, hmarked]
    exact ⟨_, mem_scan_iff.2 (IsFragment.plain run hstart (by omega)), rfl⟩

/-- A text has a window exactly if eight digits in a row stand in it. -/
theorem exists_window_iff {cs : List Char} :
    (∃ f ∈ scan cs, f.isWindow = true) ↔
      ∃ digits, digits <:+: cs ∧ digits.length = 8 ∧ digits.all Text.isAsciiDigit = true := by
  constructor
  · rintro ⟨f, hf, hw⟩
    obtain ⟨i, -, -, -, hd⟩ := (mem_scan_iff.1 hf).halves hw
    have hstart := (startsWithWindow_drop_iff cs i).2 hd
    simp only [startsWithWindow, Bool.and_eq_true, decide_eq_true_eq] at hstart
    exact ⟨_, ((List.take_prefix 8 _).isInfix).trans (List.drop_suffix i cs).isInfix, hstart⟩
  · rintro ⟨digits, ⟨front, back, rfl⟩, hlen, hall⟩
    refine exists_window_of_digits (i := front.length) fun j hj => ?_
    have hj' : j < digits.length := by omega
    rw [digitAt_eq_true_iff]
    refine ⟨digits[j], ?_, List.all_eq_true.1 hall _ (List.getElem_mem hj')⟩
    rw [List.append_assoc, List.getElem?_append_right (by omega), Nat.add_sub_cancel_left,
      List.getElem?_append_left hj', List.getElem?_eq_getElem hj']

/-- A fragment that a scan of its text finds, whatever follows. -/
def Fragment.Lasts (f : Fragment) : Prop :=
  ∀ p rest, scanFrom p (f.text ++ rest) = f.movedTo p :: scanFrom (p + f.text.length) rest

theorem startsWithWindow_take_append {cs : List Char} (h : startsWithWindow cs = true)
    (rest : List Char) : startsWithWindow (cs.take 8 ++ rest) = true := by
  have hlen := eight_le_length_of_startsWithWindow h
  rw [startsWithWindow] at h ⊢
  rwa [List.take_left' (by rw [List.length_take]; omega)]

theorem lasts_of_mem_scanFrom {p : Nat} {cs : List Char} {f : Fragment} (hf : f ∈ scanFrom p cs)
    (hw : f.isWindow = true) : f.Lasts := by
  fun_induction scanFrom p cs with
  | case1 => simp at hf
  | case2 p c rest hmark hstart ih =>
    rcases List.mem_cons.1 hf with rfl | hf
    · have hlen : (rest.take 8).length = 8 := by
        have := eight_le_length_of_startsWithWindow hstart
        rw [List.length_take]
        omega
      intro q more
      rw [List.cons_append, scanFrom, if_pos hmark, if_pos (startsWithWindow_take_append hstart more),
        List.take_left' hlen, List.drop_left' hlen, List.length_cons, hlen]
      rfl
    · exact ih hf
  | case4 p c rest hmark hdigit hstart ih =>
    rcases List.mem_cons.1 hf with rfl | hf
    · have hlen : (rest.take 7).length = 7 := by
        have := eight_le_length_of_startsWithWindow hstart
        rw [List.length_cons] at this
        rw [List.length_take]
        omega
      intro q more
      have happend := startsWithWindow_take_append hstart more
      rw [List.take_succ_cons, List.cons_append] at happend
      rw [List.cons_append, scanFrom, if_neg hmark, if_pos hdigit, if_pos happend,
        List.take_left' hlen, List.drop_left' hlen, List.length_cons, hlen]
      rfl
    · exact ih hf
  | case3 p c rest _ _ ih | case5 p c rest _ _ _ run ih | case6 p c rest _ _ ih =>
    rcases List.mem_cons.1 hf with rfl | hf
    · simp [Fragment.isWindow] at hw
    · exact ih hf

theorem isIdle_of_mem_window {p : Nat} {cs : List Char} {f : Fragment} (hf : f ∈ scanFrom p cs)
    (hw : f.isWindow = true) : ∀ c ∈ f.text, isIdle c = false := by
  have hdigits : ∀ rest : List Char, startsWithWindow rest = true →
      ∀ c ∈ rest.take 8, isIdle c = false := by
    intro rest hstart c hc
    simp only [startsWithWindow, Bool.and_eq_true] at hstart
    simp [isIdle, List.all_eq_true.1 hstart.2 c hc]
  fun_induction scanFrom p cs with
  | case1 => simp at hf
  | case2 p c rest hmark hstart ih =>
    rcases List.mem_cons.1 hf with rfl | hf
    · exact List.forall_mem_cons.2 ⟨by simp [isIdle, hmark], hdigits rest hstart⟩
    · exact ih hf
  | case4 p c rest hmark hdigit hstart ih =>
    rcases List.mem_cons.1 hf with rfl | hf
    · exact hdigits (c :: rest) hstart
    · exact ih hf
  | case3 p c rest _ _ ih | case5 p c rest _ _ _ run ih | case6 p c rest _ _ ih =>
    rcases List.mem_cons.1 hf with rfl | hf
    · simp [Fragment.isWindow] at hw
    · exact ih hf

theorem scanFrom_flatMap_text {fs : List Fragment} (h : ∀ f ∈ fs, f.Lasts) (p : Nat) :
    (scanFrom p (fs.flatMap Fragment.text)).map (·.movedTo 0) = fs.map (·.movedTo 0) := by
  -- digit runs of neighbours join, but a window takes no more than its own digits off the front
  induction fs generalizing p with
  | nil => simp [scanFrom]
  | cons f fs ih =>
    rw [List.flatMap_cons, h f List.mem_cons_self, List.map_cons, List.map_cons,
      ih fun g hg => h g (List.mem_cons_of_mem f hg)]
    rfl

/-- The windows of a text, put together, are what a scan of them finds. -/
theorem scan_flatMap_text (cs : List Char) :
    (scan (((scan cs).filter Fragment.isWindow).flatMap Fragment.text)).map (·.movedTo 0) =
      windowFragments cs :=
  scanFrom_flatMap_text (fun _ hf => lasts_of_mem_scanFrom (List.mem_filter.1 hf).1
    (List.mem_filter.1 hf).2) 0

end TradingHours.Schedule
