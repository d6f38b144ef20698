import TradingHours.Text.Blank
import TradingHours.Text.Line
import TradingHours.Text.Numeral
import TradingHours.Text.Split
/-!
Lines and cuts read back: the lines of joined lines, and the parts around a first separator.
-/
namespace TradingHours.Text

def Unbroken (cs : List Char) : Prop := ∀ c ∈ cs, isLineBreak c = false

instance (cs : List Char) : Decidable (Unbroken cs) :=
  List.decidableBAll (isLineBreak · = false) cs

theorem unbroken_append {s t : String} :
    Unbroken (s ++ t).toList ↔ Unbroken s.toList ∧ Unbroken t.toList := by
  simp only [Unbroken, String.toList_append, List.mem_append]
  grind

theorem isLineBreak_of_isDigit {c : Char} (h : c.isDigit = true) : isLineBreak c = false := by
  have hbounds : 48 ≤ c.toNat ∧ c.toNat ≤ 57 := by
    simpa [Char.isDigit, UInt32.le_iff_toNat_le] using h
  cases hbreak : isLineBreak c with
  | false => rfl
  | true =>
    simp only [isLineBreak, Bool.or_eq_true, Bool.and_eq_true, decide_eq_true_eq,
      beq_iff_eq] at hbreak
    omega

theorem unbroken_numeralChars (n : Nat) : Unbroken (numeralChars 10 n) := by
  intro c hc
  have hdigit : c.isDigit = true := Nat.isDigit_of_mem_toDigits (by decide) (by decide) hc
  exact isLineBreak_of_isDigit hdigit

theorem isDigit_of_mem_padded {width n : Nat} {c : Char} (h : c ∈ (padded width n).toList) :
    c.isDigit = true := by
  rw [padded, String.toList_ofList, List.mem_append] at h
  rcases h with h | h
  · rw [(List.mem_replicate.1 h).2]
    decide
  · exact Nat.isDigit_of_mem_toDigits (by decide) (by decide) h

theorem unbroken_padded (width n : Nat) : Unbroken (padded width n).toList :=
  fun _ hc => isLineBreak_of_isDigit (isDigit_of_mem_padded hc)

theorem unbroken_decimal (n : Int) : Unbroken (decimal n).toList := by
  cases n with
  | ofNat m =>
    rw [decimal, String.toList_ofList]
    exact unbroken_numeralChars m
  | negSucc m =>
    rw [decimal, String.toList_ofList]
    intro c hc
    rcases List.mem_cons.1 hc with rfl | hc
    · decide
    · exact unbroken_numeralChars (m + 1) c hc

theorem isBlank_of_isLineBreak {c : Char} (h : isLineBreak c = true) : isBlank c = true := by
  simp only [isLineBreak, isBlank, Bool.or_eq_true, Bool.and_eq_true, decide_eq_true_eq,
    beq_iff_eq] at *
  omega

theorem lineChars_cons {c : Char} (cs : List Char) (h : isLineBreak c = false) :
    lineChars (c :: cs) =
      match lineChars cs with
      | [] => [[c]]
      | line :: rest => (c :: line) :: rest := by
  have hr : c ≠ '\r' := by
    rintro rfl
    exact absurd h (by decide)
  rw [lineChars]
  · cases lineChars cs <;> simp [h]
  · rintro cs' rfl
    exact absurd rfl hr

theorem lineChars_append {line : List Char} (h : Unbroken line) (rest : List Char) :
    lineChars (line ++ '\n' :: rest) = line :: lineChars rest := by
  induction line with
  | nil => rfl
  | cons c line ih =>
    have hline : Unbroken line := fun d hd => h d (List.mem_cons_of_mem c hd)
    rw [List.cons_append, lineChars_cons _ (h c List.mem_cons_self), ih hline]

theorem lines_unlines {ls : List String} (h : ∀ line ∈ ls, Unbroken line.toList) :
    lines (unlines ls) = ls := by
  rw [lines, unlines, String.toList_ofList]
  induction ls with
  | nil => rfl
  | cons line ls ih =>
    have hline : Unbroken line.toList := h line List.mem_cons_self
    have hls : ∀ l ∈ ls, Unbroken l.toList := fun l hl => h l (List.mem_cons_of_mem line hl)
    rw [List.flatMap_cons, List.append_assoc, List.singleton_append, lineChars_append hline,
      List.map_cons, ih hls, String.ofList_toList]

theorem unbroken_of_mem_lineChars {cs line : List Char} (h : line ∈ lineChars cs) :
    Unbroken line := by
  induction cs using lineChars.induct generalizing line with
  | case1 => simp [lineChars] at h
  | case2 cs ih =>
    rw [lineChars] at h
    rcases List.mem_cons.1 h with rfl | h
    · simp [Unbroken]
    · exact ih h
  | case3 c cs hne hbreak ih =>
    rw [lineChars, if_pos hbreak] at h
    · rcases List.mem_cons.1 h with rfl | h
      · simp [Unbroken]
      · exact ih h
    · exact hne
  | case4 c cs hne hbreak hlines ih =>
    rw [lineChars_cons _ (by simpa using hbreak), hlines] at h
    simp only [List.mem_singleton] at h
    subst h
    simpa [Unbroken] using hbreak
  | case5 c cs hne hbreak first rest hlines ih =>
    rw [lineChars_cons _ (by simpa using hbreak), hlines] at h
    rcases List.mem_cons.1 h with rfl | h
    · have hfirst : Unbroken first := ih (by simp [hlines])
      intro d hd
      rcases List.mem_cons.1 hd with rfl | hd
      · simpa using hbreak
      · exact hfirst d hd
    · exact ih (by simp [hlines, h])

theorem cutAtFirst_append {separator : Char} {before : List Char} (h : separator ∉ before)
    (after : List Char) :
    cutAtFirst separator (before ++ separator :: after) = some (before, after) := by
  induction before with
  | nil => simp [cutAtFirst]
  | cons c before ih =>
    obtain ⟨hc, hbefore⟩ := not_or.1 (mt List.mem_cons.2 h)
    rw [List.cons_append, cutAtFirst, if_neg (Ne.symm hc), ih hbefore]
    rfl

theorem of_cutAtFirst {separator : Char} {cs before after : List Char}
    (h : cutAtFirst separator cs = some (before, after)) :
    cs = before ++ separator :: after ∧ separator ∉ before := by
  induction cs generalizing before with
  | nil => simp [cutAtFirst] at h
  | cons c cs ih =>
    by_cases hc : c = separator
    · rw [cutAtFirst, if_pos hc] at h
      cases h
      simp [hc]
    · rw [cutAtFirst, if_neg hc, Option.map_eq_some_iff] at h
      obtain ⟨⟨front, back⟩, hcut, heq⟩ := h
      cases heq
      obtain ⟨hcs, hnot⟩ := ih hcut
      exact ⟨by rw [hcs]; rfl, by simp [Ne.symm hc, hnot]⟩

theorem cutAtFirst_eq_none_iff {separator : Char} {cs : List Char} :
    cutAtFirst separator cs = none ↔ separator ∉ cs := by
  constructor
  · intro h hmem
    obtain ⟨before, after, rfl, hbefore⟩ := List.eq_append_cons_of_mem hmem
    simp [cutAtFirst_append hbefore] at h
  · intro h
    cases hcut : cutAtFirst separator cs with
    | none => rfl
    | some pair => exact absurd (by simp [(of_cutAtFirst hcut).1]) h

end TradingHours.Text
