import Mathlib.Algebra.Ring.Nat
import TradingHours.Proofs.Text.Fields
import TradingHours.Proofs.Text.Lines
import TradingHours.Text.Integer
/-!
Numerals that are written are read as their numbers again, unless they are too long to be read. Main
statement: `readInteger?_decimal`.
-/
namespace TradingHours.Text

section Digits

variable {c : Char} {cs : List Char}

theorem digitValue?_of_isDigit (h : c.isDigit = true) :
    digitValue? c = some (c.toNat - '0'.toNat) := by
  have hdigit : isAsciiDigit c = true := by
    simpa [isAsciiDigit, Char.isDigit, Char.le_def] using h
  rw [digitValue?, if_pos hdigit]
  rfl

theorem isBlank_of_isDigit (h : c.isDigit = true) : isBlank c = false := by
  have hbounds : 48 ≤ c.toNat ∧ c.toNat ≤ 57 := by
    simpa [Char.isDigit, UInt32.le_iff_toNat_le] using h
  simp only [isBlank, Bool.or_eq_false_iff, Bool.and_eq_false_iff, decide_eq_false_iff_not,
    beq_eq_false_iff_ne]
  omega

theorem isLiteralBlank_of_isDigit (h : c.isDigit = true) : isLiteralBlank c = false := by
  rw [isLiteralBlank, isBlank_of_isDigit h, Bool.false_and]

/-- A literal that has no blanks at its ends is read as it is. -/
theorem trim_literal (hfirst : ∀ c ∈ cs.head?, isLiteralBlank c = false)
    (hlast : ∀ c ∈ cs.getLast?, isLiteralBlank c = false) :
    ((cs.dropWhile isLiteralBlank).reverse.dropWhile isLiteralBlank).reverse = cs := by
  have hkeep : ∀ l : List Char, (∀ c ∈ l.head?, isLiteralBlank c = false) →
      l.dropWhile isLiteralBlank = l := by
    intro l hl
    cases l with
    | nil => rfl
    | cons c l => exact List.dropWhile_cons_of_neg (by simp [hl c rfl])
  rw [hkeep cs hfirst, hkeep cs.reverse (by rwa [List.head?_reverse]), List.reverse_reverse]

theorem literalDigits?_of_isDigit (hne : cs ≠ []) (h : ∀ c ∈ cs, c.isDigit = true) :
    literalDigits? cs = some (cs.map fun c => c.toNat - '0'.toNat) := by
  induction cs with
  | nil => exact absurd rfl hne
  | cons c cs ih =>
    have hc := digitValue?_of_isDigit (h c List.mem_cons_self)
    have hcs : ∀ d ∈ cs, d.isDigit = true := fun d hd => h d (List.mem_cons_of_mem c hd)
    cases cs with
    | nil => simp [literalDigits?, hc]
    | cons d cs =>
      have hd : d ≠ '_' := by
        rintro rfl
        exact absurd (hcs '_' List.mem_cons_self) (by decide)
      rw [literalDigits?.eq_4 _ _ (by simp) (by simp [hd]), hc, ih (List.cons_ne_nil d cs) hcs]
      rfl

theorem ofDigits_eq_ofDigitChars (cs : List Char) :
    ofDigits 10 (cs.map fun c => c.toNat - '0'.toNat) = Nat.ofDigitChars 10 cs 0 := by
  rw [ofDigits, Nat.ofDigitChars_eq_foldl, List.foldl_map]
  simp only [Nat.mul_comm]

theorem readDigits_of_isDigit (hne : cs ≠ []) (h : ∀ c ∈ cs, c.isDigit = true)
    (hlength : cs.length ≤ maxLiteralDigits) :
    readDigits cs = .ok (Nat.ofDigitChars 10 cs 0) := by
  have hdigits := literalDigits?_of_isDigit hne h
  have hall : ∀ c ∈ cs, (c = '_' || (digitValue? c).isSome) = true := by
    intro c hc
    simp [digitValue?_of_isDigit (h c hc)]
  have hrun : (cs.takeWhile fun c => c = '_' || (digitValue? c).isSome) = cs := by
    have happend := @List.takeWhile_append_of_pos _ _ _ [] hall
    rwa [List.append_nil, List.takeWhile_nil, List.append_nil] at happend
  have hcount : leadingDigitCount cs = cs.length := by
    simp [leadingDigitCount, hrun, hdigits]
  simp only [readDigits, hcount, hdigits, if_neg (Nat.not_lt.2 hlength), ofDigits_eq_ofDigitChars]

theorem readInteger?_of_isDigit (hne : cs ≠ []) (h : ∀ c ∈ cs, c.isDigit = true)
    (hlength : cs.length ≤ maxLiteralDigits) :
    readInteger? (String.ofList cs) = some ((Nat.ofDigitChars 10 cs 0 : Nat) : Int) := by
  have htrim : ((cs.dropWhile isLiteralBlank).reverse.dropWhile isLiteralBlank).reverse = cs :=
    trim_literal (fun c hc => isLiteralBlank_of_isDigit (h c (List.mem_of_head? hc)))
      (fun c hc => isLiteralBlank_of_isDigit (h c (List.mem_of_getLast? hc)))
  rw [readInteger?, readInteger, String.toList_ofList, htrim]
  split
  · exact absurd (h '-' List.mem_cons_self) (by decide)
  · exact absurd (h '+' List.mem_cons_self) (by decide)
  · rw [readDigits_of_isDigit hne h hlength]
    rfl

theorem readInteger?_minus (hne : cs ≠ []) (h : ∀ c ∈ cs, c.isDigit = true)
    (hlength : cs.length ≤ maxLiteralDigits) :
    readInteger? (String.ofList ('-' :: cs)) =
      some (-((Nat.ofDigitChars 10 cs 0 : Nat) : Int)) := by
  have hlast : ∀ c ∈ ('-' :: cs).getLast?, isLiteralBlank c = false := by
    intro c hc
    rcases List.mem_cons.1 (List.mem_of_getLast? hc) with rfl | hc
    · decide
    · exact isLiteralBlank_of_isDigit (h c hc)
  have hfirst : ∀ c ∈ ('-' :: cs).head?, isLiteralBlank c = false := by
    rintro c ⟨⟩
    decide
  have htrim := trim_literal hfirst hlast
  simp only [readInteger?, readInteger, String.toList_ofList, htrim]
  rw [readDigits_of_isDigit hne h hlength]
  rfl

end Digits

theorem isDigit_of_mem_numeralChars {n : Nat} {c : Char} (h : c ∈ numeralChars 10 n) :
    c.isDigit = true :=
  Nat.isDigit_of_mem_toDigits (by decide) (by decide) h

/-- A number that fits into the width it is written in is read as itself. -/
theorem readInteger?_padded {width n : Nat} (hwidth : 0 < width) (hmax : width ≤ maxLiteralDigits)
    (hn : n < 10 ^ width) : readInteger? (padded width n) = some (n : Int) := by
  have hlength : (numeralChars 10 n).length ≤ width :=
    (Nat.length_toDigits_le_iff (by decide) hwidth).2 hn
  rw [padded, readInteger?_of_isDigit]
  · rw [Nat.ofDigitChars_append, Nat.ofDigitChars_replicate_zero, Nat.mul_zero, numeralChars,
      Nat.ofDigitChars_ten_toDigits]
  · exact List.append_ne_nil_of_right_ne_nil _ Nat.toDigits_ne_nil
  · intro c hc
    exact isDigit_of_mem_padded (by rwa [padded, String.toList_ofList])
  · rw [List.length_append, List.length_replicate]
    omega

theorem length_numeralChars_le {n k : Nat} (hk : 0 < k) (h : ¬ Nat.pow 10 k ≤ n) :
    (numeralChars 10 n).length ≤ k :=
  (Nat.length_toDigits_le_iff (by decide) hk).2 (Nat.lt_of_not_le h)

theorem word_decimal (n : Int) : Word (decimal n) := by
  cases n with
  | ofNat m =>
    constructor
    · rw [decimal, String.toList_ofList]
      exact Nat.toDigits_ne_nil
    · intro c hc
      rw [decimal, String.toList_ofList] at hc
      exact isBlank_of_isDigit (isDigit_of_mem_numeralChars hc)
  | negSucc m =>
    constructor
    · rw [decimal, String.toList_ofList]
      exact List.cons_ne_nil _ _
    · intro c hc
      rw [decimal, String.toList_ofList] at hc
      rcases List.mem_cons.1 hc with rfl | hc
      · decide
      · exact isBlank_of_isDigit (isDigit_of_mem_numeralChars hc)

theorem isTooLongToWrite_of_lt {n : Int} {k : Nat} (h : n.natAbs < 10 ^ k)
    (hk : k ≤ maxLiteralDigits) : isTooLongToWrite n = false := by
  have hle : ∀ j, k ≤ j → ¬ Nat.pow 10 j ≤ n.natAbs := fun j hj =>
    Nat.not_le.2 (Nat.lt_of_lt_of_le h (Nat.pow_le_pow_right (by decide) hj))
  exact decide_eq_false (hle _ hk)

/-- An integer that is not too long to be written is read as itself. -/
theorem readInteger?_decimal {n : Int} (h : isTooLongToWrite n = false) :
    readInteger? (decimal n) = some n := by
  have hlength : (numeralChars 10 n.natAbs).length ≤ maxLiteralDigits :=
    length_numeralChars_le (by decide) (of_decide_eq_false h)
  cases n with
  | ofNat m =>
    have hread := readInteger?_of_isDigit Nat.toDigits_ne_nil
      (fun c hc => isDigit_of_mem_numeralChars hc) hlength
    rwa [Nat.ofDigitChars_ten_toDigits] at hread
  | negSucc m =>
    have hread := readInteger?_minus Nat.toDigits_ne_nil
      (fun c hc => isDigit_of_mem_numeralChars hc) hlength
    rwa [Nat.ofDigitChars_ten_toDigits] at hread

end TradingHours.Text
