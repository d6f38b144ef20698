import TradingHours.Text.Blank
/-!
Trimming takes blanks from both ends and nothing else, and a text without blanks at its ends stays
as it is.
-/
namespace TradingHours.Text

def Trimmed (cs : List Char) : Prop :=
  (∀ c ∈ cs.head?, isBlank c = false) ∧ ∀ c ∈ cs.getLast?, isBlank c = false

theorem exists_trimLeft (cs : List Char) :
    ∃ front, cs = front ++ trimLeft cs ∧ front.all isBlank = true :=
  ⟨cs.takeWhile isBlank, (List.takeWhile_append_dropWhile ..).symm, List.all_takeWhile⟩

theorem exists_trimRight (cs : List Char) :
    ∃ back, cs = trimRight cs ++ back ∧ back.all isBlank = true := by
  obtain ⟨front, heq, hfront⟩ := exists_trimLeft cs.reverse
  refine ⟨front.reverse, ?_, by simpa using hfront⟩
  have h := congrArg List.reverse heq
  simpa [trimLeft, trimRight] using h

/-- What trimming takes away are blanks. -/
theorem exists_trimChars (cs : List Char) :
    ∃ front back, cs = front ++ (trimChars cs ++ back) ∧ front.all isBlank = true ∧
      back.all isBlank = true := by
  obtain ⟨front, hleft, hfront⟩ := exists_trimLeft cs
  obtain ⟨back, hright, hback⟩ := exists_trimRight (trimLeft cs)
  exact ⟨front, back, by rw [trimChars, ← hright, ← hleft], hfront, hback⟩

theorem trimLeft_eq_self {cs : List Char} (h : ∀ c ∈ cs.head?, isBlank c = false) :
    trimLeft cs = cs := by
  cases cs with
  | nil => rfl
  | cons c cs => simp [trimLeft, h c rfl]

theorem trimRight_eq_self {cs : List Char} (h : ∀ c ∈ cs.getLast?, isBlank c = false) :
    trimRight cs = cs := by
  have hrev : trimLeft cs.reverse = cs.reverse := trimLeft_eq_self (by simpa using h)
  rw [trimLeft] at hrev
  rw [trimRight, hrev, List.reverse_reverse]

theorem Trimmed.trimChars_eq {cs : List Char} (h : Trimmed cs) : trimChars cs = cs := by
  rw [trimChars, trimLeft_eq_self h.1, trimRight_eq_self h.2]

theorem head?_trimLeft (cs : List Char) : ∀ c ∈ (trimLeft cs).head?, isBlank c = false := by
  intro c hc
  have h := List.head?_dropWhile_not isBlank cs
  rw [trimLeft] at hc
  simpa [Option.mem_def.1 hc] using h

theorem getLast?_trimRight (cs : List Char) : ∀ c ∈ (trimRight cs).getLast?, isBlank c = false := by
  intro c hc
  exact head?_trimLeft cs.reverse c (by simpa [trimRight, trimLeft] using hc)

theorem trimmed_trimChars (cs : List Char) : Trimmed (trimChars cs) := by
  refine ⟨?_, getLast?_trimRight _⟩
  intro c hc
  obtain ⟨back, heq, -⟩ := exists_trimRight (trimLeft cs)
  apply head?_trimLeft cs c
  rw [heq, Option.mem_def, List.head?_append]
  rw [trimChars, Option.mem_def] at hc
  simp [hc]

theorem mem_of_mem_trimChars {cs : List Char} {c : Char} (h : c ∈ trimChars cs) : c ∈ cs := by
  obtain ⟨front, back, heq, -, -⟩ := exists_trimChars cs
  rw [heq]
  simp [h]

theorem trimChars_ne_nil {cs : List Char} {c : Char} (hmem : c ∈ cs) (hc : isBlank c = false) :
    trimChars cs ≠ [] := by
  intro hnil
  obtain ⟨front, back, heq, hfront, hback⟩ := exists_trimChars cs
  rw [hnil, List.nil_append] at heq
  rw [heq, List.mem_append] at hmem
  rcases hmem with hmem | hmem
  · simpa [hc] using List.all_eq_true.1 hfront c hmem
  · simpa [hc] using List.all_eq_true.1 hback c hmem

theorem head?_trimChars {cs : List Char} (hne : trimChars cs ≠ []) :
    (trimChars cs).head? = (trimLeft cs).head? := by
  obtain ⟨back, heq, -⟩ := exists_trimRight (trimLeft cs)
  obtain ⟨c, rest, htrim⟩ := List.exists_cons_of_ne_nil hne
  have hhead : (trimLeft cs).head? = some c := by
    rw [heq, ← trimChars, htrim]
    rfl
  rw [htrim, hhead]
  rfl

theorem trimChars_eq_nil_iff {cs : List Char} : trimChars cs = [] ↔ cs.all isBlank = true := by
  constructor
  · intro h
    obtain ⟨front, back, heq, hfront, hback⟩ := exists_trimChars cs
    rw [heq, h, List.nil_append, List.all_append, hfront, hback]
    rfl
  · intro h
    cases htrim : trimChars cs with
    | nil => rfl
    | cons c rest =>
      have hc : isBlank c = false := (trimmed_trimChars cs).1 c (by rw [htrim]; rfl)
      have hmem : c ∈ cs := mem_of_mem_trimChars (by rw [htrim]; exact List.mem_cons_self)
      simp [List.all_eq_true.1 h c hmem] at hc

theorem isEmpty_trimChars (cs : List Char) : (trimChars cs).isEmpty = cs.all isBlank := by
  rw [Bool.eq_iff_iff, List.isEmpty_iff, trimChars_eq_nil_iff]

theorem trimLeft_append_of_blank {front : List Char} (h : front.all isBlank = true)
    (cs : List Char) : trimLeft (front ++ cs) = trimLeft cs :=
  List.dropWhile_append_of_pos (List.all_eq_true.1 h)

theorem trimRight_append_of_blank {back : List Char} (h : back.all isBlank = true)
    (cs : List Char) : trimRight (cs ++ back) = trimRight cs := by
  have hreverse : back.reverse.all isBlank = true := by rwa [List.all_reverse]
  have hleft := trimLeft_append_of_blank hreverse cs.reverse
  rw [trimLeft, trimLeft] at hleft
  rw [trimRight, trimRight, List.reverse_append, hleft]

theorem trimChars_append_of_blank {back : List Char} (h : back.all isBlank = true)
    (cs : List Char) : trimChars (cs ++ back) = trimChars cs := by
  by_cases hcs : cs.all isBlank = true
  · rw [trimChars_eq_nil_iff.2 hcs, trimChars_eq_nil_iff, List.all_append, hcs, h]
    rfl
  · have hne : ¬ (cs.dropWhile isBlank).isEmpty = true := by
      intro hnil
      rw [List.isEmpty_iff] at hnil
      exact hcs (trimChars_eq_nil_iff.1 (by rw [trimChars, trimLeft, hnil]; rfl))
    rw [trimChars, trimChars, trimLeft, List.dropWhile_append, if_neg hne,
      trimRight_append_of_blank h]
    rfl

end TradingHours.Text
