import Mathlib.Data.List.Infix
import TradingHours.Proofs.Text.Trim
import TradingHours.Text.Split
/-!
The leftmost occurrence of a pattern in a text. Text in front of and behind another one that shares no
character with the pattern neither adds an occurrence nor moves the leftmost one.
-/
namespace TradingHours.Text

variable {pattern cs before after front back : List Char}

structure Leftmost (pattern cs before after : List Char) : Prop where
  split : cs = before ++ (pattern ++ after)
  first : ∀ before' after', cs = before' ++ (pattern ++ after') → before.length ≤ before'.length

theorem afterFirst_of_isPrefix (h : pattern <+: cs) (hne : pattern ≠ []) :
    afterFirst pattern cs = some (cs.drop pattern.length) := by
  cases cs with
  | nil => exact absurd (List.prefix_nil.1 h) hne
  | cons c cs => rw [afterFirst, if_pos (List.isPrefixOf_iff_prefix.2 h)]

theorem afterFirst_of_not_isPrefix {c : Char} (h : ¬ pattern <+: c :: cs) :
    afterFirst pattern (c :: cs) = afterFirst pattern cs := by
  rw [afterFirst, if_neg (by rwa [List.isPrefixOf_iff_prefix])]

theorem Leftmost.of_isPrefix (h : pattern <+: cs) :
    Leftmost pattern cs [] (cs.drop pattern.length) := by
  obtain ⟨after, rfl⟩ := h
  exact ⟨by simp, fun _ _ _ => Nat.zero_le _⟩

theorem leftmost_cons_iff {c : Char} (h : ¬ pattern <+: c :: cs) :
    Leftmost pattern (c :: cs) before after ↔
      ∃ before', before = c :: before' ∧ Leftmost pattern cs before' after := by
  have hcons : ∀ front behind, c :: cs = front ++ (pattern ++ behind) →
      ∃ front', front = c :: front' ∧ cs = front' ++ (pattern ++ behind) := by
    intro front behind hsplit
    rcases List.cons_eq_append_iff.1 hsplit with ⟨-, hpattern⟩ | hfront
    · exact absurd ⟨behind, hpattern⟩ h
    · exact hfront
  constructor
  · rintro ⟨hsplit, hfirst⟩
    obtain ⟨before', rfl, hsplit'⟩ := hcons _ _ hsplit
    refine ⟨before', rfl, hsplit', fun front behind hother => ?_⟩
    have hle := hfirst (c :: front) behind (by rw [hother, List.cons_append])
    exact Nat.le_of_succ_le_succ hle
  · rintro ⟨before', rfl, hsplit, hfirst⟩
    refine ⟨by rw [hsplit, List.cons_append], fun front behind hother => ?_⟩
    obtain ⟨front', rfl, hother'⟩ := hcons _ _ hother
    exact Nat.succ_le_succ (hfirst front' behind hother')

/-- What follows the first occurrence stands behind the leftmost one. -/
theorem afterFirst_eq_some_iff (hne : pattern ≠ []) :
    afterFirst pattern cs = some after ↔ ∃ before, Leftmost pattern cs before after := by
  induction cs with
  | nil =>
    have hnone : afterFirst pattern [] = none := by simp [afterFirst, hne]
    rw [hnone]
    simp only [reduceCtorEq, false_iff, not_exists]
    rintro before ⟨hsplit, -⟩
    simp [hne] at hsplit
  | cons c cs ih =>
    by_cases hprefix : pattern <+: c :: cs
    · have hhere := Leftmost.of_isPrefix hprefix
      rw [afterFirst_of_isPrefix hprefix hne, Option.some_inj]
      constructor
      · rintro rfl
        exact ⟨[], hhere⟩
      · rintro ⟨before, hsplit, hfirst⟩
        have hnil : before = [] := List.length_eq_zero_iff.1 (Nat.le_zero.1 (hfirst _ _ hhere.split))
        rw [hsplit, hnil, List.nil_append, List.drop_left]
    · rw [afterFirst_of_not_isPrefix hprefix, ih]
      simp only [leftmost_cons_iff hprefix]
      exact ⟨fun ⟨before, h⟩ => ⟨c :: before, before, rfl, h⟩, fun ⟨_, before, _, h⟩ => ⟨before, h⟩⟩

theorem containsChars_iff (hne : pattern ≠ []) :
    containsChars pattern cs = true ↔ pattern <:+: cs := by
  rw [containsChars]
  induction cs with
  | nil => simp [afterFirst, hne]
  | cons c cs ih =>
    rw [List.infix_cons_iff]
    by_cases hprefix : pattern <+: c :: cs
    · simp [afterFirst_of_isPrefix hprefix hne, hprefix]
    · simp [afterFirst_of_not_isPrefix hprefix, hprefix, ih]

theorem afterFirst_append_front (hfront : ∀ c ∈ front, c ∉ pattern) (hne : pattern ≠ []) :
    afterFirst pattern (front ++ cs) = afterFirst pattern cs := by
  induction front with
  | nil => rfl
  | cons c front ih =>
    have hprefix : ¬ pattern <+: c :: (front ++ cs) := by
      rintro ⟨rest, hsplit⟩
      obtain ⟨d, pattern', rfl⟩ := List.exists_cons_of_ne_nil hne
      obtain ⟨rfl, -⟩ := List.cons.inj hsplit
      exact hfront d List.mem_cons_self List.mem_cons_self
    rw [List.cons_append, afterFirst_of_not_isPrefix hprefix,
      ih fun d hd => hfront d (List.mem_cons_of_mem c hd)]

theorem isPrefix_append_iff (hback : ∀ c ∈ back, c ∉ pattern) :
    pattern <+: cs ++ back ↔ pattern <+: cs := by
  refine ⟨fun h => ?_, fun h => h.trans (List.prefix_append cs back)⟩
  rcases List.prefix_or_prefix_of_prefix h (List.prefix_append cs back) with hcs | ⟨more, rfl⟩
  · exact hcs
  · rw [List.prefix_append_right_inj] at h
    cases more with
    | nil => simp
    | cons c more =>
      -- an occurrence that runs into the text behind would share its next character with it
      have hmem : c ∈ cs ++ c :: more := List.mem_append_right cs List.mem_cons_self
      exact absurd hmem (hback c (h.subset List.mem_cons_self))

theorem afterFirst_append_back (hback : ∀ c ∈ back, c ∉ pattern) (hne : pattern ≠ []) :
    afterFirst pattern (cs ++ back) = (afterFirst pattern cs).map (· ++ back) := by
  induction cs with
  | nil =>
    have hfront : afterFirst pattern (back ++ []) = afterFirst pattern [] :=
      afterFirst_append_front hback hne
    rw [List.append_nil] at hfront
    simp [hfront, afterFirst, hne]
  | cons c cs ih =>
    by_cases hprefix : pattern <+: c :: cs
    · rw [afterFirst_of_isPrefix ((isPrefix_append_iff hback).2 hprefix) hne,
        afterFirst_of_isPrefix hprefix hne, List.drop_append_of_le_length hprefix.length_le]
      rfl
    · have happend : ¬ pattern <+: c :: cs ++ back := by rwa [isPrefix_append_iff hback]
      rw [afterFirst_of_not_isPrefix hprefix, ← ih]
      exact afterFirst_of_not_isPrefix happend

/-- The blanks around a text hold no part of a pattern without blanks. -/
theorem exists_afterFirst_trimChars (hne : pattern ≠ []) (hbare : ∀ c ∈ pattern, isBlank c = false)
    (cs : List Char) :
    ∃ back, back.all isBlank = true ∧
      afterFirst pattern cs = (afterFirst pattern (trimChars cs)).map (· ++ back) := by
  obtain ⟨front, back, hcs, hfront, hback⟩ := exists_trimChars cs
  have havoids : ∀ blanks : List Char, blanks.all isBlank = true → ∀ c ∈ blanks, c ∉ pattern := by
    intro blanks hblanks c hc hpattern
    have hblank := List.all_eq_true.1 hblanks c hc
    simp [hbare c hpattern] at hblank
  refine ⟨back, hback, ?_⟩
  conv_lhs => rw [hcs]
  rw [afterFirst_append_front (havoids front hfront) hne,
    afterFirst_append_back (havoids back hback) hne]

end TradingHours.Text
