import TradingHours.Proofs.Text.Trim
import TradingHours.Text.Split
/-!
The pieces of a text between separators. Blanks around the whole text are blanks around its first
and its last piece, so they do not count once every piece is trimmed.
-/
namespace TradingHours.Text

variable {separator : Char} {cs front back : List Char}

theorem splitOnChar_eq_splitOn (separator : Char) (cs : List Char) :
    splitOnChar separator cs = cs.splitOn separator := by
  induction cs with
  | nil => rfl
  | cons c cs ih =>
    rw [splitOnChar, List.splitOn_cons_eq_if_modifyHead, ih]
    by_cases hc : c = separator
    · rw [if_pos hc, if_pos (beq_iff_eq.2 hc)]
    · rw [if_neg hc, if_neg (by simpa using hc)]
      obtain ⟨piece, pieces, hpieces⟩ :=
        List.exists_cons_of_ne_nil (List.splitOn_ne_nil separator cs)
      rw [hpieces]
      rfl

theorem exists_splitOn_append_left (h : separator ∉ front) (cs : List Char) :
    ∃ piece pieces, cs.splitOn separator = piece :: pieces ∧
      (front ++ cs).splitOn separator = (front ++ piece) :: pieces := by
  obtain ⟨piece, pieces, hpieces⟩ := List.exists_cons_of_ne_nil (List.splitOn_ne_nil separator cs)
  refine ⟨piece, pieces, hpieces, ?_⟩
  induction front with
  | nil => exact hpieces
  | cons c front ih =>
    obtain ⟨hc, hfront⟩ := not_or.1 (mt List.mem_cons.2 h)
    rw [List.cons_append, List.splitOn_cons_eq_if_modifyHead, if_neg (by simpa using Ne.symm hc),
      ih hfront]
    rfl

theorem exists_splitOn_append_right (h : separator ∉ back) (cs : List Char) :
    ∃ pieces piece, cs.splitOn separator = pieces ++ [piece] ∧
      (cs ++ back).splitOn separator = pieces ++ [piece ++ back] := by
  induction cs with
  | nil => exact ⟨[], [], rfl, List.splitOn_eq_singleton h⟩
  | cons c cs ih =>
    obtain ⟨pieces, piece, hcs, happend⟩ := ih
    rw [List.cons_append, List.splitOn_cons_eq_if_modifyHead, List.splitOn_cons_eq_if_modifyHead,
      hcs, happend]
    by_cases hc : (c == separator) = true
    · rw [if_pos hc, if_pos hc]
      exact ⟨[] :: pieces, piece, rfl, rfl⟩
    · rw [if_neg hc, if_neg hc]
      cases pieces with
      | nil => exact ⟨[], c :: piece, rfl, rfl⟩
      | cons first pieces => exact ⟨(c :: first) :: pieces, piece, rfl, rfl⟩

theorem separator_not_mem_of_mem_splitOn {piece : List Char} (h : piece ∈ cs.splitOn separator) :
    separator ∉ piece := by
  induction cs generalizing piece with
  | nil =>
    obtain rfl : piece = [] := by simpa using h
    exact List.not_mem_nil
  | cons c cs ih =>
    rw [List.splitOn_cons_eq_if_modifyHead] at h
    obtain ⟨first, rest, hcs⟩ := List.exists_cons_of_ne_nil (List.splitOn_ne_nil separator cs)
    rw [hcs] at h ih
    by_cases hc : (c == separator) = true
    · rw [if_pos hc] at h
      rcases List.mem_cons.1 h with rfl | h
      · exact List.not_mem_nil
      · exact ih h
    · rw [if_neg hc, List.modifyHead_cons] at h
      rcases List.mem_cons.1 h with rfl | h
      · rw [List.mem_cons, not_or]
        exact ⟨fun heq => hc (beq_iff_eq.2 heq.symm), ih List.mem_cons_self⟩
      · exact ih (List.mem_cons_of_mem first h)

theorem not_mem_of_blank (hseparator : isBlank separator = false) (h : cs.all isBlank = true) :
    separator ∉ cs := by
  intro hmem
  simp [List.all_eq_true.1 h separator hmem] at hseparator

/-- Trimmed pieces of a trimmed text. -/
theorem map_trimChars_splitOn_trimChars (hseparator : isBlank separator = false)
    (cs : List Char) : ((trimChars cs).splitOn separator).map trimChars =
      (cs.splitOn separator).map trimChars := by
  obtain ⟨front, back, hcs, hfront, hback⟩ := exists_trimChars cs
  obtain ⟨piece, pieces, hleft, hleft'⟩ := exists_splitOn_append_left
    (not_mem_of_blank hseparator hfront) (trimChars cs ++ back)
  obtain ⟨pieces', piece', hright, hright'⟩ := exists_splitOn_append_right
    (not_mem_of_blank hseparator hback) (trimChars cs)
  have htrim : trimChars (front ++ piece) = trimChars piece := by
    rw [trimChars, trimChars, trimLeft_append_of_blank hfront]
  calc ((trimChars cs).splitOn separator).map trimChars
      = ((trimChars cs ++ back).splitOn separator).map trimChars := by
        rw [hright, hright', List.map_append, List.map_append, List.map_singleton,
          List.map_singleton, trimChars_append_of_blank hback]
    _ = ((front ++ (trimChars cs ++ back)).splitOn separator).map trimChars := by
        rw [hleft, hleft', List.map_cons, List.map_cons, htrim]
    _ = (cs.splitOn separator).map trimChars := by rw [← hcs]

end TradingHours.Text
