import TradingHours.Proofs.Text.Trim
/-!
The fields of a text: none is empty or holds a blank, the first one starts where the trimmed text
does, and the last one is the word behind the last blank.
-/
namespace TradingHours.Text

@[simp] theorem fieldChars_nil : fieldChars [] = [] := rfl

theorem fieldChars_cons_blank {c : Char} (cs : List Char) (h : isBlank c = true) :
    fieldChars (c :: cs) = fieldChars cs := by
  rw [fieldChars.eq_def]
  simp only [h, if_true]

theorem fieldChars_cons_of_blank {c d : Char} (cs : List Char) (hc : isBlank c = false)
    (hd : isBlank d = true) : fieldChars (c :: d :: cs) = [c] :: fieldChars (d :: cs) := by
  rw [fieldChars.eq_def]
  simp only [hc, hd, Bool.false_eq_true, if_false, if_true]

theorem fieldChars_cons_of_eq {c d : Char} {cs field : List Char} {rest : List (List Char)}
    (hc : isBlank c = false) (hd : isBlank d = false) (h : fieldChars (d :: cs) = field :: rest) :
    fieldChars (c :: d :: cs) = (c :: field) :: rest := by
  rw [fieldChars.eq_def]
  simp only [hc, hd, h, Bool.false_eq_true, if_false]

theorem fieldChars_singleton {c : Char} (h : isBlank c = false) : fieldChars [c] = [[c]] := by
  rw [fieldChars.eq_def]
  simp only [h, Bool.false_eq_true, if_false]

/-- A character that is no blank starts a field of its own or joins the next one. -/
theorem exists_fieldChars_cons {c : Char} (cs : List Char) (h : isBlank c = false) :
    ∃ field rest, fieldChars (c :: cs) = (c :: field) :: rest ∧
      (field :: rest = fieldChars cs ∨ field = [] ∧ rest = fieldChars cs) := by
  rw [fieldChars.eq_def]
  simp only [h, Bool.false_eq_true, if_false]
  cases cs with
  | nil => exact ⟨[], [], rfl, .inr ⟨rfl, rfl⟩⟩
  | cons d cs =>
    dsimp only
    split
    · exact ⟨[], _, rfl, .inr ⟨rfl, rfl⟩⟩
    · split
      · next hnil => exact ⟨[], [], rfl, .inr ⟨rfl, hnil.symm⟩⟩
      · next field rest hfields => exact ⟨field, rest, rfl, .inl hfields.symm⟩

theorem of_mem_fieldChars {cs field : List Char} (h : field ∈ fieldChars cs) :
    field ≠ [] ∧ ∀ c ∈ field, isBlank c = false := by
  induction cs generalizing field with
  | nil => simp at h
  | cons c cs ih =>
    cases hc : isBlank c with
    | true =>
      rw [fieldChars_cons_blank cs hc] at h
      exact ih h
    | false =>
      obtain ⟨first, rest, heq, hrest⟩ := exists_fieldChars_cons cs hc
      rw [heq] at h
      rcases List.mem_cons.1 h with rfl | h
      · refine ⟨by simp, fun d hd => ?_⟩
        rcases List.mem_cons.1 hd with rfl | hd
        · exact hc
        · rcases hrest with hrest | ⟨rfl, -⟩
          · rw [← hrest] at ih
            exact (ih List.mem_cons_self).2 d hd
          · simp at hd
      · rcases hrest with hrest | ⟨-, hrest⟩
        · rw [← hrest] at ih
          exact ih (List.mem_cons_of_mem first h)
        · rw [← hrest] at ih
          exact ih h

theorem head?_of_fieldChars {cs field : List Char} {rest : List (List Char)}
    (h : fieldChars cs = field :: rest) : field.head? = (trimLeft cs).head? := by
  induction cs with
  | nil => simp at h
  | cons c cs ih =>
    cases hc : isBlank c with
    | true =>
      rw [fieldChars_cons_blank cs hc] at h
      rw [ih h, trimLeft, trimLeft, List.dropWhile_cons_of_pos hc]
    | false =>
      obtain ⟨first, more, heq, -⟩ := exists_fieldChars_cons cs hc
      rw [heq] at h
      cases h
      rw [trimLeft, List.dropWhile_cons_of_neg (by simp [hc])]
      rfl

theorem fieldChars_append_blank {b : Char} (hb : isBlank b = true) (cs rest : List Char) :
    fieldChars (cs ++ b :: rest) = fieldChars cs ++ fieldChars rest := by
  induction cs with
  | nil => rw [List.nil_append, fieldChars_cons_blank rest hb, fieldChars_nil, List.nil_append]
  | cons c cs ih =>
    rw [List.cons_append]
    cases hc : isBlank c with
    | true => rw [fieldChars_cons_blank _ hc, fieldChars_cons_blank _ hc, ih]
    | false =>
      cases cs with
      | nil =>
        rw [List.nil_append, fieldChars_cons_of_blank rest hc hb, fieldChars_singleton hc,
          fieldChars_cons_blank rest hb, List.singleton_append]
      | cons d cs =>
        rw [List.cons_append] at ih ⊢
        cases hd : isBlank d with
        | true =>
          rw [fieldChars_cons_of_blank _ hc hd, fieldChars_cons_of_blank _ hc hd, ih,
            List.cons_append]
        | false =>
          -- the first field is that of the characters behind, with one more in front
          obtain ⟨field, more, heq, -⟩ := exists_fieldChars_cons cs hd
          rw [heq, List.cons_append] at ih
          rw [fieldChars_cons_of_eq hc hd ih, fieldChars_cons_of_eq hc hd heq, List.cons_append]

theorem fieldChars_of_bare {word : List Char} (hne : word ≠ [])
    (hbare : ∀ c ∈ word, isBlank c = false) : fieldChars word = [word] := by
  induction word with
  | nil => exact absurd rfl hne
  | cons c cs ih =>
    have hc : isBlank c = false := hbare c List.mem_cons_self
    cases cs with
    | nil => exact fieldChars_singleton hc
    | cons d cs =>
      have hcs : ∀ b ∈ d :: cs, isBlank b = false := fun b hb => hbare b (List.mem_cons_of_mem c hb)
      have hd : isBlank d = false := hcs d List.mem_cons_self
      exact fieldChars_cons_of_eq hc hd (ih (List.cons_ne_nil d cs) hcs)

structure Word (s : String) : Prop where
  nonempty : s.toList ≠ []
  bare : ∀ c ∈ s.toList, isBlank c = false

theorem word_of_mem_fields {text field : String} (h : field ∈ fields text) : Word field := by
  obtain ⟨chars, hchars, rfl⟩ := List.mem_map.1 h
  obtain ⟨hne, hbare⟩ := of_mem_fieldChars hchars
  constructor
  · rwa [String.toList_ofList]
  · rwa [String.toList_ofList]

theorem head?_of_fields {text field : String} {rest : List String}
    (h : fields text = field :: rest) : field.toList.head? = (trimLeft text.toList).head? := by
  obtain ⟨chars, more, hchars, rfl, -⟩ := List.map_eq_cons_iff.1 h
  rw [String.toList_ofList, head?_of_fieldChars hchars]

theorem fields_append_space (front back : String) :
    fields (front ++ " " ++ back) = fields front ++ fields back := by
  have hblank : isBlank ' ' = true := by decide
  have hsplit : (front ++ " " ++ back).toList = front.toList ++ ' ' :: back.toList := by
    rw [String.toList_append, String.toList_append, List.append_assoc]
    rfl
  rw [fields, hsplit, fieldChars_append_blank hblank, List.map_append, fields, fields]

theorem Word.fields_eq {word : String} (h : Word word) : fields word = [word] := by
  rw [fields, fieldChars_of_bare h.nonempty h.bare, List.map_singleton, String.ofList_toList]

theorem Word.getLast?_fields {word : String} (h : Word word) (front : String) :
    (fields (front ++ " " ++ word)).getLast? = some word := by
  rw [fields_append_space, h.fields_eq, List.getLast?_concat]

end TradingHours.Text
