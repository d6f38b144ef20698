import TradingHours.Proofs.Market
import TradingHours.Proofs.Source.FirstListing
/-!
The form of the keys of the aggregated dataset. An entry is trimmed before its date is cut off, so a
key keeps the blanks that stand between it and the at sign. Main statement:
`keys_ofDataset_normal_iff`.
-/
namespace TradingHours.Source

structure Undated (k : String) : Prop where
  nonempty : k ≠ ""
  front : ∀ c ∈ k.toList.head?, Text.isBlank c = false
  undated : bareKey k.toList = k.toList

structure NormalKey (k : String) : Prop extends Undated k where
  back : ∀ c ∈ k.toList.getLast?, Text.isBlank c = false

/-- A blank stands right in front of the first at sign of an entry, and does not start it. -/
def BlankBeforeDate (entry : List Char) : Prop :=
  ∃ name blank date, Text.trimChars entry = name ++ blank :: '@' :: date ∧ '@' ∉ name ∧
    Text.isBlank blank = true

theorem bareKey_of_undated {key : List Char} (h : key.head? = some '@' ∨ '@' ∉ key) :
    bareKey key = key := by
  rcases h with hhead | hmem
  · rw [bareKey_eq, if_pos hhead]
  · rw [bareKey, Text.cutAtFirst_eq_none_iff.2 hmem]

theorem bareKey_of_dated {c : Char} {name : List Char} (h : '@' ∉ c :: name) (date : List Char) :
    bareKey (c :: name ++ '@' :: date) = c :: name := by
  rw [bareKey, Text.cutAtFirst_append h]

section Entry

variable {entry : List Char}

theorem toList_keyOf (entry : List Char) :
    (keyOf entry).toList = bareKey (Text.trimChars entry) := by
  rw [keyOf, String.toList_ofList, bareKey_eq]

/-- An entry is its own key, or a name with a date behind it. -/
theorem keyOf_cases (entry : List Char) :
    (keyOf entry).toList = Text.trimChars entry ∧
        ((Text.trimChars entry).head? = some '@' ∨ '@' ∉ Text.trimChars entry) ∨
      ∃ c name date, Text.trimChars entry = c :: name ++ '@' :: date ∧ '@' ∉ c :: name ∧
        (keyOf entry).toList = c :: name := by
  rw [toList_keyOf]
  cases hcut : Text.cutAtFirst '@' (Text.trimChars entry) with
  | none =>
    have hundated := Text.cutAtFirst_eq_none_iff.1 hcut
    exact .inl ⟨bareKey_of_undated (.inr hundated), .inr hundated⟩
  | some pair =>
    obtain ⟨before, date⟩ := pair
    obtain ⟨htext, hbefore⟩ := Text.of_cutAtFirst hcut
    cases before with
    | nil =>
      have hhead : (Text.trimChars entry).head? = some '@' := by rw [htext]; rfl
      exact .inl ⟨bareKey_of_undated (.inl hhead), .inl hhead⟩
    | cons c name =>
      refine .inr ⟨c, name, date, htext, hbefore, ?_⟩
      rw [htext, bareKey_of_dated hbefore]

theorem undated_keyOf (h : entry.all Text.isBlank = false) : Undated (keyOf entry) := by
  have hfront := (Text.trimmed_trimChars entry).1
  rcases keyOf_cases entry with ⟨hkey, hundated⟩ | ⟨c, name, date, htext, hname, hkey⟩
  · refine ⟨?_, ?_, ?_⟩
    · intro hempty
      rw [hempty] at hkey
      rw [Text.trimChars_eq_nil_iff.1 hkey.symm] at h
      exact Bool.noConfusion h
    · rwa [hkey]
    · rw [hkey]
      exact bareKey_of_undated hundated
  · refine ⟨?_, ?_, ?_⟩
    · intro hempty
      rw [hempty] at hkey
      cases hkey
    · rw [hkey]
      intro d hd
      exact hfront d (by rw [htext]; exact hd)
    · rw [hkey]
      exact bareKey_of_undated (.inr hname)

theorem normalKey_keyOf_iff (h : entry.all Text.isBlank = false) :
    NormalKey (keyOf entry) ↔ ¬ BlankBeforeDate entry := by
  have hends := Text.trimmed_trimChars entry
  rcases keyOf_cases entry with ⟨hkey, hundated⟩ | ⟨c, name, date, htext, hname, hkey⟩
  · refine iff_of_true ⟨undated_keyOf h, by rw [hkey]; exact hends.2⟩ ?_
    rintro ⟨before, blank, date, htext, hbefore, hblank⟩
    rcases hundated with hhead | hmem
    · cases before with
      | nil =>
        rw [htext, List.nil_append, List.head?_cons, Option.some_inj] at hhead
        rw [hhead] at hblank
        exact absurd hblank (by decide)
      | cons d before =>
        rw [htext, List.cons_append, List.head?_cons, Option.some_inj] at hhead
        exact hbefore (hhead ▸ List.mem_cons_self)
    · exact hmem (by simp [htext])
  · constructor
    · rintro hnormal ⟨before, blank, date', htext', hbefore, hblank⟩
      have hat : '@' ∉ before ++ [blank] := by
        rw [List.mem_append, List.mem_singleton, not_or]
        refine ⟨hbefore, fun heq => ?_⟩
        rw [← heq] at hblank
        exact absurd hblank (by decide)
      -- the first at sign cuts a text in one way only
      have hcut : some (c :: name, date) = some (before ++ [blank], date') := by
        rw [← Text.cutAtFirst_append hname, ← htext, htext', ← Text.cutAtFirst_append hat,
          List.append_assoc]
        rfl
      have hsame : c :: name = before ++ [blank] := congrArg Prod.fst (Option.some.inj hcut)
      have hlast : blank ∈ (keyOf entry).toList.getLast? := by
        rw [hkey, hsame, List.getLast?_concat]
        rfl
      exact Bool.noConfusion (hblank.symm.trans (hnormal.back blank hlast))
    · intro hnoblank
      refine ⟨undated_keyOf h, fun b hb => ?_⟩
      rw [hkey, Option.mem_def, List.getLast?_eq_some_iff] at hb
      obtain ⟨before, hbefore⟩ := hb
      rw [hbefore, List.mem_append, not_or] at hname
      rw [hbefore, List.append_assoc] at htext
      exact Bool.eq_false_iff.2 fun hblank => hnoblank ⟨before, b, date, htext, hname.1, hblank⟩

end Entry

theorem undated_of_mem_keys {lines : List String} {k : String}
    (h : k ∈ Table.keys (ofDataset lines)) : Undated k := by
  obtain ⟨row, -, -, entry, -, hblank, rfl⟩ := mem_keys_ofDataset_iff.1 h
  exact undated_keyOf hblank

/-- Every key of a dataset has something in it, no blank in front and no date. All of them are in
normal form exactly if no entry that is listed has a blank in front of its date; a key that is not
is named by no line of an allowlist. -/
theorem keys_ofDataset_normal_iff (lines : List String) :
    (∀ k ∈ Table.keys (ofDataset lines), Undated k) ∧
      ((∀ k ∈ Table.keys (ofDataset lines), NormalKey k) ↔
        ∀ row ∈ lines.drop 1, Qualifies row → ∀ entry ∈ (column row 3).splitOn ';',
          ¬ BlankBeforeDate entry) ∧
      ∀ line number market, Market.ofLine? line number = .ok (some market) →
        market.tvKey ∈ Table.keys (ofDataset lines) → NormalKey market.tvKey := by
  refine ⟨fun k hk => undated_of_mem_keys hk, ?_, ?_⟩
  · constructor
    · intro hnormal row hrow hqualifies entry hentry hdate
      have hblank : entry.all Text.isBlank = false := by
        obtain ⟨name, blank, date, htext, -⟩ := hdate
        rw [← Text.isEmpty_trimChars, htext]
        cases name <;> rfl
      have hkey : keyOf entry ∈ Table.keys (ofDataset lines) :=
        mem_keys_ofDataset_iff.2 ⟨row, hrow, hqualifies, entry, hentry, hblank, rfl⟩
      exact (normalKey_keyOf_iff hblank).1 (hnormal _ hkey) hdate
    · intro hentries k hk
      obtain ⟨row, hrow, hqualifies, entry, hentry, hblank, rfl⟩ := mem_keys_ofDataset_iff.1 hk
      exact (normalKey_keyOf_iff hblank).2 (hentries row hrow hqualifies entry hentry)
  · intro line number market hline hkey
    have hword := Market.word_tvKey hline
    exact ⟨undated_of_mem_keys hkey, fun c hc => hword.bare c (List.mem_of_mem_getLast? hc)⟩

/-- The blank between a name and its date stays with the name. -/
theorem dated_key_not_normal :
    ¬ ∀ lines, ∀ k ∈ Table.keys (ofDataset lines), NormalKey k := by
  intro h
  have hkey : "tv.XLON " ∈
      Table.keys (ofDataset ["header", "08001630,LSE,1,tv.XLON @2024-01-01"]) := by
    decide +kernel
  have hback := (h _ _ hkey).back ' ' rfl
  exact absurd hback (by decide)

end TradingHours.Source
