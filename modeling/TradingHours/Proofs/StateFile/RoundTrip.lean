import TradingHours.Proofs.Table
import TradingHours.Proofs.Text.Lines
import TradingHours.Proofs.Text.Trim
import TradingHours.StateFile
/-!
What a file of states says of the states that were written: the same, for markets whose names a line
can hold. The markets of any file are of that kind.
-/
namespace TradingHours.StateFile

open Text (Trimmed Unbroken trimChars)

structure Storable (key : String) : Prop where
  nonempty : key.toList ≠ []
  trimmed : Trimmed key.toList
  unmarked : ∀ c ∈ key.toList.head?, c ≠ '#' ∧ c ≠ '!'
  bare : '=' ∉ key.toList
  unbroken : Unbroken key.toList

section Line

variable {key : String} {state : Bool}

theorem toList_lineOf (key : String) (state : Bool) :
    (lineOf key state).toList = key.toList ++ ['=', if state then '1' else '0'] := by
  cases state <;> simp [lineOf]

theorem head?_lineOf (hk : Storable key) :
    (lineOf key state).toList.head? = key.toList.head? := by
  obtain ⟨c, cs, hkey⟩ := List.exists_cons_of_ne_nil hk.nonempty
  rw [toList_lineOf, hkey]
  rfl

theorem trimmed_lineOf (hk : Storable key) : Trimmed (lineOf key state).toList := by
  constructor
  · rw [head?_lineOf hk]
    exact hk.trimmed.1
  · rw [toList_lineOf]
    cases state <;> simp <;> decide

theorem unbroken_lineOf (hk : Storable key) : Unbroken (lineOf key state).toList := by
  rw [toList_lineOf]
  intro c hc
  rcases List.mem_append.1 hc with hc | hc
  · exact hk.unbroken c hc
  · cases state <;> simp at hc <;> rcases hc with rfl | rfl <;> decide

theorem ofLine?_eq_some_iff {line : String} :
    ofLine? line = some (key, state) ↔
      ∃ before after, trimChars line.toList = before ++ '=' :: after ∧ '=' ∉ before ∧
        (∀ c ∈ (trimChars line.toList).head?, c ≠ '#' ∧ c ≠ '!') ∧ trimChars before ≠ [] ∧
        key = String.ofList (trimChars before) ∧ state = readState after := by
  unfold ofLine?
  generalize trimChars line.toList = text
  dsimp only
  constructor
  · intro h
    split at h
    · simp at h
    · next hmark =>
      obtain ⟨⟨before, after⟩, hcut, h⟩ := Option.bind_eq_some_iff.1 h
      obtain ⟨htext, hbare⟩ := Text.of_cutAtFirst hcut
      split at h
      · simp at h
      · next hempty =>
        cases h
        refine ⟨before, after, htext, hbare, ?_, by simpa using hempty, rfl, rfl⟩
        intro c hc
        simp_all
  · rintro ⟨before, after, rfl, hbare, hmark, hempty, rfl, rfl⟩
    have hne : before ++ '=' :: after ≠ [] := by simp
    obtain ⟨c, cs, heq⟩ := List.exists_cons_of_ne_nil hne
    obtain ⟨hremark, hbang⟩ := hmark c (by rw [heq]; rfl)
    rw [if_neg (by simp [heq, hremark, hbang]), Text.cutAtFirst_append hbare]
    simp [hempty]

theorem ofLine?_lineOf (hk : Storable key) : ofLine? (lineOf key state) = some (key, state) := by
  have htrim := hk.trimmed.trimChars_eq
  refine ofLine?_eq_some_iff.2 ⟨key.toList, [if state then '1' else '0'], ?_, hk.bare, ?_, ?_, ?_, ?_⟩
  · rw [(trimmed_lineOf hk).trimChars_eq, toList_lineOf]
  · rw [(trimmed_lineOf hk).trimChars_eq, head?_lineOf hk]
    exact hk.unmarked
  · rw [htrim]
    exact hk.nonempty
  · rw [htrim, String.ofList_toList]
  · cases state <;> decide

theorem storable_of_ofLine? {line : String} (hline : Unbroken line.toList)
    (h : ofLine? line = some (key, state)) : Storable key := by
  obtain ⟨before, after, htext, hbare, hmark, hempty, rfl, -⟩ := ofLine?_eq_some_iff.1 h
  have hbefore : before ≠ [] := by
    rintro rfl
    exact hempty rfl
  have hhead : (trimChars line.toList).head? = before.head? := by
    obtain ⟨c, cs, rfl⟩ := List.exists_cons_of_ne_nil hbefore
    rw [htext]
    rfl
  have hstart := (Text.trimmed_trimChars line.toList).1
  rw [hhead] at hstart hmark
  have hkey : (String.ofList (trimChars before)).toList = trimChars before := String.toList_ofList
  constructor
  · rwa [hkey]
  · rw [hkey]
    exact Text.trimmed_trimChars before
  · rwa [hkey, Text.head?_trimChars hempty, Text.trimLeft_eq_self hstart]
  · rw [hkey]
    exact fun hmem => hbare (Text.mem_of_mem_trimChars hmem)
  · rw [hkey]
    intro c hc
    apply hline c (Text.mem_of_mem_trimChars _)
    rw [htext]
    exact List.mem_append_left _ (Text.mem_of_mem_trimChars hc)

end Line

section Header

theorem unbroken_offsetText (offset : Span) : Unbroken (offsetText offset).toList := by
  have hcolon : Unbroken ":".toList := by decide
  have hdot : Unbroken ".".toList := by decide
  simp only [offsetText, Text.unbroken_append, Text.unbroken_padded, hcolon, and_true]
  constructor
  · split <;> decide
  · split
    · simp only [Text.unbroken_append, Text.unbroken_padded, hcolon, hdot, and_self]
    · split
      · simp only [Text.unbroken_append, Text.unbroken_padded, hcolon, and_self]
      · decide

theorem unbroken_dayText (d : Day) : Unbroken d.text.toList := by
  have hdash : Unbroken "-".toList := by decide
  simp only [Day.text, Text.unbroken_append, Text.unbroken_padded, hdash, and_self]

theorem unbroken_timeText (t : TimeOfDay) : Unbroken t.text.toList := by
  have hcolon : Unbroken ":".toList := by decide
  have hdot : Unbroken ".".toList := by decide
  unfold TimeOfDay.text TimeOfDay.clockText TimeOfDay.shortText
  split <;> simp only [Text.unbroken_append, Text.unbroken_padded, hcolon, hdot, and_self]

theorem unbroken_header (now : Instant) : Unbroken (header now).toList := by
  have hmark : Unbroken "# market state ".toList := by decide
  have hseparator : Unbroken "T".toList := by decide
  simp only [header, Instant.text, Instant.textWith, Text.unbroken_append, unbroken_dayText,
    unbroken_timeText, hmark, hseparator, true_and]
  cases now.offset with
  | none => decide
  | some offset => exact unbroken_offsetText offset

theorem ofLine?_header (now : Instant) : ofLine? (header now) = none := by
  have hheader : (header now).toList = '#' :: (" market state " ++ now.text).toList := by
    simp [header]
  have hblank : Text.isBlank '#' = false := by decide
  have hhead : (trimChars (header now).toList).head? = some '#' := by
    rw [Text.head?_trimChars, hheader, Text.trimLeft_eq_self]
    · rfl
    · simp [hblank]
    · exact Text.trimChars_ne_nil (by rw [hheader]; exact List.mem_cons_self) hblank
  cases hof : ofLine? (header now) with
  | none => rfl
  | some pair =>
    obtain ⟨-, -, -, -, hmark, -⟩ := ofLine?_eq_some_iff.1 hof
    exact absurd rfl (hmark '#' hhead).1

end Header

section Read

variable {states : States}

theorem storable_of_mem_read {text key : String} (h : key ∈ Table.keys (read text)) :
    Storable key := by
  rw [read, Table.mem_keys_ofPairs] at h
  obtain ⟨⟨_, state⟩, hpair, rfl⟩ := List.mem_map.1 h
  obtain ⟨line, hline, hof⟩ := List.mem_filterMap.1 hpair
  refine storable_of_ofLine? ?_ hof
  obtain ⟨chars, hchars, rfl⟩ := List.mem_map.1 hline
  rw [String.toList_ofList]
  exact Text.unbroken_of_mem_lineChars hchars

/-- The lines of a file come in the order of their markets, one for each. -/
theorem pairwise_sorted (hn : (Table.keys states).Nodup) :
    (sorted states).Pairwise fun a b => a.1 < b.1 := by
  have hle : (sorted states).Pairwise fun a b => decide (a.1 ≤ b.1) = true := by
    refine List.pairwise_mergeSort (fun a b c hab hbc => ?_) (fun a b => ?_) states
    · rw [decide_eq_true_eq] at hab hbc ⊢
      exact String.le_trans hab hbc
    · simpa only [Bool.or_eq_true, decide_eq_true_eq] using String.le_total a.1 b.1
  have hne : (sorted states).Pairwise fun a b => a.1 ≠ b.1 :=
    List.pairwise_map.1 (((List.mergeSort_perm _ _).map _).nodup_iff.2 hn)
  refine (hle.and hne).imp fun h => String.not_le.1 fun hba => h.2 ?_
  exact String.le_antisymm (of_decide_eq_true h.1) hba

theorem read_render (now : Instant) (hn : (Table.keys states).Nodup)
    (hs : ∀ key ∈ Table.keys states, Storable key) : read (render now states) = sorted states := by
  have hperm : (sorted states).Perm states := List.mergeSort_perm _ _
  have hsorted : ∀ pair ∈ sorted states, Storable pair.1 := by
    intro pair hpair
    exact hs _ (List.mem_map_of_mem (hperm.mem_iff.1 hpair))
  have hunbroken : ∀ line ∈ header now :: (sorted states).map fun pair => lineOf pair.1 pair.2,
      Unbroken line.toList := by
    intro line hline
    rcases List.mem_cons.1 hline with rfl | hline
    · exact unbroken_header now
    · obtain ⟨pair, hpair, rfl⟩ := List.mem_map.1 hline
      exact unbroken_lineOf (hsorted pair hpair)
  have hlines : ∀ l : States, (∀ pair ∈ l, Storable pair.1) →
      (l.map fun pair => lineOf pair.1 pair.2).filterMap ofLine? = l := by
    intro l hl
    induction l with
    | nil => rfl
    | cons pair l ih =>
      rw [List.map_cons, List.filterMap_cons, ofLine?_lineOf (hl pair List.mem_cons_self),
        ih fun p hp => hl p (List.mem_cons_of_mem pair hp)]
  rw [read, render, Text.lines_unlines hunbroken, List.filterMap_cons, ofLine?_header,
    hlines _ hsorted, Table.ofPairs_of_nodup]
  exact (hperm.map _).nodup_iff.2 hn

theorem decodeUtf8_encodeUtf8 (text : String) :
    Text.decodeUtf8 (Text.encodeUtf8 text) = .ok text := by
  have h : String.fromUTF8? text.toUTF8 = some text := by
    rw [String.toUTF8_eq_toByteArray, String.fromUTF8?, dif_pos text.isValidUTF8]
    rfl
  rw [Text.decodeUtf8, Text.encodeUtf8, h]

end Read

end TradingHours.StateFile
