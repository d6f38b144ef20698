import TradingHours.Proofs.Table
import TradingHours.Proofs.Text.Lines
import TradingHours.Proofs.Text.Pieces
import TradingHours.Source.Dataset
/-!
The token of a venue key in the aggregated dataset: it comes from the first row that lists the key,
and rows that are put behind a dataset only add keys. Main statement: `get?_ofDataset_eq_some_iff`.
-/
namespace TradingHours.Source

/-- A column of a row, counted from zero; a row that is too short has an empty one there. -/
def column (row : String) (i : Nat) : List Char := (row.toList.splitOn ',').getD i []

structure Qualifies (row : String) : Prop where
  wide : 4 ≤ (row.toList.splitOn ',').length
  token : (column row 0).all Text.isBlank = false
  keys : (column row 3).all Text.isBlank = false

instance (row : String) : Decidable (Qualifies row) :=
  decidable_of_iff (4 ≤ (row.toList.splitOn ',').length ∧
      (column row 0).all Text.isBlank = false ∧ (column row 3).all Text.isBlank = false)
    ⟨fun ⟨wide, token, keys⟩ => ⟨wide, token, keys⟩, fun ⟨wide, token, keys⟩ => ⟨wide, token, keys⟩⟩

def tokenOf (row : String) : String := String.ofList (Text.trimChars (column row 0))

/-- The key of an entry: what stands in front of its first at sign, or all of it if it starts with
one. -/
def keyOf (entry : List Char) : String :=
  let text := Text.trimChars entry
  String.ofList (if text.head? = some '@' then text else text.takeWhile (· ≠ '@'))

def Lists (row : String) (k : String) : Prop :=
  ∃ entry ∈ (column row 3).splitOn ';', entry.all Text.isBlank = false ∧ keyOf entry = k

instance (row k : String) : Decidable (Lists row k) := by
  unfold Lists
  infer_instance

theorem bareKey_eq (key : List Char) :
    bareKey key = if key.head? = some '@' then key else key.takeWhile (· ≠ '@') := by
  have hfront : ∀ before : List Char, '@' ∉ before → ∀ rest : List Char,
      (before ++ rest).takeWhile (· ≠ '@') = before ++ rest.takeWhile (· ≠ '@') := by
    intro before hbefore rest
    refine List.takeWhile_append_of_pos fun c hc => ?_
    exact decide_eq_true fun heq => hbefore (heq ▸ hc)
  rw [bareKey]
  cases hcut : Text.cutAtFirst '@' key with
  | none =>
    have hkey := hfront key (Text.cutAtFirst_eq_none_iff.1 hcut) []
    rw [List.append_nil, List.takeWhile_nil, List.append_nil] at hkey
    rw [hkey, ite_self]
  | some pair =>
    obtain ⟨before, after⟩ := pair
    obtain ⟨rfl, hbefore⟩ := Text.of_cutAtFirst hcut
    cases before with
    | nil => rfl
    | cons c before =>
      have hc : ¬ (c :: before ++ '@' :: after).head? = some '@' := by
        rintro heq
        exact hbefore (by simp [Option.some.inj heq])
      rw [if_neg hc, hfront _ hbefore, List.takeWhile_cons_of_neg (by decide), List.append_nil]

theorem mem_keysOf_iff {row k : String} :
    k ∈ keysOf (Text.trimChars (column row 3)) ↔ Lists row k := by
  have hsemicolon : Text.isBlank ';' = false := by decide
  have hkey : ∀ entry, String.ofList (bareKey (Text.trimChars entry)) = keyOf entry :=
    fun entry => congrArg String.ofList (bareKey_eq _)
  rw [keysOf, Text.splitOnChar_eq_splitOn, Text.map_trimChars_splitOn_trimChars hsemicolon]
  simp only [List.mem_map, List.mem_filter, Bool.not_eq_true']
  constructor
  · rintro ⟨text, ⟨⟨entry, hentry, rfl⟩, hblank⟩, rfl⟩
    rw [Text.isEmpty_trimChars] at hblank
    exact ⟨entry, hentry, hblank, (hkey entry).symm⟩
  · rintro ⟨entry, hentry, hblank, rfl⟩
    refine ⟨_, ⟨⟨entry, hentry, rfl⟩, ?_⟩, hkey entry⟩
    rwa [Text.isEmpty_trimChars]

theorem rowOf?_eq (row : String) :
    rowOf? row =
      if Qualifies row then some (tokenOf row, keysOf (Text.trimChars (column row 3)))
      else none := by
  rw [rowOf?, Text.splitOnChar_eq_splitOn]
  split
  next first second third fourth more hcolumns =>
    have hfirst : column row 0 = first := by rw [column, hcolumns]; rfl
    have hfourth : column row 3 = fourth := by rw [column, hcolumns]; rfl
    have hwide : 4 ≤ (row.toList.splitOn ',').length := by simp [hcolumns]
    have hblank : Qualifies row ↔
        ¬ ((Text.trimChars first).isEmpty || (Text.trimChars fourth).isEmpty) = true := by
      rw [Text.isEmpty_trimChars, Text.isEmpty_trimChars, Bool.not_eq_true, Bool.or_eq_false_iff,
        ← hfirst, ← hfourth]
      exact ⟨fun h => ⟨h.token, h.keys⟩, fun h => ⟨hwide, h.1, h.2⟩⟩
    rw [ite_congr (propext hblank) (fun _ => rfl) fun _ => rfl, ite_not, tokenOf, hfirst, hfourth]
  next hshort =>
    rw [if_neg]
    rintro ⟨hwide, -, -⟩
    match hcolumns : row.toList.splitOn ',' with
    | first :: second :: third :: fourth :: more =>
      exact hshort first second third fourth more hcolumns
    | [] | [_] | [_, _] | [_, _, _] => simp [hcolumns] at hwide

theorem listings_cons_of_qualifies {row : String} (h : Qualifies row) (rows : List String) :
    listings (row :: rows) =
      ((keysOf (Text.trimChars (column row 3))).map fun key => (key, tokenOf row)) ++
        listings rows := by
  rw [listings, List.filterMap_cons, rowOf?_eq, if_pos h]
  rfl

theorem listings_cons_of_not_qualifies {row : String} (h : ¬ Qualifies row) (rows : List String) :
    listings (row :: rows) = listings rows := by
  rw [listings, List.filterMap_cons, rowOf?_eq, if_neg h]
  rfl

theorem get?_listings (rows : List String) (k : String) :
    Table.get? (listings rows) k =
      (rows.find? fun row => Qualifies row ∧ Lists row k).map tokenOf := by
  induction rows with
  | nil => rfl
  | cons row rows ih =>
    by_cases hrow : Qualifies row
    · rw [listings_cons_of_qualifies hrow, Table.get?_append, Table.get?_map_const, ih]
      by_cases hlists : Lists row k
      · rw [List.find?_cons_of_pos (by simp [hrow, hlists]), if_pos (mem_keysOf_iff.2 hlists)]
        rfl
      · rw [List.find?_cons_of_neg (by simp [hlists]), if_neg (mt mem_keysOf_iff.1 hlists),
          Option.none_or]
    · rw [listings_cons_of_not_qualifies hrow, List.find?_cons_of_neg (by simp [hrow]), ih]

theorem listings_append (a b : List String) : listings (a ++ b) = listings a ++ listings b := by
  rw [listings, List.filterMap_append, List.flatMap_append, listings, listings]

section Merge

variable {tokens : Tokens} {more : List (String × String)}

theorem merge_append (tokens : Tokens) (more rest : List (String × String)) :
    merge tokens (more ++ rest) = merge (merge tokens more) rest :=
  List.foldl_append

theorem nodup_merge (h : (Table.keys tokens).Nodup) : (Table.keys (merge tokens more)).Nodup := by
  induction more generalizing tokens with
  | nil => exact h
  | cons pair more ih => exact ih (Table.nodup_putNew h)

/-- What is merged into tokens are the entries for new keys. -/
theorem merge_eq_append_filter (tokens : Tokens) (more : List (String × String)) :
    merge tokens more =
      tokens ++ (merge [] more).filter fun pair => pair.1 ∉ Table.keys tokens := by
  -- for any tokens: the first listing joins them on the left, and on the right it is an entry by
  -- itself
  induction more generalizing tokens with
  | nil => simp [merge]
  | cons pair more ih =>
    obtain ⟨k, t⟩ := pair
    have hstep : ∀ tokens, merge tokens ((k, t) :: more) = merge (Table.putNew tokens k t) more :=
      fun _ => rfl
    have hfirst : Table.putNew [] k t = [(k, t)] := rfl
    rw [hstep, hstep, ih (Table.putNew tokens k t), ih (Table.putNew [] k t), hfirst,
      List.singleton_append]
    by_cases hk : k ∈ Table.keys tokens
    · rw [Table.putNew_of_mem hk, List.filter_cons_of_neg (by simpa using hk), List.filter_filter]
      congr 1
      refine List.filter_congr fun pair _ => ?_
      by_cases hpair : pair.1 = k
      · simp [hpair, hk]
      · simp [hpair, Table.keys]
    · rw [Table.putNew_of_not_mem hk, List.filter_cons_of_pos (by simpa using hk),
        List.filter_filter, List.append_assoc, List.singleton_append]
      congr 2
      refine List.filter_congr fun pair _ => ?_
      have hkeys : pair.1 ∈ Table.keys (tokens ++ [(k, t)]) ↔
          pair.1 ∈ Table.keys tokens ∨ pair.1 ∈ Table.keys [(k, t)] := by
        rw [Table.keys, List.map_append]
        exact List.mem_append
      rw [Bool.eq_iff_iff, Bool.and_eq_true, decide_eq_true_eq, decide_eq_true_eq,
        decide_eq_true_eq, hkeys, not_or]

end Merge

theorem get?_ofDataset (lines : List String) (k : String) :
    (ofDataset lines).get? k =
      ((lines.drop 1).find? fun row => Qualifies row ∧ Lists row k).map tokenOf := by
  rw [ofDataset, get?_merge, Table.get?_nil, Option.none_or, get?_listings]

theorem mem_keys_ofDataset_iff {lines : List String} {k : String} :
    k ∈ Table.keys (ofDataset lines) ↔ ∃ row ∈ lines.drop 1, Qualifies row ∧ Lists row k := by
  rw [Table.mem_keys_iff]
  constructor
  · rintro ⟨t, ht⟩
    rw [get?_ofDataset, Option.map_eq_some_iff] at ht
    obtain ⟨row, hrow, -⟩ := ht
    exact ⟨row, List.mem_of_find?_eq_some hrow, by simpa using List.find?_some hrow⟩
  · rintro ⟨row, hrow, hlists⟩
    have hsome : ((lines.drop 1).find? fun row => Qualifies row ∧ Lists row k).isSome = true :=
      List.find?_isSome.2 ⟨row, hrow, by simpa using hlists⟩
    obtain ⟨first, hfirst⟩ := Option.isSome_iff_exists.1 hsome
    exact ⟨tokenOf first, by rw [get?_ofDataset, hfirst, Option.map_some]⟩

/-- The token of a key is that of the first qualifying row that lists it, every key has one entry,
and rows that are put behind a dataset add their entries for new keys and nothing else. -/
theorem get?_ofDataset_eq_some_iff :
    (∀ (lines : List String) (k t : String), (ofDataset lines).get? k = some t ↔
      ∃ row, (lines.drop 1).find? (fun row => Qualifies row ∧ Lists row k) = some row ∧
        tokenOf row = t) ∧
    (∀ lines, (Table.keys (ofDataset lines)).Nodup) ∧
    ∀ (header : String) (a b : List String), ofDataset (header :: (a ++ b)) =
      ofDataset (header :: a) ++ (ofDataset (header :: b)).filter fun pair =>
        pair.1 ∉ Table.keys (ofDataset (header :: a)) := by
  refine ⟨fun lines k t => ?_, fun lines => nodup_merge List.nodup_nil, fun header a b => ?_⟩
  · rw [get?_ofDataset, Option.map_eq_some_iff]
  · have hrows : ∀ rows, ofDataset (header :: rows) = merge [] (listings rows) := fun _ => rfl
    rw [hrows, hrows, hrows, listings_append, merge_append, merge_eq_append_filter]

end TradingHours.Source
