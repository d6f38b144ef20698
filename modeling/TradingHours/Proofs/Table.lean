import TradingHours.Table
/-!
Tables by their keys. Tables that are built by `put` list every key once, and tables that list every
key once say the same in any order.
-/
namespace TradingHours.Table

variable {κ ν : Type} [DecidableEq κ] {table table' : Table κ ν} {k : κ} {v : ν}

def keys (table : Table κ ν) : List κ := table.map (·.1)

theorem get?_eq_some_iff (h : (keys table).Nodup) : get? table k = some v ↔ (k, v) ∈ table := by
  induction table with
  | nil => simp
  | cons pair rest ih =>
    obtain ⟨key, value⟩ := pair
    obtain ⟨hkey, hrest⟩ := List.nodup_cons.1 h
    by_cases hk : key = k
    · subst hk
      have hnot : (key, v) ∉ rest := fun hmem => hkey (List.mem_map.2 ⟨_, hmem, rfl⟩)
      simp [get?, hnot, eq_comm]
    · simp [get?, hk, Ne.symm hk, ih hrest]

theorem mem_keys_iff : k ∈ keys table ↔ ∃ v, get? table k = some v := by
  induction table with
  | nil => simp [keys]
  | cons pair rest ih =>
    rw [keys] at ih
    by_cases h : pair.1 = k
    · simp [keys, get?, h]
    · simp [keys, get?, h, Ne.symm h, ← ih]

theorem get?_perm (h : (keys table).Nodup) (hp : table.Perm table') :
    get? table' k = get? table k := by
  have h' : (keys table').Nodup := (hp.map _).nodup_iff.1 h
  ext v
  rw [get?_eq_some_iff h, get?_eq_some_iff h', hp.mem_iff]

theorem mem_keys_put {k' : κ} : k' ∈ keys (put table k v) ↔ k' = k ∨ k' ∈ keys table := by
  induction table with
  | nil => simp [put, keys]
  | cons pair rest ih =>
    rw [keys] at ih
    by_cases h : pair.1 = k
    · simp [put, keys, h]
    · simp only [put, keys, if_neg h, List.map_cons, List.mem_cons] at ih ⊢
      rw [ih]
      exact or_left_comm

theorem nodup_put (h : (keys table).Nodup) : (keys (put table k v)).Nodup := by
  induction table with
  | nil => simp [put, keys]
  | cons pair rest ih =>
    obtain ⟨key, value⟩ := pair
    obtain ⟨hkey, hrest⟩ := List.nodup_cons.1 h
    by_cases hk : key = k
    · rw [put, if_pos hk]
      exact h
    · rw [put, if_neg hk]
      refine List.nodup_cons.2 ⟨fun hmem => ?_, ih hrest⟩
      rcases mem_keys_put.1 hmem with heq | hmem
      · exact hk heq
      · exact hkey hmem

theorem put_of_not_mem (h : k ∉ keys table) : put table k v = table ++ [(k, v)] := by
  induction table with
  | nil => rfl
  | cons pair rest ih =>
    obtain ⟨hk, hrest⟩ := not_or.1 (mt List.mem_cons.2 h)
    rw [put, if_neg (Ne.symm hk), ih hrest]
    rfl

theorem get?_append (table more : Table κ ν) (k : κ) :
    get? (table ++ more) k = (get? table k).or (get? more k) := by
  induction table with
  | nil => simp
  | cons pair rest ih =>
    by_cases h : pair.1 = k
    · simp [get?, h]
    · simp [get?, h, ih]

/-- A table in which all keys have one value. -/
theorem get?_map_const (ks : List κ) (v : ν) (k : κ) :
    get? (ks.map fun key => (key, v)) k = if k ∈ ks then some v else none := by
  induction ks with
  | nil => rfl
  | cons key ks ih =>
    by_cases h : key = k
    · simp [get?, h]
    · simp [get?, h, Ne.symm h, ih]

theorem putNew_of_mem (h : k ∈ keys table) : putNew table k v = table := by
  obtain ⟨v', hv'⟩ := mem_keys_iff.1 h
  rw [putNew, hv']

theorem putNew_of_not_mem (h : k ∉ keys table) : putNew table k v = table ++ [(k, v)] := by
  cases hget : get? table k with
  | some v' => exact absurd (mem_keys_iff.2 ⟨v', hget⟩) h
  | none => rw [putNew, hget, put_of_not_mem h]

theorem nodup_putNew (h : (keys table).Nodup) : (keys (putNew table k v)).Nodup := by
  by_cases hk : k ∈ keys table
  · rwa [putNew_of_mem hk]
  · rw [putNew, Option.eq_none_iff_forall_ne_some.2 fun v' hv' => hk (mem_keys_iff.2 ⟨v', hv'⟩)]
    exact nodup_put h

section Pairs

variable {pairs : List (κ × ν)}

theorem nodup_putAll (h : (keys table).Nodup) :
    (keys (pairs.foldl (fun table pair => put table pair.1 pair.2) table)).Nodup := by
  induction pairs generalizing table with
  | nil => exact h
  | cons pair rest ih => exact ih (nodup_put h)

theorem mem_keys_putAll :
    k ∈ keys (pairs.foldl (fun table pair => put table pair.1 pair.2) table) ↔
      k ∈ keys table ∨ k ∈ keys pairs := by
  induction pairs generalizing table with
  | nil => simp [keys]
  | cons pair rest ih =>
    rw [List.foldl_cons, ih, mem_keys_put, or_assoc]
    simp only [keys, List.map_cons, List.mem_cons]
    exact or_left_comm

theorem nodup_ofPairs : (keys (ofPairs pairs)).Nodup := nodup_putAll List.nodup_nil

theorem mem_keys_ofPairs : k ∈ keys (ofPairs pairs) ↔ k ∈ keys pairs := by
  rw [ofPairs, mem_keys_putAll]
  simp [keys]

theorem putAll_of_nodup (h : (keys (table ++ pairs)).Nodup) :
    pairs.foldl (fun table pair => put table pair.1 pair.2) table = table ++ pairs := by
  induction pairs generalizing table with
  | nil => simp
  | cons pair rest ih =>
    have hsplit : table ++ pair :: rest = table ++ [pair] ++ rest := by simp
    have hnot : pair.1 ∉ keys table := by
      rw [keys, List.map_append] at h
      exact fun hmem => (List.nodup_append.1 h).2.2 _ hmem _ List.mem_cons_self rfl
    rw [List.foldl_cons, put_of_not_mem hnot, ih (by rwa [← hsplit]), hsplit]

theorem ofPairs_of_nodup (h : (keys pairs).Nodup) : ofPairs pairs = pairs :=
  putAll_of_nodup (show (keys ([] ++ pairs)).Nodup from h)

theorem get?_putAll_of_not_mem (h : k ∉ keys pairs) :
    get? (pairs.foldl (fun table pair => put table pair.1 pair.2) table) k = get? table k := by
  induction pairs generalizing table with
  | nil => rfl
  | cons pair rest ih =>
    obtain ⟨hk, hrest⟩ := not_or.1 (mt List.mem_cons.2 h)
    rw [List.foldl_cons, ih hrest, get?_put, if_neg (Ne.symm hk)]

structure LastAt (pairs : List (κ × ν)) (k : κ) (i : Nat) (v : ν) : Prop where
  found : pairs[i]? = some (k, v)
  last : ∀ j pair, i < j → pairs[j]? = some pair → pair.1 ≠ k

omit [DecidableEq κ] in
theorem exists_lastAt {i : Nat} {v : ν} (h : pairs[i]? = some (k, v)) :
    ∃ j v', i ≤ j ∧ LastAt pairs k j v' := by
  by_cases hlater : ∃ j v', i < j ∧ pairs[j]? = some (k, v')
  · obtain ⟨j, v', hij, hj⟩ := hlater
    have hlength : j < pairs.length := (List.getElem?_eq_some_iff.1 hj).1
    obtain ⟨m, v'', hjm, hlast⟩ := exists_lastAt hj
    exact ⟨m, v'', by omega, hlast⟩
  · refine ⟨i, v, Nat.le_refl i, h, ?_⟩
    rintro j pair hij hj rfl
    exact hlater ⟨j, pair.2, hij, hj⟩
termination_by pairs.length - i

/-- Of the values of a key, the last one counts. -/
theorem LastAt.get?_ofPairs {i : Nat} (h : LastAt pairs k i v) : get? (ofPairs pairs) k = some v := by
  have hsplit : pairs = pairs.take i ++ (k, v) :: pairs.drop (i + 1) := by
    obtain ⟨hlength, hi⟩ := List.getElem?_eq_some_iff.1 h.found
    rw [← hi, List.getElem_cons_drop, List.take_append_drop]
  have hback : k ∉ keys (pairs.drop (i + 1)) := by
    intro hmem
    obtain ⟨pair, hpair, hk⟩ := List.mem_map.1 hmem
    obtain ⟨j, hj⟩ := List.mem_iff_getElem?.1 hpair
    rw [List.getElem?_drop] at hj
    exact h.last (i + 1 + j) pair (by omega) hj hk
  rw [hsplit, ofPairs, List.foldl_append, List.foldl_cons, get?_putAll_of_not_mem hback, get?_put,
    if_pos rfl]

end Pairs

end TradingHours.Table
