import Mathlib.Data.List.Nodup
import TradingHours.Engine
import TradingHours.Proofs.Table
/-!
What changes do to states: every market that was resolved comes out with its state, and no
other market is touched.
-/
namespace TradingHours.Engine

open Schedule (held)

variable {previous states : States} {now : Instant} {changes : List Journal.Change} {k : String}

theorem apply_cons (change : Journal.Change) :
    apply states (change :: changes) =
      apply (states.put change.marketId change.after) changes := rfl

theorem apply_eq_putAll (states : States) (changes : List Journal.Change) :
    apply states changes =
      (changes.map fun change => (change.marketId, change.after)).foldl
        (fun table pair => table.put pair.1 pair.2) states := by
  rw [List.foldl_map, apply]

theorem nodup_apply (h : (Table.keys states).Nodup) : (Table.keys (apply states changes)).Nodup := by
  rw [apply_eq_putAll]
  exact Table.nodup_putAll h

theorem mem_keys_apply :
    k ∈ Table.keys (apply states changes) ↔
      k ∈ Table.keys states ∨ ∃ change ∈ changes, change.marketId = k := by
  rw [apply_eq_putAll, Table.mem_keys_putAll]
  simp [Table.keys]

theorem get?_apply_of_not_mem (h : k ∉ changes.map (·.marketId)) :
    (apply states changes).get? k = states.get? k := by
  rw [apply_eq_putAll]
  apply Table.get?_putAll_of_not_mem
  rwa [Table.keys, List.map_map]

theorem marketId_of_changeOf? {r : Resolution} {change : Journal.Change}
    (h : changeOf? previous now r = some change) :
    change.marketId = r.marketId ∧ change.after = r.state := by
  unfold changeOf? at h
  dsimp only at h
  split at h
  · cases h
  · cases h
    exact ⟨rfl, rfl⟩

theorem changeOf?_eq_none_iff {r : Resolution} :
    changeOf? previous now r = none ↔ r.state = held (previous.get? r.marketId) := by
  simp [changeOf?]

theorem exists_split_of_nodup {α : Type} {f : α → String} {l : List α} (hn : (l.map f).Nodup)
    {a : α} (ha : a ∈ l) :
    ∃ before after, l = before ++ a :: after ∧ f a ∉ before.map f ∧ f a ∉ after.map f := by
  obtain ⟨before, after, rfl⟩ := List.append_of_mem ha
  rw [List.map_append, List.map_cons, List.nodup_middle, List.nodup_cons, List.mem_append,
    not_or] at hn
  exact ⟨before, after, rfl, hn.1⟩

theorem after_ne_held {r : Resolution} {change : Journal.Change}
    (h : changeOf? previous now r = some change) :
    change.after ≠ held (previous.get? change.marketId) := by
  obtain ⟨hid, hstate⟩ := marketId_of_changeOf? h
  rw [hid, hstate]
  intro hheld
  rw [changeOf?_eq_none_iff.2 hheld] at h
  cases h

theorem get?_apply_of_mem {state : Bool} (hmem : k ∈ changes.map (·.marketId))
    (hall : ∀ change ∈ changes, change.marketId = k → change.after = state) :
    (apply states changes).get? k = some state := by
  induction changes generalizing states with
  | nil => cases hmem
  | cons change rest ih =>
    rw [apply_cons]
    by_cases hrest : k ∈ rest.map (·.marketId)
    · exact ih hrest fun other hother => hall other (List.mem_cons_of_mem change hother)
    · have hid : change.marketId = k := ((List.mem_cons.1 hmem).resolve_right hrest).symm
      rw [get?_apply_of_not_mem hrest, Table.get?_put, if_pos hid,
        hall change List.mem_cons_self hid]

section Resolutions

variable {resolutions : List Resolution} {r : Resolution}

theorem not_mem_changes (h : ∀ r ∈ resolutions, r.marketId = k → r.state = held (previous.get? k)) :
    k ∉ (resolutions.filterMap (changeOf? previous now)).map (·.marketId) := by
  intro hmem
  obtain ⟨change, hchange, rfl⟩ := List.mem_map.1 hmem
  obtain ⟨r, hr, hof⟩ := List.mem_filterMap.1 hchange
  obtain ⟨hid, hstate⟩ := marketId_of_changeOf? hof
  exact after_ne_held hof (hstate.trans (h r hr hid.symm))

/-- Changes are made against the states before all of them, so two of one market agree. -/
theorem get?_apply_of_change {change : Journal.Change}
    (h : change ∈ resolutions.filterMap (changeOf? previous now)) :
    (apply states (resolutions.filterMap (changeOf? previous now))).get? change.marketId =
      some change.after := by
  have hturned : ∀ other ∈ resolutions.filterMap (changeOf? previous now),
      other.after = !held (previous.get? other.marketId) := by
    intro other hother
    obtain ⟨r, -, hof⟩ := List.mem_filterMap.1 hother
    exact Bool.eq_not.2 (after_ne_held hof)
  refine get?_apply_of_mem (List.mem_map_of_mem h) fun other hother hid => ?_
  rw [hturned other hother, hid, ← hturned change h]

theorem held_get?_apply (hr : r ∈ resolutions)
    (halike : ∀ other ∈ resolutions, other.marketId = r.marketId → other.state = r.state) :
    held ((apply previous (resolutions.filterMap (changeOf? previous now))).get? r.marketId) =
      r.state := by
  cases hchange : changeOf? previous now r with
  | none =>
    have hheld : r.state = held (previous.get? r.marketId) := changeOf?_eq_none_iff.1 hchange
    rw [get?_apply_of_not_mem, hheld]
    exact not_mem_changes fun other hother hid => (halike other hother hid).trans hheld
  | some change =>
    obtain ⟨hid, hstate⟩ := marketId_of_changeOf? hchange
    rw [← hid, get?_apply_of_change (List.mem_filterMap.2 ⟨r, hr, hchange⟩), hstate]
    rfl

end Resolutions

end TradingHours.Engine
