import TradingHours.Proofs.Disk.Granted
import TradingHours.Proofs.StateFile.RoundTrip
import TradingHours.Proofs.World.Holds
/-!
What loading a file of states gives: the states of its content, and none without a readable one.
-/
namespace TradingHours

namespace StateFile

open Disk (Path)

variable {p : Path} {home : Place} {content : Option ByteArray} {w w' : World} {states : States}

/-- The states that a content says; one that is no text says none. -/
def statesIn : Option ByteArray → States
  | none => []
  | some bytes =>
    match Text.decodeUtf8 bytes with
    | .ok text => read text
    | .error _ => []

theorem statesIn_cases (content : Option ByteArray) :
    statesIn content = [] ∨ ∃ text, statesIn content = read text := by
  unfold statesIn
  split
  · exact .inl rfl
  · split
    · next text _ => exact .inr ⟨text, rfl⟩
    · exact .inl rfl

theorem nodup_statesIn : (Table.keys (statesIn content)).Nodup := by
  obtain h | ⟨text, h⟩ := statesIn_cases content
  · rw [h]
    exact List.nodup_nil
  · rw [h]
    exact Table.nodup_ofPairs

theorem storable_of_mem_statesIn {key : String} (h : key ∈ Table.keys (statesIn content)) :
    Storable key := by
  obtain heq | ⟨text, heq⟩ := statesIn_cases content
  · rw [heq] at h
    cases h
  · rw [heq] at h
    exact storable_of_mem_read h

/-- A file that was saved says the states that were saved. -/
theorem statesIn_render (now : Instant) (hn : (Table.keys states).Nodup)
    (hs : ∀ key ∈ Table.keys states, Storable key) :
    statesIn (some (Text.encodeUtf8 (render now states))) = sorted states := by
  rw [statesIn, decodeUtf8_encodeUtf8]
  exact read_render now hn hs

theorem get?_sorted (hn : (Table.keys states).Nodup) (key : String) :
    (sorted states).get? key = states.get? key :=
  Table.get?_perm hn (List.mergeSort_perm _ _).symm

theorem get?_statesIn_render (now : Instant) (hn : (Table.keys states).Nodup)
    (hs : ∀ key ∈ Table.keys states, Storable key) (key : String) :
    (statesIn (some (Text.encodeUtf8 (render now states)))).get? key = states.get? key := by
  rw [statesIn_render now hn hs, get?_sorted hn]

/-- A file that can be looked at says its states; one that is no text says none. -/
theorem load_of_file (hg : w.disk.Grants 2) {bytes : ByteArray}
    (hfile : w.disk.entryOf p = .ok (.file bytes)) :
    ∃ w', Returns (load p) w (statesIn (some bytes)) w' := by
  obtain ⟨w₁, hexists, hdisk⟩ : ∃ w₁, Returns (Work.call (Disk.exists? p)) w true w₁ ∧
      w₁.disk = w.disk.afterCall := by
    refine ⟨{ w with disk := w.disk.afterCall }, ?_, rfl⟩
    rw [Returns, exec_call, Disk.exec_exists? hg, hfile]
    rfl
  obtain ⟨w₂, hread⟩ : ∃ w₂, Returns (Work.call (Disk.read p)) w₁ bytes w₂ := by
    have hg₁ : w₁.disk.Grants 1 := hdisk ▸ hg.afterCall
    refine ⟨{ w₁ with disk := w₁.disk.afterCall }, ?_⟩
    rw [Returns, exec_call, Disk.exec_read hg₁, hdisk, Disk.entryOf_afterCall, hfile]
    rfl
  have hresult : (exec (load p) w).1 = .ok (statesIn (some bytes)) := by
    rw [load, exec_bind_ok hexists]
    change (exec (tryCatch _ _) w₁).1 = _
    rw [exec_tryCatch, exec_bind_ok hread, statesIn]
    cases Text.decodeUtf8 bytes <;> rfl
  exact ⟨_, Prod.ext hresult rfl⟩

theorem load_cases (h : Returns (load p) w states w') : states = [] ∨ ∃ text, states = read text := by
  obtain ⟨there, w₁, -, h⟩ := returns_bind.1 h
  cases there with
  | false => exact .inl (returns_pure.1 h).1.symm
  | true =>
    rcases returns_tryCatch.1 h with h | ⟨failure, w₂, -, h⟩
    · obtain ⟨bytes, w₂, -, h⟩ := returns_bind.1 h
      split at h
      · exact .inr ⟨_, (returns_pure.1 h).1.symm⟩
      · exact absurd h not_returns_throw
    · split at h
      · obtain ⟨-, -, -, h⟩ := returns_bind.1 h
        exact .inl (returns_pure.1 h).1.symm
      · obtain ⟨-, -, -, h⟩ := returns_bind.1 h
        exact .inl (returns_pure.1 h).1.symm
      · exact absurd h not_returns_throw

theorem load_returns (hw : w.Holds p home content) (hg : w.disk.Grants 2)
    (hstates : Returns (load p) w states w') : states = statesIn content := by
  obtain ⟨there, w₁, hexists, h⟩ := returns_bind.1 hstates
  rw [Returns, exec_call, Disk.exec_exists? hg] at hexists
  have hnone : (∀ bytes, w.disk.entryOf p ≠ .ok (.file bytes)) → content = none := by
    intro hentry
    cases content with
    | none => rfl
    | some bytes => exact absurd (hw.entryOf_eq.2 rfl) (hentry bytes)
  cases hentry : w.disk.entryOf p with
  | error fault =>
    rw [hnone (by simp [hentry])]
    rw [hentry] at hexists
    dsimp only at hexists
    split at hexists
    · cases hexists
      exact (returns_pure.1 h).1.symm
    · cases hexists
  | ok entry =>
    rw [hentry] at hexists
    cases hexists
    cases entry with
    | folder =>
      have hread : exec (Work.call (Disk.read p)) { w with disk := w.disk.afterCall } = _ :=
        exec_call
      rw [Disk.exec_read hg.afterCall, Disk.entryOf_afterCall, hentry] at hread
      rw [hnone (by simp [hentry])]
      change exec (tryCatch _ _) _ = _ at h
      rw [exec_tryCatch, exec_bind_error hread] at h
      obtain ⟨-, -, -, h⟩ := returns_bind.1 h
      exact (returns_pure.1 h).1.symm
    | file bytes =>
      obtain ⟨w₂, hload⟩ := load_of_file hg hentry
      rw [hw.entryOf_eq.1 hentry]
      exact (hstates.unique hload).1

end StateFile

end TradingHours
