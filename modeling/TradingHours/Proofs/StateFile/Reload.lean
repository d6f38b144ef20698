import TradingHours.Proofs.Market
import TradingHours.Proofs.StateFile.Save
/-!
States that are saved and loaded again. They come back as they were exactly if every market has a
name that a line can hold, and the markets of any file whatsoever have such names.

The one assumption on the machine is that the calls of the load are not refused for reasons outside
the tree of files; a load that is refused says that no state was ever recorded.
-/
namespace TradingHours.StateFile

open Disk (Path)

variable {p : Path} {home : Place} {w w' : World} {states loaded : States}

/-- A world right after a save that succeeded, from any disk on which the file that is kept open
stands. -/
structure Saved (p : Path) (states : States) (w' : World) : Prop where
  saves : ∃ home w, w.disk.Anchored home ∧ Returns (save p states) w () w'
  grants : w'.disk.Grants 2

def Reloads (p : Path) (w : World) (states : States) : Prop :=
  ∃ loaded w', Returns (load p) w loaded w' ∧ ∀ key, loaded.get? key = states.get? key

theorem load_of_holds {bytes : ByteArray} (hg : w.disk.Grants 2)
    (hw : w.Holds p home (some bytes)) :
    ∃ w', Returns (load p) w (statesIn (some bytes)) w' :=
  load_of_file hg (hw.entryOf_eq.2 rfl)

theorem reloads_iff (hn : (Table.keys states).Nodup) (hs : Saved p states w) :
    Reloads p w states ↔ ∀ key ∈ Table.keys states, Storable key := by
  obtain ⟨home, before, hbefore, hsave⟩ := hs.saves
  obtain ⟨after, hload⟩ := load_of_holds hs.grants (save_returns hbefore hsave)
  constructor
  · rintro ⟨loaded, w', hloaded, hsame⟩ key hkey
    rw [← (hload.unique hloaded).1] at hsame
    -- whatever else was saved, a name that is loaded is one that a line can hold
    obtain ⟨state, hstate⟩ := Table.mem_keys_iff.1 hkey
    rw [← hsame] at hstate
    exact storable_of_mem_statesIn (Table.mem_keys_iff.2 ⟨state, hstate⟩)
  · intro hstorable
    exact ⟨_, after, hload, get?_statesIn_render _ hn hstorable⟩

theorem nodup_of_load (h : Returns (load p) w loaded w') : (Table.keys loaded).Nodup := by
  obtain rfl | ⟨text, rfl⟩ := load_cases h
  · exact List.nodup_nil
  · exact Table.nodup_ofPairs

theorem storable_of_load (h : Returns (load p) w loaded w') :
    ∀ key ∈ Table.keys loaded, Storable key := by
  obtain rfl | ⟨text, rfl⟩ := load_cases h
  · exact nofun
  · exact fun key hkey => storable_of_mem_read hkey

/-- Any file whatsoever can be loaded, and what was loaded comes back from wherever it is saved. -/
theorem reloads_iff_storable (p : Path) :
    (∀ states w, (Table.keys states).Nodup → Saved p states w →
      (Reloads p w states ↔ ∀ key ∈ Table.keys states, Storable key)) ∧
    (∀ w bytes, w.disk.Grants 2 → w.disk.entryOf p = .ok (.file bytes) →
      ∃ loaded w', Returns (load p) w loaded w') ∧
    ∀ w loaded w', Returns (load p) w loaded w' →
      (Table.keys loaded).Nodup ∧ (∀ key ∈ Table.keys loaded, Storable key) ∧
        ∀ q w₂, Saved q loaded w₂ → Reloads q w₂ loaded := by
  refine ⟨fun states w hn hs => reloads_iff hn hs, ?_, ?_⟩
  · intro w bytes hg hfile
    obtain ⟨w', hload⟩ := load_of_file hg hfile
    exact ⟨_, w', hload⟩
  · intro w loaded w' hload
    have hn : (Table.keys loaded).Nodup := nodup_of_load hload
    have hstorable : ∀ key ∈ Table.keys loaded, Storable key := storable_of_load hload
    exact ⟨hn, hstorable, fun q w₂ hs => (reloads_iff hn hs).2 hstorable⟩

def blankWorld : World where
  disk := { entries := [], home := [], growing := none, refusals := [] }
  now := .ofDay ⟨738000, by decide⟩ (.ofMinutes 720) (some 0)
  mark := "t"

theorem anchored_blankWorld : blankWorld.disk.Anchored [] := ⟨rfl, nofun⟩

def savedWorld (p : Path) (states : States) : World := (exec (save p states) blankWorld).2

theorem saved_savedWorld (hsave : (exec (save p states) blankWorld).1.isOk = true)
    (hg : (savedWorld p states).disk.Grants 2) : Saved p states (savedWorld p states) := by
  obtain ⟨⟨⟩, h⟩ := returns_of_isOk hsave
  exact ⟨⟨[], blankWorld, anchored_blankWorld, h⟩, hg⟩

theorem reloads_exchange :
    Reloads (.ofText "states") (savedWorld (.ofText "states") [("NYSE", true)]) [("NYSE", true)] ∧
      ¬ Reloads (.ofText "states") (savedWorld (.ofText "states") [("a=b", true)])
        [("a=b", true)] ∧
      ∃ loaded w', Returns (load (.ofText "states"))
        (savedWorld (.ofText "states") [("a=b", true)]) loaded w' ∧
          ∀ key ∈ Table.keys loaded, Storable key := by
  have hbare : Saved (.ofText "states") [("NYSE", true)] _ :=
    saved_savedWorld (by decide +kernel) (by decide +kernel)
  have hsign : Saved (.ofText "states") [("a=b", true)] _ :=
    saved_savedWorld (by decide +kernel) (by decide +kernel)
  obtain ⟨hreloads, hloads, hloaded⟩ := reloads_iff_storable (.ofText "states")
  refine ⟨(hreloads _ _ (by decide) hbare).2 (List.forall_mem_singleton.2 ?_), ?_, ?_⟩
  · constructor
    · decide
    · constructor
      · rintro _ ⟨⟩
        decide
      · rintro _ ⟨⟩
        decide
    · rintro _ ⟨⟩
      decide
    · decide
    · decide
  · intro h
    have hstorable : Storable "a=b" := (hreloads _ _ (by decide) hsign).1 h "a=b" (by decide)
    exact hstorable.bare (by decide)
  · obtain ⟨home, before, hbefore, hsave⟩ := hsign.saves
    obtain ⟨loaded, w', hload⟩ :=
      hloads _ _ hsign.grants ((save_returns hbefore hsave).entryOf_eq.2 rfl)
    exact ⟨loaded, w', hload, (hloaded _ _ _ hload).2.1⟩

section Allowlist

variable {lines : List String} {markets : List Market}

/-- An allowlist is read by other rules than a file of states: an identifier may have an equals
sign, or an exclamation mark in front. -/
theorem reloads_allowlist_iff (hlines : (Market.ofLines lines).answer = .ok markets)
    (hn : (Table.keys states).Nodup)
    (hkeys : ∀ key, key ∈ Table.keys states ↔ ∃ market ∈ markets, market.id = key)
    (hs : Saved p states w) :
    Reloads p w states ↔ ∀ market ∈ markets,
      '=' ∉ market.id.toList ∧ market.id.toList.head? ≠ some '!' := by
  have hstorable : (∀ key ∈ Table.keys states, Storable key) ↔
      ∀ market ∈ markets, Storable market.id := by
    constructor
    · exact fun h market hm => h _ ((hkeys _).2 ⟨market, hm, rfl⟩)
    · intro h key hkey
      obtain ⟨market, hm, rfl⟩ := (hkeys key).1 hkey
      exact h market hm
  rw [reloads_iff hn hs, hstorable]
  exact forall₂_congr fun market hm => Market.storable_iff hlines hm

theorem reloads_allowlist_exchanges :
    Reloads (.ofText "states") (savedWorld (.ofText "states") [("NYSE", true), ("LSE", false)])
      [("NYSE", true), ("LSE", false)] := by
  have hlines : (Market.ofLines ["NYSE K I", "", "LSE L J"]).answer =
      .ok [⟨"NYSE", "K", "I"⟩, ⟨"LSE", "L", "J"⟩] :=
    (Market.ofLines_answers _).answer_eq.trans (congrArg Except.ok (by decide +kernel))
  have hsaved : Saved (.ofText "states") [("NYSE", true), ("LSE", false)] _ :=
    saved_savedWorld (by decide +kernel) (by decide +kernel)
  refine (reloads_allowlist_iff hlines (by decide) (fun key => ?_) hsaved).2 (by decide)
  simp [Table.keys, eq_comm]

/-- The line of the second market says that the first one is closed. -/
theorem allowlist_strays :
    (Market.ofLines ["a K I", "a=b L J"]).answer = .ok [⟨"a", "K", "I"⟩, ⟨"a=b", "L", "J"⟩] ∧
      Saved (.ofText "states") [("a", true), ("a=b", true)]
        (savedWorld (.ofText "states") [("a", true), ("a=b", true)]) ∧
      (∃ w', Returns (load (.ofText "states"))
        (savedWorld (.ofText "states") [("a", true), ("a=b", true)]) [("a", false)] w') ∧
      ¬ Reloads (.ofText "states") (savedWorld (.ofText "states") [("a", true), ("a=b", true)])
        [("a", true), ("a=b", true)] := by
  have hsave : (exec (save (.ofText "states") [("a", true), ("a=b", true)]) blankWorld).1.isOk =
      true := by decide +kernel
  have hsaved : Saved (.ofText "states") [("a", true), ("a=b", true)] _ :=
    saved_savedWorld hsave (by decide +kernel)
  obtain ⟨w', hload⟩ : ∃ w', Returns (load (.ofText "states"))
      (savedWorld (.ofText "states") [("a", true), ("a=b", true)]) [("a", false)] w' := by
    obtain ⟨⟨⟩, hreturns⟩ := returns_of_isOk hsave
    have hholds := save_returns anchored_blankWorld hreturns
    obtain ⟨w', hload⟩ := load_of_holds hsaved.grants hholds
    have hread : statesIn (some (Text.encodeUtf8 (render blankWorld.now
        [("a", true), ("a=b", true)]))) = [("a", false)] := by
      rw [statesIn, decodeUtf8_encodeUtf8, render, sorted, List.mergeSort_of_pairwise (by decide)]
      decide +kernel
    rw [hread] at hload
    exact ⟨w', hload⟩
  refine ⟨?_, hsaved, ⟨w', hload⟩, ?_⟩
  · exact (Market.ofLines_answers _).answer_eq.trans (congrArg Except.ok (by decide +kernel))
  · rintro ⟨loaded, w'', hloaded, hsame⟩
    rw [← (hload.unique hloaded).1] at hsame
    exact absurd (hsame "a") (by decide)

end Allowlist

end TradingHours.StateFile
