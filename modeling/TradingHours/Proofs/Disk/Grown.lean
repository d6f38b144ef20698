import TradingHours.Proofs.World.Holds
/-!
A disk that has grown out of an earlier one as far as a file is concerned: other files were written
and folders made, and the file has its bytes, with those of the open log behind them if it is the
log. This bears a log that goes to the file itself, as `Spares` does not.
-/
namespace TradingHours.Disk

variable {p q : Path} {home place here : Place} {log : Option Place} {d old : Disk}

structure Rooted (home : Place) (log : Option Place) (d : Disk) : Prop where
  home_eq : d.home = home
  growing_eq : d.growing = log

/-- A disk has grown out of an old one beside the file at a place, to which at most the open log has
put something. -/
structure GrownFrom (place : Place) (old d : Disk) : Prop extends
    Rooted old.home old.growing d where
  folders : FoldersStay old d
  content : ∃ tail, (old.growing ≠ some place → tail = .empty) ∧
    d.contentAt place = (old.contentAt place).map (· ++ tail)

theorem rooted_self (d : Disk) : Rooted d.home d.growing d := ⟨rfl, rfl⟩

theorem Rooted.about : About home (fun _ => False) (Rooted home log) where
  home_eq := fun _ h => h.home_eq
  refusals := fun _ _ _ h => ⟨h.home_eq, h.growing_eq⟩
  folder := fun _ _ h _ => ⟨h.home_eq, h.growing_eq⟩
  file := fun _ _ _ h _ _ => ⟨h.home_eq, h.growing_eq⟩
  grows := fun _ _ _ _ => id

namespace GrownFrom

theorem self (place : Place) (d : Disk) : GrownFrom place d d where
  toRooted := rooted_self d
  folders := fun _ h => h
  content := ⟨.empty, fun _ => rfl, by simp⟩

theorem outlastsRefusals : OutlastsRefusals (GrownFrom place old) :=
  fun _ _ _ h => ⟨⟨h.home_eq, h.growing_eq⟩, h.folders, h.content⟩

theorem put_folder (h : GrownFrom place old d) (hnone : d.found? here = none) :
    GrownFrom place old (d.put here .folder) where
  toRooted := ⟨h.home_eq, h.growing_eq⟩
  folders := fun other hother => foldersStay_put (by simp [hnone]) _ other (h.folders other hother)
  content := by
    rw [contentAt_put_folder hnone]
    exact h.content

theorem put_file (h : GrownFrom place old d) (hplace : here ≠ place)
    (hnot : d.found? here ≠ some .folder) (bytes : ByteArray) :
    GrownFrom place old (d.put here (.file bytes)) where
  toRooted := ⟨h.home_eq, h.growing_eq⟩
  folders := fun other hother => foldersStay_put hnot _ other (h.folders other hother)
  content := by
    rw [contentAt_put_of_ne hnot hplace]
    exact h.content

theorem grow (h : GrownFrom place old d) (bytes : ByteArray) :
    GrownFrom place old (d.grow bytes) := by
  unfold Disk.grow
  split
  · exact h
  · next here hlog =>
    split
    · next before hfile =>
      have hnot : d.found? here ≠ some .folder := by simp [hfile]
      by_cases hplace : here = place
      · -- the file is the log, and the line goes behind what it has
        subst hplace
        obtain ⟨tail, -, htail⟩ := h.content
        have hbefore : d.contentAt here = some before := by rw [contentAt, hfile]
        obtain ⟨first, hfirst, hsum⟩ := Option.map_eq_some_iff.1 (htail.symm.trans hbefore)
        refine ⟨⟨h.home_eq, h.growing_eq⟩,
          fun other hother => foldersStay_put hnot _ other (h.folders other hother),
          tail ++ bytes, fun hne => absurd (h.growing_eq.symm.trans hlog) hne, ?_⟩
        rw [contentAt, found?_put (ne_nil_of_found? hnot), if_pos rfl, hfirst, Option.map_some,
          ← hsum, ByteArray.append_assoc]
      · exact h.put_file hplace hnot _
    · exact h

theorem lasting : Lasting fun w => GrownFrom place old w.disk :=
  lasting_of_grow outlastsRefusals fun _ bytes h => h.grow bytes

theorem keeps_fileCall (hq : q.placeFrom old.home ≠ place) (lines : List String) :
    Keeps (fun w => GrownFrom place old w.disk) (Work.call (Output.fileCall q lines)) := by
  refine keeps_call ((keeps_ensureFolders outlastsRefusals fun _ _ h => h.put_folder).bind fun _ =>
    keeps_write outlastsRefusals (fun d bytes h hnot => h.put_file ?_ hnot bytes) _)
  rwa [h.home_eq]

/-- What was written at a path is still there. -/
theorem entryOf (h : GrownFrom (p.placeFrom old.home) old d) {bytes : ByteArray}
    (hold : old.entryOf p = .ok (.file bytes)) :
    ∃ tail, (old.growing ≠ some (p.placeFrom old.home) → tail = .empty) ∧
      d.entryOf p = .ok (.file (bytes ++ tail)) := by
  obtain ⟨here, hloc, hfile⟩ := entryOf_eq_ok_iff.1 hold
  obtain rfl := placeFrom_of_locate hloc
  obtain ⟨tail, hlog, htail⟩ := h.content
  have hbefore : old.contentAt (p.placeFrom old.home) = some bytes := by rw [contentAt, hfile]
  rw [hbefore, Option.map_some] at htail
  refine ⟨tail, hlog, entryOf_eq_ok_iff.2
    ⟨p.placeFrom old.home, locate_mono h.home_eq h.folders hloc, ?_⟩⟩
  rw [contentAt] at htail
  split at htail
  · next hfound => rw [hfound, Option.some_inj.1 htail]
  · cases htail

end GrownFrom

end TradingHours.Disk
