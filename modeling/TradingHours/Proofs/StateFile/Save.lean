import Mathlib.Data.List.Basic
import TradingHours.Proofs.StateFile.Load
/-!
What saving states does where it succeeds: the file holds their text, and the path leads to it.
-/
namespace TradingHours

namespace Disk

variable {p source target : Path} {home place : Place} {bytes : ByteArray} {d : Disk}

theorem parts_of_endsInName (h : endsInName p = true) : p.parts = p.parts.dropLast ++ [p.name] := by
  rw [endsInName, Bool.and_eq_true, decide_eq_true_eq] at h
  obtain ⟨name, hname⟩ := Option.ne_none_iff_exists'.1 h.1
  rw [Path.name, hname, Option.getD_some]
  exact (List.dropLast_append_getLast? name hname).symm

theorem folderAround_eq_ok {around : Place} (h : d.folderAround p = .ok around) :
    d.walk (d.start p) p.parts.dropLast = .ok around := by
  obtain ⟨around', hwalk, h⟩ := ok_bind_iff.1 h
  split at h
  · cases h
    exact hwalk
  · cases h
  · cases h

theorem walk_parts {around : Place} (hends : endsInName p = true)
    (haround : d.folderAround p = .ok around) :
    d.walk (d.start p) p.parts = d.walk around [p.name] := by
  rw [parts_of_endsInName hends, walk_append, folderAround_eq_ok haround]
  rfl

/-- A move takes the entry at the one path to the place that the other path leads to. -/
theorem moveOf_eq_ok {move : Move} (h : moveOf d source target = .ok move) :
    move.source = source.placeFrom d.home ∧ move.target = target.placeFrom d.home ∧
      d.found? move.source = some move.entry ∧ d.found? move.target ≠ some .folder ∧
      d.walk (d.start target) target.parts = .ok move.target := by
  obtain ⟨sourceFolder, hsource, h⟩ := ok_bind_iff.1 h
  obtain ⟨targetFolder, htarget, h⟩ := ok_bind_iff.1 h
  split at h
  · cases h
  · next hends =>
    simp only [Bool.or_eq_true, Bool.not_eq_true', not_or, Bool.not_eq_false] at hends
    obtain ⟨here, hhere, h⟩ := ok_bind_iff.1 h
    split at h
    · cases h
    · next entry hentry =>
      obtain ⟨there, hthere, h⟩ := ok_bind_iff.1 h
      split at h
      · cases h
      · next hnot =>
        cases h
        rw [← walk_parts hends.1 hsource] at hhere
        rw [← walk_parts hends.2 htarget] at hthere
        exact ⟨walk_eq hhere, walk_eq hthere, hentry, hnot, hthere⟩

structure Staged (home place : Place) (bytes : ByteArray) (d : Disk) : Prop where
  anchored : Anchored home d
  found : d.found? place = some (.file bytes)
  grows : ∀ other, d.growing = some other → other ≠ place

section Move

variable {m : Move} (h : Staged home place bytes d) (hmove : moveOf d source p = .ok m)
  (hplace : source.placeFrom home = place)
include h hmove hplace

theorem Staged.move_eq :
    m = ⟨.file bytes, place, p.placeFrom home⟩ ∧ d.found? (p.placeFrom home) ≠ some .folder ∧
      d.walk (d.start p) p.parts = .ok (p.placeFrom home) := by
  obtain ⟨hsource, htarget, hentry, hnot, hwalk⟩ := moveOf_eq_ok hmove
  rw [h.anchored.home_eq, hplace] at hsource
  rw [h.anchored.home_eq] at htarget
  rw [hsource, h.found, Option.some_inj] at hentry
  rw [htarget] at hnot hwalk
  exact ⟨by rw [hentry, ← hsource, ← htarget], hnot, hwalk⟩

theorem Staged.found?_move (q : Place) :
    (d.move m.source m.target m.entry).found? q =
      if p.placeFrom home = q then some (.file bytes)
      else if place = q then none else d.found? q := by
  obtain ⟨rfl, hnot, -⟩ := h.move_eq hmove hplace
  have hsourceNot : d.found? place ≠ some .folder := by simp [h.found]
  unfold Disk.move
  by_cases hsame : place = p.placeFrom home
  · -- nothing keeps the new file from bearing the name of the state file itself
    rw [if_pos hsame, ← hsame]
    split
    · next hq => rw [← hq, h.found]
    · rfl
  · rw [if_neg hsame]
    change (Disk.put _ _ _).found? q = _
    rw [found?_put (ne_nil_of_found? hnot), found?_erase (ne_nil_of_found? hnot),
      found?_erase (ne_nil_of_found? hsourceNot)]
    split <;> rfl

/-- The file that a move replaces has no place any more, so it may have been the one that is kept
open. -/
theorem Staged.growing_move {g : Place}
    (hg : (d.move m.source m.target m.entry).growing = some g) :
    g ≠ p.placeFrom home ∧ d.growing = some g := by
  obtain ⟨rfl, -, -⟩ := h.move_eq hmove hplace
  unfold Disk.move at hg
  split at hg
  · next hsame =>
    change place = p.placeFrom home at hsame
    rw [← hsame]
    exact ⟨h.grows g hg, hg⟩
  · dsimp only at hg
    split at hg
    · next hgrowing => exact absurd rfl (h.grows place hgrowing)
    · obtain ⟨hg, htarget⟩ := growing_of_erase hg
      exact ⟨htarget, (growing_of_erase hg).1⟩

theorem Staged.anchored_move :
    Anchored home (d.move m.source m.target m.entry) := by
  constructor
  · unfold Disk.move
    split
    · exact h.anchored.home_eq
    · exact h.anchored.home_eq
  · intro g hg
    obtain ⟨htarget, hg⟩ := h.growing_move hmove hplace hg
    rw [h.found?_move hmove hplace, if_neg (Ne.symm htarget), if_neg (Ne.symm (h.grows g hg))]
    exact h.anchored.stands g hg

theorem Staged.move (hnul : p.hasNul = false) (hlong : tooLong p = false) :
    Holds p home (some bytes) (d.move m.source m.target m.entry) := by
  have hanchored := h.anchored_move hmove hplace
  refine holds_iff.2 ⟨⟨hanchored, ?_, fun hg => ?_⟩, fun _ => ?_⟩
  · rw [contentAt, h.found?_move hmove hplace, if_pos rfl]
  · exact (h.growing_move hmove hplace hg).1 rfl
  · obtain ⟨-, hnot, hwalk⟩ := h.move_eq hmove hplace
    refine locate_mono (hanchored.home_eq.trans h.anchored.home_eq.symm) (fun q hq => ?_)
      (locate_eq_ok_iff.2 ⟨hnul, hlong, hwalk⟩)
    rw [h.found?_move hmove hplace, if_neg, if_neg]
    · exact hq
    · rintro rfl
      rw [h.found] at hq
      cases hq
    · rintro rfl
      exact hnot hq

end Move

section Calls

theorem attempt_cases (paths : List String) (d : Disk) :
    ∃ r rest, exec (attempt paths) d = (r, { d with refusals := rest }) := by
  rw [attempt, exec_get_bind]
  split
  · exact ⟨.ok (), d.refusals, rfl⟩
  · exact ⟨.ok (), _, rfl⟩
  · exact ⟨.error _, _, rfl⟩

/-- A new file is opened where there is nothing, or nothing is done. -/
theorem openNew_cases (p : Path) (d : Disk) : ∃ rest,
    (∃ fault, exec (openNew p) d = (.error fault, { d with refusals := rest })) ∨
      ∃ here, d.locate p = .ok here ∧ d.found? here = none ∧
        exec (openNew p) d =
          (.ok here, Disk.put { d with refusals := rest } here (.file .empty)) := by
  obtain ⟨r, rest, hattempt⟩ := attempt_cases [p.text] d
  refine ⟨rest, ?_⟩
  cases r with
  | error fault => exact .inl ⟨fault, exec_bind_error hattempt⟩
  | ok _ =>
    rw [openNew, exec_bind_ok hattempt]
    cases hloc : d.locate p with
    | error fault =>
      exact .inl ⟨fault, exec_bind_error (by rw [exec_place, locate_refusals, hloc])⟩
    | ok here =>
      rw [exec_bind_ok (a := here) (by rw [exec_place, locate_refusals, hloc]), exec_get_bind]
      split
      · exact .inl ⟨_, rfl⟩
      · next hnone => exact .inr ⟨here, rfl, hnone, rfl⟩

/-- A file is filled, or nothing is done. -/
theorem fill_cases (place : Place) (bytes : ByteArray) (d : Disk) : ∃ rest,
    (∃ fault, exec (fill place bytes) d = (.error fault, { d with refusals := rest })) ∨
      exec (fill place bytes) d =
        (.ok (), Disk.put { d with refusals := rest } place (.file bytes)) := by
  obtain ⟨r, rest, hattempt⟩ := attempt_cases [] d
  refine ⟨rest, ?_⟩
  cases r with
  | error fault => exact .inl ⟨fault, exec_bind_error hattempt⟩
  | ok _ => exact .inr (by rw [fill, exec_bind_ok hattempt, exec_modify])

/-- A file is moved, or nothing is done. -/
theorem rename_cases (source p : Path) (d : Disk) : ∃ rest,
    (∃ fault, exec (rename source p) d = (.error fault, { d with refusals := rest })) ∨
      ∃ move, moveOf { d with refusals := rest } source p = .ok move ∧ p.hasNul = false ∧
        tooLong p = false ∧ exec (rename source p) d =
          (.ok (), Disk.move { d with refusals := rest } move.source move.target move.entry) := by
  obtain ⟨r, rest, hattempt⟩ := attempt_cases [source.text, p.text] d
  refine ⟨rest, ?_⟩
  cases r with
  | error fault => exact .inl ⟨fault, exec_bind_error hattempt⟩
  | ok _ =>
    rw [rename, exec_bind_ok hattempt, exec_get_bind]
    split
    · exact .inl ⟨_, rfl⟩
    · next hnul =>
      split
      · exact .inl ⟨_, rfl⟩
      · next hlong =>
        simp only [Bool.or_eq_true, not_or, Bool.not_eq_true] at hnul hlong
        cases hmove : moveOf { d with refusals := rest } source p with
        | error cause => exact .inl ⟨_, rfl⟩
        | ok move => exact .inr ⟨move, rfl, hnul.2, hlong.2, rfl⟩

theorem Staged.refusals (h : Staged home place bytes d) (rest : List (Option Cause)) :
    Staged home place bytes { d with refusals := rest } :=
  ⟨h.anchored.refusals rest, h.found, h.grows⟩

theorem Staged.of_openNew (hd : Anchored home d) (hnone : d.found? place = none)
    (rest : List (Option Cause)) :
    Staged home place .empty (Disk.put { d with refusals := rest } place (.file .empty)) := by
  have hnot : d.found? place ≠ some .folder := by simp [hnone]
  refine ⟨Anchored.put (hd.refusals rest) hnot _, ?_, ?_⟩
  · rw [found?_put (ne_nil_of_found? hnot), if_pos rfl]
  · rintro g hg rfl
    exact hd.stands g hg hnone

theorem Staged.fill {old : ByteArray} (h : Staged home place old d)
    (rest : List (Option Cause)) (bytes : ByteArray) :
    Staged home place bytes (Disk.put { d with refusals := rest } place (.file bytes)) := by
  have hnot : d.found? place ≠ some .folder := by simp [h.found]
  refine ⟨Anchored.put (h.refusals rest).anchored hnot _, ?_, h.grows⟩
  rw [found?_put (ne_nil_of_found? hnot), if_pos rfl]

theorem openNew_leads :
    Leads (Anchored home) (openNew source) fun r d =>
      ∀ here, r = .ok here → here = source.placeFrom home ∧ Staged home here .empty d := by
  intro d hd here hok
  obtain ⟨rest, ⟨fault, hexec⟩ | ⟨there, hloc, hnone, hexec⟩⟩ := openNew_cases source d
  · rw [hexec] at hok
    cases hok
  · rw [hexec] at hok ⊢
    cases hok
    exact ⟨by rw [← hd.home_eq, placeFrom_of_locate hloc], .of_openNew hd hnone rest⟩

theorem fill_staged (old : ByteArray) :
    Leads (Staged home place old) (fill place bytes) fun r d =>
      r = .ok () → Staged home place bytes d := by
  intro d hd hok
  obtain ⟨rest, ⟨fault, hexec⟩ | hexec⟩ := fill_cases place bytes d
  · rw [hexec] at hok
    cases hok
  · rw [hexec]
    exact hd.fill rest bytes

theorem rename_staged (hplace : source.placeFrom home = place) :
    Leads (Staged home place bytes) (rename source p) fun r d =>
      r = .ok () → Holds p home (some bytes) d := by
  intro d hd hok
  obtain ⟨rest, ⟨fault, hexec⟩ | ⟨move, hmove, hnul, hlong, hexec⟩⟩ := rename_cases source p d
  · rw [hexec] at hok
    cases hok
  · rw [hexec]
    exact (hd.refusals rest).move hmove hplace hnul hlong

end Calls

end Disk

namespace StateFile

open Disk (Path)

variable {p temporary : Path} {home : Place} {bytes : ByteArray} {w w' : World} {states : States}

theorem replace_leads :
    Leads (Disk.Anchored home) (replace p temporary bytes) fun r d =>
      r = .ok () → d.Holds p home (some bytes) := by
  refine Leads.bind (Disk.keeps_ensureFolders Disk.Anchored.outlastsRefusals fun d place hd hnone =>
    hd.put (by simp [hnone]) _) (fun _ => ?_) fun _ _ _ => nofun
  refine Leads.bind Disk.openNew_leads (fun place => ?_) fun _ _ _ => nofun
  refine Leads.tryCatch (Q := fun r d => r = .ok () → d.Holds p home (some bytes)) ?_
    (fun _ _ hd => hd) fun fault => ?_
  · intro d hd
    obtain ⟨hplace, hstaged⟩ := hd place rfl
    have hfill : Leads (Disk.Staged home place .empty) (Disk.fill place bytes) fun r d =>
        r = .ok () → Disk.Staged home place bytes d := Disk.fill_staged .empty
    have hbody : Leads (Disk.Staged home place .empty)
        (do
          Disk.fill place bytes
          Disk.rename temporary p) fun r d => r = .ok () → d.Holds p home (some bytes) :=
      hfill.bind (fun _ => (Disk.rename_staged hplace.symm).imp (fun _ h => h rfl) fun _ _ h => h)
        fun _ _ _ => nofun
    exact hbody d hstaged
  · intro d _
    rw [exec_bind]
    split
    · exact nofun
    · exact nofun

theorem save_returns (hw : w.disk.Anchored home) (h : Returns (save p states) w () w') :
    w'.Holds p home (some (Text.encodeUtf8 (render w.now states))) := by
  obtain ⟨_, _, hget, h⟩ := returns_bind.1 h
  obtain ⟨rfl, rfl⟩ := returns_get.1 hget
  obtain ⟨_, w₁, hreplace, h⟩ := returns_bind.1 h
  have hcall := (returns_tryCatch.1 hreplace).resolve_right ?_
  · obtain ⟨hok, hdisk⟩ := returns_call hcall
    refine Keeps.of_returns (World.Holds.keeps_note _) ?_ h
    rw [World.Holds, hdisk]
    exact replace_leads _ hw hok
  · rintro ⟨failure, w₂, -, hthrow⟩
    split at hthrow <;> exact not_returns_throw hthrow

end StateFile

end TradingHours
