import TradingHours.Proofs.Disk.Write
import TradingHours.Proofs.StateFile.Save
/-!
What saving states leaves alone. Whatever it is refused, the file that it writes first is gone
afterwards, and no other file has changed than the state file, which changes only if saving
succeeds.

In between, what stood at a place is still known: the new file was opened where there was none.
-/
namespace TradingHours

namespace Disk

variable {p temporary : Path} {home place q : Place} {bytes : ByteArray}
  {content : Option ByteArray} {d : Disk}

/-- A new file waits at a place, where a path leads to it. A place had a content before that, and
still has it unless it is the same one. -/
structure Pending (home q : Place) (content : Option ByteArray) (temporary : Path) (place : Place)
    (d : Disk) : Prop where
  staged : ∃ bytes, Staged home place bytes d
  leads : d.locate temporary = .ok place
  before : content = if place = q then none else d.contentAt q
  aside : d.growing ≠ some q

theorem Spares.pending (h : Spares home q content d) (hloc : d.locate temporary = .ok place)
    (hnone : d.found? place = none) (rest : List (Option Cause)) :
    Pending home q content temporary place
      (Disk.put { d with refusals := rest } place (.file .empty)) := by
  have hnot : Disk.found? { d with refusals := rest } place ≠ some .folder := by
    change d.found? place ≠ _
    simp [hnone]
  refine ⟨⟨.empty, .of_openNew h.anchored hnone rest⟩, ?_, ?_, h.aside⟩
  · exact locate_put ((locate_refusals rest temporary).trans hloc) hnot _
  · split
    · next hq => rw [← h.content_eq, contentAt, ← hq, hnone]
    · next hq => rw [contentAt_put_of_ne hnot hq, (h.refusals rest).content_eq]

namespace Pending

variable (h : Pending home q content temporary place d)
include h

theorem refusals (rest : List (Option Cause)) :
    Pending home q content temporary place { d with refusals := rest } := by
  obtain ⟨old, hstaged⟩ := h.staged
  exact ⟨⟨old, hstaged.refusals rest⟩, (locate_refusals rest temporary).trans h.leads, h.before,
    h.aside⟩

theorem fill (rest : List (Option Cause)) (bytes : ByteArray) :
    Pending home q content temporary place
      (Disk.put { d with refusals := rest } place (.file bytes)) := by
  obtain ⟨old, hstaged⟩ := h.staged
  have hnot : Disk.found? { d with refusals := rest } place ≠ some .folder := by
    rw [(hstaged.refusals rest).found]
    simp
  refine ⟨⟨bytes, hstaged.fill rest bytes⟩, ?_, ?_, h.aside⟩
  · exact locate_put (h.refusals rest).leads hnot _
  · rw [h.before]
    split
    · rfl
    · next hq => exact (contentAt_put_of_ne hnot hq _).symm

theorem erase : Spares home q content (d.erase place) := by
  obtain ⟨old, hstaged⟩ := h.staged
  have hnot : d.found? place ≠ some .folder := by simp [hstaged.found]
  refine ⟨hstaged.anchored.erase hnot, ?_, fun hg => h.aside (growing_of_erase hg).1⟩
  rw [contentAt_erase hnot, ← h.before]

theorem move {m : Move} (hmove : moveOf d temporary p = .ok m)
    (hplace : temporary.placeFrom home = place) (hq : q ≠ p.placeFrom home) :
    Spares home q content (d.move m.source m.target m.entry) := by
  obtain ⟨old, hstaged⟩ := h.staged
  refine ⟨hstaged.anchored_move hmove hplace, ?_, fun hg => ?_⟩
  · rw [contentAt, hstaged.found?_move hmove hplace, if_neg (Ne.symm hq), h.before]
    by_cases hsame : place = q
    · rw [if_pos hsame, if_pos hsame]
    · rw [if_neg hsame, if_neg hsame, contentAt]
  · exact h.aside (hstaged.growing_move hmove hplace hg).2

end Pending

section Calls

theorem openNew_pending :
    Leads (Spares home q content) (openNew temporary) fun r d =>
      (∀ fault, r = .error fault → Spares home q content d) ∧ ∀ here, r = .ok here →
        temporary.placeFrom home = here ∧ Pending home q content temporary here d := by
  intro d hd
  obtain ⟨rest, ⟨fault, hexec⟩ | ⟨here, hloc, hnone, hexec⟩⟩ := openNew_cases temporary d
  · rw [hexec]
    exact ⟨fun _ _ => hd.refusals rest, nofun⟩
  · rw [hexec]
    refine ⟨nofun, ?_⟩
    rintro _ ⟨⟩
    exact ⟨by rw [← hd.anchored.home_eq, placeFrom_of_locate hloc], hd.pending hloc hnone rest⟩

theorem keeps_pending_fill :
    Keeps (Pending home q content temporary place) (fill place bytes) := by
  intro d hd
  obtain ⟨rest, ⟨fault, hexec⟩ | hexec⟩ := fill_cases place bytes d
  · rw [hexec]
    exact hd.refusals rest
  · rw [hexec]
    exact hd.fill rest bytes

theorem rename_pending (hplace : temporary.placeFrom home = place) :
    Leads (Pending home q content temporary place) (rename temporary p) fun r d =>
      (∀ fault, r = .error fault → Pending home q content temporary place d) ∧
        (r = .ok () → q ≠ p.placeFrom home → Spares home q content d) := by
  intro d hd
  obtain ⟨rest, ⟨fault, hexec⟩ | ⟨m, hmove, -, -, hexec⟩⟩ := rename_cases temporary p d
  · rw [hexec]
    exact ⟨fun _ _ => hd.refusals rest, nofun⟩
  · rw [hexec]
    exact ⟨nofun, fun _ hq => (hd.refusals rest).move hmove hplace hq⟩

theorem exec_unlinkIfThere (hloc : d.locate p = .ok place)
    (hfound : d.found? place = some (.file bytes)) :
    exec (unlinkIfThere p) d = (.ok (), d.erase place) := by
  have hentry : exec (entryAt p) d = (.ok (.file bytes), d) := by
    rw [exec_entryAt, entryOf_eq_ok_iff.2 ⟨place, hloc, hfound⟩]
  have hunlink : exec (unlink p) d = (.ok (), d.erase place) := by
    rw [unlink, exec_bind_ok hentry]
    change exec (Disk.place p >>= _) d = _
    rw [exec_bind_ok (a := place) (by rw [exec_place, hloc])]
    rfl
  rw [unlinkIfThere, exec_tryCatch, hunlink]

end Calls

end Disk

open Disk (Path)

variable {p temporary : Path} {home q : Place} {bytes : ByteArray} {content : Option ByteArray}
  {states : States}

namespace StateFile

/-- On success only the state file has changed, and on failure none has. -/
theorem replace_spares :
    Leads (Disk.Spares home q content) (replace p temporary bytes) fun r d =>
      (r = .ok () → q ≠ p.placeFrom home) → Disk.Spares home q content d := by
  refine Leads.bind Disk.Spares.about.keeps_ensureFolders (fun _ => ?_) fun _ _ hd _ => hd
  refine Leads.bind Disk.openNew_pending (fun place => ?_) fun fault _ hd _ => hd.1 fault rfl
  intro d hd
  obtain ⟨hplace, hpending⟩ := hd.2 place rfl
  have hbody : Leads (Disk.Pending home q content temporary place)
      (do
        Disk.fill place bytes
        Disk.rename temporary p) fun r d =>
          (∀ fault, r = .error fault → Disk.Pending home q content temporary place d) ∧
            (r = .ok () → q ≠ p.placeFrom home → Disk.Spares home q content d) :=
    Leads.bind Disk.keeps_pending_fill (fun _ => Disk.rename_pending hplace) fun _ _ hd =>
      ⟨fun _ _ => hd, nofun⟩
  refine Leads.tryCatch (R := fun r d => (r = .ok () → q ≠ p.placeFrom home) →
    Disk.Spares home q content d) hbody (fun _ _ hd hq => hd.2 rfl (hq rfl)) (fun fault => ?_) d
    hpending
  -- the refused call has left the new file where its path leads
  intro d hd _
  have hleft := hd.1 fault rfl
  obtain ⟨old, hstaged⟩ := hleft.staged
  rw [exec_bind_ok (Disk.exec_unlinkIfThere hleft.leads hstaged.found)]
  exact hleft.erase

theorem keeps_replaceCall (hq : q ≠ p.placeFrom home) :
    Keeps (fun w => Disk.Spares home q content w.disk) (Work.call (replace p temporary bytes)) :=
  keeps_call (replace_spares.imp (fun _ hd => hd) fun _ _ hd => hd fun _ => hq)

theorem save_spares :
    Leads (fun w => Disk.Spares home q content w.disk) (save p states) fun r w =>
      r ≠ .ok () → Disk.Spares home q content w.disk := by
  have hcall : ∀ temporary bytes, Leads (fun w => Disk.Spares home q content w.disk)
      (Work.call (replace p temporary bytes)) fun r w =>
        r ≠ .ok () → Disk.Spares home q content w.disk := by
    intro temporary bytes w hw hr
    rw [exec_call] at hr ⊢
    refine replace_spares w.disk hw fun hok => ?_
    rw [hok] at hr
    exact absurd rfl hr
  refine Leads.bind Keeps.get (fun w => ?_) fun _ _ hw _ => hw
  refine Leads.bind (Q := fun r w => r ≠ .ok () → Disk.Spares home q content w.disk) ?_
    (fun _ w _ hne => absurd rfl hne) fun _ _ hw _ => hw nofun
  refine Leads.tryCatch (hcall _ _) (fun _ _ _ hne => absurd rfl hne) fun failure w hw _ => ?_
  have hspares := hw nofun
  split <;> exact hspares

end StateFile

end TradingHours
