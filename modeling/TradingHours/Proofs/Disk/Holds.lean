import TradingHours.Disk.Call
import TradingHours.Proofs.Disk.Place
import TradingHours.Proofs.Effect
/-!
What the calls leave alone: a file at a path, with what it contains, under every call that works at
other places, whether the call is refused or not.
-/
namespace TradingHours.Disk

def contentAt (d : Disk) (place : Place) : Option ByteArray :=
  match d.found? place with
  | some (.file bytes) => some bytes
  | _ => none

/-- The file of a path has a content, or there is none. The path leads to it, and the file that is
kept open to grow is there and is another one. -/
structure Holds (p : Path) (home : Place) (content : Option ByteArray) (d : Disk) : Prop where
  home_eq : d.home = home
  content_eq : d.contentAt (p.placeFrom home) = content
  reached : content ≠ none → d.locate p = .ok (p.placeFrom home)
  grows : ∀ place, d.growing = some place → place ≠ p.placeFrom home ∧ d.found? place ≠ none

structure Anchored (home : Place) (d : Disk) : Prop where
  home_eq : d.home = home
  stands : ∀ place, d.growing = some place → d.found? place ≠ none

/-- The file at a place has a content, or there is none, and the file that is kept open to grow is
on the disk and stands elsewhere. -/
structure Spares (home place : Place) (content : Option ByteArray) (d : Disk) : Prop where
  anchored : Anchored home d
  content_eq : d.contentAt place = content
  aside : d.growing ≠ some place

theorem Anchored.put {home place : Place} {d : Disk} (h : Anchored home d)
    (hnot : d.found? place ≠ some .folder) (entry : Entry) : Anchored home (d.put place entry) := by
  refine ⟨h.home_eq, fun g hg => ?_⟩
  rw [found?_put (ne_nil_of_found? hnot)]
  split
  · simp
  · exact h.stands g hg

theorem Anchored.erase {home place : Place} {d : Disk} (h : Anchored home d)
    (hnot : d.found? place ≠ some .folder) : Anchored home (d.erase place) := by
  refine ⟨h.home_eq, fun g hg => ?_⟩
  obtain ⟨hg, hother⟩ := growing_of_erase hg
  rw [found?_erase (ne_nil_of_found? hnot), if_neg (Ne.symm hother)]
  exact h.stands g hg

section Content

variable {q place : Place} {d : Disk}

theorem contentAt_put_of_ne (hnot : d.found? q ≠ some .folder) (hplace : q ≠ place)
    (entry : Entry) : (d.put q entry).contentAt place = d.contentAt place := by
  rw [contentAt, found?_put (ne_nil_of_found? hnot), if_neg hplace, contentAt]

theorem contentAt_put_folder (hnone : d.found? q = none) (place : Place) :
    (d.put q .folder).contentAt place = d.contentAt place := by
  have hnot : d.found? q ≠ some .folder := by simp [hnone]
  by_cases hplace : q = place
  · subst hplace
    rw [contentAt, found?_put (ne_nil_of_found? hnot), if_pos rfl, contentAt, hnone]
  · exact contentAt_put_of_ne hnot hplace _

theorem contentAt_erase (hnot : d.found? q ≠ some .folder) (place : Place) :
    (d.erase q).contentAt place = if q = place then none else d.contentAt place := by
  rw [contentAt, found?_erase (ne_nil_of_found? hnot)]
  by_cases hq : q = place
  · rw [if_pos hq, if_pos hq]
  · rw [if_neg hq, if_neg hq, contentAt]

end Content

namespace Spares

variable {home place q : Place} {content : Option ByteArray} {d : Disk}

theorem put_folder (h : Spares home place content d) (hnone : d.found? q = none) :
    Spares home place content (d.put q .folder) where
  anchored := h.anchored.put (by simp [hnone]) _
  content_eq := (contentAt_put_folder hnone place).trans h.content_eq
  aside := h.aside

theorem put_file (h : Spares home place content d) (hplace : q ≠ place)
    (hnot : d.found? q ≠ some .folder) (bytes : ByteArray) :
    Spares home place content (d.put q (.file bytes)) where
  anchored := h.anchored.put hnot _
  content_eq := (contentAt_put_of_ne hnot hplace _).trans h.content_eq
  aside := h.aside

theorem erase (h : Spares home place content d) (hplace : q ≠ place)
    (hnot : d.found? q ≠ some .folder) : Spares home place content (d.erase q) where
  anchored := h.anchored.erase hnot
  content_eq := by rw [contentAt_erase hnot, if_neg hplace, h.content_eq]
  aside := fun hg => h.aside (growing_of_erase hg).1

end Spares

theorem holds_iff {p : Path} {home : Place} {content : Option ByteArray} {d : Disk} :
    Holds p home content d ↔ Spares home (p.placeFrom home) content d ∧
      (content ≠ none → d.locate p = .ok (p.placeFrom home)) := by
  constructor
  · intro h
    refine ⟨⟨⟨h.home_eq, fun g hg => (h.grows g hg).2⟩, h.content_eq, fun hg => ?_⟩, h.reached⟩
    exact (h.grows _ hg).1 rfl
  · rintro ⟨h, hreached⟩
    refine ⟨h.anchored.home_eq, h.content_eq, hreached, fun g hg => ⟨?_, h.anchored.stands g hg⟩⟩
    rintro rfl
    exact h.aside hg

namespace Holds

variable {p : Path} {home place : Place} {content : Option ByteArray} {d d' : Disk}

theorem spares (h : Holds p home content d) : Spares home (p.placeFrom home) content d :=
  (holds_iff.1 h).1

theorem anchored (h : Holds p home content d) : Anchored home d := h.spares.anchored

theorem of_spares (h : Holds p home content d) (hs : Spares home (p.placeFrom home) content d')
    (hf : FoldersStay d d') : Holds p home content d' :=
  holds_iff.2 ⟨hs, fun hne => locate_mono (hs.anchored.home_eq.trans h.home_eq.symm) hf
    (h.reached hne)⟩

theorem erase (h : Holds p home content d) (hplace : place ≠ p.placeFrom home)
    (hnot : d.found? place ≠ some .folder) : Holds p home content (d.erase place) :=
  h.of_spares (h.spares.erase hplace hnot) (foldersStay_erase hnot)

end Holds

section Calls

variable {P : Disk → Prop} {p q : Path} {home place : Place} {content : Option ByteArray} {d : Disk}

theorem exec_place : exec (Disk.place q) d = (d.locate q, d) := by
  rw [Disk.place, exec_get_bind, exec_ofExcept]

def entryOf (d : Disk) (q : Path) : Except Fault Entry := do
  match d.found? (← d.locate q) with
  | some entry => pure entry
  | none => throw (.refused .notFound [q.text])

theorem exec_entryAt : exec (entryAt q) d = (d.entryOf q, d) := by
  rw [entryAt, entryOf]
  cases hloc : d.locate q with
  | error fault => exact exec_bind_error (by rw [exec_place, hloc])
  | ok here =>
    rw [exec_bind_ok (a := here) (by rw [exec_place, hloc]), exec_get_bind]
    change _ = (match d.found? here with | some entry => _ | none => _, d)
    cases d.found? here <;> rfl

theorem entryOf_eq_ok_iff {entry : Entry} :
    d.entryOf q = .ok entry ↔ ∃ here, d.locate q = .ok here ∧ d.found? here = some entry := by
  refine ok_bind_iff.trans (exists_congr fun here => and_congr_right fun _ => ?_)
  cases d.found? here <;> simp [throw, throwThe, MonadExceptOf.throw, pure, Except.pure]

theorem Holds.entryOf_eq (h : Holds p home content d) {bytes : ByteArray} :
    d.entryOf p = .ok (.file bytes) ↔ content = some bytes := by
  rw [entryOf_eq_ok_iff]
  constructor
  · rintro ⟨here, hloc, hfound⟩
    have hhere : p.placeFrom home = here := by rw [← h.home_eq, placeFrom_of_locate hloc]
    rw [← h.content_eq, contentAt, hhere, hfound]
  · intro hc
    refine ⟨_, h.reached (by simp [hc]), ?_⟩
    have hcontent := h.content_eq
    rw [hc, contentAt] at hcontent
    split at hcontent
    · next hfound =>
      cases hcontent
      exact hfound
    · cases hcontent

/-- A condition that stays while the refusals to come are used up. -/
def OutlastsRefusals (P : Disk → Prop) : Prop :=
  ∀ d rest, rest <:+ d.refusals → P d → P { d with refusals := rest }

structure Bears (home : Place) (K : Place → Prop) (P : Disk → Prop) : Prop where
  home_eq : ∀ d, P d → d.home = home
  refusals : OutlastsRefusals P
  file : ∀ d place bytes, P d → ¬ K place → d.found? place ≠ some .folder →
    P (d.put place (.file bytes))
  grows : ∀ d place, P d → d.growing = some place → ¬ K place

structure About (home : Place) (K : Place → Prop) (P : Disk → Prop) : Prop extends
    Bears home K P where
  folder : ∀ d place, P d → d.found? place = none → P (d.put place .folder)

theorem Anchored.refusals (h : Anchored home d) (rest : List (Option Cause)) :
    Anchored home { d with refusals := rest } := ⟨h.home_eq, h.stands⟩

theorem Spares.refusals (h : Spares home place content d) (rest : List (Option Cause)) :
    Spares home place content { d with refusals := rest } :=
  ⟨h.anchored.refusals rest, h.content_eq, h.aside⟩

theorem Anchored.outlastsRefusals : OutlastsRefusals (Anchored home) :=
  fun _ rest _ h => h.refusals rest

theorem Spares.about : About home (· = place) (Spares home place content) where
  home_eq := fun _ h => h.anchored.home_eq
  refusals := fun _ rest _ h => h.refusals rest
  folder := fun _ _ h hnone => h.put_folder hnone
  file := fun _ _ _ h hq hnot => h.put_file hq hnot _
  grows := by
    rintro d _ h hg rfl
    exact h.aside hg

theorem Holds.about : About home (· = p.placeFrom home) (Holds p home content) where
  home_eq := fun _ h => h.home_eq
  refusals := fun _ rest _ h => h.of_spares (h.spares.refusals rest) fun _ hf => hf
  folder := fun _ _ h hnone =>
    h.of_spares (h.spares.put_folder hnone) (foldersStay_put (by simp [hnone]) _)
  file := fun _ _ _ h hq hnot => h.of_spares (h.spares.put_file hq hnot _) (foldersStay_put hnot _)
  grows := fun _ _ h hg => (h.grows _ hg).1

section Questions

variable (hP : OutlastsRefusals P)
include hP

theorem keeps_attempt (paths : List String) : Keeps P (attempt paths) := by
  intro d hd
  rw [attempt, exec_get_bind]
  split
  · exact hd
  · next rest hr => exact hP d rest (hr ▸ List.suffix_cons none rest) hd
  · next cause rest hr => exact hP d rest (hr ▸ List.suffix_cons (some cause) rest) hd

theorem keeps_lookUp : Keeps P (lookUp q) := by
  refine (keeps_attempt hP _).bind fun _ d hd => ?_
  rwa [exec_entryAt]

theorem keeps_exists? : Keeps P (exists? q) := by
  refine ((keeps_lookUp hP).bind fun _ => .pure true).tryCatch fun fault => ?_
  split
  · exact .pure false
  · exact .throw fault

theorem keeps_isFolder? : Keeps P (isFolder? q) := by
  refine ((keeps_lookUp hP).bind fun entry => ?_).tryCatch fun fault => ?_
  · split
    · exact .pure true
    · exact .pure false
  · split
    · exact .pure false
    · exact .throw fault

theorem keeps_read : Keeps P (read q) := by
  refine (keeps_lookUp hP).bind fun entry => ?_
  split
  · exact .pure _
  · exact .throw _

end Questions

section Folders

variable (hP : OutlastsRefusals P)
include hP

theorem keeps_makeFolder (hfolder : ∀ d, P d → d.found? (q.placeFrom d.home) = none →
    P (d.put (q.placeFrom d.home) .folder)) : Keeps P (makeFolder q) := by
  refine (keeps_attempt hP _).bind fun _ d hd => ?_
  cases hloc : d.locate q with
  | error fault =>
    rw [exec_bind_error (e := fault) (by rw [exec_place, hloc])]
    exact hd
  | ok here =>
    rw [exec_bind_ok (a := here) (by rw [exec_place, hloc]), exec_get_bind]
    split
    · exact hd
    · next hnone =>
      have hnew := hfolder d hd
      rw [placeFrom_of_locate hloc] at hnew
      exact hnew hnone

theorem keeps_folderThere (fault : Fault) :
    Keeps P (do unless ← isFolder? q do throw fault) := by
  refine (keeps_isFolder? hP).bind fun there => ?_
  split
  · exact .pure ()
  · exact .throw fault

theorem keeps_ensureFolder (hfolder : ∀ d, P d → d.found? (q.placeFrom d.home) = none →
    P (d.put (q.placeFrom d.home) .folder)) : Keeps P (ensureFolder q) := by
  refine (keeps_makeFolder hP hfolder).tryCatch fun fault => ?_
  split
  · exact .throw _
  · exact keeps_folderThere hP _
  · exact .throw _

/-- Folders are made at the places that the path leads through and nowhere else. -/
theorem keeps_ensureFolders_of_places (hfolder : ∀ d, ∀ place ∈ q.places d.home, P d →
    d.found? place = none → P (d.put place .folder)) : Keeps P (ensureFolders q) := by
  induction q using ensureFolders.induct with
  | case1 q ih =>
    have hlast : ∀ d, P d → d.found? (q.placeFrom d.home) = none →
        P (d.put (q.placeFrom d.home) .folder) :=
      fun d => hfolder d _ (q.placeFrom_mem_places d.home)
    rw [ensureFolders]
    refine (keeps_makeFolder hP hlast).tryCatch fun fault => ?_
    split
    · split
      · exact .throw _
      · next hne =>
        have hparent := ih hne fun d place hplace =>
          hfolder d place (Path.mem_places_of_parent hplace)
        exact hparent.bind fun _ => keeps_ensureFolder hP hlast
    · exact keeps_folderThere hP _
    · exact .throw _

theorem keeps_ensureFolders
    (hfolder : ∀ d place, P d → d.found? place = none → P (d.put place .folder)) :
    Keeps P (ensureFolders q) :=
  keeps_ensureFolders_of_places hP fun d place _ => hfolder d place

end Folders

section Files

variable {K : Place → Prop}

theorem About.keeps_ensureFolders (hP : About home K P) : Keeps P (ensureFolders q) :=
  Disk.keeps_ensureFolders hP.refusals hP.folder

section Write

variable (hP : OutlastsRefusals P) (hfile : ∀ d bytes, P d →
  d.found? (q.placeFrom d.home) ≠ some .folder → P (d.put (q.placeFrom d.home) (.file bytes)))
include hP hfile

theorem openEmpty_leads :
    Leads P (openEmpty q) fun r d =>
      P d ∧ ∀ here, r = .ok here → here = q.placeFrom d.home ∧ d.found? here ≠ some .folder := by
  refine Leads.bind (keeps_attempt hP _) (fun _ d hd => ?_) fun _ _ hd => ⟨hd, nofun⟩
  cases hloc : d.locate q with
  | error fault =>
    rw [exec_bind_error (e := fault) (by rw [exec_place, hloc])]
    exact ⟨hd, nofun⟩
  | ok here =>
    have hhere := placeFrom_of_locate hloc
    rw [exec_bind_ok (a := here) (by rw [exec_place, hloc]), exec_get_bind]
    split
    · exact ⟨hd, nofun⟩
    · next hnot =>
      have hempty := hfile d .empty hd
      rw [hhere] at hempty
      refine ⟨hempty hnot, ?_⟩
      rintro _ ⟨⟩
      refine ⟨hhere.symm, ?_⟩
      change (d.put here _).found? here ≠ _
      rw [found?_put (ne_nil_of_found? hnot), if_pos rfl]
      simp

theorem fill_leads (bytes : ByteArray) :
    Leads (fun d => P d ∧ place = q.placeFrom d.home ∧ d.found? place ≠ some .folder)
      (fill place bytes) fun _ d => P d := by
  have hboth : OutlastsRefusals fun d =>
      P d ∧ place = q.placeFrom d.home ∧ d.found? place ≠ some .folder :=
    fun d rest hrest hd => ⟨hP d rest hrest hd.1, hd.2⟩
  refine Leads.bind (keeps_attempt hboth _) (fun _ d hd => ?_) fun _ _ hd => hd.1
  obtain ⟨hd, rfl, hnot⟩ := hd
  exact hfile d bytes hd hnot

theorem keeps_write (bytes : ByteArray) : Keeps P (write q bytes) :=
  (openEmpty_leads hP hfile).bind
    (fun here d hd => fill_leads hP hfile bytes d ⟨hd.1, hd.2 here rfl⟩) fun _ _ hd => hd.1

end Write

section Bears

variable (hP : Bears home K P)
include hP

theorem Bears.grow (bytes : ByteArray) (hd : P d) : P (d.grow bytes) := by
  unfold Disk.grow
  split
  · exact hd
  · next place hg =>
    split
    · next old hfile => exact hP.file d place _ hd (hP.grows d place hd hg) (by simp [hfile])
    · exact hd

theorem Bears.keeps_write (hq : ¬ K (q.placeFrom home)) (bytes : ByteArray) :
    Keeps P (write q bytes) := by
  refine Disk.keeps_write hP.refusals (fun d bytes hd hnot => ?_) bytes
  rw [← hP.home_eq d hd] at hq
  exact hP.file d _ bytes hd hq hnot

end Bears

theorem keeps_unlink (hhome : ∀ d, P d → d.home = home)
    (herase : ∀ d, P d → d.found? (q.placeFrom home) ≠ some .folder →
      P (d.erase (q.placeFrom home))) :
    Keeps P (unlink q) := by
  intro d hd
  cases hentry : d.entryOf q with
  | error fault =>
    rw [unlink, exec_bind_error (e := fault) (by rw [exec_entryAt, hentry])]
    exact hd
  | ok entry =>
    rw [unlink, exec_bind_ok (a := entry) (by rw [exec_entryAt, hentry])]
    cases entry with
    | folder => exact hd
    | file bytes =>
      obtain ⟨here, hloc, hfound⟩ := entryOf_eq_ok_iff.1 hentry
      have hhere : q.placeFrom home = here := by rw [← hhome d hd, placeFrom_of_locate hloc]
      rw [exec_bind_ok (a := here) (by rw [exec_place, hloc])]
      rw [hhere] at herase
      exact herase d hd (by simp [hfound])

end Files

end Calls

section Aside

variable {home q : Place}

structure Aside (home q : Place) (d : Disk) : Prop where
  anchored : Anchored home d
  aside : d.growing ≠ some q

theorem Anchored.about : About home (fun _ => False) (Anchored home) where
  home_eq := fun _ h => h.home_eq
  refusals := Anchored.outlastsRefusals
  folder := fun _ _ h hnone => h.put (by simp [hnone]) _
  file := fun _ _ _ h _ hnot => h.put hnot _
  grows := fun _ _ _ _ => id

theorem Aside.about : About home (fun _ => False) (Aside home q) where
  home_eq := fun _ h => h.anchored.home_eq
  refusals := fun _ rest _ h => ⟨h.anchored.refusals rest, h.aside⟩
  folder := fun _ _ h hnone => ⟨h.anchored.put (by simp [hnone]) _, h.aside⟩
  file := fun _ _ _ h _ hnot => ⟨h.anchored.put hnot _, h.aside⟩
  grows := fun _ _ _ _ => id

theorem Aside.erase {place : Place} {d : Disk} (h : Aside home q d)
    (hnot : d.found? place ≠ some .folder) : Aside home q (d.erase place) :=
  ⟨h.anchored.erase hnot, fun hg => h.aside (growing_of_erase hg).1⟩

theorem Aside.spares {d : Disk} (h : Aside home q d) : Spares home q (d.contentAt q) d :=
  ⟨h.anchored, rfl, h.aside⟩

theorem Aside.holds {p : Path} {bytes : ByteArray} {d : Disk} (h : Aside home (p.placeFrom home) d)
    (hentry : d.entryOf p = .ok (.file bytes)) : Holds p home (some bytes) d := by
  obtain ⟨here, hloc, hfound⟩ := entryOf_eq_ok_iff.1 hentry
  have hhere := placeFrom_of_locate hloc
  rw [h.anchored.home_eq] at hhere
  subst hhere
  have hcontent : d.contentAt (p.placeFrom home) = some bytes := by rw [contentAt, hfound]
  exact holds_iff.2 ⟨⟨h.anchored, hcontent, h.aside⟩, fun _ => hloc⟩

end Aside

end TradingHours.Disk
