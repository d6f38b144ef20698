import TradingHours.Proofs.Disk.Reach
/-!
Where a file can be written. On a tree that refuses nothing for other reasons, a file is written
with the folders around it exactly if its path can be taken, no file stands where the path needs a
folder, and no folder stands where the file goes. Writing another file leaves it so, unless one of
the two files is in the way of the other.
-/
namespace TradingHours.Disk

variable {p q : Path} {home here place : Place} {d d' : Disk}

/-- The file of a path can be written: no call is refused, the path can be taken, no file stands
where it needs a folder, and no folder stands or is needed where its file goes. -/
structure Writable (home : Place) (p : Path) (d : Disk) : Prop where
  home_eq : d.home = home
  free : d.refusals = []
  takeable : p.Takeable
  way : ∀ place ∈ p.parent.places home, d.NoFile place
  own : p.placeFrom home ∉ p.parent.places home
  target : d.found? (p.placeFrom home) ≠ some .folder

theorem keeps_file {bytes : ByteArray} :
    Keeps (fun d => d.found? place = some (.file bytes)) (ensureFolders p) := by
  refine keeps_ensureFolders (fun _ _ _ h => h) fun d other h hnone => ?_
  have hnot : d.found? other ≠ some .folder := by simp [hnone]
  rw [found?_put (ne_nil_of_found? hnot), if_neg, h]
  rintro rfl
  rw [hnone] at h
  cases h

theorem writable_iff (hfree : d.refusals = []) (bytes : ByteArray) :
    Writable d.home p d ↔ ∃ d', Returns (do ensureFolders p.parent; write p bytes) d () d' := by
  constructor
  · intro h
    obtain ⟨d₁, hfolders⟩ := returns_ensureFolders hfree h.takeable.parent h.way
    have hleft := onlyAt_of_returns hfree hfolders
    have haround := folder_of_returns_ensureFolders hfolders
    have hclear : Clear d.home p d₁ := by
      refine ⟨hleft.home_eq, hleft.free, haround, _, locate_of_parent h.takeable haround, ?_⟩
      rw [hleft.home_eq, hleft.other _ h.own]
      exact h.target
    obtain ⟨d₂, hwrite⟩ := hclear.returns_write bytes
    exact ⟨d₂, returns_bind.2 ⟨_, d₁, hfolders, hwrite⟩⟩
  · rintro ⟨d', h⟩
    obtain ⟨_, d₁, hfolders, hwrite⟩ := returns_bind.1 h
    obtain ⟨here, d₂, hopen, -⟩ := returns_bind.1 hwrite
    have hleft := onlyAt_of_returns hfree hfolders
    obtain ⟨-, hmade⟩ := entryOf_folder_iff.1 (folder_of_returns_ensureFolders hfolders)
    obtain ⟨hloc, hnot, -⟩ := openEmpty_eq hopen
    obtain ⟨hnul, hlength, hwalk⟩ := locate_eq_ok_iff.1 hloc
    have hhere := placeFrom_of_locate hloc
    rw [hleft.home_eq] at hmade hhere
    subst hhere
    have hown : p.placeFrom d.home ∉ p.parent.places d.home := fun hmem => hnot (hmade _ hmem)
    refine ⟨rfl, hfree, ⟨hnul, hlength, short_of_walk hwalk⟩, ?_, hown, ?_⟩
    · intro place hplace bytes hfile
      have hkept := (keeps_file (p := p.parent)).of_returns hfile hfolders
      rw [hmade place hplace] at hkept
      cases hkept
    · rwa [← hleft.other _ hown]

/-- The file of a path stands where another path needs a folder, unless it cannot stand there. -/
structure Path.InWay (home : Place) (q p : Path) : Prop where
  needed : q.placeFrom home ∈ p.parent.places home
  own : q.placeFrom home ∉ q.parent.places home

theorem Path.not_inWay_of_parent_eq (h : p.parent = q.parent) : ¬ q.InWay home p := by
  rintro ⟨hneeded, hown⟩
  rw [h] at hneeded
  exact hown hneeded

namespace Writable

theorem put_folder (h : Writable home p d) (hne : place ≠ p.placeFrom home)
    (hnone : d.found? place = none) : Writable home p (d.put place .folder) := by
  have hnot : d.found? place ≠ some .folder := by simp [hnone]
  have hput := found?_put (d := d) (ne_nil_of_found? hnot) .folder
  refine ⟨h.home_eq, h.free, h.takeable, fun other hother bytes => ?_, h.own, ?_⟩
  · rw [hput]
    split
    · simp
    · exact h.way other hother bytes
  · rw [hput, if_neg hne]
    exact h.target

theorem put_file (h : Writable home p d) (hplace : place ∉ p.parent.places home)
    (hnot : d.found? place ≠ some .folder) (bytes : ByteArray) :
    Writable home p (d.put place (.file bytes)) := by
  have hput := found?_put (d := d) (ne_nil_of_found? hnot) (.file bytes)
  refine ⟨h.home_eq, h.free, h.takeable, fun other hother old => ?_, h.own, ?_⟩
  · rw [hput, if_neg]
    · exact h.way other hother old
    · rintro rfl
      exact hplace hother
  · rw [hput]
    split
    · simp
    · exact h.target

/-- The file that is kept open to grow is in no way in which it is not already. -/
theorem grow (h : Writable home p d) (bytes : ByteArray) : Writable home p (d.grow bytes) := by
  unfold Disk.grow
  split
  · exact h
  · split
    · next old hfile => exact h.put_file (fun hmem => h.way _ hmem old hfile) (by simp [hfile]) _
    · exact h

theorem outlastsRefusals : OutlastsRefusals (Writable home p) := by
  intro d rest hrest h
  rw [h.free, List.suffix_nil] at hrest
  exact ⟨h.home_eq, hrest, h.takeable, h.way, h.own, h.target⟩

/-- Writing another file leaves a path as it was, unless one file is in the way of the other. -/
theorem keeps_otherFile (hq : ¬ q.InWay home p) (hp : ¬ p.InWay home q) (bytes : ByteArray) :
    Keeps (Writable home p) (do ensureFolders q.parent; write q bytes) := by
  have hfolders : Leads (Writable home p) (ensureFolders q.parent) fun r d =>
      Writable home p d ∧ (r = .ok () → d.entryOf q.parent = .ok .folder) := by
    intro d hd
    refine ⟨keeps_ensureFolders_of_places outlastsRefusals (fun d place hplace h hnone => ?_) d hd,
      fun hr => folder_of_returns_ensureFolders (d := d) (Prod.ext hr rfl)⟩
    rw [h.home_eq] at hplace
    exact h.put_folder (fun heq => hp ⟨heq ▸ hplace, h.own⟩) hnone
  have hboth : OutlastsRefusals fun d =>
      Writable home p d ∧ ∀ place ∈ q.parent.places home, d.found? place = some .folder :=
    fun d rest hrest h => ⟨outlastsRefusals d rest hrest h.1, h.2⟩
  refine Leads.bind hfolders (fun _ d hd => ?_) fun _ _ hd => hd.1
  obtain ⟨-, hmade⟩ := entryOf_folder_iff.1 (hd.2 rfl)
  rw [hd.1.home_eq] at hmade
  refine (keeps_write hboth (fun d bytes h hnot => ?_) bytes d ⟨hd.1, hmade⟩).1
  have hown : q.placeFrom home ∉ q.parent.places home := by
    intro hmem
    rw [h.1.home_eq] at hnot
    exact hnot (h.2 _ hmem)
  refine ⟨h.1.put_file ?_ hnot bytes, fun place hplace =>
    foldersStay_put hnot _ _ (h.2 place hplace)⟩
  rw [h.1.home_eq]
  exact fun hmem => hq ⟨hmem, hown⟩

end Writable

end TradingHours.Disk
