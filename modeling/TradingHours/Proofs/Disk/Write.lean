import TradingHours.Proofs.Disk.Holds
/-!
What a write that was not refused leaves: the file of the path has the bytes that were written, and
the path still leads to it.
-/
namespace TradingHours.Disk

variable {p : Path} {here : Place} {bytes : ByteArray} {d d' : Disk}

theorem found?_put_self (hnot : d.found? here ≠ some .folder) (entry : Entry) :
    (d.put here entry).found? here = some entry := by
  rw [found?_put (ne_nil_of_found? hnot), if_pos rfl]

theorem locate_put (hloc : d.locate p = .ok here) (hnot : d.found? here ≠ some .folder)
    (entry : Entry) : (d.put here entry).locate p = .ok here :=
  locate_mono (d := d) rfl (foldersStay_put hnot entry) hloc

theorem of_returns_attempt {paths : List String} (h : Returns (attempt paths) d () d') :
    ∃ rest, d' = { d with refusals := rest } := by
  rw [Returns, attempt, exec_get_bind] at h
  split at h
  · cases h
    exact ⟨d.refusals, rfl⟩
  · next rest _ =>
    cases h
    exact ⟨rest, rfl⟩
  · cases h

theorem of_returns_place (h : Returns (place p) d here d') : d.locate p = .ok here ∧ d = d' := by
  rw [Returns, exec_place] at h
  cases hloc : d.locate p with
  | error fault => simp [hloc] at h
  | ok place =>
    rw [hloc] at h
    cases h
    exact ⟨rfl, rfl⟩

/-- A file is opened where no folder stands. -/
theorem openEmpty_eq (h : Returns (openEmpty p) d here d') :
    d.locate p = .ok here ∧ d.found? here ≠ some .folder ∧
      ∃ rest, d' = Disk.put { d with refusals := rest } here (.file .empty) := by
  obtain ⟨_, d₁, hattempt, h⟩ := returns_bind.1 h
  obtain ⟨there, d₂, hplace, h⟩ := returns_bind.1 h
  obtain ⟨rest, rfl⟩ := of_returns_attempt hattempt
  obtain ⟨hloc, rfl⟩ := of_returns_place hplace
  rw [Returns, exec_get_bind] at h
  split at h
  · cases h
  · next hnot =>
    cases h
    rw [locate_refusals] at hloc
    exact ⟨hloc, hnot, rest, rfl⟩

/-- An opened file is empty, and its path leads to it. -/
theorem of_returns_openEmpty (h : Returns (openEmpty p) d here d') :
    d'.locate p = .ok here ∧ d'.found? here = some (.file .empty) := by
  obtain ⟨hloc, hnot, rest, rfl⟩ := openEmpty_eq h
  rw [← locate_refusals rest] at hloc
  exact ⟨locate_put hloc hnot _, found?_put_self hnot _⟩

theorem entryOf_of_returns_fill (h : Returns (fill here bytes) d () d')
    (hloc : d.locate p = .ok here) (hnot : d.found? here ≠ some .folder) :
    d'.entryOf p = .ok (.file bytes) := by
  obtain ⟨_, d₁, hattempt, h⟩ := returns_bind.1 h
  obtain ⟨rest, rfl⟩ := of_returns_attempt hattempt
  have hloc' : Disk.locate { d with refusals := rest } p = .ok here :=
    locate_mono (d := d) rfl (fun _ hfolder => hfolder) hloc
  cases h
  exact entryOf_eq_ok_iff.2 ⟨here, locate_put hloc' hnot _, found?_put_self hnot _⟩

/-- What was written at a path stands there. -/
theorem entryOf_of_returns_write (h : Returns (write p bytes) d () d') :
    d'.entryOf p = .ok (.file bytes) := by
  obtain ⟨here, d₁, hopen, hfill⟩ := returns_bind.1 h
  obtain ⟨hloc, hempty⟩ := of_returns_openEmpty hopen
  have hnot : d₁.found? here ≠ some .folder := by simp [hempty]
  exact entryOf_of_returns_fill hfill hloc hnot

end TradingHours.Disk
