import TradingHours.Proofs.Disk.Granted
import TradingHours.Proofs.Disk.Takeable
/-!
Where walks end, and which folders can be made. A walk goes from folder to folder; the folders of a
path are made, on a tree that refuses nothing for other reasons, unless a file stands where one of
them goes.
-/
namespace TradingHours.Disk

variable {p q : Path} {home here there place : Place} {names : List String} {d d' : Disk}

def NoFile (d : Disk) (place : Place) : Prop := ∀ bytes, d.found? place ≠ some (.file bytes)

section Walk

theorem walk_cons_of_folder (hfolder : d.found? here = some .folder) (name : String) :
    d.walk here (name :: names) =
      if Short name then d.walk (here.step name) names else .error .nameTooLong := by
  rw [walk, hfolder, Place.step]
  by_cases hup : name = ".."
  · simp [Short, hup]
  · by_cases hlong : maxNameLength < name.utf8ByteSize
    · simp [Short, hup, hlong, Nat.not_le.2 hlong]
    · simp [Short, hup, hlong, Nat.le_of_not_lt hlong]

theorem folder_of_walk_cons {name : String} (h : d.walk here (name :: names) = .ok there) :
    d.found? here = some .folder := by
  rw [walk] at h
  split at h
  · cases h
  · cases h
  · assumption

theorem short_of_walk (h : d.walk here names = .ok there) : ∀ name ∈ names, Short name := by
  induction names generalizing here with
  | nil => simp
  | cons name names ih =>
    rw [walk_cons_of_folder (folder_of_walk_cons h)] at h
    split at h
    · next hshort => exact List.forall_mem_cons.2 ⟨hshort, ih h⟩
    · cases h

/-- A walk from folder to folder. -/
theorem walk_folders_iff :
    d.walk here names = .ok there ∧ d.found? there = some .folder ↔
      there = names.foldl Place.step here ∧ (∀ name ∈ names, Short name) ∧
        ∀ place ∈ names.scanl Place.step here, d.found? place = some .folder := by
  induction names generalizing here with
  | nil =>
    rw [walk, List.scanl_nil, List.foldl_nil]
    constructor
    · rintro ⟨⟨⟩, hfolder⟩
      exact ⟨rfl, by simp, by simpa using hfolder⟩
    · rintro ⟨rfl, -, hfolders⟩
      exact ⟨rfl, hfolders _ (by simp)⟩
  | cons name names ih =>
    rw [List.scanl_cons, List.foldl_cons, List.forall_mem_cons, List.forall_mem_cons]
    by_cases hhere : d.found? here = some .folder
    · rw [walk_cons_of_folder hhere]
      by_cases hshort : Short name
      · rw [if_pos hshort, ih]
        simp only [hshort, hhere, true_and]
      · simp [hshort]
    · exact iff_of_false (fun h => hhere (folder_of_walk_cons h.1)) fun h => hhere h.2.2.1

/-- A walk on which no file stands in the way ends, unless something is not there. -/
theorem walk_of_noFile (hnames : ∀ name ∈ names, Short name)
    (hfree : ∀ place ∈ names.scanl Place.step here, d.NoFile place) :
    d.walk here names = .ok (names.foldl Place.step here) ∨
      names ≠ [] ∧ d.walk here names = .error .notFound := by
  induction names generalizing here with
  | nil => exact .inl rfl
  | cons name names ih =>
    rw [List.scanl_cons, List.forall_mem_cons] at hfree
    rw [List.forall_mem_cons] at hnames
    cases hhere : d.found? here with
    | none => exact .inr ⟨by simp, by rw [walk, hhere]⟩
    | some entry =>
      cases entry with
      | file bytes => exact absurd hhere (hfree.1 bytes)
      | folder =>
        rw [walk_cons_of_folder hhere, if_pos hnames.1, List.foldl_cons]
        exact (ih hnames.2 hfree.2).imp_right fun h => ⟨by simp, h.2⟩

end Walk

section Folders

theorem entryOf_folder_iff : d.entryOf p = .ok .folder ↔
    p.Takeable ∧ ∀ place ∈ p.places d.home, d.found? place = some .folder := by
  rw [entryOf_eq_ok_iff]
  constructor
  · rintro ⟨here, hloc, hfolder⟩
    obtain ⟨hnul, hlength, hwalk⟩ := locate_eq_ok_iff.1 hloc
    obtain ⟨-, hnames, hplaces⟩ := walk_folders_iff.1 ⟨hwalk, hfolder⟩
    exact ⟨⟨hnul, hlength, hnames⟩, hplaces⟩
  · rintro ⟨⟨hnul, hlength, hnames⟩, hplaces⟩
    obtain ⟨hwalk, hfolder⟩ := walk_folders_iff.2 ⟨rfl, hnames, hplaces⟩
    exact ⟨_, locate_eq_ok_iff.2 ⟨hnul, hlength, hwalk⟩, hfolder⟩

theorem locate_of_parent (htake : p.Takeable) (hparent : d.entryOf p.parent = .ok .folder) :
    d.locate p = .ok (p.placeFrom d.home) := by
  obtain ⟨around, haround, hfolder⟩ := entryOf_eq_ok_iff.1 hparent
  refine locate_eq_ok_iff.2 ⟨htake.nul, htake.length, ?_⟩
  have hwalk : d.walk (d.start p) p.parts.dropLast = .ok around :=
    (locate_eq_ok_iff.1 haround).2.2
  by_cases hparts : p.parts = []
  · rw [Path.placeFrom, hparts]
    rfl
  · have hlast : Short (p.parts.getLast hparts) := htake.names _ (List.getLast_mem hparts)
    have hplace := walk_eq hwalk
    have hsplit := List.dropLast_concat_getLast hparts
    rw [Path.placeFrom, ← hsplit, walk_append, hwalk]
    change d.walk around [p.parts.getLast hparts] = _
    rw [walk_cons_of_folder hfolder, if_pos hlast, walk, List.foldl_append, hplace]
    rfl

theorem folder_of_returns_makeFolder (h : Returns (makeFolder p) d () d') :
    d'.entryOf p = .ok .folder := by
  obtain ⟨_, d₁, -, h⟩ := returns_bind.1 h
  obtain ⟨here, d₂, hplace, h⟩ := returns_bind.1 h
  obtain ⟨hloc, rfl⟩ := of_returns_place hplace
  rw [Returns, exec_get_bind] at h
  split at h
  · cases h
  · next hnone =>
    have hnot : d₁.found? here ≠ some .folder := by simp [hnone]
    cases h
    exact entryOf_eq_ok_iff.2 ⟨here, locate_put hloc hnot _, found?_put_self hnot _⟩

theorem folder_of_returns_isFolder? (h : Returns (isFolder? p) d true d') :
    d'.entryOf p = .ok .folder := by
  rcases returns_tryCatch.1 h with h | ⟨fault, _, -, h⟩
  · obtain ⟨entry, d₁, hlook, h⟩ := returns_bind.1 h
    obtain ⟨_, d₂, -, hentry⟩ := returns_bind.1 hlook
    rw [Returns, exec_entryAt] at hentry
    obtain ⟨hentry, rfl⟩ := Prod.ext_iff.1 hentry
    cases entry with
    | folder =>
      obtain ⟨-, rfl⟩ := returns_pure.1 h
      exact hentry
    | file bytes => cases (returns_pure.1 h).1
  · -- what is taken for absent is no folder
    split at h
    · cases (returns_pure.1 h).1
    · exact absurd h not_returns_throw

theorem folder_of_returns_folderThere {fault : Fault}
    (h : Returns (do unless ← isFolder? p do throw fault) d () d') :
    d'.entryOf p = .ok .folder := by
  obtain ⟨there, d₁, hthere, h⟩ := returns_bind.1 h
  cases there with
  | true =>
    obtain ⟨-, rfl⟩ := returns_pure.1 h
    exact folder_of_returns_isFolder? hthere
  | false => exact absurd h not_returns_throw

theorem folder_of_returns_ensureFolder (h : Returns (ensureFolder p) d () d') :
    d'.entryOf p = .ok .folder := by
  rcases returns_tryCatch.1 h with h | ⟨fault, _, -, h⟩
  · exact folder_of_returns_makeFolder h
  · split at h
    · exact absurd h not_returns_throw
    · exact folder_of_returns_folderThere h
    · exact absurd h not_returns_throw

/-- Folders that were made are there. -/
theorem folder_of_returns_ensureFolders (h : Returns (ensureFolders p) d () d') :
    d'.entryOf p = .ok .folder := by
  rw [ensureFolders] at h
  rcases returns_tryCatch.1 h with h | ⟨fault, _, -, h⟩
  · exact folder_of_returns_makeFolder h
  · split at h
    · split at h
      · exact absurd h not_returns_throw
      · obtain ⟨_, _, -, h⟩ := returns_bind.1 h
        exact folder_of_returns_ensureFolder h
    · exact folder_of_returns_folderThere h
    · exact absurd h not_returns_throw

end Folders

structure OnlyAt (places : List Place) (d d' : Disk) : Prop where
  home_eq : d'.home = d.home
  free : d'.refusals = []
  other : ∀ place, place ∉ places → d'.found? place = d.found? place

theorem OnlyAt.noFile_of_folders {places : List Place} (h : OnlyAt places d d')
    (hfolders : ∀ place ∈ places, d'.found? place = some .folder) (hplace : d.NoFile place) :
    d'.NoFile place := by
  intro bytes
  by_cases hmem : place ∈ places
  · simp [hfolders place hmem]
  · rw [h.other place hmem]
    exact hplace bytes

section Progress

variable (hfree : d.refusals = [])
include hfree

/-- Making the folders of a path changes nothing but the places of the path. -/
theorem onlyAt_of_returns (h : Returns (ensureFolders p) d () d') :
    OnlyAt (p.places d.home) d d' := by
  have hkeeps : Keeps (OnlyAt (p.places d.home) d) (ensureFolders p) := by
    refine keeps_ensureFolders_of_places ?_ ?_
    · intro d₁ rest hrest h
      rw [h.free, List.suffix_nil] at hrest
      exact ⟨h.home_eq, hrest, h.other⟩
    · intro d₁ place hplace h hnone
      rw [h.home_eq] at hplace
      refine ⟨h.home_eq, h.free, fun other hother => ?_⟩
      have hnot : d₁.found? place ≠ some .folder := by simp [hnone]
      have hne : place ≠ other := fun heq => hother (heq ▸ hplace)
      rw [found?_put (ne_nil_of_found? hnot), if_neg hne, h.other other hother]
  exact hkeeps.of_returns ⟨rfl, hfree, fun _ _ => rfl⟩ h

/-- A folder is made where no file stands, or it is there. -/
theorem returns_makeFolder_or {handle : Fault → Call Unit}
    (hhandle : handle (.refused .taken [p.text]) =
      (do unless ← isFolder? p do throw (.refused .taken [p.text])))
    (hloc : d.locate p = .ok here) (hthere : d.NoFile here) :
    ∃ d', Returns (tryCatch (makeFolder p) handle) d () d' := by
  have hmake := exec_makeFolder_of_free hfree hloc
  cases hfound : d.found? here with
  | none =>
    rw [hfound] at hmake
    exact ⟨_, returns_tryCatch.2 (.inl hmake)⟩
  | some entry =>
    cases entry with
    | file bytes => exact absurd hfound (hthere bytes)
    | folder =>
      rw [hfound] at hmake
      refine ⟨d, returns_tryCatch.2 (.inr ⟨_, _, hmake, ?_⟩)⟩
      rw [hhandle]
      exact exec_folderThere_of_free hfree (entryOf_eq_ok_iff.2 ⟨here, hloc, hfound⟩) _

/-- The folders of a path are made if no file stands where one of them goes. -/
theorem returns_ensureFolders (htake : p.Takeable)
    (hway : ∀ place ∈ p.places d.home, d.NoFile place) :
    ∃ d', Returns (ensureFolders p) d () d' := by
  induction p using ensureFolders.induct with
  | case1 p ih =>
    rw [ensureFolders]
    rcases walk_of_noFile htake.names hway with hwalk | ⟨hne, hwalk⟩
    · exact returns_makeFolder_or hfree rfl (locate_eq_ok_iff.2 ⟨htake.nul, htake.length, hwalk⟩)
        (hway _ (p.placeFrom_mem_places d.home))
    · -- the folders around it are not all there yet
      obtain ⟨d₁, hparent⟩ := ih hne htake.parent fun place hplace =>
        hway place (Path.mem_places_of_parent hplace)
      have hleft := onlyAt_of_returns hfree hparent
      have haround := folder_of_returns_ensureFolders hparent
      have hloc := locate_of_parent htake haround
      have hthere : d₁.NoFile (p.placeFrom d₁.home) := by
        rw [hleft.home_eq]
        refine hleft.noFile_of_folders ?_ (hway _ (p.placeFrom_mem_places d.home))
        rw [← hleft.home_eq]
        exact (entryOf_folder_iff.1 haround).2
      obtain ⟨d₂, hlast⟩ : ∃ d₂, Returns (ensureFolder p) d₁ () d₂ :=
        returns_makeFolder_or hleft.free rfl hloc hthere
      have hmake : exec (makeFolder p) d = (.error (.refused .notFound [p.text]), d) := by
        rw [makeFolder, exec_bind_ok (exec_attempt_of_free hfree _)]
        refine exec_bind_error ?_
        rw [exec_place, locate, htake.nul, htake.length, start, hwalk]
        rfl
      refine ⟨d₂, returns_tryCatch.2 (.inr ⟨_, _, hmake, ?_⟩)⟩
      simp only [hne, if_false]
      exact returns_bind.2 ⟨_, d₁, hparent, hlast⟩

end Progress

end TradingHours.Disk
