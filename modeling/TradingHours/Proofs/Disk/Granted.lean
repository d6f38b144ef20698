import TradingHours.Proofs.Disk.Write
/-!
What calls answer: what stands at a path, unless they are refused for other reasons than the tree;
and that a file is written where nothing is in its way.
-/
namespace TradingHours.Disk

variable {p q : Path} {home place : Place} {d d' : Disk}

/-- The next calls are not refused for other reasons than the tree. -/
def Grants (calls : Nat) (d : Disk) : Prop := ∀ cause ∈ d.refusals.take calls, cause = none

instance {calls : Nat} : Decidable (d.Grants calls) :=
  List.decidableBAll (· = none) (d.refusals.take calls)

def afterCall (d : Disk) : Disk := { d with refusals := d.refusals.tail }

theorem Grants.afterCall {calls : Nat} (h : d.Grants (calls + 1)) : d.afterCall.Grants calls := by
  intro cause hc
  apply h cause
  cases hr : d.refusals with
  | nil => simp [Disk.afterCall, hr] at hc
  | cons first rest =>
    rw [Disk.afterCall, hr] at hc
    exact List.mem_cons_of_mem first hc

theorem exec_attempt {calls : Nat} (h : d.Grants (calls + 1)) (paths : List String) :
    exec (attempt paths) d = (.ok (), d.afterCall) := by
  rw [attempt, exec_get_bind, afterCall]
  cases hr : d.refusals with
  | nil =>
    change (Except.ok (), d) = _
    rw [List.tail_nil, ← hr]
  | cons first rest =>
    have hfirst : first = none := h first (by simp [hr])
    rw [hfirst]
    rfl

theorem entryOf_afterCall : d.afterCall.entryOf q = d.entryOf q := by
  unfold entryOf afterCall
  rw [locate_refusals]
  rfl

def answer (d : Disk) (p : Path) : Except Fault Entry :=
  match d.refusals with
  | some cause :: _ => .error (.refused cause [p.text])
  | _ => d.entryOf p

theorem answer_of_grants {calls : Nat} (h : d.Grants (calls + 1)) : d.answer q = d.entryOf q := by
  rw [answer]
  split
  · next cause rest hr => cases h (some cause) (by simp [hr])
  · rfl

/-- What is there once is there again, unless the next call is refused. -/
theorem answer_afterCall {entry : Entry} (h : d.answer q = .ok entry) :
    (∃ cause, d.afterCall.answer q = .error (.refused cause [q.text])) ∨
      d.afterCall.answer q = .ok entry := by
  have hentry : d.entryOf q = .ok entry := by
    rw [answer] at h
    split at h
    · cases h
    · exact h
  rw [answer]
  split
  · next cause rest hr => exact .inl ⟨cause, rfl⟩
  · exact .inr (entryOf_afterCall.trans hentry)

theorem exec_lookUp_eq : exec (lookUp q) d = (d.answer q, d.afterCall) := by
  rw [answer]
  split
  · next cause rest hr =>
    have hattempt : exec (attempt [q.text]) d =
        (.error (.refused cause [q.text]), d.afterCall) := by
      rw [attempt, exec_get_bind, hr, afterCall, hr]
      rfl
    rw [lookUp, exec_bind_error hattempt]
  · next hgranted =>
    have hgrants : d.Grants 1 := by
      intro cause hc
      cases hr : d.refusals with
      | nil => simp [hr] at hc
      | cons first rest =>
        obtain rfl : cause = first := by simpa [hr] using hc
        cases cause with
        | none => rfl
        | some cause => exact absurd hr (hgranted cause rest)
    rw [lookUp, exec_bind_ok (exec_attempt hgrants _), exec_entryAt, entryOf_afterCall]

theorem exec_exists?_eq : exec (exists? q) d =
    (match d.answer q with
      | .ok _ => .ok true
      | .error fault => if fault.meansAbsent then .ok false else .error fault, d.afterCall) := by
  rw [exists?, exec_tryCatch]
  cases hanswer : d.answer q with
  | ok entry =>
    rw [exec_bind_ok (by rw [exec_lookUp_eq, hanswer])]
    rfl
  | error fault =>
    rw [exec_bind_error (by rw [exec_lookUp_eq, hanswer])]
    dsimp only
    split <;> rfl

theorem exec_read_eq : exec (read q) d =
    (match d.answer q with
      | .ok (.file bytes) => .ok bytes
      | .ok .folder => .error (.refused .isFolder [q.text])
      | .error fault => .error fault, d.afterCall) := by
  rw [read]
  cases hanswer : d.answer q with
  | ok entry =>
    rw [exec_bind_ok (by rw [exec_lookUp_eq, hanswer])]
    cases entry <;> rfl
  | error fault => rw [exec_bind_error (by rw [exec_lookUp_eq, hanswer])]

theorem exec_lookUp {calls : Nat} (h : d.Grants (calls + 1)) :
    exec (lookUp q) d = (d.entryOf q, d.afterCall) := by
  rw [exec_lookUp_eq, answer_of_grants h]

theorem exec_exists? {calls : Nat} (h : d.Grants (calls + 1)) :
    exec (exists? q) d =
      (match d.entryOf q with
        | .ok _ => .ok true
        | .error fault => if fault.meansAbsent then .ok false else .error fault, d.afterCall) := by
  rw [exec_exists?_eq, answer_of_grants h]

theorem exec_read {calls : Nat} (h : d.Grants (calls + 1)) :
    exec (read q) d =
      (match d.entryOf q with
        | .ok (.file bytes) => .ok bytes
        | .ok .folder => .error (.refused .isFolder [q.text])
        | .error fault => .error fault, d.afterCall) := by
  rw [exec_read_eq, answer_of_grants h]

theorem exec_isFolder?_of_folder {calls : Nat} (h : d.Grants (calls + 1))
    (hfolder : d.entryOf q = .ok .folder) : exec (isFolder? q) d = (.ok true, d.afterCall) := by
  have hlook : exec (lookUp q) d = (.ok .folder, d.afterCall) := by rw [exec_lookUp h, hfolder]
  rw [isFolder?, exec_tryCatch, exec_bind_ok hlook]
  rfl

section Free

variable (hfree : d.refusals = [])
include hfree

theorem grants_of_free (calls : Nat) : d.Grants calls := by
  intro cause hc
  rw [hfree, List.take_nil] at hc
  cases hc

theorem afterCall_of_free : d.afterCall = d := by
  rw [afterCall, hfree, List.tail_nil, ← hfree]

theorem exec_attempt_of_free (paths : List String) : exec (attempt paths) d = (.ok (), d) := by
  rw [exec_attempt (grants_of_free hfree 1), afterCall_of_free hfree]

theorem exec_makeFolder_of_free (hloc : d.locate q = .ok place) :
    exec (makeFolder q) d =
      match d.found? place with
      | some _ => (.error (.refused .taken [q.text]), d)
      | none => (.ok (), d.put place .folder) := by
  rw [makeFolder, exec_bind_ok (exec_attempt_of_free hfree _),
    exec_bind_ok (a := place) (by rw [exec_place, hloc]), exec_get_bind]
  cases d.found? place <;> rfl

theorem exec_folderThere_of_free (hfolder : d.entryOf q = .ok .folder) (fault : Fault) :
    exec (do unless ← isFolder? q do throw fault) d = (.ok (), d) := by
  have hthere := exec_isFolder?_of_folder (grants_of_free hfree 1) hfolder
  rw [afterCall_of_free hfree] at hthere
  exact exec_bind_ok hthere

theorem exec_ensureFolders_of_folder (hfolder : d.entryOf q = .ok .folder) :
    exec (ensureFolders q) d = (.ok (), d) := by
  obtain ⟨here, hloc, hfound⟩ := entryOf_eq_ok_iff.1 hfolder
  rw [ensureFolders, exec_tryCatch, exec_makeFolder_of_free hfree hloc, hfound]
  exact exec_folderThere_of_free hfree hfolder _

end Free

/-- Nothing is in the way of a file: no call is refused, the folder around it is there, and no
folder stands at its path. -/
structure Clear (home : Place) (p : Path) (d : Disk) : Prop where
  home_eq : d.home = home
  free : d.refusals = []
  around : d.entryOf p.parent = .ok .folder
  leads : ∃ here, d.locate p = .ok here ∧ d.found? here ≠ some .folder

namespace Clear

theorem of_folders (h : Clear home p d) (hhome : d'.home = d.home)
    (hfree : d'.refusals = d.refusals)
    (hfolders : ∀ place, d'.found? place = some .folder ↔ d.found? place = some .folder) :
    Clear home p d' := by
  have hf : FoldersStay d d' := fun place => (hfolders place).2
  obtain ⟨around, haround, hfound⟩ := entryOf_eq_ok_iff.1 h.around
  obtain ⟨here, hloc, hnot⟩ := h.leads
  refine ⟨hhome.trans h.home_eq, hfree.trans h.free, ?_, here, locate_mono hhome hf hloc,
    mt (hfolders here).1 hnot⟩
  exact entryOf_eq_ok_iff.2 ⟨around, locate_mono hhome hf haround, hf around hfound⟩

theorem put_file (h : Clear home p d) (hnot : d.found? place ≠ some .folder) (bytes : ByteArray) :
    Clear home p (d.put place (.file bytes)) := by
  refine h.of_folders rfl rfl fun q => ⟨fun hq => ?_, foldersStay_put hnot _ q⟩
  rw [found?_put (ne_nil_of_found? hnot)] at hq
  split at hq
  · cases hq
  · exact hq

theorem erase (h : Clear home p d) (hnot : d.found? place ≠ some .folder) :
    Clear home p (d.erase place) := by
  refine h.of_folders rfl rfl fun q => ⟨fun hq => ?_, foldersStay_erase hnot q⟩
  rw [found?_erase (ne_nil_of_found? hnot)] at hq
  split at hq
  · cases hq
  · exact hq

theorem bears : Bears home (fun _ => False) (Clear home p) where
  home_eq := fun _ h => h.home_eq
  refusals := by
    intro d rest hrest h
    rw [h.free, List.suffix_nil] at hrest
    rwa [hrest, ← h.free]
  file := fun _ _ _ h _ hnot => h.put_file hnot _
  grows := fun _ _ _ _ => id

theorem keeps_ensureFolders : Keeps (Clear home p) (ensureFolders p.parent) := by
  intro d hd
  rwa [exec_ensureFolders_of_folder hd.free hd.around]

theorem returns_openEmpty (h : Clear home p d) :
    ∃ here d', Returns (openEmpty p) d here d' ∧ d'.refusals = [] := by
  obtain ⟨here, hloc, hnot⟩ := h.leads
  refine ⟨here, d.put here (.file .empty), ?_, h.free⟩
  rw [Returns, openEmpty, exec_bind_ok (exec_attempt_of_free h.free _),
    exec_bind_ok (a := here) (by rw [exec_place, hloc]), exec_get_bind]
  split
  · next hfolder => exact absurd hfolder hnot
  · rfl

theorem returns_write (h : Clear home p d) (bytes : ByteArray) :
    ∃ d', Returns (write p bytes) d () d' := by
  obtain ⟨here, d', hopen, hfree⟩ := h.returns_openEmpty
  refine ⟨d'.put here (.file bytes), ?_⟩
  rw [Returns, write, exec_bind_ok hopen, fill, exec_bind_ok (exec_attempt_of_free hfree _)]
  rfl

end Clear

end TradingHours.Disk
