import TradingHours.Proofs.Disk.Reach
/-!
What a look at a path depends on. On the tree alone it is refused for something that is absent or
for a path that is too long, and what a file has grown by makes no difference for the paths of
others.
-/
namespace TradingHours.Disk

variable {p : Path} {d d' : Disk} {fault : Fault} {here : Place} {names : List String}

/-- A walk is refused for a name that is too long exactly if it comes to such a name. -/
theorem walk_nameTooLong_iff : d.walk here names = .error .nameTooLong ↔
    ∃ before name after there, names = before ++ name :: after ∧
      d.walk here before = .ok there ∧ d.found? there = some .folder ∧ ¬ Short name := by
  induction names generalizing here with
  | nil => simp [walk]
  | cons name names ih =>
    constructor
    · intro h
      cases hhere : d.found? here with
      | none => simp [walk, hhere] at h
      | some entry =>
        cases entry with
        | file bytes => simp [walk, hhere] at h
        | folder =>
          rw [walk_cons_of_folder hhere] at h
          by_cases hshort : Short name
          · rw [if_pos hshort] at h
            obtain ⟨before, long, after, there, rfl, hwalk, hfolder, hlong⟩ := ih.1 h
            refine ⟨name :: before, long, after, there, rfl, ?_, hfolder, hlong⟩
            rw [walk_cons_of_folder hhere, if_pos hshort, hwalk]
          · exact ⟨[], name, names, here, rfl, rfl, hhere, hshort⟩
    · rintro ⟨before, long, after, there, hnames, hwalk, hfolder, hlong⟩
      cases before with
      | nil =>
        cases hnames
        cases hwalk
        rw [walk_cons_of_folder hfolder, if_neg hlong]
      | cons first before =>
        cases hnames
        have hhere := folder_of_walk_cons hwalk
        rw [walk_cons_of_folder hhere] at hwalk ⊢
        by_cases hshort : Short name
        · rw [if_pos hshort] at hwalk ⊢
          exact ih.2 ⟨before, long, after, there, rfl, hwalk, hfolder, hlong⟩
        · rw [if_neg hshort] at hwalk
          cases hwalk

theorem walk_eq_error {cause : Cause} (h : d.walk here names = .error cause) :
    cause = .notFound ∨ cause = .notFolder ∨ cause = .nameTooLong := by
  induction names generalizing here with
  | nil => cases h
  | cons name names ih =>
    rw [walk] at h
    split at h
    · cases h
      exact .inl rfl
    · cases h
      exact .inr (.inl rfl)
    · split at h
      · exact ih h
      · split at h
        · cases h
          exact .inr (.inr rfl)
        · exact ih h

/-- A path is too long: its text is, or a name that a walk along it comes to. -/
def Overlong (d : Disk) (p : Path) : Prop :=
  p.hasNul = false ∧ (tooLong p = true ∨
    ∃ before name after there, p.parts = before ++ name :: after ∧
      d.walk (d.start p) before = .ok there ∧ d.found? there = some .folder ∧ ¬ Short name)

theorem overlong_iff : d.Overlong p ↔ d.locate p = .error (.refused .nameTooLong [p.text]) := by
  rw [Overlong, ← walk_nameTooLong_iff, locate]
  cases p.hasNul with
  | true => simp
  | false =>
    cases tooLong p with
    | true => simp
    | false => cases d.walk (d.start p) p.parts <;> simp

theorem locate_eq_error (h : d.locate p = .error fault) :
    fault.meansAbsent = true ∨ fault = .refused .nameTooLong [p.text] := by
  rw [locate] at h
  split at h
  · cases h
    exact .inl rfl
  · split at h
    · cases h
      exact .inr rfl
    · split at h
      · cases h
      · next cause hwalk =>
        cases h
        rcases walk_eq_error hwalk with rfl | rfl | rfl
        · exact .inl rfl
        · exact .inl rfl
        · exact .inr rfl

theorem entryOf_of_locate (h : d.locate p = .ok here) :
    d.entryOf p = (d.found? here).elim (.error (.refused .notFound [p.text])) .ok := by
  rw [entryOf, h]
  simp only [bind, Except.bind]
  cases d.found? here <;> rfl

theorem entryOf_eq_error (h : d.entryOf p = .error fault) :
    fault.meansAbsent = true ∨ d.locate p = .error fault := by
  cases hloc : d.locate p with
  | error e =>
    rw [entryOf, hloc] at h
    exact .inr (congrArg Except.error (Except.error.inj h))
  | ok here =>
    rw [entryOf_of_locate hloc] at h
    cases hfound : d.found? here with
    | some entry =>
      rw [hfound] at h
      cases h
    | none =>
      rw [hfound] at h
      cases h
      exact .inl rfl

def kindAt (d : Disk) (here : Place) : Option Bool :=
  (d.found? here).map fun entry => match entry with
    | .folder => true
    | .file _ => false

structure Logged (d d' : Disk) : Prop where
  home_eq : d'.home = d.home
  free : d'.refusals = []
  growing_eq : d'.growing = d.growing
  kind : ∀ place, d'.kindAt place = d.kindAt place
  found : ∀ place, d.growing ≠ some place → d'.found? place = d.found? place

theorem logged_self (hfree : d.refusals = []) : Logged d d :=
  ⟨rfl, hfree, rfl, fun _ => rfl, fun _ _ => rfl⟩

theorem Logged.outlastsRefusals : OutlastsRefusals (Logged d) := by
  intro d' rest hrest h
  rw [h.free, List.suffix_nil] at hrest
  subst hrest
  exact ⟨h.home_eq, rfl, h.growing_eq, h.kind, h.found⟩

theorem Logged.grow (h : Logged d d') (bytes : ByteArray) : Logged d (d'.grow bytes) := by
  rw [Disk.grow]
  split
  · exact h
  · next log hlog =>
    split
    · next old hold =>
      have hplace : log ≠ [] := ne_nil_of_found? (d := d') (by simp [hold])
      refine ⟨h.home_eq, h.free, h.growing_eq, fun place => ?_, fun place hne => ?_⟩
      · rw [← h.kind, kindAt, kindAt, found?_put hplace]
        by_cases hsame : log = place
        · subst hsame
          simp [hold]
        · rw [if_neg hsame]
      · rw [found?_put hplace, if_neg, h.found place hne]
        rintro rfl
        exact hne (h.growing_eq ▸ hlog)
    · exact h

theorem walk_cons_kindAt (name : String) : d.walk here (name :: names) =
    match d.kindAt here with
    | none => .error .notFound
    | some false => .error .notFolder
    | some true => if Short name then d.walk (here.step name) names else .error .nameTooLong := by
  rw [kindAt]
  cases hhere : d.found? here with
  | none => simp [walk, hhere]
  | some entry =>
    cases entry with
    | file bytes => simp [walk, hhere]
    | folder => exact walk_cons_of_folder hhere name

theorem walk_of_kindAt (h : ∀ place, d'.kindAt place = d.kindAt place) :
    d'.walk here names = d.walk here names := by
  induction names generalizing here with
  | nil => rfl
  | cons name names ih => rw [walk_cons_kindAt, walk_cons_kindAt, h, ih]

theorem Logged.locate_eq (h : Logged d d') : d'.locate p = d.locate p := by
  rw [locate, locate, start, start, h.home_eq, walk_of_kindAt h.kind]

/-- The log makes no difference for what stands at a path, unless the path is its own. -/
theorem Logged.entryOf_eq (h : Logged d d')
    (hp : ∀ place, d.growing = some place → d.locate p ≠ .ok place) :
    d'.entryOf p = d.entryOf p := by
  cases hloc : d.locate p with
  | error fault => rw [entryOf, entryOf, h.locate_eq, hloc]; rfl
  | ok here =>
    rw [entryOf_of_locate hloc, entryOf_of_locate (h.locate_eq.trans hloc),
      h.found here fun hlog => hp here hlog hloc]

end TradingHours.Disk
