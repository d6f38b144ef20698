import TradingHours.Disk.Tree
/-!
Places of paths. Where a walk succeeds it ends at the place that the names of the path alone give,
and it still does when there are more folders. What stands at a place after the tree was changed.
-/
namespace TradingHours

def Place.step (here : Place) (name : String) : Place :=
  if name = ".." then here.tail else name :: here

namespace Disk

/-- The place of a path by its names alone, from the folder where relative paths start. -/
def Path.placeFrom (home : Place) (p : Path) : Place :=
  p.parts.foldl Place.step (if p.root = .relative then home else [])

def Path.places (home : Place) (p : Path) : List Place :=
  p.parts.scanl Place.step (if p.root = .relative then home else [])

theorem Path.places_of_parts_ne_nil {p : Path} (h : p.parts ≠ []) (home : Place) :
    p.places home = p.parent.places home ++ [p.placeFrom home] := by
  obtain ⟨names, last, hparts⟩ : ∃ names last, p.parts = names ++ [last] :=
    ⟨_, _, (List.dropLast_concat_getLast h).symm⟩
  simp only [places, placeFrom, parent, hparts, List.dropLast_concat, List.scanl_append,
    List.foldl_append, List.scanl_cons, List.scanl_nil, List.foldl_cons, List.foldl_nil,
    List.tail_cons]

theorem Path.parent_of_parts_eq_nil {p : Path} (h : p.parts = []) : p.parent = p := by
  cases p
  cases h
  rfl

theorem Path.placeFrom_mem_places (home : Place) (p : Path) : p.placeFrom home ∈ p.places home := by
  by_cases h : p.parts = []
  · simp [places, placeFrom, h]
  · simp [places_of_parts_ne_nil h]

theorem Path.mem_places_of_parent {home place : Place} {p : Path}
    (h : place ∈ p.parent.places home) : place ∈ p.places home := by
  by_cases hparts : p.parts = []
  · rwa [parent_of_parts_eq_nil hparts] at h
  · rw [places_of_parts_ne_nil hparts]
    exact List.mem_append_left _ h

variable {d d' : Disk} {p : Path} {here there place : Place} {names : List String}

theorem walk_eq (h : d.walk here names = .ok there) : there = names.foldl Place.step here := by
  induction names generalizing here with
  | nil =>
    cases h
    rfl
  | cons name names ih =>
    rw [walk] at h
    split at h
    · cases h
    · cases h
    · rw [List.foldl_cons, Place.step]
      split at h
      · next hup =>
        rw [if_pos hup]
        exact ih h
      · next hdown =>
        rw [if_neg hdown]
        split at h
        · cases h
        · exact ih h

def FoldersStay (d d' : Disk) : Prop :=
  ∀ place, d.found? place = some .folder → d'.found? place = some .folder

theorem walk_mono (hf : FoldersStay d d') (h : d.walk here names = .ok there) :
    d'.walk here names = .ok there := by
  induction names generalizing here with
  | nil => exact h
  | cons name names ih =>
    rw [walk] at h
    split at h
    · cases h
    · cases h
    · next hfolder =>
      rw [walk, hf here hfolder]
      dsimp only
      split at h
      · next hup =>
        rw [if_pos hup]
        exact ih h
      · next hdown =>
        rw [if_neg hdown]
        split at h
        · cases h
        · next hshort =>
          rw [if_neg hshort]
          exact ih h

theorem walk_append (more : List String) :
    d.walk here (names ++ more) = d.walk here names >>= fun middle => d.walk middle more := by
  induction names generalizing here with
  | nil => rfl
  | cons name names ih =>
    rw [List.cons_append, walk, walk]
    split
    · rfl
    · rfl
    · split
      · exact ih
      · split
        · rfl
        · exact ih

theorem locate_eq_ok_iff :
    d.locate p = .ok here ↔
      p.hasNul = false ∧ tooLong p = false ∧ d.walk (d.start p) p.parts = .ok here := by
  unfold locate
  cases p.hasNul with
  | true => simp
  | false =>
    cases tooLong p with
    | true => simp
    | false => cases d.walk (d.start p) p.parts <;> simp

theorem placeFrom_of_locate (h : d.locate p = .ok here) : p.placeFrom d.home = here :=
  (walk_eq (locate_eq_ok_iff.1 h).2.2).symm

theorem locate_mono (hhome : d'.home = d.home) (hf : FoldersStay d d') (h : d.locate p = .ok here) :
    d'.locate p = .ok here := by
  obtain ⟨hnul, hlong, hwalk⟩ := locate_eq_ok_iff.1 h
  refine locate_eq_ok_iff.2 ⟨hnul, hlong, ?_⟩
  rw [start, hhome]
  exact walk_mono hf hwalk

theorem walk_refusals (rest : List (Option Cause)) (here : Place) (names : List String) :
    Disk.walk { d with refusals := rest } here names = d.walk here names := by
  induction names generalizing here with
  | nil => rfl
  | cons name names ih =>
    rw [walk, walk]
    simp only [ih]
    rfl

theorem locate_refusals (rest : List (Option Cause)) (p : Path) :
    Disk.locate { d with refusals := rest } p = d.locate p := by
  unfold locate
  rw [walk_refusals]
  rfl

theorem found?_put (hplace : place ≠ []) (entry : Entry) (q : Place) :
    (d.put place entry).found? q = if place = q then some entry else d.found? q := by
  cases q with
  | nil => simp [found?, hplace]
  | cons name q => simp only [found?, put, List.isEmpty_cons, Table.get?_put, Bool.false_eq_true,
      if_false]

theorem ne_nil_of_found? (h : d.found? place ≠ some .folder) : place ≠ [] := by
  rintro rfl
  exact h rfl

theorem get?_filter (entries : Table Place Entry) (place q : Place) :
    Table.get? (entries.filter fun pair => pair.1 ≠ place) q =
      if place = q then none else Table.get? entries q := by
  induction entries with
  | nil => simp
  | cons pair rest ih =>
    by_cases hp : pair.1 = place
    · subst hp
      rw [List.filter_cons_of_neg (by simp), ih, Table.get?]
      split <;> rfl
    · rw [List.filter_cons_of_pos (by simpa using hp), Table.get?, ih, Table.get?]
      by_cases hq : pair.1 = q
      · rw [if_pos hq, if_pos hq, if_neg]
        rintro rfl
        exact hp hq
      · rw [if_neg hq, if_neg hq]

theorem found?_erase (hplace : place ≠ []) (q : Place) :
    (d.erase place).found? q = if place = q then none else d.found? q := by
  cases q with
  | nil => simp [found?, hplace]
  | cons name q => simp only [found?, erase, List.isEmpty_cons, get?_filter, Bool.false_eq_true,
      if_false]

theorem growing_of_erase {other : Place} (h : (d.erase place).growing = some other) :
    d.growing = some other ∧ other ≠ place := by
  simp only [erase] at h
  split at h
  · cases h
  · next hne =>
    refine ⟨h, ?_⟩
    rintro rfl
    exact hne h

theorem foldersStay_put (h : d.found? place ≠ some .folder) (entry : Entry) :
    FoldersStay d (d.put place entry) := by
  intro q hq
  rw [found?_put (ne_nil_of_found? h), if_neg, hq]
  rintro rfl
  exact h hq

theorem foldersStay_erase (h : d.found? place ≠ some .folder) : FoldersStay d (d.erase place) := by
  intro q hq
  rw [found?_erase (ne_nil_of_found? h), if_neg, hq]
  rintro rfl
  exact h hq

end Disk

end TradingHours
