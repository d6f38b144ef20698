import Mathlib.Data.List.Forall2
import TradingHours.Proofs.Yaml.Assembled
/-!
The value of a document has every key once, and so have the mappings that lie in it. Main statement:
`sectioned_of_load`.
-/
namespace TradingHours

namespace Value

variable {v : Value} {cells : List Value}

def Keyed (v : Value) : Prop := ∀ fields, v.entries? = some fields → Distinct fields

def Sectioned (v : Value) : Prop :=
  ∀ entries, v.entries? = some entries → Distinct entries ∧ ∀ e ∈ entries, e.2.Keyed

theorem Sectioned.keyed (h : v.Sectioned) : v.Keyed := fun fields hfields => (h fields hfields).1

theorem sectioned_of_entries? (h : v.entries? = none) : v.Sectioned := by
  intro entries hentries
  rw [h] at hentries
  cases hentries

theorem sectioned_mapping {entries : List (Value × Value)} (hkeys : Distinct entries)
    (hvalues : ∀ e ∈ entries, e.2.Keyed) : (mapping entries).Sectioned := by
  intro fields hfields
  cases hfields
  exact ⟨hkeys, hvalues⟩

/-- The mappings among the cells of a knot have every key once, and so have those in them that are
no cells. -/
def KeyedCells (cells : List Value) : Prop :=
  ∀ entries, mapping entries ∈ cells → Distinct entries ∧ ∀ e ∈ entries, e.2.Keyed

theorem entries?_knot {cell : Nat} {fields : List (Value × Value)}
    (h : (knot cells cell).entries? = some fields) :
    ∃ entries, mapping entries ∈ cells ∧
      fields = entries.map fun (key, value) => (key, tied cells value) := by
  unfold entries? opened at h
  dsimp only at h
  cases hcell : cells[cell]? with
  | none => simp [hcell] at h
  | some part =>
    rw [hcell] at h
    cases part with
    | mapping entries =>
      cases h
      exact ⟨entries, List.mem_of_getElem? hcell, rfl⟩
    | _ => cases h

theorem distinct_map_tied {entries : List (Value × Value)} (h : Distinct entries) :
    Distinct (entries.map fun (key, value) => (key, tied cells value)) := by
  refine h.of_keys ?_
  rw [List.map_map]
  rfl

theorem keyed_knot (h : KeyedCells cells) (cell : Nat) : (knot cells cell).Keyed := by
  intro fields hfields
  obtain ⟨entries, hmem, rfl⟩ := entries?_knot hfields
  exact distinct_map_tied (h entries hmem).1

theorem keyed_tied (h : KeyedCells cells) (hv : v.Keyed) : (tied cells v).Keyed := by
  cases v with
  | loop cell => exact keyed_knot h cell
  | _ => exact hv

theorem sectioned_knot (h : KeyedCells cells) (cell : Nat) : (knot cells cell).Sectioned := by
  intro fields hfields
  refine ⟨keyed_knot h cell fields hfields, fun e he => ?_⟩
  obtain ⟨entries, hmem, rfl⟩ := entries?_knot hfields
  obtain ⟨entry, hentry, rfl⟩ := List.mem_map.1 he
  exact keyed_tied h ((h entries hmem).2 entry hentry)

end Value

namespace Yaml

open Value (Distinct Keyed Sectioned)

def Outlook.Holds (s : Outlook) : Prop := ∀ v, some (some v) ∈ s → v.Sectioned

/-- Looking at nodes keeps what is known so, and what it returns meets a condition. -/
def Looks {α : Type} (x : StateM Outlook α) (Q : α → Prop) : Prop :=
  ∀ s, Outlook.Holds s → Outlook.Holds (x s).2 ∧ Q (x s).1

section Looks

variable {α β : Type} {x : StateM Outlook α} {f : α → StateM Outlook β} {Q : α → Prop} {R : β → Prop}

theorem Looks.pure {a : α} (h : Q a) : Looks (Pure.pure a) Q := fun _ hs => ⟨hs, h⟩

theorem Looks.bind (hx : Looks x Q) (hf : ∀ a, Q a → Looks (f a) R) : Looks (x >>= f) R :=
  fun s hs => hf (x s).1 (hx s hs).2 (x s).2 (hx s hs).1

theorem Looks.mapM {g : α → StateM Outlook β} {P : α → β → Prop} (hg : ∀ a, Looks (g a) (P a))
    (l : List α) : Looks (l.mapM g) (List.Forall₂ P l) := by
  induction l with
  | nil => exact .pure .nil
  | cons a l ih =>
    rw [List.mapM_cons]
    exact (hg a).bind fun b hb => ih.bind fun bs hbs => .pure (.cons hb hbs)

theorem looks_set {number : Nat} {seen : Option Value} (h : ∀ v, seen = some v → v.Sectioned) :
    Looks (modify (·.setIfInBounds number (some seen))) fun _ => True := by
  refine fun s hs => ⟨fun v hv => ?_, trivial⟩
  rcases Array.mem_or_eq_of_mem_setIfInBounds hv with hv | hv
  · exact hs v hv
  · exact h v (Option.some.inj hv).symm

theorem looks_get : Looks get Outlook.Holds := fun _ hs => ⟨hs, hs⟩

theorem entries_of_mapM {entries : List (Value × Nat)} {values : List (Value × Option Value)}
    {known : List (Value × Value)}
    (hvalues : List.Forall₂ (fun e p => p.1 = e.1 ∧ ∀ v, p.2 = some v → v.Sectioned) entries values)
    (h : (values.mapM fun ((k, v) : Value × Option Value) => return (k, ← v)) = some known) :
    known.map (·.1) = entries.map (·.1) ∧ ∀ e ∈ known, e.2.Sectioned := by
  induction hvalues generalizing known with
  | nil =>
    cases h
    exact ⟨rfl, fun _ h => nomatch h⟩
  | @cons entry value entries values hvalue hvalues ih =>
    rw [List.mapM_cons] at h
    obtain ⟨first, hfirst, h⟩ := Option.bind_eq_some_iff.1 h
    obtain ⟨v, hv, hpair⟩ := Option.bind_eq_some_iff.1 hfirst
    obtain ⟨rest, hrest, h⟩ := Option.bind_eq_some_iff.1 h
    cases hpair
    cases h
    obtain ⟨hkeys, hall⟩ := ih hrest
    refine ⟨?_, List.forall_mem_cons.2 ⟨hvalue.2 v hv, hall⟩⟩
    rw [List.map_cons, List.map_cons, hkeys, hvalue.1]

/-- A mapping of values that are known, if all of them are. -/
theorem sectioned_of_values {entries : List (Value × Nat)} {values : List (Value × Option Value)}
    (hkeys : Distinct entries)
    (hvalues : List.Forall₂ (fun e p => p.1 = e.1 ∧ ∀ v, p.2 = some v → v.Sectioned) entries values)
    {v : Value}
    (h : (values.mapM fun ((k, v) : Value × Option Value) => return (k, ← v)).map .mapping =
      some v) : v.Sectioned := by
  obtain ⟨known, hknown, rfl⟩ := Option.map_eq_some_iff.1 h
  obtain ⟨hsame, hall⟩ := entries_of_mapM hvalues hknown
  exact Value.sectioned_mapping (hkeys.of_keys hsame) fun e he => (hall e he).keyed

theorem mem_of_getD {xs : Array α} {i : Nat} {d a : α} (h : xs.getD i d = a) (hne : a ≠ d) :
    a ∈ xs := by
  rw [Array.getD_eq_getD_getElem?] at h
  cases hi : xs[i]? with
  | none =>
    rw [hi] at h
    exact absurd h.symm hne
  | some b =>
    rw [hi] at h
    exact h ▸ Array.mem_of_getElem? hi

theorem looks_record {number : Nat} {seen : Option Value} (h : ∀ v, seen = some v → v.Sectioned) :
    Looks (do
      modify (·.setIfInBounds number (some seen))
      return seen) fun seen => ∀ v, seen = some v → v.Sectioned :=
  (looks_set h).bind fun _ _ => .pure h

theorem sectioned_of_map {wrap : α → Value} {o : Option α} {v : Value}
    (hwrap : ∀ a, (wrap a).entries? = none) (h : o.map wrap = some v) : v.Sectioned := by
  obtain ⟨a, -, rfl⟩ := Option.map_eq_some_iff.1 h
  exact Value.sectioned_of_entries? (hwrap a)

theorem looks_lookAt {parts : Array (Option Assembled)} (hparts : ∀ a, some a ∈ parts → a.Proper)
    (fuel number : Nat) :
    Looks (lookAt parts fuel number) fun seen => ∀ v, seen = some v → v.Sectioned := by
  have hnone : ∀ v : Value, none = some v → v.Sectioned := fun _ h => nomatch h
  induction fuel generalizing number with
  | zero => exact .pure hnone
  | succ fuel ih =>
    refine looks_get.bind fun s hs => ?_
    split
    · next known hknown =>
      refine .pure fun v hv => hs v (mem_of_getD (hknown.trans (congrArg some hv)) fun h => ?_)
      cases h
    refine (looks_set hnone).bind fun _ _ => ?_
    dsimp only
    split
    · next v hpart =>
      have hproper := hparts _ (mem_of_getD hpart fun h => nomatch h)
      exact looks_record fun w hw => Option.some.inj hw ▸ Value.sectioned_of_entries? hproper
    · exact (Looks.mapM ih _).bind fun values _ =>
        looks_record fun v hv => sectioned_of_map (fun _ => rfl) hv
    · refine Looks.bind (Looks.mapM (P := fun _ _ => True) (fun entry => ?_) _) fun values _ =>
        looks_record fun v hv => sectioned_of_map (fun _ => rfl) hv
      exact (ih _).bind fun _ _ => (ih _).bind fun _ _ => .pure trivial
    · next entries hpart =>
      have hkeys : Distinct entries := hparts _ (mem_of_getD hpart fun h => nomatch h)
      refine Looks.bind (Looks.mapM (fun entry => ?_) _) fun values hvalues =>
        looks_record fun v hv => sectioned_of_values hkeys hvalues hv
      exact (ih _).bind fun value hvalue => .pure ⟨rfl, hvalue⟩
    · exact looks_record hnone

end Looks

theorem keyed_cellOf {part : Nat → Value} (hpart : ∀ n, (part n).Keyed) {a : Assembled}
    (ha : a.Proper) {entries : List (Value × Value)} (h : cellOf part a = .mapping entries) :
    Distinct entries ∧ ∀ e ∈ entries, e.2.Keyed := by
  cases a with
  | mapping numbered =>
    cases h
    refine ⟨Distinct.of_keys ha ?_, fun e he => ?_⟩
    · rw [List.map_map]
      rfl
    · obtain ⟨entry, -, rfl⟩ := List.mem_map.1 he
      exact hpart _
  | value v =>
    have hnone : v.entries? = none := ha
    rw [cellOf] at h
    rw [h] at hnone
    cases hnone
  | _ => cases h

theorem sectioned_valueOf {parts : Array (Option Assembled)} (hparts : ∀ a, some a ∈ parts → a.Proper)
    (number : Nat) : (valueOf parts number).Sectioned := by
  have hstart : Outlook.Holds (Array.replicate parts.size none) := fun v hv =>
    absurd (Array.mem_replicate.1 hv).2 (by simp)
  have hlooks := looks_lookAt hparts (parts.size + 1) number _ hstart
  unfold valueOf
  cases hrun : (lookAt parts (parts.size + 1) number).run (Array.replicate parts.size none) with
  | mk seen outlook =>
    rw [StateT.run] at hrun
    rw [hrun] at hlooks
    obtain ⟨hknown, hseen⟩ := hlooks
    cases seen with
    | some v => exact hseen v rfl
    | none =>
      refine Value.sectioned_knot (fun entries hmem => ?_) _
      obtain ⟨n, -, hcell⟩ := List.mem_map.1 hmem
      refine keyed_cellOf (fun m => ?_) ?_ hcell
      · cases hm : (outlook.getD m none).join with
        | none =>
          rw [Option.getD_none]
          exact fun fields h => nomatch h
        | some v =>
          have hv : outlook.getD m none = some (some v) := Option.join_eq_some_iff.1 hm
          exact (hknown v (mem_of_getD hv fun h => nomatch h)).keyed
      · cases hpart : parts.getD n none with
        | none => trivial
        | some a => exact hparts a (mem_of_getD hpart fun h => nomatch h)

/-- A document that is a mapping has every key once, and so have the mappings in it. -/
theorem sectioned_of_load {cs : List Char} {beyond : Option Fault} {v : Value}
    (h : load cs beyond = .ok v) : v.Sectioned := by
  obtain ⟨root, -, h⟩ := ok_bind_iff.1 h
  cases root with
  | none =>
    cases h
    exact Value.sectioned_of_entries? rfl
  | some pair =>
    obtain ⟨parts, hparts, h⟩ := ok_bind_iff.1 h
    cases h
    exact sectioned_valueOf (fun a ha => proper_of_assembled hparts ha) _

end Yaml

end TradingHours
