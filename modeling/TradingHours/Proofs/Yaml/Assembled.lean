import TradingHours.Proofs.Effect
import TradingHours.Proofs.Value.Entries
import TradingHours.Yaml.Document
/-!
What the nodes of a document come to: mappings that have every key once, and no mappings but those.
-/
namespace TradingHours.Yaml

open Value (Distinct)

def Assembled.Proper : Assembled → Prop
  | .mapping entries => Distinct entries
  | .value v => v.entries? = none
  | _ => True

section Entries

variable {entries : List (Option Nat × Value × Nat)} {entry : Option Nat × Value × Nat}

theorem map_key_modify (place value : Nat) :
    ((entries.modify place fun (node, key, _) => (node, key, value)).map (·.2)).map (·.1) =
      (entries.map (·.2)).map (·.1) := by
  apply List.ext_getElem?
  intro i
  simp only [List.getElem?_map, List.getElem?_modify]
  cases entries[i]? with
  | none => rfl
  | some e => by_cases hi : place = i <;> simp [hi]

theorem distinct_putEntry (h : Distinct (entries.map (·.2))) :
    Distinct ((Assembler.entriesOf.putEntry entries entry).map (·.2)) := by
  obtain ⟨node, key, value⟩ := entry
  unfold Assembler.entriesOf.putEntry
  dsimp only
  split
  · exact h.of_keys (map_key_modify _ value)
  · next hnew =>
    rw [List.map_append]
    refine List.pairwise_append.2 ⟨h, List.pairwise_singleton _ _, fun a ha b hb => ?_⟩
    cases List.mem_singleton.1 hb
    obtain ⟨e, he, rfl⟩ := List.mem_map.1 ha
    exact (Bool.or_eq_false_iff.1 (List.findIdx?_eq_none_iff.1 hnew e he)).2

theorem distinct_foldl_putEntry (met : List (Option Nat × Value × Nat))
    (h : Distinct (entries.map (·.2))) :
    Distinct ((met.foldl Assembler.entriesOf.putEntry entries).map (·.2)) := by
  induction met generalizing entries with
  | nil => exact h
  | cons entry met ih => exact ih (distinct_putEntry h)

end Entries

theorem entries?_timestampValue {cs : List Char} {v : Value} (h : timestampValue cs = .ok v) :
    v.entries? = none := by
  unfold timestampValue at h
  dsimp only at h
  split at h
  · cases h
  split at h
  · obtain ⟨d, -, h⟩ := ok_bind_iff.1 h
    cases h
    rfl
  · next s _ t _ =>
    have hinstant : ∀ {x : Except ScalarFault Day} {k : Day → Except ScalarFault Value},
        (∀ d, k d = .ok v → v.entries? = none) → x >>= k = .ok v → v.entries? = none := by
      intro x k hk hx
      obtain ⟨d, -, hx⟩ := ok_bind_iff.1 hx
      exact hk d hx
    split at h
    · refine hinstant (fun d hd => ?_) h
      split at hd <;> cases hd
      rfl
    · split at h <;> split at h
      · cases h
      · refine hinstant (fun d hd => ?_) h
        split at hd <;> cases hd
        rfl
      · cases h
      · refine hinstant (fun d hd => ?_) h
        split at hd <;> cases hd
        rfl

theorem entries?_scalarValue {tag : Tag} {cs : List Char} {v : Value}
    (h : scalarValue tag cs = .ok v) : v.entries? = none := by
  unfold scalarValue at h
  dsimp only at h
  split at h
  · cases h
    rfl
  · split at h <;> cases h
    rfl
  · split at h <;> cases h
    rfl
  · split at h <;> cases h
    rfl
  · split at h
    · next hstamp =>
      cases h
      exact entries?_timestampValue hstamp
    · cases h
  · cases h
    rfl
  · split at h <;> cases h
    rfl
  · cases h

theorem entries?_scalarOf {g : Graph} {number : Nat} {v : Value}
    (h : g.scalarOf number = .ok v) : v.entries? = none := by
  unfold Graph.scalarOf at h
  dsimp only at h
  split at h
  · cases h
  obtain ⟨text, -, h⟩ := ok_bind_iff.1 h
  split at h
  · cases h
  · exact entries?_scalarValue h

namespace Assembler

variable {α β : Type} {x : Assembler α} {f : α → Assembler β} {Q : α → Prop} {R : β → Prop}

def Holds (s : Assembly) : Prop := ∀ a, some a ∈ s.assembled → a.Proper

/-- Assembling keeps what nodes come to proper, and what it returns meets a condition. -/
def Keeps (x : Assembler α) (Q : α → Prop) : Prop :=
  ∀ s a s', x s = .ok (a, s') → Holds s → Holds s' ∧ Q a

theorem Keeps.pure {a : α} (h : Q a) : Keeps (Pure.pure a) Q := by
  intro s b s' hx hs
  cases hx
  exact ⟨hs, h⟩

theorem Keeps.bind (hx : Keeps x Q) (hf : ∀ a, Q a → Keeps (f a) R) : Keeps (x >>= f) R := by
  intro s b s'' hrun hs
  obtain ⟨⟨a, s'⟩, hfirst, hrest⟩ := ok_bind_iff.1 hrun
  obtain ⟨hs', ha⟩ := hx s a s' hfirst hs
  exact hf a ha s' b s'' hrest hs'

theorem Keeps.throw {e : Fault} : Keeps (throw e : Assembler α) Q := by
  intro s a s' hx
  cases hx

theorem Keeps.lift {r : Except Fault α} (h : ∀ a, r = .ok a → Q a) :
    Keeps (liftM r : Assembler α) Q := by
  intro s a s' hx hs
  obtain ⟨a', hr, hx⟩ := ok_bind_iff.1 hx
  cases hx
  exact ⟨hs, h _ hr⟩

theorem Keeps.get : Keeps get Holds := by
  intro s a s' hx hs
  cases hx
  exact ⟨hs, hs⟩

theorem Keeps.modify {g : Assembly → Assembly} (h : ∀ s, Holds s → Holds (g s)) :
    Keeps (modify g : Assembler Unit) fun _ => True := by
  intro s a s' hx hs
  cases hx
  exact ⟨h s hs, trivial⟩

theorem Keeps.mapM {g : α → Assembler β} (hg : ∀ a, Keeps (g a) fun _ => True) (l : List α) :
    Keeps (l.mapM g) fun _ => True := by
  induction l with
  | nil => exact .pure trivial
  | cons a l ih =>
    rw [List.mapM_cons]
    exact (hg a).bind fun _ _ => ih.bind fun _ _ => .pure trivial

theorem Keeps.forM {g : α → Assembler PUnit} (hg : ∀ a, Keeps (g a) fun _ => True) (l : List α) :
    Keeps (l.forM g) fun _ => True := by
  induction l with
  | nil => exact .pure trivial
  | cons a l ih =>
    exact (hg a).bind fun _ _ => ih

theorem keeps_put {a : Assembled} (number : Nat) (h : a.Proper) :
    Keeps (put number a) fun _ => True := by
  refine .modify fun s hs b hb => ?_
  rcases Array.mem_or_eq_of_mem_setIfInBounds hb with hb | hb
  · exact hs b hb
  · cases hb
    exact h

theorem keeps_meet (number : Nat) : Keeps (meet number) fun _ => True := by
  refine Keeps.get.bind fun s _ => ?_
  split
  · exact .pure trivial
  split
  · refine Keeps.bind (keeps_put (a := .waiting) number trivial) fun _ _ => ?_
    exact .modify fun s hs => hs
  · exact (Keeps.lift fun v hv => entries?_scalarOf hv).bind fun v hv => keeps_put number hv

theorem keeps_meetKey (number : Nat) : Keeps (meetKey number) fun _ => True := by
  refine (keeps_meet number).bind fun _ _ => Keeps.get.bind fun s _ => ?_
  split
  · exact .pure trivial
  · exact .throw

theorem keeps_entriesOf (number : Nat) : Keeps (entriesOf number) Distinct := by
  refine Keeps.get.bind fun s _ => (Keeps.lift fun _ _ => trivial).bind fun ⟨_, graph⟩ _ => ?_
  refine Keeps.bind (Keeps.modify fun s hs => ?_) fun _ _ => ?_
  · exact hs
  split
  · exact .throw
  · refine (Keeps.mapM (fun entry => ?_) _).bind fun met _ => .pure (distinct_foldl_putEntry met .nil)
    exact (keeps_meetKey _).bind fun _ _ => (keeps_meet _).bind fun _ _ => .pure trivial

theorem keeps_assemblePairs (g : Graph) (number : Nat) (items : List Nat) :
    Keeps (do
      let entries ← items.mapM fun item => do
        match g.content item with
        | .mapping [(key, value)] =>
          meet key
          meet value
          return (key, value)
        | _ => throw Fault.form
      put number (.pairs entries)) fun _ => True := by
  refine (Keeps.mapM (fun item => ?_) items).bind fun entries _ => keeps_put number trivial
  split
  · exact (keeps_meet _).bind fun _ _ => (keeps_meet _).bind fun _ _ => .pure trivial
  · exact .throw

theorem keeps_assemble (number : Nat) : Keeps (assemble number) fun _ => True := by
  refine Keeps.get.bind fun s _ => ?_
  dsimp only
  split
  · exact (keeps_entriesOf number).bind fun entries h => keeps_put number h
  · exact (keeps_entriesOf number).bind fun entries _ => keeps_put number rfl
  · exact (Keeps.forM keeps_meet _).bind fun _ _ => keeps_put number trivial
  · exact keeps_assemblePairs _ number _
  · exact keeps_assemblePairs _ number _
  · exact .throw

theorem keeps_assembleFrom (fuel place : Nat) : Keeps (assembleFrom fuel place) fun _ => True := by
  induction fuel generalizing place with
  | zero => exact .pure trivial
  | succ fuel ih =>
    refine Keeps.get.bind fun s _ => ?_
    split
    · exact .pure trivial
    · exact (keeps_assemble _).bind fun _ _ => ih _

end Assembler

/-- What the nodes of a document come to is proper. -/
theorem proper_of_assembled {g : Graph} {root : Nat} {parts : Array (Option Assembled)}
    (h : assembled g root = .ok parts) {a : Assembled} (ha : some a ∈ parts) : a.Proper := by
  obtain ⟨⟨_, s⟩, hrun, h⟩ := ok_bind_iff.1 h
  cases h
  have hkeeps := (Assembler.keeps_meet root).bind fun _ _ => Assembler.keeps_assembleFrom (g.size + 1) 0
  refine (hkeeps _ _ s hrun fun b hb => ?_).1 a ha
  exact absurd (Array.mem_replicate.1 hb).2 (by simp)

end TradingHours.Yaml
