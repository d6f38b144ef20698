import TradingHours.Value.Basic
/-!
What mappings have under a name, and mappings that have every key once.
-/
namespace TradingHours.Value

variable {k v : Value} {name : String} {entries base : List (Value × Value)}

theorem sameKey_text_iff : sameKey k (text name) = true ↔ k = text name := by
  cases k with
  | number x => cases hx : x.quotient? <;> simp [sameKey, keyNumber?, hx]
  | _ => simp [sameKey, keyNumber?]

theorem text_sameKey_iff : sameKey (text name) k = true ↔ k = text name := by
  cases k with
  | text s =>
    simp only [sameKey, beq_iff_eq, text.injEq]
    exact eq_comm
  | _ => simp [sameKey, keyNumber?]

theorem field?_cons_self : field? ((text name, v) :: entries) name = some v := by
  rw [field?, found?, if_pos (sameKey_text_iff.2 rfl)]

theorem field?_cons_of_ne (h : k ≠ text name) :
    field? ((k, v) :: entries) name = field? entries name := by
  rw [field?, found?, if_neg (mt sameKey_text_iff.1 h), field?]

theorem field?_setEntry_self : field? (setEntry base (text name) v) name = some v := by
  induction base with
  | nil => exact field?_cons_self
  | cons entry rest ih =>
    obtain ⟨key, value⟩ := entry
    rw [setEntry]
    split
    · next hkey =>
      rw [sameKey_text_iff.1 hkey]
      exact field?_cons_self
    · next hkey => rw [field?_cons_of_ne (mt sameKey_text_iff.2 hkey), ih]

theorem field?_setEntry_of_ne (h : k ≠ text name) :
    field? (setEntry base k v) name = field? base name := by
  induction base with
  | nil => exact field?_cons_of_ne h
  | cons entry rest ih =>
    obtain ⟨key, value⟩ := entry
    rw [setEntry]
    by_cases hname : key = text name
    · rw [hname, if_neg (mt text_sameKey_iff.1 h), field?_cons_self, field?_cons_self]
    · split
      · rw [field?_cons_of_ne hname, field?_cons_of_ne hname]
      · rw [field?_cons_of_ne hname, field?_cons_of_ne hname, ih]

def Distinct {α : Type} (entries : List (Value × α)) : Prop :=
  entries.Pairwise fun a b => sameKey a.1 b.1 = false

theorem Distinct.of_keys {α β : Type} {entries : List (Value × α)} {others : List (Value × β)}
    (h : Distinct entries) (hkeys : others.map (·.1) = entries.map (·.1)) : Distinct others := by
  have hpairwise : (entries.map (·.1)).Pairwise fun a b => sameKey a b = false :=
    List.pairwise_map.2 h
  rw [← hkeys] at hpairwise
  exact List.pairwise_map.1 hpairwise

theorem field?_eq_none_of_distinct (h : Distinct ((text name, v) :: entries)) :
    field? entries name = none := by
  have hkeys := (List.pairwise_cons.1 h).1
  clear h
  induction entries with
  | nil => rfl
  | cons entry rest ih =>
    obtain ⟨hentry, hrest⟩ := List.forall_mem_cons.1 hkeys
    have hne : entry.1 ≠ text name := fun heq => by
      rw [text_sameKey_iff.2 heq] at hentry
      cases hentry
    rw [field?_cons_of_ne hne]
    exact ih hrest

end TradingHours.Value
