import TradingHours.Market
import TradingHours.Proofs.StateFile.RoundTrip
import TradingHours.Proofs.Text.Fields
import TradingHours.Proofs.Trail
/-!
The markets of an allowlist and their identifiers. An identifier without an equals sign and without
an exclamation mark in front has a line in the state file.
-/
namespace TradingHours.Market

open Traced (Answers)

def listed? (pair : String × Nat) : Option Market :=
  match ofLine? pair.1 (some pair.2) with
  | .ok market => market
  | .error _ => none

theorem ofNumberedLines_answers (lines : List (String × Nat)) :
    Answers (ofNumberedLines lines) (.ok (lines.filterMap listed?)) := by
  induction lines with
  | nil => exact .pure []
  | cons pair rest ih =>
    obtain ⟨line, number⟩ := pair
    rw [ofNumberedLines, List.filterMap_cons, listed?]
    cases ofLine? line (some number) with
    | error incident => exact .bind (g := fun _ => .ok _) (.note _) fun _ => ih
    | ok market =>
      cases market with
      | none => exact ih
      | some market => exact .bind (g := fun more => .ok (market :: more)) ih fun _ => .pure _

theorem ofLine?_eq_some {line : String} {number : Option Int} {market : Market}
    (h : ofLine? line number = .ok (some market)) :
    isRemark (Text.trimChars line.toList) = false ∧
      ∃ rest, Text.fields line = market.id :: market.tvKey :: market.itemKey :: rest := by
  unfold ofLine? at h
  split at h
  · cases h
  · next hremark =>
    refine ⟨eq_false_of_ne_true hremark, ?_⟩
    split at h
    · next id tvKey itemKey more hfields =>
      cases h
      exact ⟨_, hfields⟩
    · cases h

theorem word_tvKey {line : String} {number : Option Int} {market : Market}
    (h : ofLine? line number = .ok (some market)) : Text.Word market.tvKey := by
  obtain ⟨-, rest, hfields⟩ := ofLine?_eq_some h
  exact Text.word_of_mem_fields (by rw [hfields]; simp)

theorem storable_id {line : String} {number : Option Int} {market : Market}
    (h : ofLine? line number = .ok (some market)) (hbare : '=' ∉ market.id.toList)
    (hbang : market.id.toList.head? ≠ some '!') : StateFile.Storable market.id := by
  obtain ⟨hremark, rest, hfields⟩ := ofLine?_eq_some h
  have hword : Text.Word market.id :=
    Text.word_of_mem_fields (by rw [hfields]; exact List.mem_cons_self)
  constructor
  · exact hword.nonempty
  · exact ⟨fun c hc => hword.bare c (List.mem_of_mem_head? hc),
      fun c hc => hword.bare c (List.mem_of_mem_getLast? hc)⟩
  · intro c hc
    rw [isRemark, Bool.or_eq_false_iff, decide_eq_false_iff_not, List.isEmpty_eq_false_iff] at hremark
    refine ⟨?_, ?_⟩
    · -- the line would be a comment
      rintro rfl
      rw [Text.head?_of_fields hfields, ← Text.head?_trimChars hremark.1] at hc
      exact hremark.2 hc
    · rintro rfl
      exact hbang hc
  · exact hbare
  · intro c hc
    cases hbreak : Text.isLineBreak c with
    | false => rfl
    | true =>
      have hblank : Text.isBlank c = false := hword.bare c hc
      rw [Text.isBlank_of_isLineBreak hbreak] at hblank
      cases hblank

theorem ofLines_answers (lines : List String) :
    Answers (ofLines lines) (.ok ((lines.zipIdx 1).filterMap listed?)) :=
  ofNumberedLines_answers _

theorem of_listed? {pair : String × Nat} {market : Market} (h : listed? pair = some market) :
    ofLine? pair.1 (some pair.2) = .ok (some market) := by
  unfold listed? at h
  split at h
  · next heq => rw [heq, h]
  · cases h

theorem storable_of_listed {pair : String × Nat} {market : Market} (h : listed? pair = some market)
    (hbare : '=' ∉ market.id.toList) (hbang : market.id.toList.head? ≠ some '!') :
    StateFile.Storable market.id :=
  storable_id (of_listed? h) hbare hbang

theorem word_itemKey {lines : List String} {markets : List Market} {market : Market}
    (h : (ofLines lines).answer = .ok markets) (hm : market ∈ markets) :
    Text.Word market.itemKey := by
  rw [(ofLines_answers lines).answer_eq] at h
  cases h
  obtain ⟨pair, -, hpair⟩ := List.mem_filterMap.1 hm
  obtain ⟨-, rest, hfields⟩ := ofLine?_eq_some (of_listed? hpair)
  exact Text.word_of_mem_fields (by rw [hfields]; simp)

theorem storable_iff {lines : List String} {markets : List Market} {market : Market}
    (h : (ofLines lines).answer = .ok markets) (hm : market ∈ markets) :
    StateFile.Storable market.id ↔
      '=' ∉ market.id.toList ∧ market.id.toList.head? ≠ some '!' := by
  rw [(ofLines_answers lines).answer_eq] at h
  cases h
  obtain ⟨pair, -, hpair⟩ := List.mem_filterMap.1 hm
  constructor
  · intro hstorable
    exact ⟨hstorable.bare, fun hbang => (hstorable.unmarked _ hbang).2 rfl⟩
  · rintro ⟨hbare, hbang⟩
    exact storable_of_listed hpair hbare hbang

end TradingHours.Market
