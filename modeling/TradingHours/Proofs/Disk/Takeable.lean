import TradingHours.Disk.Call
import TradingHours.Proofs.Disk.Holds
/-!
Paths that calls take: texts without a NUL that are not too long, with names that are not too long.
The path of the folder around is taken with a path, and a text without a NUL is turned down for a
NUL by no call that writes it.
-/
namespace TradingHours.Disk

variable {p q : Path} {names : List String}

def Short (name : String) : Prop := name = ".." ∨ name.utf8ByteSize ≤ maxNameLength

instance {name : String} : Decidable (Short name) :=
  inferInstanceAs (Decidable (name = ".." ∨ name.utf8ByteSize ≤ maxNameLength))

structure Path.Takeable (p : Path) : Prop where
  nul : p.hasNul = false
  length : tooLong p = false
  names : ∀ name ∈ p.parts, Short name

namespace Path

theorem text_of_parts {last : String} (hparts : p.parts = names ++ [last]) (hne : names ≠ []) :
    p.text = p.parent.text ++ ("/" ++ last) := by
  have hjoin : "/".intercalate (names ++ [last]) = "/".intercalate names ++ ("/" ++ last) := by
    rw [String.intercalate_append_of_ne_nil hne (by simp), String.intercalate_singleton,
      String.append_assoc]
  unfold text parent
  simp only [hparts, List.dropLast_concat, hjoin]
  cases p.root <;> simp [hne, String.append_assoc]

theorem takeable_of_parts_eq_nil (h : p.parts = []) : p.Takeable := by
  obtain ⟨root, parts⟩ := p
  cases h
  cases root <;> exact ⟨by decide, by decide, by simp⟩

theorem parts_ne_nil_of_parent (h : p.parent.parts ≠ []) : p.parts ≠ [] := by
  intro hnil
  exact h (by rw [parent, hnil, List.dropLast_nil])

theorem hasNul_parent (h : p.hasNul = false) : p.parent.hasNul = false := by
  by_cases hempty : p.parent.parts = []
  · exact (takeable_of_parts_eq_nil hempty).nul
  · have htext := text_of_parts
      (List.dropLast_concat_getLast (parts_ne_nil_of_parent hempty)).symm hempty
    rw [hasNul, htext, String.toList_append, List.contains_append, Bool.or_eq_false_iff] at h
    exact h.1

theorem tooLong_parent (h : tooLong p = false) : tooLong p.parent = false := by
  by_cases hempty : p.parent.parts = []
  · exact (takeable_of_parts_eq_nil hempty).length
  · have htext := text_of_parts
      (List.dropLast_concat_getLast (parts_ne_nil_of_parent hempty)).symm hempty
    rw [tooLong, htext, String.utf8ByteSize_append, decide_eq_false_iff_not] at h
    rw [tooLong, decide_eq_false_iff_not]
    omega

theorem Takeable.parent (h : p.Takeable) : p.parent.Takeable :=
  ⟨hasNul_parent h.nul, tooLong_parent h.length,
    fun name hname => h.names name (List.dropLast_subset _ hname)⟩

end Path

section Nul

variable {place : Place} {bytes : ByteArray}

theorem attempt_spares_nul (paths : List String) : NeverThrows .embeddedNul (attempt paths) := by
  refine NeverThrows.get.bind fun d => ?_
  split
  · exact .pure _
  · exact .modify _
  · exact (NeverThrows.modify _).bind fun _ => .throw (by simp)

theorem fill_spares_nul : NeverThrows .embeddedNul (fill place bytes) :=
  (attempt_spares_nul _).bind fun _ => .modify _

variable (hnul : p.hasNul = false)
include hnul

theorem place_spares_nul : NeverThrows .embeddedNul (Disk.place p) := by
  intro d
  rw [exec_place, locate, hnul]
  simp only [Bool.false_eq_true, if_false]
  split
  · simp
  · split <;> simp

theorem isFolder?_spares_nul : NeverThrows .embeddedNul (isFolder? p) := by
  have hentry : NeverThrows .embeddedNul (entryAt p) := by
    refine (place_spares_nul hnul).bind fun here => NeverThrows.get.bind fun d => ?_
    split
    · exact .pure _
    · exact .throw (by simp)
  refine (((attempt_spares_nul _).bind fun _ => hentry).bind fun entry => ?_).tryCatch
    fun fault hfault => ?_
  · cases entry
    · exact .pure _
    · exact .pure _
  · split
    · exact .pure _
    · exact .throw hfault

theorem folderThere_spares_nul {fault : Fault} (hfault : fault ≠ .embeddedNul) :
    NeverThrows .embeddedNul (do unless ← isFolder? p do throw fault) := by
  refine (isFolder?_spares_nul hnul).bind fun there => ?_
  split
  · exact .pure ()
  · exact .throw hfault

theorem makeFolder_spares_nul : NeverThrows .embeddedNul (makeFolder p) := by
  refine (attempt_spares_nul _).bind fun _ => (place_spares_nul hnul).bind fun here =>
    NeverThrows.get.bind fun d => ?_
  split
  · exact .throw (by simp)
  · exact .modify _

theorem ensureFolder_spares_nul : NeverThrows .embeddedNul (ensureFolder p) := by
  refine (makeFolder_spares_nul hnul).tryCatch fun fault hfault => ?_
  split
  · exact .throw hfault
  · exact folderThere_spares_nul hnul hfault
  · exact .throw hfault

theorem ensureFolders_spares_nul : NeverThrows .embeddedNul (ensureFolders p) := by
  induction p using ensureFolders.induct with
  | case1 p ih =>
    rw [ensureFolders]
    refine (makeFolder_spares_nul hnul).tryCatch fun fault hfault => ?_
    split
    · split
      · exact .throw hfault
      · next hne =>
        have hparent := ih hne (Path.hasNul_parent hnul)
        exact hparent.bind fun _ => ensureFolder_spares_nul hnul
    · exact folderThere_spares_nul hnul hfault
    · exact .throw hfault

theorem write_spares_nul : NeverThrows .embeddedNul (write p bytes) := by
  refine NeverThrows.bind ?_ fun _ => fill_spares_nul
  refine (attempt_spares_nul _).bind fun _ => (place_spares_nul hnul).bind fun here =>
    NeverThrows.get.bind fun d => ?_
  split
  · exact .throw (by simp)
  · exact (NeverThrows.modify _).bind fun _ => .pure _

end Nul

end TradingHours.Disk
