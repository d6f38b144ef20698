import TradingHours.Disk.Path
import TradingHours.Proofs.Text.Pieces
/-!
Names that stand for a file in a folder. The path of such a name below a folder is that of the
folder with the name at its end.
-/
namespace TradingHours.Disk

structure FileName (name : String) : Prop where
  nonempty : name ≠ ""
  dot : name ≠ "."
  dots : name ≠ ".."
  plain : '/' ∉ name.toList

def Path.InFolder (p folder : Path) : Prop :=
  ∃ name, FileName name ∧ p = { folder with parts := folder.parts ++ [name] }

variable {name : String} {p : Path}

theorem fileName_of_long (hplain : '/' ∉ name.toList) (hlong : 2 < name.toList.length) :
    FileName name := by
  refine ⟨?_, ?_, ?_, hplain⟩
  · rintro rfl
    exact absurd hlong (by decide)
  · rintro rfl
    exact absurd hlong (by decide)
  · rintro rfl
    exact absurd hlong (by decide)

namespace Path

theorem ofText_fileName (h : FileName name) : ofText name = ⟨.relative, [name]⟩ := by
  have hnil : name.toList ≠ [] := fun heq => h.nonempty (String.toList_eq_nil_iff.1 heq)
  have hdot : name.toList ≠ ['.'] := fun heq => h.dot (String.toList_inj.1 heq)
  have hparts : partsOf name.toList = [name] := by
    rw [partsOf, Text.splitOnChar_eq_splitOn, List.splitOn_eq_singleton h.plain]
    simp [hnil, hdot]
  obtain ⟨c, rest, hchars⟩ := List.exists_cons_of_ne_nil hnil
  have hc : c ≠ '/' := fun heq => h.plain (by rw [hchars, heq]; exact List.mem_cons_self)
  rw [ofText, hparts, hchars]
  simp [hc]

theorem child_fileName (h : FileName name) (p : Path) :
    p.child name = { p with parts := p.parts ++ [name] } := by
  rw [child, ofText_fileName h, join, if_pos rfl]

theorem inFolder_child (h : FileName name) (p : Path) : (p.child name).InFolder p :=
  ⟨name, h, child_fileName h p⟩

theorem plain_of_mem_parts {text part : String} (h : part ∈ (ofText text).parts) :
    '/' ∉ part.toList := by
  rw [ofText, partsOf, Text.splitOnChar_eq_splitOn] at h
  obtain ⟨piece, hpiece, rfl⟩ := List.mem_map.1 h
  rw [String.toList_ofList]
  exact Text.separator_not_mem_of_mem_splitOn (List.mem_filter.1 hpiece).1

/-- The characters of a stem are among those of the name. -/
theorem mem_name_of_mem_stem {c : Char} (h : c ∈ p.stem.toList) : c ∈ p.name.toList := by
  rw [stem] at h
  split at h
  · next before hbefore =>
    split at h
    · exact h
    · rw [String.toList_ofList, List.mem_reverse] at h
      have hsuffix : '.' :: before <:+ p.name.toList.reverse := by
        rw [← hbefore]
        exact List.dropWhile_suffix _
      exact List.mem_reverse.1 (hsuffix.mem (List.mem_cons_of_mem _ h))
  · exact h

theorem plain_stem_ofText (text : String) : '/' ∉ (ofText text).stem.toList := by
  intro h
  have hname := mem_name_of_mem_stem h
  rw [name] at hname
  cases hlast : (ofText text).parts.getLast? with
  | none => simp [hlast] at hname
  | some part =>
    rw [hlast, Option.getD_some] at hname
    exact plain_of_mem_parts (List.mem_of_getLast? hlast) hname

end Path

end TradingHours.Disk
