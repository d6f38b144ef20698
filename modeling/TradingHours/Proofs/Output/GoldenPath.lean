import TradingHours.Output.Minute
import TradingHours.Proofs.Text.Lines
import TradingHours.Proofs.Text.Pieces
/-!
The paths of reference files. Keys without a slash have their files in one folder, whatever the
names of the files start with.
-/
namespace TradingHours

namespace Disk.Path

variable {p q : Path}

theorem parent_join (h : q.parts ≠ []) : (p.join q).parent = p.join q.parent := by
  unfold join parent
  by_cases hroot : q.root = .relative
  · simp [hroot, List.dropLast_append_of_ne_nil h]
  · simp [hroot]

/-- The root of a path shows before the first character that is no slash. -/
theorem root_ofText_append {back : String} {c : Char} {rest : List Char}
    (h : back.toList = c :: rest) (hc : c ≠ '/') (front : String) :
    (ofText (front ++ back)).root = (ofText front).root := by
  unfold ofText
  simp only [String.toList_append, h]
  match front.toList with
  | [] => simp [hc]
  | [a] => by_cases ha : a = '/' <;> simp [ha, hc]
  | [a, b] => by_cases ha : a = '/' <;> by_cases hb : b = '/' <;> simp [ha, hb, hc]
  | a :: b :: e :: rest =>
    by_cases ha : a = '/' <;> by_cases hb : b = '/' <;> by_cases he : e = '/' <;> simp [ha, hb, he]

/-- A plain end of a text belongs to the last name, which is kept if the end is long enough. -/
theorem partsOf_append (front : List Char) : ∃ names piece, ∀ back, '/' ∉ back →
    2 ≤ back.length → partsOf (front ++ back) = names ++ [String.ofList (piece ++ back)] := by
  refine ⟨((front.splitOn '/').dropLast.filter fun name => name ≠ [] ∧ name ≠ ['.']).map
    String.ofList, (front.splitOn '/').getLast?.getD [], fun back hplain hlong => ?_⟩
  obtain ⟨pieces, last, hfront, happend⟩ := Text.exists_splitOn_append_right hplain front
  have hkept : last ++ back ≠ [] ∧ last ++ back ≠ ['.'] := by
    constructor
    · intro h
      simp [List.append_eq_nil_iff.1 h] at hlong
    · intro h
      have hlength := congrArg List.length h
      simp only [List.length_append, List.length_singleton] at hlength
      omega
  rw [partsOf, Text.splitOnChar_eq_splitOn, happend, hfront, List.dropLast_concat,
    List.getLast?_concat, Option.getD_some, List.filter_append, List.map_append]
  simp only [List.filter_cons, hkept, decide_true, if_true, List.filter_nil, List.map_cons,
    List.map_nil, ne_eq, not_false_eq_true, and_self]

/-- A plain end of a text, long enough to be kept as a part of a name, ends the path of the text and
changes nothing else of it. -/
theorem exists_ofText_append (front : String) : ∃ (q : Path) (piece : List Char), ∀ back : String,
    '/' ∉ back.toList → 2 ≤ back.toList.length → ofText (front ++ back) =
      { q with parts := q.parts ++ [String.ofList (piece ++ back.toList)] } := by
  obtain ⟨names, piece, hnames⟩ := partsOf_append front.toList
  refine ⟨⟨(ofText front).root, names⟩, piece, fun back hplain hlong => ?_⟩
  obtain ⟨c, rest, hback⟩ := List.exists_cons_of_length_pos (by omega : 0 < back.toList.length)
  have hc : c ≠ '/' := fun h => hplain (by rw [hback, h]; exact List.mem_cons_self)
  have hroot := root_ofText_append hback hc front
  have hparts : (ofText (front ++ back)).parts =
      names ++ [String.ofList (piece ++ back.toList)] := by
    rw [← hnames back.toList hplain hlong, ofText, String.toList_append]
  rw [← hroot, ← hparts]

/-- A plain end of a text, long enough to be kept as a part of a name, leaves the folder around the
path of the text what it is. -/
theorem exists_parent_ofText_append (front : String) : ∃ q : Path, ∀ back : String,
    '/' ∉ back.toList → 2 ≤ back.toList.length → (ofText (front ++ back)).parts ≠ [] ∧
      (ofText (front ++ back)).parent = q := by
  obtain ⟨q, piece, hq⟩ := exists_ofText_append front
  refine ⟨q, fun back hplain hlong => ?_⟩
  rw [hq back hplain hlong]
  exact ⟨by simp, by simp [parent]⟩

end Disk.Path

namespace Output.Golden

variable {g : Golden} {d : Day} {tvKey other : String}

theorem slash_not_mem_compact (d : Day) : '/' ∉ d.compact.toList := by
  intro h
  simp only [Day.compact, String.toList_append, List.mem_append] at h
  rcases h with (h | h) | h <;> cases Text.isDigit_of_mem_padded h

/-- Keys without a slash have their files in one folder. -/
theorem parent_path_eq (g : Golden) (d : Day) (hkey : '/' ∉ tvKey.toList)
    (hother : '/' ∉ other.toList) : (g.path tvKey d).parent = (g.path other d).parent := by
  obtain ⟨q, hq⟩ := Disk.Path.exists_parent_ofText_append g.opening
  have hpath : ∀ key : String, '/' ∉ key.toList → (g.path key d).parent = g.folder.join q := by
    intro key hplain
    rw [path]
    generalize hbare : (if Source.venueMark.isPrefixOf key.toList = true then
      key.toList.drop Source.venueMark.length else key.toList) = bare
    have hkept : '/' ∉ bare := by
      rw [← hbare]
      split
      · exact fun h => hplain (List.mem_of_mem_drop h)
      · exact hplain
    obtain ⟨hparts, hparent⟩ := hq (String.ofList bare ++ ("_" ++ (d.compact ++ ".txt")))
      (by simp [hkept, slash_not_mem_compact]) (by simp; omega)
    rw [String.append_assoc, String.append_assoc, String.append_assoc, Disk.Path.child,
      Disk.Path.parent_join hparts, hparent]
  rw [hpath tvKey hkey, hpath other hother]

end Output.Golden

end TradingHours
