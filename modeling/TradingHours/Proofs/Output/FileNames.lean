import TradingHours.Proofs.Disk.Names
import TradingHours.Proofs.Output.GoldenPath
/-!
Which files of minutes share a path. The file of a market shows its id and the file of a venue key
shows the key without its mark, so without slashes in them different markets have different files,
and two keys share a file if they are the same but for one mark. Main statement: `paths_of_plain`.
-/
namespace TradingHours

namespace Disk.Path

theorem join_concat (p q : Path) (name : String) :
    p.join { q with parts := q.parts ++ [name] } =
      { p.join q with parts := (p.join q).parts ++ [name] } := by
  unfold join
  by_cases hroot : q.root = .relative
  · simp [hroot]
  · simp [hroot]

/-- Paths of texts with plain ends behind the same front are the same if the ends are. -/
theorem child_append_inj {front back other : String} (p : Path) (hback : '/' ∉ back.toList)
    (hother : '/' ∉ other.toList) (hlong : 2 ≤ back.toList.length)
    (hlong' : 2 ≤ other.toList.length) :
    p.child (front ++ back) = p.child (front ++ other) ↔ back = other := by
  obtain ⟨q, piece, hq⟩ := exists_ofText_append front
  rw [child, child, hq back hback hlong, hq other hother hlong', join_concat, join_concat]
  simp

end Disk.Path

namespace Output

variable {a b : Market} {d : Day}

def dayEnding (d : Day) : String := "_" ++ d.compact ++ ".txt"

theorem plain_dayEnding (d : Day) : '/' ∉ (dayEnding d).toList := by
  simp [dayEnding, Golden.slash_not_mem_compact]

theorem long_append_dayEnding (text : String) (d : Day) :
    2 < (text ++ dayEnding d).toList.length := by
  simp [dayEnding]
  omega

theorem minutePath_eq (sender : Disk.Path) (a : Market) (d : Day) : minutePath sender a d =
    (minuteFolder sender).child (sender.stem ++ "_" ++ (a.id ++ dayEnding d)) := by
  rw [minutePath, dayEnding]
  simp only [String.append_assoc]

theorem minutePath_inj (sender : Disk.Path) (ha : '/' ∉ a.id.toList) (hb : '/' ∉ b.id.toList) :
    minutePath sender a d = minutePath sender b d ↔ a.id = b.id := by
  rw [minutePath_eq, minutePath_eq, Disk.Path.child_append_inj _
    (by simp [ha, plain_dayEnding]) (by simp [hb, plain_dayEnding])
    (Nat.le_of_lt (long_append_dayEnding a.id d)) (Nat.le_of_lt (long_append_dayEnding b.id d))]
  exact String.append_left_inj _

theorem inFolder_minutePath (sender : String) (ha : '/' ∉ a.id.toList) :
    (minutePath (.ofText sender) a d).InFolder (minuteFolder (.ofText sender)) := by
  rw [minutePath_eq, ← String.append_assoc]
  have hplain : '/' ∉ ((Disk.Path.ofText sender).stem ++ "_" ++ a.id ++ dayEnding d).toList := by
    simp [Disk.Path.plain_stem_ofText, ha, plain_dayEnding]
  exact Disk.Path.inFolder_child (Disk.fileName_of_long hplain (long_append_dayEnding _ d)) _

namespace Golden

def Marked (tvKey : String) : Prop := ∃ bare, tvKey = "tv." ++ bare

/-- What the name of a reference file shows of a venue key: the key without its mark. -/
def shownKey (tvKey : String) : String :=
  String.ofList (if Source.venueMark.isPrefixOf tvKey.toList then
    tvKey.toList.drop Source.venueMark.length else tvKey.toList)

theorem marked_iff (tvKey : String) :
    Source.venueMark.isPrefixOf tvKey.toList = true ↔ Marked tvKey := by
  rw [List.isPrefixOf_iff_prefix]
  constructor
  · rintro ⟨rest, hrest⟩
    refine ⟨String.ofList rest, String.toList_inj.1 ?_⟩
    rw [String.toList_append, ← hrest]
    exact congrArg (Source.venueMark ++ ·) String.toList_ofList.symm
  · rintro ⟨bare, rfl⟩
    rw [String.toList_append]
    exact List.prefix_append _ _

@[simp] theorem shownKey_mark (bare : String) : shownKey ("tv." ++ bare) = bare := by
  rw [shownKey, if_pos ((marked_iff _).2 ⟨bare, rfl⟩), String.toList_append]
  exact String.ofList_toList

theorem shownKey_of_not_marked {tvKey : String} (h : ¬ Marked tvKey) : shownKey tvKey = tvKey := by
  rw [shownKey, if_neg (mt (marked_iff tvKey).1 h), String.ofList_toList]

theorem plain_shownKey {tvKey : String} (h : '/' ∉ tvKey.toList) :
    '/' ∉ (shownKey tvKey).toList := by
  rw [shownKey, String.toList_ofList]
  split
  · exact fun hmem => h (List.mem_of_mem_drop hmem)
  · exact h

theorem shownKey_eq_of_not_marked {key other : String} (hkey : Marked key) (h : ¬ Marked other) :
    shownKey key = shownKey other ↔ key = "tv." ++ other := by
  obtain ⟨bare, rfl⟩ := hkey
  rw [shownKey_mark, shownKey_of_not_marked h, String.append_right_inj]

/-- Names show the same of two keys if these are the same but for one mark. -/
theorem shownKey_eq_iff (key other : String) : shownKey key = shownKey other ↔
    key = other ∨ key = "tv." ++ other ∧ ¬ Marked other ∨ other = "tv." ++ key ∧ ¬ Marked key := by
  by_cases hkey : Marked key
  · by_cases hother : Marked other
    · obtain ⟨bare, rfl⟩ := hkey
      obtain ⟨bare', rfl⟩ := hother
      have hmarked : Marked ("tv." ++ bare) := ⟨bare, rfl⟩
      have hmarked' : Marked ("tv." ++ bare') := ⟨bare', rfl⟩
      simp [hmarked, hmarked']
    · have hne : key ≠ other := fun h => hother (h ▸ hkey)
      rw [shownKey_eq_of_not_marked hkey hother]
      simp [hne, hkey, hother]
  · by_cases hother : Marked other
    · have hne : key ≠ other := fun h => hkey (h ▸ hother)
      rw [eq_comm, shownKey_eq_of_not_marked hother hkey]
      simp [hne, hkey, hother]
    · have hmark : key ≠ "tv." ++ other := fun h => hkey ⟨other, h⟩
      have hmark' : other ≠ "tv." ++ key := fun h => hother ⟨key, h⟩
      rw [shownKey_of_not_marked hkey, shownKey_of_not_marked hother]
      simp [hmark, hmark']

theorem path_eq (g : Golden) (tvKey : String) (d : Day) :
    g.path tvKey d = g.folder.child (g.opening ++ (shownKey tvKey ++ dayEnding d)) := by
  rw [path, shownKey, dayEnding]
  simp only [String.append_assoc]

theorem path_eq_iff (g : Golden) {key other : String} (hkey : '/' ∉ key.toList)
    (hother : '/' ∉ other.toList) : g.path key d = g.path other d ↔
      key = other ∨ key = "tv." ++ other ∧ ¬ Marked other ∨
        other = "tv." ++ key ∧ ¬ Marked key := by
  rw [path_eq, path_eq, Disk.Path.child_append_inj _
    (by simp [plain_shownKey hkey, plain_dayEnding])
    (by simp [plain_shownKey hother, plain_dayEnding])
    (Nat.le_of_lt (long_append_dayEnding _ d)) (Nat.le_of_lt (long_append_dayEnding _ d)),
    String.append_left_inj, shownKey_eq_iff]

theorem inFolder_path {g : Golden} {key : String} (hopening : '/' ∉ g.opening.toList)
    (hkey : '/' ∉ key.toList) : (g.path key d).InFolder g.folder := by
  rw [path_eq, ← String.append_assoc]
  have hplain : '/' ∉ (g.opening ++ shownKey key ++ dayEnding d).toList := by
    simp [hopening, plain_shownKey hkey, plain_dayEnding]
  exact Disk.Path.inFolder_child (Disk.fileName_of_long hplain (long_append_dayEnding _ d)) _

end Golden

/-- Files of minutes for a day: ids without a slash that are not the same have different paths,
beside the sender file. Keys without a slash share a path exactly if they are the same but for one
mark, whatever the names start with, and unless that has a slash the path is in the folder of the
reference files. -/
theorem paths_of_plain (d : Day) :
    (∀ (sender : String) (a b : Market), '/' ∉ a.id.toList → '/' ∉ b.id.toList → a.id ≠ b.id →
      minutePath (.ofText sender) a d ≠ minutePath (.ofText sender) b d) ∧
    (∀ (sender : String) (a : Market), '/' ∉ a.id.toList →
      (minutePath (.ofText sender) a d).InFolder (minuteFolder (.ofText sender))) ∧
    (∀ (g : Golden) (key other : String), '/' ∉ key.toList → '/' ∉ other.toList →
      (g.path key d = g.path other d ↔ key = other ∨
        key = "tv." ++ other ∧ ¬ Golden.Marked other ∨
        other = "tv." ++ key ∧ ¬ Golden.Marked key)) ∧
    (∀ (g : Golden) (key : String), '/' ∉ g.opening.toList → '/' ∉ key.toList →
      (g.path key d).InFolder g.folder) :=
  ⟨fun _ _ _ ha hb hne => mt (minutePath_inj _ ha hb).1 hne, fun _ _ ha => inFolder_minutePath _ ha,
    fun _ _ _ hkey hother => Golden.path_eq_iff _ hkey hother,
    fun _ _ hopening hkey => Golden.inFolder_path hopening hkey⟩

section Names

def firstOfFebruary : Day := ⟨739647, by decide⟩

def goldenFiles : Golden := ⟨⟨.relative, ["golden"]⟩, Golden.usualOpening, Schedule.defaultGrace⟩

/-- Two markets have files of their own beside the sender file; a key and the key without its mark
have one file, which is in the folder of the reference files. -/
theorem paths_of_plain_firstOfFebruary :
    minutePath (.ofText "out/sender.txt") ⟨"NYSE", "tv.XNYS", "I"⟩ firstOfFebruary ≠
      minutePath (.ofText "out/sender.txt") ⟨"LSE", "tv.XLON", "J"⟩ firstOfFebruary ∧
    goldenFiles.path "tv.XNYS" firstOfFebruary = goldenFiles.path "XNYS" firstOfFebruary ∧
    goldenFiles.path "tv.XNYS" firstOfFebruary ≠ goldenFiles.path "tv.XLON" firstOfFebruary ∧
    (goldenFiles.path "tv.XNYS" firstOfFebruary).InFolder goldenFiles.folder := by
  obtain ⟨hminutes, -, hgolden, hfolder⟩ := paths_of_plain firstOfFebruary
  have hbare : ¬ Golden.Marked "XNYS" := by
    rw [← Golden.marked_iff]
    decide
  refine ⟨hminutes _ _ _ (by decide) (by decide) (by decide), ?_, ?_,
    hfolder _ _ (by decide) (by decide)⟩
  · exact (hgolden _ _ _ (by decide) (by decide)).2 (.inr (.inl ⟨by decide, hbare⟩))
  · rw [ne_eq, hgolden _ _ _ (by decide) (by decide)]
    rintro (h | ⟨h, -⟩ | ⟨h, -⟩)
    · exact absurd h (by decide)
    · exact absurd h (by decide)
    · exact absurd h (by decide)

theorem length_parts_of_inFolder {p folder : Disk.Path} (h : p.InFolder folder) :
    p.parts.length = folder.parts.length + 1 := by
  obtain ⟨name, -, rfl⟩ := h
  simp

/-- Keys that a row of the dataset lists together have one file. So have markets whose ids differ by
an empty name between slashes, and that file is in a folder of its own, as reference files are whose
names start with a folder. -/
theorem paths_collide :
    ((Source.ofDataset ["header", "09301600,,,tv.X;X"]).map (·.1) = ["tv.X", "X"] ∧
      goldenFiles.path "tv.X" firstOfFebruary = goldenFiles.path "X" firstOfFebruary) ∧
    ∃ a b : Market, Market.ofLine? "a/b K I" none = .ok (some a) ∧
      Market.ofLine? "a//b K I" none = .ok (some b) ∧ a.id ≠ b.id ∧
      minutePath (.ofText "out/s.txt") a firstOfFebruary =
        minutePath (.ofText "out/s.txt") b firstOfFebruary ∧
      ¬ (minutePath (.ofText "out/s.txt") a firstOfFebruary).InFolder
        (minuteFolder (.ofText "out/s.txt")) ∧
      ¬ ({ goldenFiles with opening := "new/" }.path "X" firstOfFebruary).InFolder
        goldenFiles.folder := by
  refine ⟨⟨by decide +kernel, by decide +kernel⟩, ⟨"a/b", "K", "I"⟩, ⟨"a//b", "K", "I"⟩, rfl, rfl,
    by decide, by decide +kernel, fun h => ?_, fun h => ?_⟩
  · exact absurd (length_parts_of_inFolder h) (by decide +kernel)
  · exact absurd (length_parts_of_inFolder h) (by decide +kernel)

end Names

end Output

end TradingHours
