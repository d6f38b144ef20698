import TradingHours.Proofs.Schedule.TokenMeaning
import TradingHours.Proofs.Text.Occurrence
import TradingHours.Schedule.Definition
/-!
What a definition gives. The windows that a scan finds are the token, none lost and none invented, and
a token gives itself. An assignment comes first whatever is left of it, so it can keep back windows
that stand outside of it. Main statements: `extractToken_of_scan`, `extractToken_unusable_iff`.
-/
namespace TradingHours.Schedule

variable {cs token value : List Char}

/-- What a definition assigns to `0`: the text behind the leftmost `0=`, up to a semicolon. -/
def Assigns (definition value : List Char) : Prop :=
  ∃ before after, Text.Leftmost ['0', '='] definition before after ∧
    value = after.takeWhile (· ≠ ';')

theorem assigns_iff :
    Assigns cs value ↔
      ∃ after, Text.afterFirst ['0', '='] cs = some after ∧ value = after.takeWhile (· ≠ ';') := by
  have hfirst : ∀ after, Text.afterFirst ['0', '='] cs = some after ↔
      ∃ before, Text.Leftmost ['0', '='] cs before after :=
    fun _ => Text.afterFirst_eq_some_iff (by simp)
  simp only [Assigns, hfirst]
  constructor
  · rintro ⟨before, after, hleft, rfl⟩
    exact ⟨after, ⟨before, hleft⟩, rfl⟩
  · rintro ⟨after, ⟨before, hleft⟩, rfl⟩
    exact ⟨before, after, hleft, rfl⟩

theorem unlessEmpty_eq_some_iff :
    (if cs.isEmpty then none else some cs) = some token ↔ cs = token ∧ token ≠ [] := by
  cases cs with
  | nil => simp +contextual [eq_comm]
  | cons c cs => simp +contextual [eq_comm]

theorem assignedToken?_eq_some_iff :
    assignedToken? cs = some token ↔
      ∃ value, Assigns cs value ∧ value.filter isTokenChar = token ∧ token ≠ [] := by
  simp only [assigns_iff, assignedToken?]
  cases Text.afterFirst ['0', '='] cs with
  | none => simp
  | some after =>
    simp only [unlessEmpty_eq_some_iff, Option.some_inj]
    constructor
    · intro htoken
      exact ⟨_, ⟨after, rfl, rfl⟩, htoken⟩
    · rintro ⟨value, ⟨_, rfl, rfl⟩, htoken⟩
      exact htoken

theorem assignedToken?_eq_none_iff :
    assignedToken? cs = none ↔ ∀ value, Assigns cs value → value.filter isTokenChar = [] := by
  rw [Option.eq_none_iff_forall_ne_some]
  constructor
  · intro h value hvalue
    by_contra hne
    exact h _ (assignedToken?_eq_some_iff.2 ⟨value, hvalue, rfl, hne⟩)
  · intro h token htoken
    obtain ⟨value, hvalue, rfl, hne⟩ := assignedToken?_eq_some_iff.1 htoken
    exact hne (h value hvalue)

/-- The windows of a text, put together. -/
theorem scannedToken?_eq (cs : List Char) :
    scannedToken? cs =
      let token := (windowFragments cs).flatMap Fragment.text
      if token.isEmpty then none else some token := by
  have htext : ((scan cs).filter Fragment.isWindow).flatMap Fragment.text =
      (windowFragments cs).flatMap Fragment.text := by
    rw [windowFragments, List.flatMap_map]
    rfl
  rw [← htext]
  rfl

theorem scannedToken?_eq_some_iff :
    scannedToken? cs = some token ↔
      ((scan cs).filter Fragment.isWindow).flatMap Fragment.text = token ∧ token ≠ [] :=
  unlessEmpty_eq_some_iff

theorem scannedToken?_eq_none_iff :
    scannedToken? cs = none ↔ ∀ f ∈ scan cs, f.isWindow = false := by
  rw [Option.eq_none_iff_forall_ne_some]
  simp only [ne_eq, scannedToken?_eq_some_iff, not_and, forall_eq', not_not,
    List.flatMap_eq_nil_iff, List.mem_filter, and_imp]
  constructor
  · intro h f hf
    by_contra hw
    exact text_ne_nil_of_mem_scan hf (h f hf (by simpa using hw))
  · intro h f hf hw
    simp [h f hf] at hw

theorem isTokenChar_of_isBlank {c : Char} (h : Text.isBlank c = true) : isTokenChar c = false := by
  obtain ⟨hmark, hdigit⟩ := isIdle_iff.1 (isIdle_of_isBlank h)
  rw [Bool.or_eq_false_iff] at hmark
  have hplus : c ≠ '+' := by
    rintro rfl
    simp [Text.isBlank] at h
  have hminus : c ≠ '-' := by simpa [isOvernightMarker] using hmark.2
  simp [isTokenChar, hdigit, hmark.1, hplus, hminus]

theorem filter_takeWhile_append_blank {back : List Char} (hback : back.all Text.isBlank = true)
    (cs : List Char) :
    ((cs ++ back).takeWhile (· ≠ ';')).filter isTokenChar =
      (cs.takeWhile (· ≠ ';')).filter isTokenChar := by
  induction cs with
  | nil =>
    rw [List.nil_append, List.takeWhile_nil, List.filter_nil, List.filter_eq_nil_iff]
    intro c hc
    have hblank := List.all_eq_true.1 hback c ((List.takeWhile_prefix _).subset hc)
    simp [isTokenChar_of_isBlank hblank]
  | cons c cs ih =>
    by_cases hc : c = ';'
    · simp [hc]
    · simp only [ne_eq, decide_not] at ih
      simp [hc, List.filter_cons, ih]

theorem assignedToken?_trimChars (cs : List Char) :
    assignedToken? (Text.trimChars cs) = assignedToken? cs := by
  have hbare : ∀ c ∈ ['0', '='], Text.isBlank c = false := by simp [Text.isBlank]
  obtain ⟨back, hback, hafter⟩ := Text.exists_afterFirst_trimChars (by decide) hbare cs
  rw [assignedToken?, assignedToken?, hafter]
  cases Text.afterFirst ['0', '='] (Text.trimChars cs) with
  | none => rfl
  | some after =>
    simp only [Option.map_some]
    rw [filter_takeWhile_append_blank hback]

theorem scannedToken?_trimChars (cs : List Char) :
    scannedToken? (Text.trimChars cs) = scannedToken? cs := by
  rw [scannedToken?_eq, scannedToken?_eq, windowFragments_trimChars]

theorem containsChars_trimChars (cs : List Char) :
    Text.containsChars alwaysOpenToken.toList (Text.trimChars cs) =
      Text.containsChars alwaysOpenToken.toList cs := by
  have hbare : ∀ c ∈ alwaysOpenToken.toList, Text.isBlank c = false := by
    simp [alwaysOpenToken, Text.isBlank]
  obtain ⟨back, -, hafter⟩ := Text.exists_afterFirst_trimChars (by decide) hbare cs
  rw [Text.containsChars, Text.containsChars, hafter, Option.isSome_map]

/-- The blanks around a definition mean nothing. -/
theorem extractChars?_eq (cs : List Char) :
    extractChars? cs = (assignedToken? cs).or
      (if Text.containsChars alwaysOpenToken.toList cs then some alwaysOpenToken.toList
        else scannedToken? cs) := by
  rw [extractChars?, assignedToken?_trimChars, containsChars_trimChars, scannedToken?_trimChars]

theorem containsAlwaysOpen_iff :
    Text.containsChars alwaysOpenToken.toList cs = true ↔ alwaysOpenToken.toList <:+: cs :=
  Text.containsChars_iff (by decide)

theorem extractChars?_of_assigned (h : assignedToken? cs = some token) :
    extractChars? cs = some token := by
  rw [extractChars?_eq, h, Option.some_or]

theorem extractChars?_of_always (hassigned : assignedToken? cs = none)
    (halways : alwaysOpenToken.toList <:+: cs) :
    extractChars? cs = some alwaysOpenToken.toList := by
  rw [extractChars?_eq, hassigned, Option.none_or, if_pos (containsAlwaysOpen_iff.2 halways)]

theorem extractChars?_of_scan (hassigned : assignedToken? cs = none)
    (halways : ¬ alwaysOpenToken.toList <:+: cs) : extractChars? cs = scannedToken? cs := by
  rw [extractChars?_eq, hassigned, Option.none_or, if_neg (mt containsAlwaysOpen_iff.1 halways)]

theorem extractToken_eq_none_iff {definition : String} :
    extractToken (some definition) = none ↔ extractChars? definition.toList = none := by
  simp [extractToken]

theorem extractToken_eq_some_iff {definition token : String} :
    extractToken (some definition) = some token ↔
      extractChars? definition.toList = some token.toList := by
  simp only [extractToken, Option.bind_some, Option.map_eq_some_iff]
  constructor
  · rintro ⟨cs, h, rfl⟩
    rw [h, String.toList_ofList]
  · intro h
    exact ⟨_, h, String.ofList_toList⟩

section Scanned

variable (h : scannedToken? cs = some token)
include h

theorem scan_of_scannedToken? : (scan token).map (·.movedTo 0) = windowFragments cs := by
  obtain ⟨rfl, -⟩ := scannedToken?_eq_some_iff.1 h
  exact scan_flatMap_text cs

theorem isWindow_of_scannedToken? : ∀ f ∈ scan token, f.isWindow = true := by
  intro f hf
  have hmem : f.movedTo 0 ∈ windowFragments cs := by
    rw [← scan_of_scannedToken? h]
    exact List.mem_map_of_mem hf
  obtain ⟨g, hg, heq⟩ := List.mem_map.1 hmem
  have hwindow : (g.movedTo 0).isWindow = true := (List.mem_filter.1 hg).2
  rwa [heq] at hwindow

theorem isIdle_of_scannedToken? : ∀ c ∈ token, isIdle c = false := by
  obtain ⟨rfl, -⟩ := scannedToken?_eq_some_iff.1 h
  intro c hc
  obtain ⟨f, hf, hc⟩ := List.mem_flatMap.1 hc
  obtain ⟨hf, hw⟩ := List.mem_filter.1 hf
  exact isIdle_of_mem_window hf hw c hc

theorem notMem_of_scannedToken? {c : Char} (hc : isIdle c = true) : c ∉ token := fun hmem => by
  simp [isIdle_of_scannedToken? h c hmem] at hc

theorem assignedToken?_of_scannedToken? : assignedToken? token = none := by
  rw [assignedToken?_eq_none_iff]
  rintro value ⟨before, after, ⟨hsplit, -⟩, -⟩
  have hmem : '=' ∈ token := by simp [hsplit]
  exact absurd hmem (notMem_of_scannedToken? h (by decide))

theorem plus_notMem_of_scannedToken? : '+' ∉ token :=
  notMem_of_scannedToken? h (by decide)

theorem scannedToken?_scannedToken? : scannedToken? token = some token := by
  obtain ⟨-, hne⟩ := scannedToken?_eq_some_iff.1 h
  refine scannedToken?_eq_some_iff.2 ⟨?_, hne⟩
  rw [List.filter_eq_self.2 (isWindow_of_scannedToken? h), flatMap_text_scan]

/-- A token of windows gives itself. -/
theorem extractChars?_scannedToken? : extractChars? token = some token := by
  have halways : ¬ alwaysOpenToken.toList <:+: token := fun hoccurs =>
    plus_notMem_of_scannedToken? h (hoccurs.subset (by decide))
  rw [extractChars?_of_scan (assignedToken?_of_scannedToken? h) halways,
    scannedToken?_scannedToken? h]

end Scanned

section Definition

variable {definition : String}

def Fragment.reading (f : Fragment) : FragmentKind × List Char × List Char × List Char :=
  (f.kind, f.text, f.opening, f.closing)

theorem windowsOf_of_scannedToken? {token : String} (h : scannedToken? cs = some token.toList) :
    windowsOf token = (scan cs).filterMap Window.ofFragment? := by
  have hne : Text.trimChars token.toList ≠ alwaysOpenToken.toList := fun htrim =>
    plus_notMem_of_scannedToken? h (Text.mem_of_mem_trimChars (by rw [htrim]; decide))
  calc windowsOf token = (scan token.toList).filterMap Window.ofFragment? := windowsOf_of_ne hne
    _ = ((scan token.toList).map (·.movedTo 0)).filterMap Window.ofFragment? := by
      rw [List.filterMap_map]
      rfl
    _ = (windowFragments cs).filterMap Window.ofFragment? := by rw [scan_of_scannedToken? h]
    _ = (scan cs).filterMap Window.ofFragment? := (windowsFrom_eq 0 cs).symm

/-- Where no assignment and no always-open token decides, a definition gives a token exactly if it has
windows. The token is its windows and nothing else, and gives itself. -/
theorem extractToken_of_scan
    (hassigned : ∀ value, Assigns definition.toList value → value.filter isTokenChar = [])
    (halways : ¬ alwaysOpenToken.toList <:+: definition.toList) :
    (extractToken (some definition) = none ↔
      ∀ f ∈ scan definition.toList, f.isWindow = false) ∧
    ∀ token, extractToken (some definition) = some token →
      (∀ f ∈ scan token.toList, f.isWindow = true) ∧
      (scan token.toList).map Fragment.reading =
        ((scan definition.toList).filter Fragment.isWindow).map Fragment.reading ∧
      windowsOf token = (scan definition.toList).filterMap Window.ofFragment? ∧
      extractToken (some token) = some token := by
  have hscan := extractChars?_of_scan (assignedToken?_eq_none_iff.2 hassigned) halways
  rw [extractToken_eq_none_iff, hscan, scannedToken?_eq_none_iff]
  refine ⟨Iff.rfl, fun token htoken => ?_⟩
  rw [extractToken_eq_some_iff, hscan] at htoken
  refine ⟨isWindow_of_scannedToken? htoken, ?_, windowsOf_of_scannedToken? htoken,
    extractToken_eq_some_iff.2 (extractChars?_scannedToken? htoken)⟩
  -- what a fragment says does not depend on its place
  have hreading := congrArg (List.map Fragment.reading) (scan_of_scannedToken? htoken)
  rw [windowFragments, List.map_map, List.map_map] at hreading
  exact hreading

theorem extractToken_glues_sessions :
    extractToken (some "0=XYZ;sd=p04000930,0930160017002000") = some "p040009300930160017002000" ∧
      (scan "p040009300930160017002000".toList).map Fragment.text =
        ["p04000930".toList, "09301600".toList, "17002000".toList] ∧
      extractToken (some "p040009300930160017002000") = some "p040009300930160017002000" := by
  have htoken : extractToken (some "0=XYZ;sd=p04000930,0930160017002000") =
      some "p040009300930160017002000" := by decide +kernel
  have hassigned : assignedToken? "0=XYZ;sd=p04000930,0930160017002000".toList = none := by decide
  obtain ⟨-, hreadings, -, hagain⟩ := (extractToken_of_scan (assignedToken?_eq_none_iff.1 hassigned)
    (mt containsAlwaysOpen_iff.2 (by decide))).2 _ htoken
  have htexts := congrArg (List.map fun reading => reading.2.1) hreadings
  rw [List.map_map, List.map_map] at htexts
  refine ⟨htoken, htexts.trans (by decide +kernel), hagain⟩

theorem windowsOf_alwaysOpen : windowsOf alwaysOpenToken = [.always] :=
  windowsOf_of_eq (by decide)

theorem exists_window_of_scannedToken? (h : scannedToken? cs = some token) :
    ∃ f ∈ scan token, f.isWindow = true := by
  obtain ⟨-, hne⟩ := scannedToken?_eq_some_iff.1 h
  have hscan : scan token ≠ [] := fun hnil => hne (by
    rw [← flatMap_text_scan token, hnil]
    rfl)
  obtain ⟨f, hf⟩ := List.exists_mem_of_ne_nil _ hscan
  exact ⟨f, hf, isWindow_of_scannedToken? h f hf⟩

theorem windowsOf_ne_nil_of_unassigned {token : String}
    (hassigned : assignedToken? definition.toList = none)
    (htoken : extractToken (some definition) = some token) : windowsOf token ≠ [] := by
  rw [extractToken_eq_some_iff] at htoken
  by_cases halways : alwaysOpenToken.toList <:+: definition.toList
  · rw [extractChars?_of_always hassigned halways, Option.some_inj, String.toList_inj] at htoken
    simp [← htoken, windowsOf_alwaysOpen]
  · rw [extractChars?_of_scan hassigned halways] at htoken
    obtain ⟨f, hf, hw⟩ := exists_window_of_scannedToken? htoken
    intro hnil
    simp [(windowsOf_eq_nil_iff.1 hnil).2 f hf] at hw

/-- Digits in a row stay in a row when a value is filtered. -/
theorem scan_of_unusable {token : String} (htoken : value.filter isTokenChar = token.toList)
    (hunusable : windowsOf token = []) : ∀ f ∈ scan value, f.isWindow = false := by
  intro f hf
  by_contra hw
  obtain ⟨digits, hoccurs, hlen, hall⟩ := exists_window_iff.1 ⟨f, hf, by simpa using hw⟩
  have hkept : digits.filter isTokenChar = digits := by
    rw [List.filter_eq_self]
    intro c hc
    simp [isTokenChar, List.all_eq_true.1 hall c hc]
  have hoccurs' : digits <:+: token.toList := by
    rw [← hkept, ← htoken]
    exact hoccurs.filter isTokenChar
  obtain ⟨g, hg, hwindow⟩ := exists_window_iff.2 ⟨digits, hoccurs', hlen, hall⟩
  simp [(windowsOf_eq_nil_iff.1 hunusable).2 g hg] at hwindow

/-- A token without a window is what is left of an assigned value, and then no window stands in that
value. Where nothing is left of it, a definition gives no token only if it has neither windows nor the
always-open token, and never one without a window. -/
theorem extractToken_unusable_iff (definition : String) :
    (∀ token, extractToken (some definition) = some token ∧ windowsOf token = [] ↔
      (∃ value, Assigns definition.toList value ∧ value.filter isTokenChar = token.toList ∧
        token.toList ≠ [] ∧ ∀ f ∈ scan value, f.isWindow = false) ∧ windowsOf token = []) ∧
    ((∀ value, Assigns definition.toList value → value.filter isTokenChar = []) →
      (extractToken (some definition) = none ↔
        ¬ alwaysOpenToken.toList <:+: definition.toList ∧
          ∀ f ∈ scan definition.toList, f.isWindow = false) ∧
      ∀ token, extractToken (some definition) = some token → windowsOf token ≠ []) := by
  refine ⟨fun token => ?_, fun hleft => ?_⟩
  · rw [and_congr_left_iff]
    intro hunusable
    constructor
    · intro htoken
      cases hassigned : assignedToken? definition.toList with
      | none => exact absurd hunusable (windowsOf_ne_nil_of_unassigned hassigned htoken)
      | some assigned =>
        rw [extractToken_eq_some_iff, extractChars?_of_assigned hassigned, Option.some_inj] at htoken
        obtain ⟨value, hvalue, hfilter, hne⟩ := assignedToken?_eq_some_iff.1 hassigned
        rw [htoken] at hfilter hne
        exact ⟨value, hvalue, hfilter, hne, scan_of_unusable hfilter hunusable⟩
    · rintro ⟨value, hvalue, hfilter, hne, -⟩
      exact extractToken_eq_some_iff.2 (extractChars?_of_assigned
        (assignedToken?_eq_some_iff.2 ⟨value, hvalue, hfilter, hne⟩))
  · have hassigned := assignedToken?_eq_none_iff.2 hleft
    refine ⟨?_, fun token => windowsOf_ne_nil_of_unassigned hassigned⟩
    rw [extractToken_eq_none_iff]
    by_cases halways : alwaysOpenToken.toList <:+: definition.toList
    · simp [extractChars?_of_always hassigned halways, halways]
    · rw [extractChars?_of_scan hassigned halways, scannedToken?_eq_none_iff, and_iff_right halways]

theorem extractToken_unusable_value :
    (∃ value, Assigns "0=n/a;sd=p09301600".toList value ∧ value.filter isTokenChar = "a".toList ∧
      "a".toList ≠ [] ∧ ∀ f ∈ scan value, f.isWindow = false) ∧
    ∀ token, extractToken (some "0=XYZ;sd=p09301600") = some token → windowsOf token ≠ [] := by
  have hassigned : assignedToken? "0=XYZ;sd=p09301600".toList = none := by decide
  have htoken : extractToken (some "0=n/a;sd=p09301600") = some "a" := by decide +kernel
  exact ⟨(((extractToken_unusable_iff _).1 "a").1 ⟨htoken, by decide +kernel⟩).1,
    ((extractToken_unusable_iff _).2 (assignedToken?_eq_none_iff.1 hassigned)).2⟩

/-- What is left of an assigned value keeps back a window that stands behind it. -/
theorem unusable_assignment_hides_window :
    ¬ ∀ definition token : String, extractToken (some definition) = some token →
      windowsOf token = [] → ¬ alwaysOpenToken.toList <:+: definition.toList ∧
        ∀ f ∈ scan definition.toList, f.isWindow = false := by
  intro h
  have hnone := (h "0=n/a;sd=p09301600" "a" (by decide +kernel) (by decide +kernel)).2
  exact absurd hnone (by decide +kernel)

end Definition

end TradingHours.Schedule
