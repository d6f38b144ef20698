import Mathlib.Data.List.Basic
import TradingHours.Proofs.Settings.Fields
import TradingHours.Proofs.Settings.Layers
/-!
Which layer counts. A choice counts before the file and the file before the settings below, field by
field, whatever stands in the place of a section; the outcome is refused with one issue for each
section that is no mapping and for each value that its field does not admit. Main statement:
`buildOver_outcome`.
-/
namespace TradingHours.Settings

open Value (field?)

def Layer.given (l : Layer) (f : Field) : Option Value := under (l.part f.sectionName) f.name

section Effective

variable (base : Settings) (file choices : Layer)

def effectivePart (name : String) : Option Value := (choices.part name).or (file.part name)

/-- The value of a field that no layer gives: that of the settings below, and the usual one if the file
has something else in the place of the section. -/
def defaultOf (f : Field) : Value :=
  match file.part f.sectionName with
  | none | some (.mapping _) => f.valueIn base
  | some _ => f.valueIn usual

def effective (f : Field) : Value := ((choices.given f).or (file.given f)).getD (defaultOf base file f)

/-- The value of a field as an issue shows it: a mapping in a choice is merged into one in the file. -/
def shown (f : Field) : Value :=
  match choices.given f, file.given f with
  | some v, some old => mergeValue old v
  | _, _ => effective base file choices f

structure Sound : Prop where
  mapped : ∀ name ∈ sectionNames, Mapped (effectivePart file choices name)
  admitted : ∀ f : Field, f.Admits (effective base file choices f)

def shapeViolation? (name : String) : Option Issue :=
  match effectivePart file choices name with
  | none | some (.mapping _) => none
  | some v => some ⟨name, "Must be a mapping", v⟩

def violation? (f : Field) : Option Issue :=
  if f.Admits (effective base file choices f) then none
  else some ⟨f.name, f.rule.message, shown base file choices f⟩

def fieldViolations (name : String) : List Issue :=
  match shapeViolation? file choices name with
  | none => (Field.all.filter (·.sectionName = name)).filterMap (violation? base file choices)
  | some _ => []

def violations : List Issue :=
  sectionNames.filterMap (shapeViolation? file choices) ++
    sectionNames.flatMap (fieldViolations base file choices)

end Effective

section Merged

variable {base : Settings} {file choices : Layer} {name : String}

theorem field?_mergeOver :
    field? (base.mergeOver file.entries choices.entries) name =
      laid (laid (field? base.sections name) (file.part name)) (choices.part name) := by
  rw [mergeOver, field?_mergeEntries choices.distinct, field?_mergeEntries file.distinct]
  rfl

theorem field?_sections_of_mem (base : Settings) (h : name ∈ sectionNames) :
    ∃ fields, field? base.sections name = some (.mapping fields) ∧
      ∀ f : Field, f.sectionName = name → field? fields f.name = some (f.valueIn base) := by
  have hmapping : ∃ fields, field? base.sections name = some (.mapping fields) := by
    simp only [sectionNames, List.mem_cons, List.not_mem_nil, or_false] at h
    rcases h with rfl | rfl | rfl | rfl <;> exact ⟨_, rfl⟩
  obtain ⟨fields, hfields⟩ := hmapping
  refine ⟨fields, hfields, fun f hf => ?_⟩
  obtain ⟨fields', hfields', hvalue⟩ := f.field?_sections base
  rw [hf, hfields] at hfields'
  cases hfields'
  exact hvalue

theorem Layer.given_of_part {l : Layer} {f : Field} {part : Option Value} (hf : f.sectionName = name)
    (hpart : l.part name = part) : l.given f = under part f.name := by
  rw [given, hf, hpart]

theorem mapped_none : Mapped none := fun _ h => nomatch h

theorem mapped_mapping (fields : List (Value × Value)) : Mapped (some (.mapping fields)) := by
  intro v h
  cases h
  exact ⟨fields, rfl⟩

/-- The file over the settings below: it replaces a section, or each of its fields counts before that
of the settings. -/
theorem laid_file_cases (base : Settings) (file : Layer) (h : name ∈ sectionNames) :
    (∃ v, file.part name = some v ∧ v.entries? = none ∧
        laid (field? base.sections name) (file.part name) = some v) ∨
      Mapped (file.part name) ∧ ∃ fields,
        laid (field? base.sections name) (file.part name) = some (.mapping fields) ∧
        ∀ f : Field, f.sectionName = name →
          field? fields f.name = some ((file.given f).getD (f.valueIn base)) := by
  obtain ⟨old, hold, hvalues⟩ := field?_sections_of_mem base h
  rw [hold]
  obtain hpart | ⟨fields, hpart, hdistinct⟩ | ⟨v, hpart, hv⟩ := file.part_cases name
  · refine .inr ⟨hpart ▸ mapped_none, old, by rw [hpart]; rfl, fun f hf => ?_⟩
    rw [hvalues f hf, Layer.given_of_part hf hpart]
    rfl
  · refine .inr ⟨hpart ▸ mapped_mapping fields, mergeEntries old fields, by rw [hpart, laid_mapping],
      fun f hf => ?_⟩
    rw [field?_mergeEntries hdistinct, hvalues f hf, Layer.given_of_part hf hpart]
    exact laid_of_entries?_lower (f.entries?_valueIn base) _
  · exact .inl ⟨v, hpart, hv, by rw [hpart, laid_of_entries? hv]⟩

/-- What the merged sections have for a field whose section is a mapping: the value that counts as an
issue shows it, or nothing if the usual value counts. -/
def Carries (base : Settings) (file choices : Layer) (f : Field) (found : Option Value) : Prop :=
  found = some (shown base file choices f) ∨
    found = none ∧ effective base file choices f = f.valueIn usual

theorem defaultOf_of_mapped {f : Field} (h : Mapped (file.part f.sectionName)) :
    defaultOf base file f = f.valueIn base := by
  unfold defaultOf
  split
  · rfl
  · rfl
  · next v hother hpart =>
    obtain ⟨fields, rfl⟩ := h v hpart
    exact absurd rfl (hother fields)

theorem defaultOf_of_entries? {f : Field} {v : Value} (hpart : file.part f.sectionName = some v)
    (hv : v.entries? = none) : defaultOf base file f = f.valueIn usual := by
  rw [defaultOf, hpart]
  cases v with
  | mapping fields => cases hv
  | _ => rfl

/-- Over the usual settings a choice counts before the file and the file before the usual value. -/
theorem effective_usual (file choices : Layer) (f : Field) :
    effective usual file choices f =
      ((choices.given f).or (file.given f)).getD (f.valueIn usual) := by
  have hdefault : defaultOf usual file f = f.valueIn usual := by
    unfold defaultOf
    split <;> rfl
  rw [effective, hdefault]

/-- The choices over the file. -/
theorem mergeOver_cases (base : Settings) (file choices : Layer) (h : name ∈ sectionNames) :
    (∃ v, effectivePart file choices name = some v ∧ v.entries? = none ∧
        field? (base.mergeOver file.entries choices.entries) name = some v) ∨
      Mapped (effectivePart file choices name) ∧ ∃ fields,
        field? (base.mergeOver file.entries choices.entries) name = some (.mapping fields) ∧
        ∀ f : Field, f.sectionName = name → Carries base file choices f (field? fields f.name) := by
  rw [field?_mergeOver, effectivePart]
  obtain hpart | ⟨fields, hpart, hdistinct⟩ | ⟨v, hpart, hv⟩ := choices.part_cases name
  · rw [hpart, Option.none_or]
    obtain ⟨v, hv, hve, hlaid⟩ | ⟨hmapped, fields, hlaid, hvalues⟩ := laid_file_cases base file h
    · exact .inl ⟨v, hv, hve, hlaid⟩
    refine .inr ⟨hmapped, fields, hlaid, fun f hf => .inl ?_⟩
    have hgiven : choices.given f = none := Layer.given_of_part hf hpart
    rw [hvalues f hf, shown, hgiven, effective, hgiven, defaultOf_of_mapped (hf ▸ hmapped)]
    rfl
  · rw [hpart, Option.some_or]
    refine .inr ⟨mapped_mapping fields, ?_⟩
    obtain ⟨v, hv, hve, hlaid⟩ | ⟨hmapped, below, hlaid, hvalues⟩ := laid_file_cases base file h
    · refine ⟨fields, by rw [hlaid, laid_of_entries?_lower hve]; rfl, fun f hf => ?_⟩
      have hfile : file.given f = none := by
        rw [Layer.given_of_part hf hv, under_of_entries? hve]
      have hgiven : choices.given f = field? fields f.name := Layer.given_of_part hf hpart
      rw [Carries, shown, effective, hfile, hgiven, defaultOf_of_entries? (hf ▸ hv) hve]
      cases field? fields f.name with
      | none => exact .inr ⟨rfl, rfl⟩
      | some w => exact .inl rfl
    · refine ⟨mergeEntries below fields, by rw [hlaid, laid_mapping], fun f hf => .inl ?_⟩
      have hgiven : choices.given f = field? fields f.name := Layer.given_of_part hf hpart
      rw [field?_mergeEntries hdistinct, hvalues f hf, shown, effective, hgiven,
        defaultOf_of_mapped (hf ▸ hmapped)]
      cases field? fields f.name with
      | none => rfl
      | some w =>
        cases file.given f with
        | none => exact congrArg some (mergeValue_of_entries?_base (f.entries?_valueIn base))
        | some old => rfl
  · exact .inl ⟨v, by rw [hpart]; rfl, hv, by rw [hpart, laid_of_entries? hv]⟩

end Merged

section Issues

variable {base : Settings} {file choices : Layer} {name : String} {f : Field}

theorem admits_shown :
    f.Admits (shown base file choices f) ↔ f.Admits (effective base file choices f) := by
  unfold shown effective
  cases choices.given f with
  | none => rfl
  | some v =>
    cases file.given f with
    | none => rfl
    | some old => exact Field.admits_mergeValue

theorem shown_of_admits (h : f.Admits (effective base file choices f)) :
    shown base file choices f = effective base file choices f := by
  unfold shown effective at *
  cases hchoice : choices.given f with
  | none => rfl
  | some v =>
    rw [hchoice] at h
    cases file.given f with
    | none => rfl
    | some old => exact Field.mergeValue_of_admits h

theorem shapeViolation?_eq_none_iff :
    shapeViolation? file choices name = none ↔ Mapped (effectivePart file choices name) := by
  unfold shapeViolation?
  split
  · next hpart => exact iff_of_true rfl (hpart ▸ mapped_none)
  · next fields hpart => exact iff_of_true rfl (hpart ▸ mapped_mapping fields)
  · next v hother hpart =>
    refine iff_of_false (fun h => nomatch h) fun hmapped => ?_
    obtain ⟨fields, rfl⟩ := hmapped v hpart
    exact hother fields rfl

theorem shapeViolation?_of_entries? {v : Value} (hpart : effectivePart file choices name = some v)
    (hv : v.entries? = none) :
    shapeViolation? file choices name = some ⟨name, "Must be a mapping", v⟩ := by
  rw [shapeViolation?, hpart]
  cases v with
  | mapping fields => cases hv
  | _ => rfl

theorem shapeIssue?_mergeOver (h : name ∈ sectionNames) :
    shapeIssue? (base.mergeOver file.entries choices.entries) name =
      shapeViolation? file choices name := by
  obtain ⟨v, hpart, hv, hmerged⟩ | ⟨hmapped, fields, hmerged, -⟩ := mergeOver_cases base file choices h
  · rw [shapeViolation?_of_entries? hpart hv, shapeIssue?, hmerged]
    cases v with
    | mapping fields => cases hv
    | _ => rfl
  · rw [shapeViolation?_eq_none_iff.2 hmapped, shapeIssue?, hmerged]

theorem issue?_of_carries {fields : List (Value × Value)}
    (h : Carries base file choices f (field? fields f.name)) :
    f.rule.issue? fields = violation? base file choices f := by
  have hname : f.rule.field = f.name := rfl
  rw [Rule.issue?, violation?, hname]
  obtain hfound | ⟨hfound, husual⟩ := h
  · rw [hfound]
    simp only [← Field.admits_iff, admits_shown]
  · rw [hfound, husual, if_pos (Field.admits_usual f)]

theorem sectionIssues_mergeOver (h : name ∈ sectionNames) :
    sectionIssues name (sectionFields (base.mergeOver file.entries choices.entries) name) =
      fieldViolations base file choices name := by
  rw [sectionIssues, sectionFields, fieldViolations]
  obtain ⟨v, hpart, hv, hmerged⟩ | ⟨hmapped, fields, hmerged, hcarries⟩ :=
    mergeOver_cases base file choices h
  · rw [shapeViolation?_of_entries? hpart hv, hmerged]
    have hnone : ∀ r : Rule, r.issue? [] = none := fun _ => rfl
    cases v with
    | mapping fields => cases hv
    | _ => simp [hnone]
  · rw [shapeViolation?_eq_none_iff.2 hmapped, hmerged, Field.rulesOf_eq h, List.filterMap_map]
    refine List.filterMap_congr fun f hf => issue?_of_carries (hcarries f ?_)
    exact of_decide_eq_true (List.mem_filter.1 hf).2

/-- The issues of merged layers are those of the values that count. -/
theorem issues_mergeOver :
    issues (base.mergeOver file.entries choices.entries) = violations base file choices := by
  rw [issues, violations]
  congr 1
  · exact List.filterMap_congr fun name h => shapeIssue?_mergeOver h
  · exact List.flatMap_congr fun name h => sectionIssues_mergeOver h

theorem violation?_eq_none_iff :
    violation? base file choices f = none ↔ f.Admits (effective base file choices f) := by
  rw [violation?]
  split
  · next h => exact iff_of_true rfl h
  · next h => exact iff_of_false (fun h => nomatch h) h

theorem violations_eq_nil_iff :
    violations base file choices = [] ↔ Sound base file choices := by
  rw [violations, List.append_eq_nil_iff, List.filterMap_eq_nil_iff, List.flatMap_eq_nil_iff]
  simp only [shapeViolation?_eq_none_iff]
  constructor
  · rintro ⟨hmapped, hfields⟩
    refine ⟨hmapped, fun f => violation?_eq_none_iff.1 ?_⟩
    have hnone := hfields f.sectionName f.sectionName_mem
    rw [fieldViolations, shapeViolation?_eq_none_iff.2 (hmapped _ f.sectionName_mem)] at hnone
    exact List.filterMap_eq_nil_iff.1 hnone f (List.mem_filter.2 ⟨f.mem_all, decide_eq_true rfl⟩)
  · rintro ⟨hmapped, hadmitted⟩
    refine ⟨hmapped, fun name hname => ?_⟩
    rw [fieldViolations, shapeViolation?_eq_none_iff.2 (hmapped name hname)]
    exact List.filterMap_eq_nil_iff.2 fun f _ => violation?_eq_none_iff.2 (hadmitted f)

theorem valueIn_ofSections_mergeOver (h : Sound base file choices) (f : Field) :
    f.valueIn (ofSections (base.mergeOver file.entries choices.entries)) =
      effective base file choices f := by
  obtain ⟨v, hpart, hv, -⟩ | ⟨-, fields, hmerged, hcarries⟩ :=
    mergeOver_cases base file choices f.sectionName_mem
  · obtain ⟨fields, rfl⟩ := h.mapped _ f.sectionName_mem v hpart
    cases hv
  have hsection : sectionFields (base.mergeOver file.entries choices.entries) f.sectionName = fields := by
    rw [sectionFields, hmerged]
  have hadmits := h.admitted f
  obtain hfound | ⟨hfound, husual⟩ := hcarries f rfl
  · rw [shown_of_admits hadmits] at hfound
    rw [Field.valueIn_ofSections, hsection, hfound]
    · rfl
    · intro v hv
      rw [hsection, hfound] at hv
      cases hv
      exact hadmits
  · rw [Field.valueIn_ofSections, hsection, hfound, husual]
    · rfl
    · intro v hv
      rw [hsection, hfound] at hv
      cases hv

theorem buildOver_of_sound (h : Sound base file choices) :
    base.buildOver file.entries choices.entries =
      .ok (ofSections (base.mergeOver file.entries choices.entries)) := by
  rw [buildOver, issues_mergeOver, violations_eq_nil_iff.2 h]

theorem buildOver_of_not_sound (h : ¬ Sound base file choices) :
    base.buildOver file.entries choices.entries =
      .error (if (violations base file choices).any (·.value.isTooLong) then .longInteger
        else .incident (invalid (violations base file choices))) := by
  rw [buildOver, issues_mergeOver]
  cases hviolations : violations base file choices with
  | nil => exact absurd (violations_eq_nil_iff.1 hviolations) h
  | cons first rest =>
    dsimp only
    split <;> rfl

/-- Settings are built over a file and choices exactly if every section that counts is a mapping and
every field admits the value that counts; then they have these values. Otherwise the incident lists one
issue for each section that is no mapping, and one for each field of the others that does not admit its
value, unless one of these values has an integer that is too long to be written out. -/
theorem buildOver_outcome (base : Settings) (file choices : Layer) :
    (Sound base file choices ∧
      ∃ settings, base.buildOver file.entries choices.entries = .ok settings ∧
        ∀ f : Field, f.valueIn settings = effective base file choices f) ∨
    (¬ Sound base file choices ∧
      ∃ incident : Incident,
        incident.detail = .configuration ((violations base file choices).map .issue) ∧
        incident = invalid (violations base file choices) ∧
        base.buildOver file.entries choices.entries =
          .error (if (violations base file choices).any (·.value.isTooLong) then .longInteger
            else .incident incident)) := by
  by_cases h : Sound base file choices
  · exact .inl ⟨h, _, buildOver_of_sound h, valueIn_ofSections_mergeOver h⟩
  · exact .inr ⟨h, _, rfl, rfl, buildOver_of_not_sound h⟩

theorem mem_violations {i : Issue} (hmapped : Mapped (effectivePart file choices f.sectionName))
    (h : violation? base file choices f = some i) : i ∈ violations base file choices := by
  refine List.mem_append_right _ (List.mem_flatMap.2 ⟨f.sectionName, f.sectionName_mem, ?_⟩)
  rw [fieldViolations, shapeViolation?_eq_none_iff.2 hmapped]
  exact List.mem_filterMap.2 ⟨f, List.mem_filter.2 ⟨f.mem_all, decide_eq_true rfl⟩, h⟩

def Layer.nothing : Layer := ⟨[], .nil, fun _ _ _ h => nomatch h⟩

def Layer.ofGrace (minutes : Nat) : Layer where
  entries := [(.text "evaluation", .object [("grace_minutes", .int minutes)])]
  distinct := List.pairwise_singleton _ _
  opened name v fields hpart hfields := by
    by_cases hname : (.text "evaluation" : Value) = .text name
    · rw [hname, Value.field?_cons_self] at hpart
      cases hpart
      cases hfields
      exact ⟨rfl, List.pairwise_singleton _ _⟩
    · rw [Value.field?_cons_of_ne hname] at hpart
      cases hpart

theorem effective_ofGrace (minutes : Nat) :
    effective usual (.ofGrace minutes) .nothing .graceMinutes = .int minutes := rfl

/-- A grace of too many digits is refused without the incident that would list it. -/
theorem buildOver_fails_to_list :
    usual.buildOver (Layer.ofGrace (Nat.pow 10 4300)).entries Layer.nothing.entries =
      .error .longInteger := by
  have hrefused : ¬ Field.graceMinutes.Admits (.int (Nat.pow 10 4300 : Nat)) := by
    rintro ⟨n, hn, -, hle⟩
    cases hn
    revert hle
    decide +kernel
  have hviolation : violation? usual (.ofGrace (Nat.pow 10 4300)) .nothing .graceMinutes =
      some ⟨"grace_minutes", graceRule.message, .int (Nat.pow 10 4300 : Nat)⟩ := by
    rw [violation?, effective_ofGrace, if_neg hrefused]
    rfl
  have hmapped : Mapped (effectivePart (.ofGrace (Nat.pow 10 4300)) .nothing
      Field.graceMinutes.sectionName) := mapped_mapping _
  have hlong : (violations usual (.ofGrace (Nat.pow 10 4300)) .nothing).any (·.value.isTooLong) =
      true := List.any_eq_true.2 ⟨_, mem_violations hmapped hviolation, by decide +kernel⟩
  have hunsound : ¬ Sound usual (.ofGrace (Nat.pow 10 4300)) .nothing := fun h =>
    hrefused (effective_ofGrace _ ▸ h.admitted .graceMinutes)
  rw [buildOver_of_not_sound hunsound, if_pos hlong]

end Issues

end TradingHours.Settings
