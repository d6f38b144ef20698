import TradingHours.CommandLine.Program
import TradingHours.Proofs.Effect
import TradingHours.Proofs.Settings.Precedence
import TradingHours.Proofs.Yaml.Document
/-!
The layers that the program merges: the sections of a file, those that come with the program, and the
choices of a command line. So the settings that it works with have the values that count. Main
statement: `settingsOf_effective`.
-/
namespace TradingHours

open Value (Distinct field?)

theorem Value.distinct_of_sublist {α : Type} {entries : List (Value × α)} {names : List String}
    (h : (entries.map (·.1)).Sublist (names.map .text)) (hnames : names.Nodup) : Distinct entries := by
  have hpairwise : (names.map Value.text).Pairwise fun a b => Value.sameKey a b = false := by
    refine List.pairwise_map.2 (hnames.imp fun {a b} hne => ?_)
    exact Bool.eq_false_iff.2 fun hsame => hne (Value.text.inj (Value.sameKey_text_iff.1 hsame))
  exact List.pairwise_map.1 (hpairwise.sublist h)

theorem Value.mem_of_field? {entries : List (Value × Value)} {name : String} {v : Value}
    (h : field? entries name = some v) : ∃ e ∈ entries, e.2 = v := by
  induction entries with
  | nil => cases h
  | cons entry rest ih =>
    by_cases hkey : entry.1 = .text name
    · obtain ⟨key, value⟩ := entry
      cases hkey
      rw [Value.field?_cons_self] at h
      exact ⟨_, List.mem_cons_self, Option.some.inj h⟩
    · rw [Value.field?_cons_of_ne hkey] at h
      obtain ⟨e, he, hv⟩ := ih h
      exact ⟨e, List.mem_cons_of_mem _ he, hv⟩

namespace Settings

/-- Sections without repeated keys, of which the mappings show their entries, make a layer. -/
theorem exists_layer {entries : List (Value × Value)} (hdistinct : Distinct entries)
    (hopened : ∀ e ∈ entries, ∀ fields, e.2.entries? = some fields →
      e.2 = .mapping fields ∧ Distinct fields) :
    ∃ l : Layer, l.entries = entries := by
  refine ⟨⟨entries, hdistinct, fun name v fields hv hfields => ?_⟩, rfl⟩
  obtain ⟨e, he, rfl⟩ := Value.mem_of_field? hv
  exact hopened e he fields hfields

/-- The sections of a file are a layer. -/
theorem exists_layer_of_ofBytes {p : Disk.Path} {bytes : ByteArray} {entries : List (Value × Value)}
    (h : ofBytes p bytes = .ok entries) : ∃ l : Layer, l.entries = entries := by
  unfold ofBytes at h
  dsimp only at h
  split at h
  · next v hload =>
    have hsectioned := Yaml.sectioned_of_load hload
    unfold sectionsOf at h
    split at h
    · next old hold =>
      cases h
      obtain ⟨hkeys, hvalues⟩ := hsectioned old hold
      refine exists_layer (hkeys.of_keys ?_) fun e he fields hfields => ?_
      · rw [List.map_map]
        rfl
      · obtain ⟨⟨name, value⟩, hmem, rfl⟩ := List.mem_map.1 he
        cases hvalue : value.entries? with
        | none => simp [hvalue] at hfields
        | some inner =>
          simp only [hvalue, Option.map_some, Option.getD_some] at hfields ⊢
          cases hfields
          exact ⟨rfl, hvalues _ hmem _ hvalue⟩
    · cases h
      exact exists_layer .nil fun _ h => nomatch h
    · cases h
  · cases h

/-- Mappings of different names make a layer. -/
theorem exists_layer_of_objects {entries : List (Value × Value)} (names : List String)
    (hkeys : (entries.map (·.1)).Sublist (names.map .text)) (hnames : names.Nodup)
    (hobjects : ∀ e ∈ entries, ∃ fields, e.2 = .mapping fields ∧ Distinct fields) :
    ∃ l : Layer, l.entries = entries := by
  refine exists_layer (Value.distinct_of_sublist hkeys hnames) fun e he fields hfields => ?_
  obtain ⟨fields', hvalue, hdistinct⟩ := hobjects e he
  rw [hvalue] at hfields ⊢
  cases hfields
  exact ⟨rfl, hdistinct⟩

/-- The sections that come with the program are a layer. -/
theorem exists_layer_of_shippedSections : ∃ l : Layer, l.entries = shippedSections := by
  refine exists_layer_of_objects sectionNames (.refl _) (by decide) ?_
  simp only [shippedSections, usual, sections, Value.object, List.map_cons, List.map_nil,
    List.forall_mem_cons]
  refine ⟨⟨_, rfl, ?_⟩, ⟨_, rfl, ?_⟩, ⟨_, rfl, ?_⟩, ⟨_, rfl, ?_⟩, fun _ h => nomatch h⟩
  all_goals
    unfold Distinct
    decide +kernel

end Settings

namespace CommandLine

open Settings (Layer exists_layer_of_objects)

theorem keys_chosen (fields : List (String × Option Value)) :
    ((chosen fields).map (·.1)).Sublist (fields.map (·.1)) := by
  induction fields with
  | nil => exact .slnil
  | cons field rest ih =>
    obtain ⟨name, _ | v⟩ := field
    · exact ih.cons name
    · exact ih.cons_cons name

theorem distinct_chosen {fields : List (String × Option Value)} (h : (fields.map (·.1)).Nodup) :
    ∃ entries, Value.object (chosen fields) = .mapping entries ∧ Distinct entries := by
  refine ⟨_, rfl, Value.distinct_of_sublist ?_ h⟩
  have hkeys := (keys_chosen fields).map Value.text
  rw [List.map_map] at hkeys ⊢
  exact hkeys

theorem keys_filledSection (name : String) (fields : List (String × Value)) :
    ((filledSection name fields).map (·.1)).Sublist [.text name] := by
  unfold filledSection
  split
  · exact List.nil_sublist _
  · exact .refl _

theorem objects_filledSection {name : String} {fields : List (String × Option Value)}
    (h : (fields.map (·.1)).Nodup) :
    ∀ e ∈ filledSection name (chosen fields), ∃ entries, e.2 = .mapping entries ∧ Distinct entries := by
  unfold filledSection
  split
  · exact fun _ h => nomatch h
  · simp only [List.forall_mem_cons]
    exact ⟨distinct_chosen h, fun _ h => nomatch h⟩

theorem objects_pathChoices {paths : List (String × Option (Given String))}
    (h : (paths.map (·.1)).Nodup) :
    ∃ entries, (pathChoices paths).2 = .mapping entries ∧ Distinct entries := by
  refine distinct_chosen ?_
  rw [List.map_map]
  exact h

theorem objects_loggingChoices (c : Common) :
    ∀ e ∈ loggingChoices c, ∃ entries, e.2 = .mapping entries ∧ Distinct entries :=
  objects_filledSection (by simp)

/-- The choices of a run are a layer. -/
theorem exists_layer_of_runSettings (a : RunArguments) : ∃ l : Layer, l.entries = runSettings a := by
  refine exists_layer_of_objects ["paths", "evaluation", "output", "logging"] ?_ (by decide) ?_
  · simp only [runSettings, loggingChoices, List.map_append]
    exact (((List.Sublist.refl _).append (keys_filledSection _ _)).append
      (keys_filledSection _ _)).append (keys_filledSection _ _)
  · simp only [runSettings, List.forall_mem_append, List.forall_mem_singleton]
    exact ⟨⟨⟨objects_pathChoices (by simp), objects_filledSection (by simp)⟩,
      objects_filledSection (by simp)⟩, objects_loggingChoices _⟩

/-- The choices for reference files are a layer. -/
theorem exists_layer_of_goldenSettings (a : GoldenArguments) :
    ∃ l : Layer, l.entries = goldenSettings a := by
  refine exists_layer_of_objects ["paths", "logging"] ?_ (by decide) ?_
  · simp only [goldenSettings, loggingChoices, List.map_append]
    exact (List.Sublist.refl _).append (keys_filledSection _ _)
  · simp only [goldenSettings, List.forall_mem_append, List.forall_mem_singleton]
    exact ⟨objects_pathChoices (by simp), objects_loggingChoices _⟩

inductive Choices : List (Value × Value) → Prop
  | run (a : RunArguments) : Choices (runSettings a)
  | golden (a : GoldenArguments) : Choices (goldenSettings a)

theorem Choices.exists_layer {choices : List (Value × Value)} (h : Choices choices) :
    ∃ l : Layer, l.entries = choices := by
  cases h with
  | run a => exact exists_layer_of_runSettings a
  | golden a => exact exists_layer_of_goldenSettings a

section Work

variable {w w' : World} {settings : Settings} {path : Option (Given Disk.Path)}
  {choices : List (Value × Value)}

theorem exists_layer_of_loadFile {p : Disk.Path} {entries : List (Value × Value)}
    (h : Returns (Settings.loadFile p) w entries w') : ∃ l : Layer, l.entries = entries := by
  obtain ⟨there, _, -, h⟩ := returns_bind.1 h
  split at h
  · cases (returns_pure.1 h).1
    exact ⟨.nothing, rfl⟩
  · obtain ⟨bytes, _, -, h⟩ := returns_bind.1 h
    exact Settings.exists_layer_of_ofBytes (returns_ofExcept.1 h).1

/-- The layer below the choices: what the chosen file has, or what comes with the program. -/
def Below (path : Option (Given Disk.Path)) (w : World) (file : Layer) : Prop :=
  match path with
  | none => file.entries = Settings.shippedSections
  | some (.value p) => ∃ w', Returns (Settings.loadFile p) w file.entries w'
  | some .mark => False

theorem exists_below_of_settingsOf (h : Returns (settingsOf path choices) w settings w') :
    ∃ file : Layer, Below path w file ∧ Settings.build file.entries choices = .ok settings := by
  unfold settingsOf at h
  split at h
  · obtain ⟨entries, w₁, hentries, h⟩ := returns_bind.1 h
    obtain ⟨file, rfl⟩ := exists_layer_of_loadFile hentries
    exact ⟨file, ⟨w₁, hentries⟩, (returns_ofExcept.1 h).1⟩
  · obtain ⟨_, _, hthrow, -⟩ := returns_bind.1 h
    exact absurd hthrow not_returns_throw
  · obtain ⟨entries, _, hentries, h⟩ := returns_bind.1 h
    cases (returns_pure.1 hentries).1
    obtain ⟨file, hfile⟩ := Settings.exists_layer_of_shippedSections
    exact ⟨file, hfile, hfile ▸ (returns_ofExcept.1 h).1⟩

/-- The settings that a command works with have the values that count: those of its choices before
those of the file before the usual ones. -/
theorem settingsOf_effective (hchoices : Choices choices)
    (h : Returns (settingsOf path choices) w settings w') :
    ∃ file upper : Layer, Below path w file ∧ upper.entries = choices ∧ ∀ f : Settings.Field,
      f.valueIn settings = ((upper.given f).or (file.given f)).getD (f.valueIn .usual) := by
  obtain ⟨upper, rfl⟩ := hchoices.exists_layer
  obtain ⟨file, hbelow, hbuild⟩ := exists_below_of_settingsOf h
  refine ⟨file, upper, hbelow, rfl, fun f => ?_⟩
  rw [Settings.build] at hbuild
  by_cases hsound : Settings.Sound .usual file upper
  · rw [Settings.buildOver_of_sound hsound] at hbuild
    cases hbuild
    rw [Settings.valueIn_ofSections_mergeOver hsound, Settings.effective_usual]
  · rw [Settings.buildOver_of_not_sound hsound] at hbuild
    cases hbuild

end Work

end CommandLine

end TradingHours
