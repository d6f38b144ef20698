import TradingHours.CommandLine.Program
import TradingHours.Proofs.Clock.Shift
import TradingHours.Proofs.CommandLine.Options
import TradingHours.Proofs.World.Lasting
/-!
How the program ends. The work of a request is guarded, and a value of an option is refused with a
message; the one failure that nothing deals with is that of an instant that UTC cannot express. Main
statement: `respond_ends`.
-/
namespace TradingHours.CommandLine

section Choices

variable {α β : Type} {choice : Choice α} {name : String} {f : Failure}

def Choice.Sound (choice : Choice α) : Prop :=
  ∀ apply given a f, choice.effect = .value apply → apply given a ≠ .error (.failure f)

theorem sound_helpChoice : (helpChoice : Choice α).Sound := by
  intro apply _ _ _ heffect
  cases heffect

theorem sound_flag {names : List String} {apply : α → α} : (⟨names, .flag apply⟩ : Choice α).Sound := by
  intro apply _ _ _ heffect
  cases heffect

theorem readChoice_eq_failure_iff {read : String → Except Refusal β} {set : Given β → α → α}
    {apply : Given String → α → Except Refusal α} {given : Given String} {a : α}
    (heffect : (readChoice name read set).effect = .value apply) :
    apply given a = .error (.failure f) ↔ ∃ v, given = .value v ∧ read v = .error (.failure f) := by
  cases heffect
  cases given with
  | mark => simp
  | value v => cases hread : read v <;> simp [hread, Except.map]

theorem sound_readChoice {read : String → Except Refusal β} {set : Given β → α → α}
    (hread : ∀ v f, read v ≠ .error (.failure f)) : (readChoice name read set).Sound := by
  intro apply given a f heffect hrefuses
  obtain ⟨v, -, hv⟩ := (readChoice_eq_failure_iff heffect).1 hrefuses
  exact hread v f hv

theorem sound_textChoice {set : Given String → α → α} : (textChoice name set).Sound :=
  sound_readChoice fun _ _ h => nomatch h

theorem sound_pathChoice {set : Given Disk.Path → α → α} : (pathChoice name set).Sound :=
  sound_readChoice fun _ _ h => nomatch h

theorem sound_commonChoices {update : (Common → Common) → α → α} :
    ∀ choice ∈ commonChoices update, choice.Sound := by
  simp only [commonChoices, List.forall_mem_cons]
  exact ⟨sound_helpChoice, sound_pathChoice, sound_textChoice, sound_textChoice, sound_textChoice,
    sound_flag, fun _ h => nomatch h⟩

theorem sound_graceChoice : graceChoice.Sound := by
  refine sound_readChoice fun v f h => ?_
  cases hread : Text.readInteger? v <;> simp [hread] at h

theorem sound_dateChoice : dateChoice.Sound := by
  refine sound_readChoice fun v f h => ?_
  cases hread : Reading.day? v <;> simp [hread] at h

theorem sound_goldenChoices : ∀ choice ∈ goldenChoices, choice.Sound := by
  refine List.forall_mem_append.2 ⟨sound_commonChoices, ?_⟩
  simp only [List.forall_mem_cons]
  exact ⟨sound_pathChoice, sound_dateChoice, fun _ h => nomatch h⟩

/-- Of the options of a run only that of the instant can fail. -/
theorem sound_runChoices : ∀ choice ∈ runChoices, choice = nowChoice ∨ choice.Sound := by
  refine List.forall_mem_append.2 ⟨fun choice hmem => .inr (sound_commonChoices choice hmem), ?_⟩
  simp only [List.forall_mem_cons]
  exact ⟨.inr sound_textChoice, .inr sound_textChoice, .inr sound_textChoice, .inr sound_textChoice,
    .inl trivial, .inr sound_graceChoice, .inr sound_flag, fun _ h => nomatch h⟩

def StrayText (v : String) : Prop := ∃ t, Reading.instant? v = some t ∧ ¬ t.Reaches 0

theorem nowChoice_eq_failure_iff {apply : Given String → RunArguments → Except Refusal RunArguments}
    {given : Given String} {a : RunArguments} (heffect : nowChoice.effect = .value apply) :
    apply given a = .error (.failure f) ↔
      ∃ v, given = .value v ∧ f = .dateOutOfRange ∧ StrayText v := by
  rw [readChoice_eq_failure_iff heffect]
  refine exists_congr fun v => and_congr_right fun _ => ?_
  rw [StrayText]
  cases Reading.instant? v with
  | none => simp
  | some t =>
    have hutc := Instant.toUtc_eq_error_iff (t := t) (f := f)
    cases h : t.toUtc with
    | ok u => simpa [h] using hutc
    | error e => simpa [h] using hutc

end Choices

section Parse

variable {α : Type} {c : Command α} {a : α} {words : List String} {f : Failure}

theorem parse_eq_failure_iff :
    c.parse a words = .error (.failure f) ↔
      ∃ l a' choice apply given, c.roles words = .ok l ∧ choice ∈ c.choices ∧
        c.GetsTo a l a' choice given ∧ choice.effect = .value apply ∧
        apply given a' = .error (.failure f) := by
  constructor
  · intro h
    rw [Command.parse] at h
    cases hroles : c.roles words with
    | error stop =>
      obtain ⟨message, rfl⟩ := Command.misuse_of_roles hroles
      rw [hroles] at h
      cases h
    | ok l =>
      rw [hroles] at h
      obtain ⟨a', choice, apply, given, hgets, hrefuses⟩ := Command.consume_eq_failure_iff.1 h
      exact ⟨l, a', choice, apply, given, rfl, hgets.mem_choices hroles, hgets, hrefuses⟩
  · rintro ⟨l, a', choice, apply, given, hroles, -, hgets, hrefuses⟩
    rw [Command.parse, hroles]
    exact Command.consume_eq_failure_iff.2 ⟨a', choice, apply, given, hgets, hrefuses⟩

theorem golden_parse_ne_failure {a : GoldenArguments} :
    goldenCommand.parse a words ≠ .error (.failure f) := by
  intro h
  obtain ⟨l, a', choice, apply, given, -, hmem, -, heffect, hrefuses⟩ := parse_eq_failure_iff.1 h
  exact sound_goldenChoices choice hmem apply given a' f heffect hrefuses

/-- Behind the name of the command a run gets to an instant that UTC cannot express. -/
def StraysBehind (words : List String) : Prop :=
  ∃ l a v, runCommand.roles words = .ok l ∧ runCommand.GetsTo {} l a nowChoice (.value v) ∧
    StrayText v

theorem run_parse_eq_failure_iff :
    runCommand.parse {} words = .error (.failure f) ↔ f = .dateOutOfRange ∧ StraysBehind words := by
  rw [parse_eq_failure_iff]
  constructor
  · rintro ⟨l, a', choice, apply, given, hroles, hmem, hgets, heffect, hrefuses⟩
    rcases sound_runChoices choice hmem with rfl | hsound
    · obtain ⟨v, rfl, hf, hstray⟩ := (nowChoice_eq_failure_iff heffect).1 hrefuses
      exact ⟨hf, l, a', v, hroles, hgets, hstray⟩
    · exact absurd hrefuses (hsound apply given a' f heffect)
  · rintro ⟨hf, l, a', v, hroles, hgets, hstray⟩
    refine ⟨l, a', nowChoice, _, .value v, hroles, ?_, hgets, rfl, ?_⟩
    · simp [runCommand, runChoices]
    · exact (nowChoice_eq_failure_iff rfl).2 ⟨v, rfl, hf, hstray⟩

end Parse

section Request

variable {before words : List String} {word name : String} {f : Failure}

theorem named_eq_failure_iff :
    named before name words = .error (.failure f) ↔
      name = "run" ∧ runCommand.parse {} words = .error (.failure f) := by
  unfold named
  split
  · cases hparse : runCommand.parse {} words with
    | error stop => simp [bind, Except.bind]
    | ok pair =>
      obtain ⟨arguments, left⟩ := pair
      cases hleft : before ++ left <;> simp [bind, Except.bind, hleft, Command.misuse]
  · cases hparse : goldenCommand.parse {} words with
    | error stop =>
      have hne : stop ≠ .failure f := by
        rintro rfl
        exact golden_parse_ne_failure hparse
      simp [bind, Except.bind, hne]
    | ok pair =>
      obtain ⟨arguments, left⟩ := pair
      cases hleft : before ++ left <;> simp [bind, Except.bind, hleft, Command.misuse]
  · next hrun _ =>
    refine iff_of_false (fun h => ?_) fun h => hrun h.1
    cases h

theorem names_program : program.names = [("-h", helpChoice), ("--help", helpChoice)] := rfl

/-- Before a command is named no option is ambiguous: the two names of the one option differ in their
second letter. -/
theorem length_program_candidates (next : Char) (rest : List Char) :
    (program.candidates ('-' :: next :: rest)).length ≤ 1 := by
  have hshort : "-h".toList = ['-', 'h'] := rfl
  have hlong : "--help".toList = ['-', '-', 'h', 'e', 'l', 'p'] := rfl
  by_cases hnext : next = '-'
  · subst hnext
    rw [Command.candidates]
    split
    · next shown value hcut =>
      obtain ⟨shown', rfl⟩ : ∃ shown', shown = '-' :: '-' :: shown' := by
        rw [Text.cutAtFirst, if_neg (by decide), Text.cutAtFirst, if_neg (by decide)] at hcut
        cases hrest : Text.cutAtFirst '=' rest with
        | none => simp [hrest] at hcut
        | some pair =>
          rw [hrest] at hcut
          cases hcut
          exact ⟨pair.1, rfl⟩
      simp only [names_program, List.length_map, List.filter_cons, hshort, hlong]
      simp
      split <;> simp
    · simp only [names_program, List.length_map, List.filter_cons, hshort, hlong]
      simp
      split <;> simp
  · rw [Command.candidates]
    · simp only [names_program, List.filterMap_cons, hshort, hlong]
      simp [hnext]
      grind
    · simp [hnext]

theorem program_roleOf_cases (word : String) :
    program.roleOf word = .ok .operand ∨ program.roleOf word = .ok .unknown ∨
      ∃ choice name attached, program.roleOf word = .ok (.known choice name attached) := by
  obtain h | h | ⟨_, _, _, h, -⟩ | ⟨_, next, rest, -, hword, hseveral⟩ :=
    Command.roleOf_cases program word
  · exact .inl h
  · exact .inr (.inl h)
  · exact .inr (.inr ⟨_, _, _, h⟩)
  · have hfew := length_program_candidates next rest
    rw [← hword] at hfew
    omega

theorem exists_program_roles (words : List String) : ∃ l, program.roles words = .ok l := by
  induction words with
  | nil => exact ⟨[], rfl⟩
  | cons word rest ih =>
    obtain ⟨l, hl⟩ := ih
    rw [Command.roles]
    split
    · exact ⟨_, rfl⟩
    · obtain h | h | ⟨_, _, _, h⟩ := program_roleOf_cases word <;> exact ⟨_, by rw [h, hl]; rfl⟩

def NamesRun (words behind : List String) : Prop :=
  ∃ before, words = before ++ "run" :: behind ∧
    ∀ word ∈ before, program.roleOf word = .ok .unknown

theorem namesRun_cons {behind : List String} :
    NamesRun (word :: words) behind ↔
      (word = "run" ∧ words = behind) ∨
        (program.roleOf word = .ok .unknown ∧ NamesRun words behind) := by
  constructor
  · rintro ⟨before, hwords, hbefore⟩
    cases before with
    | nil =>
      cases hwords
      exact .inl ⟨rfl, rfl⟩
    | cons first before =>
      cases hwords
      exact .inr ⟨hbefore _ List.mem_cons_self, before, rfl,
        fun word hword => hbefore word (List.mem_cons_of_mem _ hword)⟩
  · rintro (⟨rfl, rfl⟩ | ⟨hword, before, rfl, hbefore⟩)
    · exact ⟨[], rfl, fun _ h => nomatch h⟩
    · exact ⟨word :: before, rfl, List.forall_mem_cons.2 ⟨hword, hbefore⟩⟩

theorem not_namesRun_nil {behind : List String} : ¬ NamesRun [] behind := by
  rintro ⟨_ | _, hwords, -⟩ <;> cases hwords

theorem roleOf_run : program.roleOf "run" = .ok .operand := rfl

theorem ne_run_of_roleOf {role : Role Unit} (h : program.roleOf word = .ok role)
    (hrole : role ≠ .operand) : word ≠ "run" := by
  rintro rfl
  exact hrole (Except.ok.inj (h.symm.trans roleOf_run))

theorem roleOf_mark : program.roleOf "--" = .ok (.known helpChoice "--help" none) := rfl

theorem findCommand_nil_ne_failure : findCommand before [] ≠ .error (.failure f) := by
  cases before <;> exact fun h => nomatch h

/-- A command line fails where it names a run whose arguments fail. -/
theorem findCommand_eq_failure_iff {l : List (String × Role Unit)} (hl : program.roles words = .ok l) :
    findCommand before l = .error (.failure f) ↔
      ∃ behind, NamesRun words behind ∧ runCommand.parse {} behind = .error (.failure f) := by
  induction words generalizing before l with
  | nil =>
    cases hl
    simp [findCommand_nil_ne_failure, not_namesRun_nil]
  | cons word rest ih =>
    obtain ⟨l', hl'⟩ := exists_program_roles rest
    simp only [namesRun_cons]
    by_cases hmark : word = "--"
    · subst hmark
      rw [Command.roles, if_pos rfl] at hl
      cases hl
      have hmarked : ¬ ∃ behind, (("--" = "run" ∧ rest = behind) ∨
          program.roleOf "--" = .ok .unknown ∧ NamesRun rest behind) ∧
          runCommand.parse {} behind = .error (.failure f) := by
        simp [roleOf_mark]
      refine iff_of_false ?_ hmarked
      rw [findCommand]
      split
      · next hempty =>
        rw [List.isEmpty_iff.1 hempty]
        exact findCommand_nil_ne_failure
      · rw [named_eq_failure_iff]
        simp
    · rw [Command.roles, if_neg hmark] at hl
      obtain hrole | hrole | ⟨choice, name, attached, hrole⟩ := program_roleOf_cases word
      · rw [hrole, hl'] at hl
        cases hl
        rw [findCommand, named_eq_failure_iff, Command.map_fst_of_roles hl', hrole]
        simp [and_assoc]
      · rw [hrole, hl'] at hl
        cases hl
        have hrun : word ≠ "run" := ne_run_of_roleOf hrole (by simp)
        rw [findCommand, ih hl']
        simp [hrole, hrun]
      · rw [hrole, hl'] at hl
        cases hl
        have hrun : word ≠ "run" := ne_run_of_roleOf hrole (by simp)
        simp only [hrole, hrun]
        cases attached <;> simp [findCommand, Command.attachedToSwitch_ne_failure]

/-- The command line asks for a run at an instant that UTC cannot express. -/
def AsksForStray (words : List String) : Prop :=
  ∃ behind, NamesRun words behind ∧ StraysBehind behind

theorem request_eq_failure_iff :
    request words = .error (.failure f) ↔ f = .dateOutOfRange ∧ AsksForStray words := by
  obtain ⟨l, hl⟩ := exists_program_roles words
  have hrequest : request words = findCommand [] l := by
    rw [request]
    split
    · next hempty =>
      cases List.isEmpty_iff.1 hempty
      cases hl
      rfl
    · rw [hl]
      rfl
  rw [hrequest, findCommand_eq_failure_iff hl, AsksForStray]
  simp only [run_parse_eq_failure_iff]
  constructor
  · rintro ⟨behind, hrun, hf, hstray⟩
    exact ⟨hf, behind, hrun, hstray⟩
  · rintro ⟨hf, behind, hrun, hstray⟩
    exact ⟨behind, hrun, hf, hstray⟩

end Request

section Ending

def Ending.Coded : Ending → Prop
  | .code n | .usage n => n = 0 ∨ n = 2
  | .failure _ => False

theorem neverFails_report (failure : Failure) : NeverFails (report failure) := by
  unfold report
  split <;> exact (neverFails_note _).bind fun _ => .pure _

theorem execute_ends (r : Request) (w : World) :
    ∃ outcome w', Returns (execute r) w outcome w' ∧ outcome.ending.Coded := by
  cases hr : exec (carryOut r) w with
  | mk result w₁ =>
    cases result with
    | ok done =>
      have hreturns : Returns (do carryOut r; return ⟨.code successCode, []⟩) w
          (⟨.code successCode, []⟩ : Outcome) w₁ := by
        rw [Returns, exec_bind_ok hr]
        rfl
      exact ⟨_, _, returns_tryCatch.2 (.inl hreturns), .inl rfl⟩
    | error failure =>
      obtain ⟨complaint, w₂, hreport⟩ := neverFails_report failure w₁
      have hfails : exec (do carryOut r; return (⟨.code successCode, []⟩ : Outcome)) w =
          (.error failure, w₁) := exec_bind_error hr
      refine ⟨⟨.code fatalCode, [complaint]⟩, w₂, ?_, .inr rfl⟩
      exact returns_tryCatch.2 (.inr ⟨failure, w₁, hfails,
        returns_bind.2 ⟨complaint, w₂, hreport, returns_pure.2 ⟨rfl, rfl⟩⟩⟩)

theorem neverFails_showUsage (usage : List String) : NeverFails (showUsage usage) := by
  intro w
  induction usage generalizing w with
  | nil => exact ⟨⟨⟩, w, rfl⟩
  | cons line rest ih =>
    obtain ⟨_, w', hrest⟩ := ih { w with screen := w.screen.push line }
    exact ⟨⟨⟩, w', hrest⟩

/-- Every command line ends with one of the two codes, whatever world the program is in, unless it asks
for a run at an instant that UTC cannot express: then the program fails before it does anything. -/
theorem respond_ends (words : List String) (w : World) :
    ∃ outcome w', Returns (respond words) w outcome w' ∧
      ((¬ AsksForStray words ∧ outcome.ending.Coded) ∨
        (AsksForStray words ∧ outcome = ⟨.failure .dateOutOfRange, []⟩ ∧ w' = w)) := by
  by_cases hstray : AsksForStray words
  · have hrequest := request_eq_failure_iff.2 ⟨rfl, hstray⟩
    exact ⟨_, w, by rw [respond, hrequest]; rfl, .inr ⟨hstray, rfl, rfl⟩⟩
  rw [respond]
  cases hrequest : request words with
  | ok r =>
    obtain ⟨outcome, w', hreturns, hcoded⟩ := execute_ends r w
    exact ⟨outcome, w', hreturns, .inl ⟨hstray, hcoded⟩⟩
  | error stop =>
    cases stop with
    | help usage =>
      obtain ⟨_, w', hshown⟩ := neverFails_showUsage usage w
      exact ⟨⟨.usage successCode, []⟩, w',
        returns_bind.2 ⟨_, w', hshown, returns_pure.2 ⟨rfl, rfl⟩⟩, .inl ⟨hstray, .inl rfl⟩⟩
    | misuse _ usage message =>
      exact ⟨_, w, returns_pure.2 ⟨rfl, rfl⟩, .inl ⟨hstray, .inr rfl⟩⟩
    | failure f => exact absurd (request_eq_failure_iff.1 hrequest).2 hstray

def strayRun : List String := ["run", "--now", "0001-01-01T00:00:00+01:00"]

theorem asksForStray_strayRun : AsksForStray strayRun := by
  refine ⟨["--now", "0001-01-01T00:00:00+01:00"], ⟨[], rfl, fun _ h => nomatch h⟩, ?_⟩
  refine ⟨[("--now", .known nowChoice "--now" none), ("0001-01-01T00:00:00+01:00", .operand)], {},
    "0001-01-01T00:00:00+01:00", rfl, .here rfl, ⟨0, some 3600000000, by decide⟩, ?_, ?_⟩
  · decide +kernel
  · simp [Instant.Reaches]

/-- A run at such an instant ends with a failure and without a code. -/
theorem respond_fails_on_strayRun :
    (exec (respond strayRun)
        { disk := ⟨[], [], none, []⟩, now := .startOfDay ⟨0, by decide⟩, mark := "" }).1 =
      .ok ⟨.failure .dateOutOfRange, []⟩ := by
  rw [respond, request_eq_failure_iff.2 ⟨rfl, asksForStray_strayRun⟩]
  rfl

end Ending

end TradingHours.CommandLine
