import TradingHours.CommandLine.Option
import TradingHours.Proofs.Effect
/-!
How a command reads its words. Words in front of an option are read as if nothing followed, so a
command fails exactly where an option that it reaches refuses its value by a failure.
-/
namespace TradingHours.CommandLine

namespace Command

variable {α : Type} {c : Command α} {word name : String} {choice : Choice α} {f : Failure}

section Roles

variable {words : List String} {l : List (String × Role α)} {attached : Option (List Char)}

theorem mem_choices_of_names (h : (name, choice) ∈ c.names) : choice ∈ c.choices := by
  obtain ⟨other, hother, hpair⟩ := List.mem_flatMap.1 h
  obtain ⟨_, -, heq⟩ := List.mem_map.1 hpair
  cases heq
  exact hother

theorem mem_choices_of_lookup (h : c.names.lookup word = some choice) : choice ∈ c.choices := by
  obtain ⟨_, _, hsplit, -⟩ := List.lookup_eq_some_iff.1 h
  have hmem : (word, choice) ∈ c.names := by
    rw [hsplit]
    exact List.mem_append_right _ List.mem_cons_self
  exact mem_choices_of_names hmem

theorem mem_choices_of_candidates {cs : List Char}
    (h : (name, choice, attached) ∈ c.candidates cs) : choice ∈ c.choices := by
  unfold candidates at h
  dsimp only at h
  split at h
  · split at h
    all_goals
      obtain ⟨pair, hpair, heq⟩ := List.mem_map.1 h
      cases heq
      exact mem_choices_of_names (List.mem_filter.1 hpair).1
  · obtain ⟨⟨shown, other⟩, hpair, heq⟩ := List.mem_filterMap.1 h
    have hother : choice = other := by
      grind
    exact mem_choices_of_names (hother ▸ hpair)

/-- What a word can be, and why it can be refused. -/
theorem roleOf_cases (c : Command α) (word : String) :
    c.roleOf word = .ok .operand ∨ c.roleOf word = .ok .unknown ∨
      (∃ choice name attached, c.roleOf word = .ok (.known choice name attached) ∧
        choice ∈ c.choices) ∨
      ∃ message next rest, c.roleOf word = .error (c.misuse message) ∧
        word.toList = '-' :: next :: rest ∧ 2 ≤ (c.candidates word.toList).length := by
  unfold roleOf
  dsimp only
  split
  · exact .inl rfl
  next hdash =>
  split
  · next hlookup => exact .inr (.inr (.inl ⟨_, _, _, rfl, mem_choices_of_lookup hlookup⟩))
  split
  · exact .inl rfl
  next hlength =>
  split
  · next hexact =>
    obtain ⟨_, -, hshown⟩ := Option.bind_eq_some_iff.1 hexact
    obtain ⟨_, hlookup, heq⟩ := Option.map_eq_some_iff.1 hshown
    cases heq
    exact .inr (.inr (.inl ⟨_, _, _, rfl, mem_choices_of_lookup hlookup⟩))
  split
  · next hsingle =>
    have hmem := hsingle ▸ List.mem_singleton_self _
    exact .inr (.inr (.inl ⟨_, _, _, rfl, mem_choices_of_candidates hmem⟩))
  · split
    · exact .inl rfl
    · exact .inr (.inl rfl)
  · next hseveral hempty =>
    obtain ⟨next, rest, hword⟩ : ∃ next rest, word.toList = '-' :: next :: rest := by
      rcases hcs : word.toList with _ | ⟨first, _ | ⟨next, rest⟩⟩
      · simp [hcs] at hdash
      · simp [hcs] at hlength
      · exact ⟨next, rest, by simpa [hcs] using hdash⟩
    refine .inr (.inr (.inr ⟨_, next, rest, rfl, hword, ?_⟩))
    rcases hc : c.candidates word.toList with _ | ⟨first, _ | ⟨second, more⟩⟩
    · exact absurd hc hempty
    · exact absurd hc (hseveral _ _ _)
    · simp

/-- Words are refused only for how they are used. -/
theorem misuse_of_roles {stop : Stop} (h : c.roles words = .error stop) :
    ∃ message, stop = c.misuse message := by
  induction words with
  | nil => cases h
  | cons first rest ih =>
    rw [roles] at h
    split at h
    · cases h
    obtain hrole | hrole | ⟨_, _, _, hrole, -⟩ | ⟨message, _, _, hrole, -⟩ := roleOf_cases c first
    case inr.inr.inr =>
      rw [hrole] at h
      cases h
      exact ⟨message, rfl⟩
    all_goals
      rw [hrole] at h
      cases hroles : c.roles rest with
      | ok l =>
        rw [hroles] at h
        cases h
      | error stop' =>
        rw [hroles] at h
        cases h
        exact ih hroles

theorem mem_choices_of_roles (h : c.roles words = .ok l)
    (hmem : (word, .known choice name attached) ∈ l) : choice ∈ c.choices := by
  induction words generalizing l with
  | nil =>
    cases h
    cases hmem
  | cons first rest ih =>
    rw [roles] at h
    split at h
    · cases h
      simp at hmem
    · obtain ⟨role, hrole, h⟩ := ok_bind_iff.1 h
      obtain ⟨l', hroles, h⟩ := ok_bind_iff.1 h
      cases h
      rcases List.mem_cons.1 hmem with heq | hmem
      · cases heq
        obtain hrole' | hrole' | ⟨_, _, _, hrole', hmem⟩ | ⟨_, _, _, hrole', -⟩ :=
            roleOf_cases c word <;>
          rw [hrole] at hrole' <;> cases hrole'
        exact hmem
      · exact ih hroles hmem

theorem map_fst_of_roles (h : c.roles words = .ok l) : l.map (·.1) = words := by
  induction words generalizing l with
  | nil =>
    cases h
    rfl
  | cons first rest ih =>
    rw [roles] at h
    split at h
    · cases h
      simp [Function.comp_def]
    · obtain ⟨role, hrole, h⟩ := ok_bind_iff.1 h
      obtain ⟨l', hroles, h⟩ := ok_bind_iff.1 h
      cases h
      rw [List.map_cons, ih hroles]

end Roles

theorem attachedToSwitch_ne_failure {cs : List Char} :
    c.attachedToSwitch choice name cs ≠ .failure f := by
  induction cs with
  | nil => exact fun h => nomatch h
  | cons first rest ih =>
    unfold attachedToSwitch
    split
    · split
      · exact fun h => nomatch h
      · split
        · exact fun h => nomatch h
        · next heq _ _ =>
          cases heq
          exact ih
    · exact fun h => nomatch h

section Consume

variable {a a₁ a' : α} {l front rest : List (String × Role α)} {attached : Option (List Char)}
  {left : List String} {given : Given String} {stop : Stop}
  {apply : Given String → α → Except Refusal α}

def givenFor (attached : Option (List Char)) (rest : List (String × Role α)) :
    Option (Given String) :=
  match attached, rest with
  | some value, _ => some (if value = ['-', '-'] then .mark else .value (String.ofList value))
  | none, (value, .operand) :: _ => some (.value value)
  | none, _ => none

/-- The command accepts what stands in front of an option, and has arguments `a'` when it gets to the
option and to what that is given. -/
def GetsTo (c : Command α) (a : α) (l : List (String × Role α)) (a' : α) (choice : Choice α)
    (given : Given String) : Prop :=
  ∃ front word name attached rest left, l = front ++ (word, .known choice name attached) :: rest ∧
    c.consume a front = .ok (a', left) ∧ givenFor attached rest = some given

theorem assign_eq_failure_iff :
    c.assign choice apply given a = .error (.failure f) ↔ apply given a = .error (.failure f) := by
  unfold assign
  split <;> simp_all [fault, misuse]

theorem consume_value (heffect : choice.effect = .value apply)
    (hgiven : givenFor attached rest = some given) :
    c.consume a ((word, .known choice name attached) :: rest) = (do
      let a ← c.assign choice apply given a
      c.consume a (if attached.isSome then rest else rest.tail)) := by
  unfold givenFor at hgiven
  split at hgiven
  · cases hgiven
    rw [consume.eq_def]
    simp only [heffect]
    rfl
  · cases hgiven
    rw [consume.eq_def]
    simp only [heffect]
    rfl
  · cases hgiven

theorem consume_flag {apply : α → α} (heffect : choice.effect = .flag apply) :
    c.consume a ((word, .known choice name none) :: rest) = c.consume (apply a) rest := by
  rw [consume.eq_def]
  simp only [heffect]

theorem consume_left {role : Role α}
    (hrole : ∀ choice name attached, role = .known choice name attached → False) :
    c.consume a ((word, role) :: rest) = (do
      let (a, left) ← c.consume a rest
      return (a, word :: left)) := by
  rw [consume]
  exact hrole

theorem consume_of_front (hfront : ∃ left, c.consume a front = .ok (a', left))
    (hstop : c.consume a' ((word, .known choice name attached) :: rest) = .error stop) :
    c.consume a (front ++ (word, .known choice name attached) :: rest) = .error stop := by
  fun_induction c.consume a front with
  | case1 a =>
    obtain ⟨_, hfront⟩ := hfront
    cases hfront
    exact hstop
  | case2 a _ _ _ front apply value heffect given ih =>
    obtain ⟨left, hfront⟩ := hfront
    obtain ⟨a₁, hassign, hfront⟩ := ok_bind_iff.1 hfront
    rw [List.cons_append, consume_value heffect rfl, hassign]
    exact ih a₁ ⟨left, hfront⟩
  | case3 a _ _ _ apply heffect value front ih =>
    obtain ⟨left, hfront⟩ := hfront
    obtain ⟨a₁, hassign, hfront⟩ := ok_bind_iff.1 hfront
    rw [List.cons_append, List.cons_append, consume_value heffect rfl, hassign]
    exact ih a₁ ⟨left, hfront⟩
  | case4 | case5 | case6 =>
    obtain ⟨_, hfront⟩ := hfront
    cases hfront
  | case7 a _ _ _ front apply heffect ih =>
    rw [List.cons_append, consume_flag heffect]
    exact ih hfront
  | case8 a first role front hrole ih =>
    obtain ⟨_, hfront⟩ := hfront
    obtain ⟨⟨a₁, left⟩, hrest, heq⟩ := ok_bind_iff.1 hfront
    cases heq
    rw [List.cons_append, consume_left hrole, ih ⟨left, hrest⟩]
    rfl

theorem GetsTo.here (hgiven : givenFor attached rest = some given) :
    c.GetsTo a ((word, .known choice name attached) :: rest) a choice given :=
  ⟨[], word, name, attached, rest, [], rfl, rfl, hgiven⟩

theorem GetsTo.mem_choices {words : List String} (hroles : c.roles words = .ok l)
    (h : c.GetsTo a l a' choice given) : choice ∈ c.choices := by
  obtain ⟨_, _, _, _, _, _, rfl, -, -⟩ := h
  exact mem_choices_of_roles hroles (List.mem_append_right _ List.mem_cons_self)

theorem GetsTo.behind (head : List (String × Role α)) (h : c.GetsTo a₁ l a' choice given)
    (hhead : ∀ front left, c.consume a₁ front = .ok (a', left) →
      ∃ left', c.consume a (head ++ front) = .ok (a', left')) :
    c.GetsTo a (head ++ l) a' choice given := by
  obtain ⟨front, word, name, attached, rest, left, rfl, hfront, hgiven⟩ := h
  obtain ⟨left', hconsume⟩ := hhead front left hfront
  exact ⟨head ++ front, word, name, attached, rest, left', by rw [List.append_assoc], hconsume, hgiven⟩

def RefusesBy (c : Command α) (f : Failure) (a : α) (l : List (String × Role α)) : Prop :=
  ∃ a' choice apply given, c.GetsTo a l a' choice given ∧ choice.effect = .value apply ∧
    apply given a' = .error (.failure f)

theorem RefusesBy.behind (head : List (String × Role α)) (h : c.RefusesBy f a₁ l)
    (hhead : ∀ a' front left, c.consume a₁ front = .ok (a', left) →
      ∃ left', c.consume a (head ++ front) = .ok (a', left')) :
    c.RefusesBy f a (head ++ l) := by
  obtain ⟨a', choice, apply, given, hgets, hrefuses⟩ := h
  exact ⟨a', choice, apply, given, hgets.behind head (hhead a'), hrefuses⟩

/-- An option refuses what it is given itself, or a later one does. -/
theorem refusesBy_of_value (head : List (String × Role α)) (heffect : choice.effect = .value apply)
    (hhere : c.GetsTo a (head ++ rest) a choice given)
    (hhead : ∀ front, c.consume a (head ++ front) = (do
      let a ← c.assign choice apply given a
      c.consume a front))
    (hrest : ∀ a₁, c.consume a₁ rest = .error (.failure f) → c.RefusesBy f a₁ rest)
    (h : (do
      let a ← c.assign choice apply given a
      c.consume a rest) = .error (.failure f)) : c.RefusesBy f a (head ++ rest) := by
  cases hassign : c.assign choice apply given a with
  | error stop =>
    rw [hassign] at h
    cases h
    exact ⟨a, choice, apply, given, hhere, heffect, assign_eq_failure_iff.1 hassign⟩
  | ok a₁ =>
    rw [hassign] at h
    refine (hrest a₁ h).behind head fun a' front left hfront => ⟨left, ?_⟩
    rw [hhead, hassign]
    exact hfront

theorem refusesBy_of_failure (h : c.consume a l = .error (.failure f)) : c.RefusesBy f a l := by
  fun_induction c.consume a l with
  | case1 => cases h
  | case2 a word choice name rest apply value heffect given ih =>
    exact refusesBy_of_value [_] heffect (.here rfl) (fun _ => consume_value heffect rfl) ih h
  | case3 a word choice name apply heffect value rest ih =>
    exact refusesBy_of_value [_, _] heffect (.here rfl) (fun _ => consume_value heffect rfl) ih h
  | case4 => cases h
  | case5 => exact absurd (Except.error.inj h) attachedToSwitch_ne_failure
  | case6 => cases h
  | case7 a word choice name rest apply heffect ih =>
    refine (ih h).behind [_] fun a' front left hfront => ⟨left, ?_⟩
    rw [List.singleton_append, consume_flag heffect]
    exact hfront
  | case8 a word role rest hrole ih =>
    cases hrest : c.consume a rest with
    | ok =>
      rw [hrest] at h
      cases h
    | error stop =>
      rw [hrest] at h
      cases h
      refine (ih hrest).behind [_] fun a' front left hfront => ⟨word :: left, ?_⟩
      rw [List.singleton_append, consume_left hrole, hfront]
      rfl

/-- A command fails exactly where an option that it gets to refuses what it is given by that failure. -/
theorem consume_eq_failure_iff :
    c.consume a l = .error (.failure f) ↔
      ∃ a' choice apply given, c.GetsTo a l a' choice given ∧ choice.effect = .value apply ∧
        apply given a' = .error (.failure f) := by
  refine ⟨refusesBy_of_failure, ?_⟩
  rintro ⟨a', choice, apply, given, ⟨front, word, name, attached, rest, left, rfl, hfront, hgiven⟩,
    heffect, happly⟩
  refine consume_of_front ⟨left, hfront⟩ ?_
  rw [consume_value heffect hgiven, assign_eq_failure_iff.2 happly]
  rfl

end Consume

end Command

end TradingHours.CommandLine
