import TradingHours.Proofs.Effect
import TradingHours.Proofs.Schedule.Latch
import TradingHours.Schedule.Vector
/-!
Runs of the latch, in closed form. A trading sample ahead sets the state, two idle samples reset it,
and in between it is held: so a market is open exactly if some sample ahead traded and one of the two
has traded at every instant since, or if it was open at first and one of them always traded. Main
statement: `thread_windowStep_closedForm`.
-/
namespace TradingHours.Schedule

def tradingAfter (windows : List Window) (s : Span) (t : Instant) : Except Failure Bool := do
  isTrading windows (← t.shift s)

def tradesAfter (windows : List Window) (s : Span) (t : Instant) : Bool :=
  match tradingAfter windows s t with
  | .ok trading => trading
  | .error _ => false

/-- The calendar holds the samples that a step looks at: the one ahead and, unless the market trades
there, the one behind. -/
def Decided (windows : List Window) (g : Span) (t : Instant) : Prop :=
  ∃ ahead, tradingAfter windows g t = .ok ahead ∧
    (ahead = true ∨ ∃ behind, tradingAfter windows (-g) t = .ok behind)

/-- The state that the answers ahead and behind make. The second counts only if the first is no. -/
def latchOf (ahead behind : Except Failure Bool) (previous : Option Bool) : Except Failure Bool := do
  if ← ahead then .ok true
  else if ← behind then .ok (held previous) else .ok false

def latchedAt (ahead behind : Nat → Bool) (previous : Bool) : Nat → Bool
  | 0 => ahead 0 || (behind 0 && previous)
  | i + 1 => ahead (i + 1) || (behind (i + 1) && latchedAt ahead behind previous i)

section Latch

variable {ahead behind : Nat → Bool} {previous : Bool}

theorem latchedAt_succ (i : Nat) :
    latchedAt ahead behind previous (i + 1) =
      latchedAt (fun j => ahead (j + 1)) (fun j => behind (j + 1))
        (latchedAt ahead behind previous 0) i := by
  induction i with
  | zero => rfl
  | succ i ih => exact congrArg (fun state => ahead (i + 2) || (behind (i + 2) && state)) ih

theorem latchedAt_of_ahead {i : Nat} (h : ahead i = true) :
    latchedAt ahead behind previous i = true := by
  cases i <;> simp [latchedAt, h]

theorem latchedAt_congr {ahead' behind' : Nat → Bool} {i : Nat} (ha : ∀ j ≤ i, ahead j = ahead' j)
    (hb : ∀ j ≤ i, behind j = behind' j) :
    latchedAt ahead behind previous i = latchedAt ahead' behind' previous i := by
  induction i with
  | zero => rw [latchedAt, latchedAt, ha 0 (Nat.le_refl 0), hb 0 (Nat.le_refl 0)]
  | succ i ih =>
    rw [latchedAt, latchedAt, ha _ (Nat.le_refl _), hb _ (Nat.le_refl _),
      ih (fun j hj => ha j (Nat.le_succ_of_le hj)) fun j hj => hb j (Nat.le_succ_of_le hj)]

/-- A run goes on as a new run from the state that it has come to. -/
theorem latchedAt_add (ahead behind : Nat → Bool) (previous : Bool) (k i : Nat) :
    latchedAt ahead behind previous (k + 1 + i) =
      latchedAt (fun j => ahead (k + 1 + j)) (fun j => behind (k + 1 + j))
        (latchedAt ahead behind previous k) i := by
  induction i with
  | zero => rfl
  | succ i ih =>
    exact congrArg (fun state => ahead (k + 1 + (i + 1)) || (behind (k + 1 + (i + 1)) && state)) ih

theorem latchedAt_of_held {i : Nat} (h : ∀ j ≤ i, ahead j = false ∧ behind j = true) :
    latchedAt ahead behind previous i = previous := by
  induction i with
  | zero => simp [latchedAt, h 0]
  | succ i ih =>
    rw [latchedAt, ih fun j hj => h j (Nat.le_succ_of_le hj), (h _ (Nat.le_refl _)).1,
      (h _ (Nat.le_refl _)).2, Bool.false_or, Bool.true_and]

/-- Runs from different states meet at the first instant that sets or resets the state. -/
theorem latchedAt_of_not_held {previous' : Bool} {i : Nat}
    (h : ¬ ∀ j ≤ i, ahead j = false ∧ behind j = true) :
    latchedAt ahead behind previous i = latchedAt ahead behind previous' i := by
  induction i with
  | zero =>
    have hset : ¬ (ahead 0 = false ∧ behind 0 = true) := by simpa using h
    cases ha : ahead 0 <;> cases hb : behind 0 <;> simp_all [latchedAt]
  | succ i ih =>
    by_cases hlast : ahead (i + 1) = false ∧ behind (i + 1) = true
    · have hearlier : ¬ ∀ j ≤ i, ahead j = false ∧ behind j = true := by
        intro hall
        refine h fun j hj => ?_
        rcases Nat.le_or_eq_of_le_succ hj with hj | rfl
        · exact hall j hj
        · exact hlast
      rw [latchedAt, latchedAt, ih hearlier]
    · cases ha : ahead (i + 1) <;> cases hb : behind (i + 1) <;> simp_all [latchedAt]

/-- A state is on if it was set and held since, or was on at first and always held. -/
theorem latchedAt_eq_true_iff (i : Nat) :
    latchedAt ahead behind previous i = true ↔
      (∃ j ≤ i, ahead j = true ∧ ∀ l, j < l → l ≤ i → ahead l = true ∨ behind l = true) ∨
        previous = true ∧ ∀ l ≤ i, ahead l = true ∨ behind l = true := by
  induction i with
  | zero =>
    simp only [latchedAt, Bool.or_eq_true, Bool.and_eq_true, Nat.le_zero_eq, exists_eq_left,
      forall_eq]
    constructor
    · rintro (h | ⟨h, hp⟩)
      · exact .inl ⟨h, fun l hl hl' => by omega⟩
      · exact .inr ⟨hp, .inr h⟩
    · rintro (⟨h, -⟩ | ⟨hp, h⟩)
      · exact .inl h
      · exact h.imp_right fun hb => ⟨hb, hp⟩
  | succ i ih =>
    rw [latchedAt, Bool.or_eq_true, Bool.and_eq_true, ih]
    constructor
    · rintro (h | ⟨hb, ⟨j, hj, hset, hheld⟩ | ⟨hp, hheld⟩⟩)
      · exact .inl ⟨i + 1, Nat.le_refl _, h, fun l hl hl' => by omega⟩
      · refine .inl ⟨j, by omega, hset, fun l hl hl' => ?_⟩
        rcases Nat.le_or_eq_of_le_succ hl' with hl' | rfl
        · exact hheld l hl hl'
        · exact .inr hb
      · refine .inr ⟨hp, fun l hl => ?_⟩
        rcases Nat.le_or_eq_of_le_succ hl with hl | rfl
        · exact hheld l hl
        · exact .inr hb
    · rintro (⟨j, hj, hset, hheld⟩ | ⟨hp, hheld⟩)
      · rcases Nat.le_or_eq_of_le_succ hj with hj | rfl
        · refine (hheld (i + 1) (by omega) (Nat.le_refl _)).imp_right fun hb => ⟨hb, .inl ?_⟩
          exact ⟨j, hj, hset, fun l hl hl' => hheld l hl (by omega)⟩
        · exact .inl hset
      · refine (hheld (i + 1) (Nat.le_refl _)).imp_right fun hb => ⟨hb, .inr ⟨hp, ?_⟩⟩
        exact fun l hl => hheld l (by omega)

end Latch

theorem map_range_succ {α : Type} (f : Nat → α) (k : Nat) :
    (List.range (k + 1)).map f = f 0 :: (List.range k).map fun i => f (i + 1) := by
  rw [List.range_succ_eq_map, List.map_cons, List.map_map]
  rfl

section Run

variable {windows : List Window} {now : Instant} {previous : Option Bool} {g s : Span} {state : Bool}

theorem tradesAfter_eq {trading : Bool} (h : tradingAfter windows s now = .ok trading) :
    tradesAfter windows s now = trading := by
  rw [tradesAfter, h]

theorem nextState_eq_latchOf {dayTrading : Option Bool} (hne : windows ≠ [])
    (hday : dayTrading ≠ some false) :
    nextState windows now previous dayTrading g =
      latchOf (tradingAfter windows g now) (tradingAfter windows (-g) now) previous := by
  have hempty : ¬ windows.isEmpty = true := by simpa using hne
  rw [nextState, if_neg hday, if_neg hempty, latchOf]
  simp only [tradingAfter, bind_assoc]

/-- The step: what the latch makes of its samples, where the calendar holds them. -/
theorem nextState_eq_ok_iff (hne : windows ≠ []) :
    nextState windows now previous none g = .ok state ↔
      Decided windows g now ∧
        state = (tradesAfter windows g now || (tradesAfter windows (-g) now && held previous)) := by
  rw [nextState_eq_latchOf hne (by simp), latchOf]
  cases ha : tradingAfter windows g now with
  | error e => simp [Decided, ha, bind, Except.bind]
  | ok ahead =>
    cases ahead with
    | true => simp [Decided, tradesAfter_eq ha, ha, bind, Except.bind, eq_comm]
    | false =>
      cases hb : tradingAfter windows (-g) now with
      | error e => simp [Decided, ha, hb, bind, Except.bind]
      | ok behind =>
        cases behind <;>
          simp [Decided, tradesAfter_eq ha, tradesAfter_eq hb, ha, hb, bind, Except.bind, eq_comm]

/-- The run: the states of the latch at instants, where the calendar holds their samples. -/
theorem thread_windowStep_eq_ok_iff (hne : windows ≠ []) {n : Nat → Instant} {k : Nat}
    {states : List (Instant × Bool)} :
    thread (windowStep windows g) previous ((List.range k).map n) = .ok states ↔
      (∀ i < k, Decided windows g (n i)) ∧
        states = (List.range k).map fun i =>
          (n i, latchedAt (fun j => tradesAfter windows g (n j))
            (fun j => tradesAfter windows (-g) (n j)) (held previous) i) := by
  -- on the number of instants, for any previous state: the rest is a run from the first state
  induction k generalizing n previous states with
  | zero =>
    simp only [List.range_zero, List.map_nil, thread, Nat.not_lt_zero, false_implies, implies_true,
      true_and]
    exact ⟨fun h => by cases h; rfl, fun h => by rw [h]; rfl⟩
  | succ k ih =>
    rw [map_range_succ, thread, map_range_succ]
    simp only [latchedAt_succ]
    constructor
    · intro h
      obtain ⟨state, hstate, h⟩ := ok_bind_iff.1 h
      obtain ⟨more, hmore, h⟩ := ok_bind_iff.1 h
      cases h
      obtain ⟨hfirst, rfl⟩ := (nextState_eq_ok_iff hne).1 hstate
      obtain ⟨hmany, rfl⟩ := ih.1 hmore
      refine ⟨fun i hi => ?_, rfl⟩
      cases i with
      | zero => exact hfirst
      | succ i => exact hmany i (by omega)
    · rintro ⟨hall, rfl⟩
      refine ok_bind_iff.2 ⟨_, (nextState_eq_ok_iff hne).2 ⟨hall 0 (by omega), rfl⟩, ?_⟩
      exact ok_bind_iff.2 ⟨_, ih.2 ⟨fun i hi => hall (i + 1) (by omega), rfl⟩, rfl⟩

theorem thread_windowStep_nil (instants : List Instant) :
    thread (windowStep [] g) previous instants =
      .ok (instants.map fun t => (t, held previous)) := by
  induction instants generalizing previous with
  | nil => rfl
  | cons t rest ih =>
    have hstep : windowStep [] g t previous = .ok (held previous) := rfl
    rw [thread, hstep]
    change (thread (windowStep [] g) (some (held previous)) rest >>= _) = _
    rw [ih]
    rfl

theorem held_eq_true_iff : held previous = true ↔ previous = some true := by
  cases previous <;> simp [held]

/-- The closed form of runs at `n 0, …, n (k - 1)`, in whatever order these instants are. With windows
a run ends exactly if the calendar holds the samples that it looks at, and without windows it keeps
the state. -/
theorem thread_windowStep_closedForm (windows : List Window) (g : Span) (previous : Option Bool)
    (n : Nat → Instant) (k : Nat) :
    (windows ≠ [] → ∃ state : Nat → Bool,
      (∀ states, thread (windowStep windows g) previous ((List.range k).map n) = .ok states ↔
        (∀ i < k, Decided windows g (n i)) ∧
          states = (List.range k).map fun i => (n i, state i)) ∧
      ∀ i, state i = true ↔
        (∃ j ≤ i, tradesAfter windows g (n j) = true ∧ ∀ l, j < l → l ≤ i →
          tradesAfter windows g (n l) = true ∨ tradesAfter windows (-g) (n l) = true) ∨
        previous = some true ∧ ∀ l ≤ i,
          tradesAfter windows g (n l) = true ∨ tradesAfter windows (-g) (n l) = true) ∧
    (windows = [] → thread (windowStep windows g) previous ((List.range k).map n) =
      .ok ((List.range k).map fun i => (n i, held previous))) := by
  constructor
  · intro hne
    refine ⟨latchedAt (fun j => tradesAfter windows g (n j)) (fun j => tradesAfter windows (-g) (n j))
      (held previous), fun states => thread_windowStep_eq_ok_iff hne, fun i => ?_⟩
    rw [latchedAt_eq_true_iff, held_eq_true_iff]
  · rintro rfl
    rw [thread_windowStep_nil, List.map_map]
    rfl

def strayClock : Nat → Instant
  | 1 => .ofDay ⟨739617, by decide⟩ (.ofMinutes 536) (some 0)
  | _ => .ofDay ⟨739617, by decide⟩ (.ofMinutes 602) (some 0)

/-- On a clock that runs backwards a market is closed after its session from nine to ten, opens before
it, and is held open when the first instant comes again. -/
theorem thread_windowStep_strayClock : ∃ state : Nat → Bool,
    thread (windowStep [.standard (.ofMinutes 540) (.ofMinutes 600)] (spanOfMinutes 5)) none
        ((List.range 3).map strayClock) =
      .ok ((List.range 3).map fun i => (strayClock i, state i)) ∧
    state 0 = false ∧ state 1 = true ∧ state 2 = true := by
  have hshown : ((thread (windowStep [.standard (.ofMinutes 540) (.ofMinutes 600)] (spanOfMinutes 5))
      none ((List.range 3).map strayClock)).map (·.map (·.2))).toOption =
        some [false, true, true] := by decide +kernel
  obtain ⟨state, hstates, -⟩ := (thread_windowStep_closedForm
    [.standard (.ofMinutes 540) (.ofMinutes 600)] (spanOfMinutes 5) none strayClock 3).1 (by simp)
  cases hrun : thread (windowStep [.standard (.ofMinutes 540) (.ofMinutes 600)] (spanOfMinutes 5))
      none ((List.range 3).map strayClock) with
  | error e =>
    rw [hrun] at hshown
    cases hshown
  | ok states =>
    have hform := ((hstates states).1 hrun).2
    rw [hrun, hform] at hshown
    have hvalues : [state 0, state 1, state 2] = [false, true, true] := Option.some.inj hshown
    refine ⟨state, by rw [hform], ?_⟩
    simpa using hvalues

end Run

end TradingHours.Schedule
