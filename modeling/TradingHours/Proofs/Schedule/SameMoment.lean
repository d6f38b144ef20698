import TradingHours.Proofs.Schedule.LatchForms
/-!
Clock readings of one moment. A reading is moved on its own clock before it is turned to UTC, and
both readings of a moment come to the same moment again; so decisions depend on the moment and not
on the clock that shows it. Only the ends of the calendar tell the clocks apart: one may be past an
end that the other has not come to. Main statement: `decisions_of_sameMoment`.
-/
namespace TradingHours

namespace Instant

variable {a b a' b' : Instant} {s : Span}

def SameMoment (a b : Instant) : Prop :=
  (a.wall : Int) - a.offset.getD 0 = (b.wall : Int) - b.offset.getD 0

instance (a b : Instant) : Decidable (a.SameMoment b) :=
  inferInstanceAs (Decidable ((a.wall : Int) - a.offset.getD 0 = b.wall - b.offset.getD 0))

theorem SameMoment.toUtc_eq (h : a.SameMoment b) : a.toUtc = b.toUtc := by
  rw [SameMoment] at h
  rw [toUtc, toUtc, toUtc?, toUtc?, h]

theorem SameMoment.shift (h : a.SameMoment b) (ha : a.shift s = .ok a') (hb : b.shift s = .ok b') :
    a'.SameMoment b' := by
  obtain ⟨hwall, hoffset⟩ := shift_eq_ok_iff.1 ha
  obtain ⟨hwall', hoffset'⟩ := shift_eq_ok_iff.1 hb
  rw [SameMoment] at h ⊢
  rw [hwall, hoffset, hwall', hoffset']
  omega

theorem shift_eq_error {failure : Failure} (h : a.shift s = .error failure) :
    failure = .dateOutOfRange :=
  (inCalendar_eq_error_iff.1 h).2

end Instant

namespace Schedule

variable {windows : List Window} {a b : Instant} {previous : Option Bool} {g : Span}

/-- Two answers are the same, unless one of them is that the calendar does not reach that far. -/
def AgreeInCalendar {α : Type} (x y : Except Failure α) : Prop :=
  x = y ∨ x = .error .dateOutOfRange ∨ y = .error .dateOutOfRange

theorem isTrading_of_sameMoment (h : a.SameMoment b) :
    isTrading windows a = isTrading windows b := by
  rw [isTrading, isTrading, Instant.utcTimeOfDay, Instant.utcTimeOfDay, h.toUtc_eq]

theorem tradingAfter_agree (h : a.SameMoment b) (s : Span) :
    AgreeInCalendar (tradingAfter windows s a) (tradingAfter windows s b) := by
  cases ha : a.shift s with
  | error failure =>
    obtain rfl := Instant.shift_eq_error ha
    refine .inr (.inl ?_)
    rw [tradingAfter, ha]
    rfl
  | ok a' =>
    cases hb : b.shift s with
    | error failure =>
      obtain rfl := Instant.shift_eq_error hb
      refine .inr (.inr ?_)
      rw [tradingAfter, hb]
      rfl
    | ok b' =>
      refine .inl ?_
      have hmoved : isTrading windows a' = isTrading windows b' :=
        isTrading_of_sameMoment (h.shift ha hb)
      rw [tradingAfter, tradingAfter, ha, hb]
      exact hmoved

theorem latchOf_agree {ahead ahead' behind behind' : Except Failure Bool}
    (ha : AgreeInCalendar ahead ahead') (hb : AgreeInCalendar behind behind') :
    AgreeInCalendar (latchOf ahead behind previous) (latchOf ahead' behind' previous) := by
  rcases ha with rfl | rfl | rfl
  · cases ahead with
    | error failure => exact .inl rfl
    | ok trading =>
      cases trading with
      | true => exact .inl rfl
      | false =>
        -- only now does the sample behind count
        rcases hb with rfl | rfl | rfl
        · exact .inl rfl
        · exact .inr (.inl rfl)
        · exact .inr (.inr rfl)
  · exact .inr (.inl rfl)
  · exact .inr (.inr rfl)

theorem nextState_agree (windows : List Window) (previous dayTrading : Option Bool) (g : Span)
    (h : a.SameMoment b) :
    AgreeInCalendar (nextState windows a previous dayTrading g)
      (nextState windows b previous dayTrading g) := by
  by_cases hday : dayTrading = some false
  · subst hday
    exact .inl rfl
  · by_cases hne : windows = []
    · subst hne
      refine .inl ?_
      rw [nextState, nextState, if_neg hday, if_neg hday]
      rfl
    · rw [nextState_eq_latchOf hne hday, nextState_eq_latchOf hne hday]
      exact latchOf_agree (tradingAfter_agree h g) (tradingAfter_agree h (-g))

/-- Where the calendar holds the moments a grace ahead and a grace behind, there is a next state. -/
theorem exists_nextState_of_inReach (windows : List Window) (previous : Option Bool)
    (h : a.InReach g) :
    ∃ state, nextState windows a previous none g = .ok state := by
  by_cases hne : windows = []
  · subst hne
    exact ⟨held previous, rfl⟩
  · obtain ⟨⟨ahead, hahead⟩, behind, hbehind⟩ := h
    exact ⟨_, nextState_eq hne previous hahead hbehind⟩

/-- Two readings of one moment, on whatever clocks, give the same answer whether a market trades,
the same UTC day, UTC clock time and seconds since 1970, and fail alike. The next states by a token
are the same unless one of the readings comes to an end of the calendar on the way, and where
neither does there is one. -/
theorem decisions_of_sameMoment (h : a.SameMoment b) :
    (∀ windows, isTrading windows a = isTrading windows b) ∧
    (∀ token previous grace,
      (stateFromToken token a previous grace = stateFromToken token b previous grace ∨
        stateFromToken token a previous grace = .error .dateOutOfRange ∨
        stateFromToken token b previous grace = .error .dateOutOfRange) ∧
      (a.InReach grace → b.InReach grace → ∃ state,
        stateFromToken token a previous grace = .ok state ∧
          stateFromToken token b previous grace = .ok state)) ∧
    a.utcDay = b.utcDay ∧ a.clock = b.clock ∧ a.epoch = b.epoch := by
  refine ⟨fun windows => isTrading_of_sameMoment h, fun token previous grace => ⟨?_, ?_⟩, ?_, ?_,
    ?_⟩
  · exact nextState_agree (windowsOf? token) previous none grace h
  · intro ha hb
    obtain ⟨state, hstate⟩ := exists_nextState_of_inReach (windowsOf? token) previous ha
    obtain ⟨state', hstate'⟩ := exists_nextState_of_inReach (windowsOf? token) previous hb
    have hagree := nextState_agree (windowsOf? token) previous none grace h
    rw [hstate, hstate'] at hagree
    rcases hagree with heq | herror | herror
    · exact ⟨state, hstate, hstate'.trans heq.symm⟩
    · cases herror
    · cases herror
  · rw [Instant.utcDay, Instant.utcDay, h.toUtc_eq]
  · rw [Instant.clock, Instant.clock, h.toUtc_eq]
  · rw [Instant.epoch, Instant.epoch, h.toUtc_eq]

section NewYear

def eveAbroad : Instant where
  wall := 739615 * microsPerDay + 1437 * microsPerMinute + 2 * microsPerSecond
  offset := some (-(330 * microsPerMinute + 1500 : Nat))
  wall_lt := by decide

def morningAtHome : Instant where
  wall := 739616 * microsPerDay + 327 * microsPerMinute + 2 * microsPerSecond + 1500
  offset := none
  wall_lt := by decide

/-- On clocks that show different years, a session that starts at 05:30 is open by its grace. -/
theorem decisions_of_sameMoment_newYear :
    eveAbroad.SameMoment morningAtHome ∧ eveAbroad.day ≠ morningAtHome.day ∧
      eveAbroad.InReach (spanOfMinutes 5) ∧ morningAtHome.InReach (spanOfMinutes 5) ∧
      stateFromToken (some "p05300600") morningAtHome none (spanOfMinutes 5) = .ok true ∧
      stateFromToken (some "p05300600") eveAbroad none (spanOfMinutes 5) = .ok true ∧
      eveAbroad.utcDay = morningAtHome.utcDay ∧ eveAbroad.epoch = morningAtHome.epoch := by
  have hsame : eveAbroad.SameMoment morningAtHome := by decide +kernel
  have habroad : eveAbroad.InReach (spanOfMinutes 5) := by
    rw [Instant.InReach, Instant.exists_sample_iff, Instant.exists_sample_iff]
    decide +kernel
  have hhome : morningAtHome.InReach (spanOfMinutes 5) := by
    rw [Instant.InReach, Instant.exists_sample_iff, Instant.exists_sample_iff]
    decide +kernel
  have hopen : (stateFromToken (some "p05300600") morningAtHome none (spanOfMinutes 5)).toOption =
      some true := by
    decide +kernel
  obtain ⟨-, hstates, hday, -, hepoch⟩ := decisions_of_sameMoment hsame
  obtain ⟨state, heve, hmorning⟩ :=
    (hstates (some "p05300600") none (spanOfMinutes 5)).2 habroad hhome
  rw [hmorning] at hopen
  obtain rfl : state = true := Option.some.inj hopen
  exact ⟨hsame, by decide +kernel, habroad, hhome, hmorning, heve, hday, hepoch⟩

end NewYear

end Schedule

end TradingHours
