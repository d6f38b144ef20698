import TradingHours.Proofs.Resolution.Threading
import TradingHours.Proofs.Schedule.LatchForms
/-!
The decision table of resolving: which source settles a market, what the calendar is asked, and where
the state is kept. Main statement: `resolve_decides`.
-/
namespace TradingHours

structure Inquiry where
  subject : Subject
  instant : Except Failure Instant
  decides : Bool → Bool

namespace Calendar

variable {c : Calendar} {tvKey : String}

def answerTo (c : Calendar) (q : Question) : Except Failure Bool :=
  match q.subject with
  | .day => c.tradingDay q.tvKey q.instant
  | .session => c.tradingSession q.tvKey q.instant

/-- The questions that a calendar is asked in order, up to an answer that decides or a failure, be it
of the calendar or of an instant. -/
def asked (c : Calendar) (tvKey : String) : List Inquiry → List Question
  | [] => []
  | i :: rest =>
    match i.instant with
    | .error _ => []
    | .ok t =>
      let q : Question := ⟨i.subject, tvKey, t⟩
      q :: match c.answerTo q with
        | .error _ => []
        | .ok answer => if i.decides answer then [] else c.asked tvKey rest

theorem asked_isPrefix {inquiries : List Inquiry} {questions : List Question}
    (h : List.Forall₂ (fun i q => i.instant = .ok q.instant ∧ q = ⟨i.subject, tvKey, q.instant⟩)
      inquiries questions) : c.asked tvKey inquiries <+: questions := by
  induction h with
  | nil => exact List.nil_prefix
  | @cons i q rest questions hq _ ih =>
    obtain ⟨hinstant, hquestion⟩ := hq
    rw [asked, hinstant]
    simp only [← hquestion]
    rw [List.prefix_cons_inj]
    split
    · exact List.nil_prefix
    · split
      · exact List.nil_prefix
      · exact ih

/-- Asking the first question and going on with its answer asks what the inquiries ask. -/
theorem asks_inquiry {α : Type} {f : Bool → Traced α} (i : Inquiry) (rest : List Inquiry)
    (hf : ∀ answer, Traced.Asks (f answer)
      (if i.decides answer then [] else c.asked tvKey rest)) :
    Traced.Asks (do
      let t ← ofExcept i.instant
      f (← Traced.ask ⟨i.subject, tvKey, t⟩ (c.answerTo ⟨i.subject, tvKey, t⟩)))
      (c.asked tvKey (i :: rest)) := by
  rw [asked]
  cases i.instant with
  | error e => exact .bind_error (.ofExcept _) (.ofExcept _)
  | ok t =>
    have hinstant : Traced.Asks (ofExcept (Except.ok t) : Traced Instant) [] := .ofExcept _
    refine hinstant.bind (.ofExcept _) ?_
    cases hanswer : c.answerTo ⟨i.subject, tvKey, t⟩ with
    | error e => exact .bind_error (.ask _ _) (.ask _ _)
    | ok answer => exact .bind (.ask _ _) (.ask _ _) (hf answer)

end Calendar

namespace Schedule

/-- Whether the latch is open: the sample ahead trades, or the one behind does and an open state is
kept. -/
def LatchedOpen (ahead behind : Except Failure Bool) (previous : Option Bool) : Prop :=
  ahead = .ok true ∨ behind = .ok true ∧ previous = some true

theorem latchOf_eq_ok {ahead behind : Except Failure Bool} {previous : Option Bool} {state : Bool}
    (h : latchOf ahead behind previous = .ok state) :
    state = true ↔ LatchedOpen ahead behind previous := by
  unfold LatchedOpen
  cases ahead with
  | error e => cases h
  | ok a =>
    cases a with
    | true =>
      cases h
      simp
    | false =>
      cases behind with
      | error e => cases h
      | ok b =>
        cases b with
        | false =>
          cases h
          simp
        | true =>
          cases h
          simp [held_eq_true_iff]

end Schedule

namespace Policy

open Schedule (held nextState computeState windowsOf LatchedOpen midMinute)
open Traced (Asks)

variable {p : Policy} {calendar : Calendar} {market : Market} {now : Instant}
  {previous : Option Bool} {r : Resolution}

def dayInquiry (now : Instant) : Inquiry := ⟨.day, .ok now, fun trading => !trading⟩

def aheadInquiry (p : Policy) (now : Instant) : Inquiry := ⟨.session, now.shift p.grace, id⟩

def behindInquiry (p : Policy) (now : Instant) : Inquiry :=
  ⟨.session, now.shift (-p.grace), fun _ => true⟩

def inquiries (p : Policy) (now : Instant) : List Inquiry :=
  [dayInquiry now, p.aheadInquiry now, p.behindInquiry now]

theorem calendarState_asks (tvKey : String) :
    Asks (p.calendarState calendar tvKey now previous) (calendar.asked tvKey (p.inquiries now)) := by
  refine Calendar.asks_inquiry (dayInquiry now) [p.aheadInquiry now, p.behindInquiry now]
    fun trading => ?_
  cases trading with
  | false => exact .pure false
  | true =>
    refine Calendar.asks_inquiry (p.aheadInquiry now) [p.behindInquiry now] fun ahead => ?_
    cases ahead with
    | true => exact .pure true
    | false =>
      refine Calendar.asks_inquiry (p.behindInquiry now) [] fun behind => ?_
      cases behind <;> exact .pure _

/-- The questions that resolving a market asks. -/
def asked (p : Policy) (market : Market) (now : Instant) : List Question :=
  match p.tokenFor? market, p.calendar with
  | none, some calendar => calendar.asked market.tvKey (p.inquiries now)
  | _, _ => []

theorem keep_asks (reason : Incident) : Asks (keep market previous reason) [] :=
  (Asks.note _).bind_unasked fun _ => .pure _

theorem resolveToken_asks (token : String) (source : Basis) :
    Asks (p.resolveToken market token source now previous) [] := by
  refine Asks.bind_unasked (.ofExcept _) fun state => ?_
  dsimp only
  split
  · exact (Asks.note _).bind_unasked fun _ => .pure _
  · split
    · exact (Asks.note _).bind_unasked fun _ => .pure _
    · exact .pure _

theorem resolveCalendar_asks :
    Asks (p.resolveCalendar calendar market now previous)
      (calendar.asked market.tvKey (p.inquiries now)) := by
  refine (calendarState_asks market.tvKey).outcome.bind_unasked fun answer => ?_
  cases answer with
  | ok state => exact (Asks.note _).bind_unasked fun _ => .pure _
  | error failure => exact keep_asks _

theorem resolve_asks : Asks (p.resolve market now previous) (p.asked market now) := by
  unfold resolve asked
  cases p.tokenFor? market with
  | some pair => exact resolveToken_asks pair.1 pair.2
  | none =>
    cases p.calendar with
    | some calendar => exact resolveCalendar_asks
    | none => exact keep_asks _

theorem tokenFor?_aggregated_iff {token : String} :
    p.tokenFor? market = some (token, .aggregated) ↔ p.aggregated.get? market.tvKey = some token := by
  unfold tokenFor?
  cases p.aggregated.get? market.tvKey with
  | some other => simp
  | none =>
    cases p.definitions.get? market.tvKey with
    | none => simp
    | some other => cases Text.isBlankText other <;> simp

theorem tokenFor?_definition_iff {token : String} :
    p.tokenFor? market = some (token, .definition) ↔
      p.aggregated.get? market.tvKey = none ∧ p.definitions.get? market.tvKey = some token ∧
        Text.isBlankText token = false := by
  unfold tokenFor?
  cases p.aggregated.get? market.tvKey with
  | some other => simp
  | none =>
    cases p.definitions.get? market.tvKey with
    | none => simp
    | some other =>
      by_cases heq : other = token
      · subst heq
        cases hblank : Text.isBlankText other <;> simp [hblank]
      · cases Text.isBlankText other <;> simp [heq]

theorem source_of_tokenFor? {token : String} {source : Basis}
    (h : p.tokenFor? market = some (token, source)) :
    source = .aggregated ∨ source = .definition := by
  unfold tokenFor? at h
  split at h
  · cases h
    exact .inl rfl
  · split at h
    · split at h
      · cases h
      · cases h
        exact .inr rfl
    · cases h

/-- The rows of the decision table. -/
theorem resolution_cases (h : p.resolution market now previous = .ok r) :
    (∃ token source state, p.tokenFor? market = some (token, source) ∧
      nextState (windowsOf token) now previous none p.grace = .ok state ∧
      r = byToken market token source state) ∨
    (p.tokenFor? market = none ∧ ∃ calendar, p.calendar = some calendar ∧
      r = byCalendar market previous (p.calendarAnswer calendar market.tvKey now previous)) ∨
    (p.tokenFor? market = none ∧ p.calendar = none ∧
      r = kept market previous (unknownVenue market.tvKey)) := by
  unfold resolution at h
  cases ht : p.tokenFor? market with
  | some pair =>
    rw [ht] at h
    obtain ⟨state, hstate, h⟩ := ok_bind_iff.1 h
    cases h
    exact .inl ⟨pair.1, pair.2, state, rfl, hstate, rfl⟩
  | none =>
    cases hc : p.calendar with
    | some calendar =>
      rw [ht, hc] at h
      cases h
      exact .inr (.inl ⟨rfl, calendar, rfl, rfl⟩)
    | none =>
      rw [ht, hc] at h
      cases h
      exact .inr (.inr ⟨rfl, rfl, rfl⟩)

/-- The decision table. A token of the dataset settles a market, else one of the definitions that is
not blank, and then no calendar is asked. Else the calendar settles it unless it fails, and is asked in
order only as far as its answers do not decide. A state comes with an error exactly if it rests on no
window and on no answer, and then it is kept; else it is what the latch makes of its samples, closed on
a day without trading. -/
structure Decides (p : Policy) (market : Market) (now : Instant) (previous : Option Bool)
    (questions : List Question) (r : Resolution) : Prop where
  aggregated : ∀ token, r.source = .aggregated ∧ r.token = some token ↔
    p.aggregated.get? market.tvKey = some token
  definition : ∀ token, r.source = .definition ∧ r.token = some token ↔
    p.aggregated.get? market.tvKey = none ∧ p.definitions.get? market.tvKey = some token ∧
      Text.isBlankText token = false
  token : r.token ≠ none ↔ r.source = .aggregated ∨ r.source = .definition
  calendar : r.source = .calendar ↔ r.token = none ∧ ∃ calendar, p.calendar = some calendar ∧
    ∃ state, p.calendarAnswer calendar market.tvKey now previous = .ok state
  fallback : r.source = .fallback ↔ r.token = none ∧ ∀ calendar, p.calendar = some calendar →
    ∃ failure, p.calendarAnswer calendar market.tvKey now previous = .error failure
  unasked : r.token ≠ none ∨ p.calendar = none → questions = []
  asked : ∀ calendar, r.token = none → p.calendar = some calendar →
    questions = calendar.asked market.tvKey (p.inquiries now)
  inOrder : ∀ ahead behind, now.shift p.grace = .ok ahead → now.shift (-p.grace) = .ok behind →
    questions <+: [⟨.day, market.tvKey, now⟩, ⟨.session, market.tvKey, ahead⟩,
      ⟨.session, market.tvKey, behind⟩]
  error : r.error = none ↔ r.source = .calendar ∨ ∃ token, r.token = some token ∧ windowsOf token ≠ []
  held : r.error ≠ none → r.state = held previous
  byToken : ∀ token, r.error = none → r.token = some token →
    (r.state = true ↔ LatchedOpen (Schedule.tradingAfter (windowsOf token) p.grace now)
      (Schedule.tradingAfter (windowsOf token) (-p.grace) now) previous)
  byCalendar : ∀ calendar, r.source = .calendar → p.calendar = some calendar →
    (r.state = true ↔ calendar.tradingDay market.tvKey now = .ok true ∧
      LatchedOpen (now.shift p.grace >>= calendar.tradingSession market.tvKey)
        (now.shift (-p.grace) >>= calendar.tradingSession market.tvKey) previous)

theorem asked_isPrefix {ahead behind : Instant} (hahead : now.shift p.grace = .ok ahead)
    (hbehind : now.shift (-p.grace) = .ok behind) :
    p.asked market now <+: [⟨.day, market.tvKey, now⟩, ⟨.session, market.tvKey, ahead⟩,
      ⟨.session, market.tvKey, behind⟩] := by
  unfold asked
  split
  · exact Calendar.asked_isPrefix
      (.cons ⟨rfl, rfl⟩ (.cons ⟨hahead, rfl⟩ (.cons ⟨hbehind, rfl⟩ .nil)))
  · exact List.nil_prefix

/-- A day without trading closes the market; else the latch settles its state. -/
theorem calendarAnswer_eq_ok {tvKey : String} {state : Bool}
    (h : p.calendarAnswer calendar tvKey now previous = .ok state) :
    state = true ↔ calendar.tradingDay tvKey now = .ok true ∧
      LatchedOpen (now.shift p.grace >>= calendar.tradingSession tvKey)
        (now.shift (-p.grace) >>= calendar.tradingSession tvKey) previous := by
  unfold calendarAnswer at h
  cases hday : calendar.tradingDay tvKey now with
  | error e =>
    rw [Schedule.computeState_of_failedDay hday] at h
    cases h
  | ok trading =>
    cases trading with
    | false =>
      rw [Schedule.computeState_of_closedDay hday] at h
      cases h
      simp
    | true =>
      rw [Schedule.computeState_of_openDay hday, Schedule.computeState_eq_latchOf] at h
      simp [Schedule.latchOf_eq_ok h]

section Rows

variable {token : String} {source : Basis} {state : Bool}

theorem decides_byToken (ht : p.tokenFor? market = some (token, source))
    (hstate : nextState (windowsOf token) now previous none p.grace = .ok state) :
    p.Decides market now previous (p.asked market now) (byToken market token source state) := by
  have hsource : source = .aggregated ∨ source = .definition := source_of_tokenFor? ht
  have hrow : ∀ token' source', source = source' ∧ some token = some token' ↔
      p.tokenFor? market = some (token', source') := by
    intro token' source'
    rw [ht, Option.some_inj, Option.some_inj, Prod.mk.injEq, and_comm]
  have hasked : p.asked market now = [] := by rw [asked, ht]
  have herror : (byToken market token source state).error = none ↔ windowsOf token ≠ [] := by
    simp [byToken]
  exact {
    aggregated := fun token' => (hrow token' .aggregated).trans tokenFor?_aggregated_iff
    definition := fun token' => (hrow token' .definition).trans tokenFor?_definition_iff
    token := by simpa [byToken] using hsource
    calendar := by rcases hsource with rfl | rfl <;> simp [byToken]
    fallback := by rcases hsource with rfl | rfl <;> simp [byToken]
    unasked := fun _ => hasked
    asked := by simp [byToken]
    inOrder := fun _ _ => asked_isPrefix
    error := by
      rw [herror]
      rcases hsource with rfl | rfl <;> simp [byToken]
    held := fun hne => by
      rw [Ne, herror, not_not] at hne
      rw [hne] at hstate
      exact (Except.ok.inj hstate).symm
    byToken := fun token' hnone htoken => by
      obtain rfl : token = token' := Option.some_inj.1 htoken
      rw [Schedule.nextState_eq_latchOf (herror.1 hnone) (by simp)] at hstate
      exact Schedule.latchOf_eq_ok hstate
    byCalendar := fun _ hcalendar => by
      rcases hsource with rfl | rfl <;> cases hcalendar }

theorem asked_of_calendar (ht : p.tokenFor? market = none) (hc : p.calendar = some calendar) :
    p.asked market now = calendar.asked market.tvKey (p.inquiries now) := by
  rw [asked, ht, hc]

theorem asked_of_none (hc : p.calendar = none) : p.asked market now = [] := by
  unfold asked
  rw [hc]
  cases p.tokenFor? market <;> rfl

theorem decides_byCalendar (ht : p.tokenFor? market = none) (hc : p.calendar = some calendar)
    (hanswer : p.calendarAnswer calendar market.tvKey now previous = .ok state) :
    p.Decides market now previous (p.asked market now)
      (byCalendar market previous (.ok state)) := by
  have hrow : ∀ token' source', Basis.calendar = source' ∧ none = some token' ↔
      p.tokenFor? market = some (token', source') := by simp [ht]
  exact {
    aggregated := fun token' => (hrow token' .aggregated).trans tokenFor?_aggregated_iff
    definition := fun token' => (hrow token' .definition).trans tokenFor?_definition_iff
    token := by simp [byCalendar]
    calendar := by simp [byCalendar, hc, hanswer]
    fallback := by simp [byCalendar, hc, hanswer]
    unasked := by simp [byCalendar, hc]
    asked := fun _ _ hc => asked_of_calendar ht hc
    inOrder := fun _ _ => asked_isPrefix
    error := by simp [byCalendar]
    held := by simp [byCalendar]
    byToken := by simp [byCalendar]
    byCalendar := fun other _ hother => by
      obtain rfl : calendar = other := Option.some_inj.1 (hc.symm.trans hother)
      exact calendarAnswer_eq_ok hanswer }

theorem decides_kept (ht : p.tokenFor? market = none)
    (hfails : ∀ calendar, p.calendar = some calendar →
      ∃ failure, p.calendarAnswer calendar market.tvKey now previous = .error failure)
    (reason : Incident) :
    p.Decides market now previous (p.asked market now) (kept market previous reason) := by
  have hrow : ∀ token' source', Basis.fallback = source' ∧ none = some token' ↔
      p.tokenFor? market = some (token', source') := by simp [ht]
  have hanswer : ¬ ∃ calendar, p.calendar = some calendar ∧
      ∃ state, p.calendarAnswer calendar market.tvKey now previous = .ok state := by
    rintro ⟨calendar, hc, state, hstate⟩
    obtain ⟨failure, hfailure⟩ := hfails calendar hc
    rw [hstate] at hfailure
    cases hfailure
  exact {
    aggregated := fun token' => (hrow token' .aggregated).trans tokenFor?_aggregated_iff
    definition := fun token' => (hrow token' .definition).trans tokenFor?_definition_iff
    token := by simp [kept]
    calendar := by simp only [kept, reduceCtorEq, hanswer, and_false]
    fallback := ⟨fun _ => ⟨rfl, hfails⟩, fun _ => rfl⟩
    unasked := fun h => asked_of_none (h.resolve_left fun hne => hne rfl)
    asked := fun _ _ hc => asked_of_calendar ht hc
    inOrder := fun _ _ => asked_isPrefix
    error := by simp [kept]
    held := fun _ => rfl
    byToken := by simp [kept]
    byCalendar := by simp [kept] }

end Rows

/-- Whatever resolving a market returns, the decision table says why and what the calendar was asked. -/
theorem resolve_decides {trail trail' : Trail}
    (h : Returns (p.resolve market now previous) trail r trail') :
    ∃ asked, trail'.questions.toList = trail.questions.toList ++ asked ∧
      p.Decides market now previous asked r := by
  have hresult : p.resolution market now previous = .ok r := by
    rw [← resolve_answers p market now previous trail, h]
  have htrail : trail' = (exec (p.resolve market now previous) trail).2 := by rw [h]
  refine ⟨p.asked market now, by rw [htrail, resolve_asks], ?_⟩
  rcases resolution_cases hresult with ⟨token, source, state, ht, hstate, rfl⟩ |
    ⟨ht, calendar, hc, rfl⟩ | ⟨ht, hc, rfl⟩
  · exact decides_byToken ht hstate
  · cases hanswer : p.calendarAnswer calendar market.tvKey now previous with
    | ok state => exact decides_byCalendar ht hc hanswer
    | error failure =>
      refine decides_kept ht (fun other hother => ?_) _
      obtain rfl : calendar = other := Option.some_inj.1 (hc.symm.trans hother)
      exact ⟨failure, hanswer⟩
  · exact decides_kept ht (fun _ hother => by rw [hc] at hother; cases hother) _

def dayOnlyPolicy : Policy :=
  ⟨[], [], some ⟨fun _ _ => .ok true, fun _ _ => .error .clockMismatch⟩, spanOfMinutes 5⟩

theorem resolve_decides_dayOnly :
    ∃ r trail, Returns (dayOnlyPolicy.resolve ⟨"x", "tv.X", "k"⟩ (midMinute 720) (some true)) {} r
        trail ∧
      r.source = .fallback ∧ r.state = true ∧ trail.questions.toList =
        [⟨.day, "tv.X", midMinute 720⟩, ⟨.session, "tv.X", midMinute 725⟩] := by
  have hshown : (exec (dayOnlyPolicy.resolve ⟨"x", "tv.X", "k"⟩ (midMinute 720) (some true))
      {}).1.toOption.map (fun r => (r.source, r.token, r.error.isSome)) =
        some (.fallback, none, true) := rfl
  obtain ⟨r, h, hr⟩ := returns_of_map hshown
  simp only [Prod.mk.injEq, Option.isSome_iff_ne_none] at hr
  obtain ⟨hsource, htoken, herror⟩ := hr
  obtain ⟨asked, hasked, hdecides⟩ := resolve_decides h
  refine ⟨r, _, h, hsource, hdecides.held herror, ?_⟩
  rw [hasked, hdecides.asked _ htoken rfl]
  rfl

end Policy

end TradingHours
