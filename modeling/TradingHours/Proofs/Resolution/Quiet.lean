import TradingHours.Engine
import TradingHours.Proofs.Trail
/-!
Reading an allowlist, resolving markets and computing minutes are quiet: their entries warn and
explain, and none is about a change.
-/
namespace TradingHours

theorem Market.quiet_ofLines (lines : List String) : Keeps Trail.Quiet (Market.ofLines lines) := by
  unfold Market.ofLines
  induction lines.zipIdx 1 with
  | nil => exact .pure []
  | cons pair rest ih =>
    obtain ⟨line, number⟩ := pair
    rw [ofNumberedLines]
    cases ofLine? line (some number) with
    | error incident => exact (Traced.quiet_note (by decide)).bind fun _ => ih
    | ok market =>
      cases market with
      | none => exact ih
      | some market => exact ih.bind fun _ => .pure _

namespace Policy

variable {p : Policy} {calendar : Calendar} {market : Market} {now : Instant}
  {previous : Option Bool}

theorem quiet_calendarState (tvKey : String) :
    Keeps Trail.Quiet (p.calendarState calendar tvKey now previous) := by
  have hask : ∀ t, Keeps Trail.Quiet (calendar.askSession tvKey t) := fun _ => Traced.quiet_ask _ _
  refine Keeps.bind (Traced.quiet_ask _ _) fun day => ?_
  cases day with
  | false => exact .pure _
  | true =>
    refine Keeps.bind (.ofExcept _) fun ahead => (hask ahead).bind fun trades => ?_
    cases trades with
    | true => exact .pure _
    | false =>
      refine Keeps.bind (.ofExcept _) fun behind => (hask behind).bind fun trades => ?_
      cases trades <;> exact .pure _

theorem quiet_keep (reason : Incident) : Keeps Trail.Quiet (keep market previous reason) :=
  Keeps.bind (Traced.quiet_note (by decide)) fun _ => .pure _

theorem quiet_resolveToken (token : String) (source : Basis) :
    Keeps Trail.Quiet (p.resolveToken market token source now previous) := by
  refine Keeps.bind (.ofExcept _) fun state => ?_
  dsimp only
  split
  · exact Keeps.bind (Traced.quiet_note (by decide)) fun _ => .pure _
  · split
    · exact Keeps.bind (Traced.quiet_note (by decide)) fun _ => .pure _
    · exact .pure _

theorem quiet_resolve : Keeps Trail.Quiet (p.resolve market now previous) := by
  unfold resolve
  cases p.tokenFor? market with
  | some pair => exact quiet_resolveToken pair.1 pair.2
  | none =>
    cases p.calendar with
    | none => exact quiet_keep _
    | some calendar =>
      refine (Traced.quiet_outcome (quiet_calendarState _)).bind fun answer => ?_
      cases answer with
      | error failure => exact quiet_keep _
      | ok state => exact Keeps.bind (Traced.quiet_note (by decide)) fun _ => .pure _

theorem quiet_minuteStep : Keeps Trail.Quiet (p.minuteStep market now previous) := by
  unfold minuteStep
  cases p.tokenFor? market with
  | some pair => exact .ofExcept _
  | none =>
    cases p.calendar with
    | none => exact .pure false
    | some calendar =>
      refine (quiet_calendarState _).tryCatch fun failure => ?_
      exact Keeps.bind (Traced.quiet_note (by decide)) fun _ => .pure _

end Policy

theorem Output.quiet_minuteLines {step : Schedule.Step Traced}
    (hs : ∀ t previous, Keeps Trail.Quiet (step t previous)) (d : Day) :
    Keeps Trail.Quiet (minuteLines step d) := by
  have hthread : ∀ previous instants, Keeps Trail.Quiet (Schedule.thread step previous instants) := by
    intro previous instants
    induction instants generalizing previous with
    | nil => exact .pure []
    | cons t rest ih =>
      exact (hs t previous).bind fun state => (ih (some state)).bind fun _ => .pure _
  refine Keeps.bind (Keeps.bind (.ofExcept _) fun grid => hthread none grid) fun states => ?_
  exact Keeps.mapM (fun pair => .ofExcept _) states

namespace Engine

theorem quiet_evaluate (policy : Policy) (previous : States) (now : Instant)
    (markets : List Market) : Keeps Trail.Quiet (evaluate policy previous now markets) := by
  refine Keeps.mapM (fun market => ?_) markets
  refine (Traced.quiet_outcome Policy.quiet_resolve).bind fun answer => ?_
  cases answer with
  | ok resolution => exact .pure _
  | error failure => exact Keeps.bind (Traced.quiet_note (by decide)) fun _ => .pure _

end Engine

end TradingHours
