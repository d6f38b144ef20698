import TradingHours.Proofs.Resolution.Threading
/-!
Resolving a market at instants one after another, beside the step from minute to minute. The two
part where a market that is open loses its only source, since resolving keeps the state and the step
closes the market. From a state that was never recorded this does not occur.
-/
namespace TradingHours

namespace Schedule

variable {answer answer' : Step (Except Failure)} {P : Option Bool → Prop}

end Schedule

namespace Policy

open Schedule (Step held nextState stateVector thread windowsOf)
open Traced (Answers)

variable {p : Policy} {market : Market} {now : Instant} {previous : Option Bool}

theorem answer_stateVector_minuteStep (d : Day) (minutes : Nat) :
    (stateVector (p.minuteStep market) d none minutes).answer =
      stateVector (p.minuteAnswer market) d none minutes :=
  (Schedule.stateVector_answers minuteStep_answers d none minutes).answer_eq

end Policy

end TradingHours
