import TradingHours.Proofs.Output.MinuteColumns
import TradingHours.Proofs.Resolution.Live
import TradingHours.Proofs.Schedule.Dilation
/-!
The states that are decided live and the ones that are computed for a whole day in advance: from
instant to instant by resolving, by the step from minute to minute, as the vector of a token, and as
the last column of a reference file.
-/
namespace TradingHours.Policy

open Output (Golden lastColumns stateText writeLines)
open Schedule (stateVector tokenVector windowStep windowsOf)

variable {p : Policy} {market : Market} {token : String} {source : Basis}

theorem minuteAnswer_of_token (h : p.tokenFor? market = some (token, source)) :
    p.minuteAnswer market = windowStep (windowsOf token) p.grace := by
  rw [minuteAnswer, h]

theorem tokenVector_of_token (h : p.tokenFor? market = some (token, source)) (d : Day) :
    (stateVector (p.minuteAnswer market) d none minutesPerDay).map (·.map (·.2)) =
      tokenVector (some token) d none p.grace := by
  rw [minuteAnswer_of_token h, Schedule.tokenVector_some]

section Overnight

def newYear : Day := ⟨739616, by decide⟩

def references : Golden := ⟨⟨.relative, []⟩, Golden.usualOpening, spanOfMinutes 60⟩

def emptyWorld : World where
  disk := .empty ["srv"]
  now := .startOfDay newYear
  mark := ""

theorem path_references : references.path "tv.X" newYear =
    ⟨.relative, ["golden_X_20260101.txt"]⟩ := by
  decide +kernel

end Overnight

end TradingHours.Policy
