import TradingHours.Proofs.Clock.Shift
import TradingHours.Schedule.Latch
/-!
The latch by its two samples: what the next state is where the calendar holds both.
-/
namespace TradingHours.Schedule

variable {windows : List Window} {now : Instant} {g : Span} {a b : TimeOfDay}

theorem isTrading_eq {t : Instant} {m : TimeOfDay} (hne : windows ≠ [])
    (h : t.utcTimeOfDay = .ok m) : isTrading windows t = .ok (openAt windows m) := by
  simp [isTrading, hne, h, Except.map]

theorem isTrading_shift (hne : windows ≠ []) (s : Span) :
    (now.shift s >>= isTrading windows) = (now.sample s).map (openAt windows) := by
  have h : windows.isEmpty = false := by simpa using hne
  cases ht : now.shift s <;>
    simp [Instant.sample, ht, isTrading, h, bind, Except.bind, Except.map]

/-- With both samples in the calendar the market opens if it trades ahead, and else keeps its state
exactly if it trades behind. -/
theorem nextState_eq (hne : windows ≠ []) (previous : Option Bool) (ha : now.sample g = .ok a)
    (hb : now.sample (-g) = .ok b) :
    nextState windows now previous none g =
      .ok (openAt windows a || (openAt windows b && held previous)) := by
  have hahead : (now.shift g >>= isTrading windows) = .ok (openAt windows a) := by
    rw [isTrading_shift hne, ha, Except.map]
  have hbehind : (now.shift (-g) >>= isTrading windows) = .ok (openAt windows b) := by
    rw [isTrading_shift hne, hb, Except.map]
  have hempty : ¬ windows.isEmpty = true := by simpa using hne
  rw [nextState, if_neg nofun, if_neg hempty, ← bind_assoc, hahead, ← bind_assoc, hbehind]
  cases openAt windows a <;> cases openAt windows b <;> rfl

end TradingHours.Schedule
