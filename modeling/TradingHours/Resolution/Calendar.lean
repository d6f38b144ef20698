import TradingHours.Trail
/-!
Trading calendars, which answer for a venue key whether an instant lies on a trading day and in a
trading session. An answer depends on the key and the instant alone, and it may be a failure.
-/
namespace TradingHours

structure Calendar where
  tradingDay : String → Instant → Except Failure Bool
  tradingSession : String → Instant → Except Failure Bool

namespace Calendar

def askDay (c : Calendar) (tvKey : String) (t : Instant) : Traced Bool :=
  Traced.ask ⟨.day, tvKey, t⟩ (c.tradingDay tvKey t)

def askSession (c : Calendar) (tvKey : String) (t : Instant) : Traced Bool :=
  Traced.ask ⟨.session, tvKey, t⟩ (c.tradingSession tvKey t)

end Calendar

end TradingHours
