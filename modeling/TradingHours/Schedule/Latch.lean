import TradingHours.Schedule.Session
import TradingHours.Schedule.Token
/-!
The latch that turns samples into a state. A market is sampled a grace ahead of and a grace behind
an instant. It opens if the sample ahead trades, closes if neither does, and keeps its state if only
the sample behind trades.
-/
namespace TradingHours.Schedule

def defaultGrace : Span := spanOfMinutes 5

/-- The state that is kept; one that was never recorded is closed. -/
def held (previous : Option Bool) : Bool := previous.getD false

/-- The next state from windows. A day without trading closes the market, and without windows the
state is kept. -/
def nextState (windows : List Window) (now : Instant) (previous : Option Bool)
    (dayTrading : Option Bool) (grace : Span) : Except Failure Bool :=
  if dayTrading = some false then .ok false
  else if windows.isEmpty then .ok (held previous)
  else do
    let ahead ← isTrading windows (← now.shift grace)
    if ahead then .ok true
    else
      let behind ← isTrading windows (← now.shift (-grace))
      if behind then .ok (held previous) else .ok false

def computeState {m : Type → Type} [Monad m] [MonadExceptOf Failure m]
    (tradingDay : Option (Instant → m Bool)) (tradingSession : Instant → m Bool)
    (now : Instant) (previous : Option Bool) (grace : Span) : m Bool := do
  let trading ← match tradingDay with
    | some ask => ask now
    | none => pure true
  if trading then
    let ahead ← tradingSession (← ofExcept (now.shift grace))
    if ahead then pure true
    else
      let behind ← tradingSession (← ofExcept (now.shift (-grace)))
      if behind then pure (held previous) else pure false
  else pure false

def stateFromToken (token : Option String) (now : Instant) (previous : Option Bool) (grace : Span) :
    Except Failure Bool :=
  nextState (windowsOf? token) now previous none grace

end TradingHours.Schedule
