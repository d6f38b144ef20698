import TradingHours.Schedule.Latch
/-!
The states of a market minute by minute, each one the previous state of the next.
-/
namespace TradingHours.Schedule

abbrev Step (m : Type → Type) := Instant → Option Bool → m Bool

def thread {m : Type → Type} [Monad m] (step : Step m) :
    Option Bool → List Instant → m (List (Instant × Bool))
  | _, [] => pure []
  | previous, t :: rest => do
    let state ← step t previous
    let states ← thread step (some state) rest
    pure ((t, state) :: states)

def stateVector {m : Type → Type} [Monad m] [MonadExceptOf Failure m] (step : Step m) (d : Day)
    (previous : Option Bool) (minutes : Nat) : m (List (Instant × Bool)) := do
  thread step previous (← ofExcept (minuteGrid d minutes))

def windowStep (windows : List Window) (grace : Span) : Step (Except Failure) :=
  fun now previous => nextState windows now previous none grace

def tokenVector (token : Option String) (d : Day) (previous : Option Bool) (grace : Span) :
    Except Failure (List Bool) :=
  (stateVector (windowStep (windowsOf? token) grace) d previous minutesPerDay).map
    (·.map (·.2))

def countTransitions : List Bool → Nat
  | a :: b :: rest => (if a = b then 0 else 1) + countTransitions (b :: rest)
  | _ => 0

end TradingHours.Schedule
