import TradingHours.Journal.Entry
/-!
The trail of a piece of work: the questions that it asked a calendar and the journal entries that it
made. `Traced` work leaves a trail, whether it fails or not, and touches nothing else.
-/
namespace TradingHours

inductive Subject
  | day
  | session
  deriving DecidableEq, Repr

def Subject.name : Subject → String
  | day => "day"
  | session => "session"

structure Question where
  subject : Subject
  tvKey : String
  instant : Instant
  deriving DecidableEq, Repr

structure Trail where
  questions : Array Question := #[]
  entries : Array Journal.Entry := #[]

abbrev Traced := ExceptT Failure (StateM Trail)

namespace Traced

def note (e : Journal.Entry) : Traced Unit :=
  modify fun trail => { trail with entries := trail.entries.push e }

def ask (q : Question) (answer : Except Failure Bool) : Traced Bool := do
  modify fun trail => { trail with questions := trail.questions.push q }
  ofExcept answer

def outcome {α : Type} (work : Traced α) : Traced (Except Failure α) :=
  tryCatch (do return .ok (← work)) fun failure => pure (.error failure)

end Traced

end TradingHours
