import TradingHours.Text.Feed
import TradingHours.Yaml.Cursor
/-!
The characters of a YAML text as they are delivered: in batches, each of which is refused as a whole
if it cannot be decoded or holds a character that a document may not have.
-/
namespace TradingHours.Yaml

def batchLength : Nat := 4096

/-- The batches of a feed up to the first one that is refused, and the fault of that one. The first
batch is read in two steps. -/
def batches : Nat → Bool → Text.Feed → List Char × Option Fault
  | 0, _, _ => ([], none)
  | fuel + 1, first, f =>
    let batch : Except Text.Utf8Refusal (List Char × Text.Feed) := do
      let (cs, f) ← f.read batchLength
      if first then
        let (more, f) ← f.read batchLength
        return (cs ++ more, f)
      return (cs, f)
    match batch with
    | .error refusal => ([], some (.undecodable refusal))
    | .ok (cs, f) =>
      if cs.isEmpty then ([], none)
      else if cs.all isAdmitted then
        let (rest, beyond) := batches fuel false f
        (cs ++ rest, beyond)
      else ([], some .form)

def delivered (bytes : ByteArray) : List Char × Option Fault :=
  batches (bytes.size + 2) true { bytes := bytes.toList }

end TradingHours.Yaml
