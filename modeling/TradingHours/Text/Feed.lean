import TradingHours.Number.Binary
import TradingHours.Text.Utf8
/-!
Text that is read from bytes chunk by chunk. A character that is cut off at the end of a chunk waits
for the next one, and so does a carriage return, because every kind of line end becomes a line feed.
-/
namespace TradingHours.Text

structure Feed where
  bytes : List UInt8
  held : List UInt8 := []
  returned : Bool := false
  ready : List Char := []
  width : Number.Binary := .ofInt 0

namespace Feed

def chunkLength : Nat := 8192

def withLineFeeds : List Char → List Char
  | '\r' :: '\n' :: cs => '\n' :: withLineFeeds cs
  | '\r' :: cs => '\n' :: withLineFeeds cs
  | c :: cs => c :: withLineFeeds cs
  | [] => []

/-- Whether bytes at the end of a chunk are a character that is cut off, or two thirds of half a
surrogate pair, which are refused only when the rest is there. -/
def isCutOff (r : Utf8Refusal) (tail : List UInt8) : Bool :=
  r.fault = .unexpectedEnd ||
    match tail with
    | [0xED, b] => 0xA0 ≤ b && b ≤ 0xBF
    | _ => false

/-- Decodes bytes. Unless they are the last ones, a character may be cut off; its bytes are what is
held. -/
def decodeStart (bytes : List UInt8) (last : Bool) : Except Utf8Refusal (List Char × List UInt8) :=
  match decodeUtf8 ⟨bytes.toArray⟩ with
  | .ok text => .ok (text.toList, [])
  | .error r =>
    let tail := bytes.drop r.position
    if isCutOff r tail && !last then
      match decodeUtf8 ⟨(bytes.take r.position).toArray⟩ with
      | .ok text => .ok (text.toList, tail)
      | .error r => .error r
    else .error r

def takeChunk (f : Feed) (wanted : Nat) : Except Utf8Refusal (Bool × Feed) := do
  let length := max chunkLength (max (f.width.scale wanted).truncate wanted).toNat
  let chunk := f.bytes.take length
  let last := chunk.isEmpty
  let (cs, held) ← decodeStart (f.held ++ chunk) last
  let cs := if f.returned && (last || !cs.isEmpty) then '\r' :: cs else cs
  let returns := !last && (cs.getLast? = some '\r' || (cs.isEmpty && f.returned))
  let cs := if cs.getLast? = some '\r' && !last then cs.dropLast else cs
  let ready := withLineFeeds cs
  return (!last || !ready.isEmpty, {
    bytes := f.bytes.drop length
    held := held
    returned := returns
    ready := f.ready ++ ready
    width := .ofQuotient false chunk.length ready.length })

/-- Reads a number of characters, or all if there are fewer. Each step takes a chunk, so the fuel is
more than the number of bytes. -/
def readWith : Nat → Nat → Feed → Except Utf8Refusal (List Char × Feed)
  | 0, _, f => .ok (f.ready, { f with ready := [] })
  | fuel + 1, count, f =>
    let taken := f.ready.take count
    let f := { f with ready := f.ready.drop count }
    if count ≤ taken.length then .ok (taken, f)
    else do
      let (more, f) ← f.takeChunk (count - taken.length)
      if !more then return (taken, f)
      let (rest, f) ← readWith fuel (count - taken.length) f
      return (taken ++ rest, f)

def read (count : Nat) (f : Feed) : Except Utf8Refusal (List Char × Feed) :=
  readWith (f.bytes.length + 3) count f

end Feed

end TradingHours.Text
