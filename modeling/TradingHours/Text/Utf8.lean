/-!
Decoding UTF-8. A text that is not well formed is refused at the first byte sequence that no
encoding starts with; the refusal says which bytes and why.
-/
namespace TradingHours.Text

inductive Utf8Fault
  | invalidStart
  | invalidContinuation
  | unexpectedEnd
  deriving DecidableEq, Repr

structure Utf8Refusal where
  position : Nat
  bytes : List UInt8
  fault : Utf8Fault
  deriving DecidableEq, Repr

def utf8Shape (b : UInt8) : Option (Nat × UInt8 × UInt8) :=
  if b < 0x80 then some (0, 0, 0)
  else if b < 0xC2 then none
  else if b < 0xE0 then some (1, 0x80, 0xBF)
  else if b == 0xE0 then some (2, 0xA0, 0xBF)
  else if b == 0xED then some (2, 0x80, 0x9F)
  else if b < 0xF0 then some (2, 0x80, 0xBF)
  else if b == 0xF0 then some (3, 0x90, 0xBF)
  else if b < 0xF4 then some (3, 0x80, 0xBF)
  else if b == 0xF4 then some (3, 0x80, 0x8F)
  else none

/-- Reads `count` continuation bytes, the first of them between the bounds. The failure carries the
bytes that were still fine. -/
def takeContinuation : Nat → UInt8 → UInt8 → List UInt8 →
    Except (List UInt8 × Utf8Fault) (List UInt8)
  | 0, _, _, rest => .ok rest
  | _ + 1, _, _, [] => .error ([], .unexpectedEnd)
  | n + 1, low, high, b :: rest =>
    if low ≤ b && b ≤ high then
      match takeContinuation n 0x80 0xBF rest with
      | .ok rest' => .ok rest'
      | .error (fine, fault) => .error (b :: fine, fault)
    else .error ([], .invalidContinuation)

theorem length_takeContinuation {n : Nat} {low high : UInt8} {bytes rest : List UInt8}
    (h : takeContinuation n low high bytes = .ok rest) : rest.length ≤ bytes.length := by
  induction n generalizing low high bytes with
  | zero => simp_all [takeContinuation]
  | succ n ih =>
    cases bytes with
    | nil => simp [takeContinuation] at h
    | cons b tail =>
      simp only [takeContinuation] at h
      split at h
      · split at h
        · next heq =>
          cases h
          exact Nat.le_succ_of_le (ih heq)
        · simp at h
      · simp at h

def utf8Refusal? (position : Nat) (bytes : List UInt8) : Option Utf8Refusal :=
  match bytes with
  | [] => none
  | b :: tail =>
    match utf8Shape b with
    | none => some ⟨position, [b], .invalidStart⟩
    | some (count, low, high) =>
      match h : takeContinuation count low high tail with
      | .error (fine, fault) => some ⟨position, b :: fine, fault⟩
      | .ok rest =>
        have := length_takeContinuation h
        utf8Refusal? (position + 1 + count) rest
termination_by bytes.length

def decodeUtf8 (bytes : ByteArray) : Except Utf8Refusal String :=
  match String.fromUTF8? bytes with
  | some text => .ok text
  | none => .error ((utf8Refusal? 0 bytes.toList).getD ⟨0, [], .unexpectedEnd⟩)

def encodeUtf8 (text : String) : ByteArray := text.toUTF8

def Utf8Fault.phrase : Utf8Fault → String
  | .invalidStart => "invalid start byte"
  | .invalidContinuation => "invalid continuation byte"
  | .unexpectedEnd => "unexpected end of data"

end TradingHours.Text
