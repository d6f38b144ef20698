/-!
Bytes as text in base 64: four characters carry six bits each for three bytes, and padding stands
for what the last three bytes lack. Characters outside of the alphabet count for nothing.
-/
namespace TradingHours.Yaml

def sextet? (c : Char) : Option Nat :=
  if 'A' ≤ c && c ≤ 'Z' then some (c.toNat - 'A'.toNat)
  else if 'a' ≤ c && c ≤ 'z' then some (c.toNat - 'a'.toNat + 26)
  else if '0' ≤ c && c ≤ '9' then some (c.toNat - '0'.toNat + 52)
  else if c = '+' then some 62
  else if c = '/' then some 63
  else none

/-- The bytes of what follows `place` characters of a group of four. `left` are the bits that they
have left over, and `pads` counts the padding since. Padding that fills the group ends the text. -/
def base64Bytes (place pads left : Nat) : List Char → Option (List UInt8)
  | [] => if place = 0 then some [] else none
  | c :: rest =>
    if c = '=' then
      if place < 2 then base64Bytes place pads left rest
      else if 4 ≤ place + pads + 1 then some []
      else base64Bytes place (pads + 1) left rest
    else
      match sextet? c with
      | none => base64Bytes place pads left rest
      | some n =>
        match place with
        | 0 => base64Bytes 1 0 n rest
        | 1 => (base64Bytes 2 0 (n % 16) rest).map ((left * 4 + n / 16).toUInt8 :: ·)
        | 2 => (base64Bytes 3 0 (n % 4) rest).map ((left * 16 + n / 4).toUInt8 :: ·)
        | _ => (base64Bytes 0 0 0 rest).map ((left * 64 + n).toUInt8 :: ·)

def decodeBase64? (cs : List Char) : Option (List UInt8) :=
  if cs.all fun c => c.toNat < 0x80 then base64Bytes 0 0 0 cs else none

end TradingHours.Yaml
