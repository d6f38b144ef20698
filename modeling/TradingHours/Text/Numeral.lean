/-!
Decimal and hexadecimal numerals of a fixed least width.
-/
namespace TradingHours.Text

def numeralChars (base n : Nat) : List Char :=
  Nat.toDigits base n

def padded (width n : Nat) : String :=
  let digits := numeralChars 10 n
  String.ofList (List.replicate (width - digits.length) '0' ++ digits)

def paddedHex (width n : Nat) : String :=
  let digits := numeralChars 16 n
  String.ofList (List.replicate (width - digits.length) '0' ++ digits)

def decimal (n : Int) : String :=
  match n with
  | .ofNat m => String.ofList (numeralChars 10 m)
  | .negSucc m => String.ofList ('-' :: numeralChars 10 (m + 1))

end TradingHours.Text
