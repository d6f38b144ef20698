/-!
Blank characters, trimming, and the fields between blanks.
-/
namespace TradingHours.Text

/-- The Unicode class White_Space together with the four separator controls U+001C to U+001F. -/
def isBlank (c : Char) : Bool :=
  let n := c.toNat
  (0x09 ≤ n && n ≤ 0x0D) || (0x1C ≤ n && n ≤ 0x20) || n == 0x85 || n == 0xA0 || n == 0x1680 ||
    (0x2000 ≤ n && n ≤ 0x200A) || n == 0x2028 || n == 0x2029 || n == 0x202F || n == 0x205F ||
    n == 0x3000

def trimLeft (cs : List Char) : List Char :=
  cs.dropWhile isBlank

def trimRight (cs : List Char) : List Char :=
  (cs.reverse.dropWhile isBlank).reverse

def trimChars (cs : List Char) : List Char :=
  trimRight (trimLeft cs)

def fieldChars : List Char → List (List Char)
  | [] => []
  | c :: cs =>
    if isBlank c then fieldChars cs
    else match cs with
      | [] => [[c]]
      | d :: _ =>
        if isBlank d then [c] :: fieldChars cs
        else match fieldChars cs with
          | [] => [[c]]
          | field :: fields => (c :: field) :: fields

def trim (s : String) : String :=
  String.ofList (trimChars s.toList)

def isBlankText (s : String) : Bool :=
  s.toList.all isBlank

def fields (s : String) : List String :=
  (fieldChars s.toList).map String.ofList

end TradingHours.Text
