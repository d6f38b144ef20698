/-!
Lines. A line ends at any Unicode line boundary; a carriage return with the line feed after it
is one boundary, and the last line needs none.
-/
namespace TradingHours.Text

def isLineBreak (c : Char) : Bool :=
  let n := c.toNat
  (0x0A ≤ n && n ≤ 0x0D) || (0x1C ≤ n && n ≤ 0x1E) || n == 0x85 || n == 0x2028 || n == 0x2029

def lineChars : List Char → List (List Char)
  | [] => []
  | '\r' :: '\n' :: cs => [] :: lineChars cs
  | c :: cs =>
    if isLineBreak c then [] :: lineChars cs
    else match lineChars cs with
      | [] => [[c]]
      | line :: rest => (c :: line) :: rest

def lines (s : String) : List String :=
  (lineChars s.toList).map String.ofList

def unlines (ls : List String) : String :=
  String.ofList (ls.flatMap fun line => line.toList ++ ['\n'])

end TradingHours.Text
