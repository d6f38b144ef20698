/-!
Cutting a text at a separator character.
-/
namespace TradingHours.Text

def splitOnChar (separator : Char) : List Char → List (List Char)
  | [] => [[]]
  | c :: cs =>
    if c = separator then [] :: splitOnChar separator cs
    else match splitOnChar separator cs with
      | [] => [[c]]
      | piece :: pieces => (c :: piece) :: pieces

def cutAtFirst (separator : Char) : List Char → Option (List Char × List Char)
  | [] => none
  | c :: cs =>
    if c = separator then some ([], cs)
    else (cutAtFirst separator cs).map fun (before, after) => (c :: before, after)

def afterFirst (pattern : List Char) : List Char → Option (List Char)
  | [] => if pattern.isEmpty then some [] else none
  | c :: cs =>
    if pattern.isPrefixOf (c :: cs) then some ((c :: cs).drop pattern.length)
    else afterFirst pattern cs

def containsChars (pattern text : List Char) : Bool :=
  (afterFirst pattern text).isSome

end TradingHours.Text
