import TradingHours.Text.Digit
/-!
Fragments of a schedule token, found in one scan from left to right. A marker and eight digits make
a marked window, eight digits alone a plain one; a run of digits is cut from its left end, and what
is left over is skipped, as is every other character. Main statement: `flatMap_text_scan`, the
fragments hold the scanned text.
-/
namespace TradingHours.Schedule

inductive FragmentKind
  | markerWindow
  | overnightWindow
  | plainWindow
  | skip
  deriving DecidableEq, Repr

structure Fragment where
  kind : FragmentKind
  text : List Char
  position : Nat
  deriving DecidableEq, Repr

namespace Fragment

def isWindow (f : Fragment) : Bool := f.kind ≠ .skip

def digits (f : Fragment) : List Char :=
  if f.kind = .plainWindow then f.text else f.text.drop 1

def opening (f : Fragment) : List Char := f.digits.take 4

def closing (f : Fragment) : List Char := f.digits.drop 4

end Fragment

def isMarker (c : Char) : Bool := c = 'p' || c = 'r' || c = 'a'

def isOvernightMarker (c : Char) : Bool := c = '-'

def startsWithWindow (cs : List Char) : Bool :=
  (cs.take 8).length = 8 && (cs.take 8).all Text.isAsciiDigit

def scanFrom (position : Nat) (cs : List Char) : List Fragment :=
  match cs with
  | [] => []
  | c :: rest =>
    if isMarker c || isOvernightMarker c then
      if startsWithWindow rest then
        ⟨if isOvernightMarker c then .overnightWindow else .markerWindow, c :: rest.take 8,
            position⟩ ::
          scanFrom (position + 9) (rest.drop 8)
      else ⟨.skip, [c], position⟩ :: scanFrom (position + 1) rest
    else if Text.isAsciiDigit c then
      if startsWithWindow (c :: rest) then
        ⟨.plainWindow, c :: rest.take 7, position⟩ :: scanFrom (position + 8) (rest.drop 7)
      else
        let run := c :: rest.takeWhile Text.isAsciiDigit
        ⟨.skip, run, position⟩ ::
          scanFrom (position + run.length) (rest.dropWhile Text.isAsciiDigit)
    else ⟨.skip, [c], position⟩ :: scanFrom (position + 1) rest
termination_by cs.length
decreasing_by
  all_goals simp only [List.length_cons, List.length_drop]
  any_goals omega
  exact Nat.lt_succ_of_le (List.dropWhile_suffix _).length_le

def scan (cs : List Char) : List Fragment := scanFrom 0 cs

theorem flatMap_text_scanFrom (position : Nat) (cs : List Char) :
    (scanFrom position cs).flatMap Fragment.text = cs := by
  fun_induction scanFrom position cs <;> simp_all +zetaDelta

theorem flatMap_text_scan (cs : List Char) : (scan cs).flatMap Fragment.text = cs :=
  flatMap_text_scanFrom 0 cs

end TradingHours.Schedule
