import Mathlib.Data.Int.ModEq
import TradingHours.Proofs.Schedule.TokenMeaning
/-!
Tokens that are written window by window, and what they mean: a moment is traded exactly if one of
the windows holds it. A window that covers the day aside, a shift of the digits of a window around
the clock moves what it holds by as much. Main statements: `openAt_writtenToken_iff`,
`openAt_shifted`.
-/
namespace TradingHours.Schedule

structure ClockField where
  hourTens : Fin 10
  hourUnits : Fin 10
  minuteTens : Fin 10
  minuteUnits : Fin 10
  deriving DecidableEq, Repr

namespace ClockField

def digits (f : ClockField) : List (Fin 10) :=
  [f.hourTens, f.hourUnits, f.minuteTens, f.minuteUnits]

def chars (f : ClockField) : List Char :=
  f.digits.map fun digit : Fin 10 => Nat.digitChar digit

def minutes (f : ClockField) : Nat :=
  (10 * f.hourTens + f.hourUnits) % 24 * 60 + (10 * f.minuteTens + f.minuteUnits) % 60

def ofMinutes (n : Nat) : ClockField :=
  ⟨Fin.ofNat 10 (n / 60 / 10), Fin.ofNat 10 (n / 60), Fin.ofNat 10 (n % 60 / 10),
    Fin.ofNat 10 (n % 60)⟩

def shifted (k : Int) (f : ClockField) : ClockField :=
  ofMinutes ((f.minutes + k) % 1440).toNat

theorem minutes_ofMinutes {n : Nat} (h : n < 1440) : (ofMinutes n).minutes = n := by
  have hhour : 10 * (n / 60 / 10 % 10) + n / 60 % 10 = n / 60 := by omega
  have hminute : 10 * (n % 60 / 10 % 10) + n % 60 % 10 = n % 60 := by omega
  simp only [minutes, ofMinutes, Fin.ofNat]
  rw [hhour, hminute]
  omega

theorem minutes_shifted (k : Int) (f : ClockField) :
    ((f.shifted k).minutes : Int) = (f.minutes + k) % 1440 := by
  rw [shifted, minutes_ofMinutes (by omega)]
  omega

theorem isAsciiDigit_digitChar : ∀ digit : Fin 10,
    Text.isAsciiDigit (Nat.digitChar digit) = true := by
  decide

theorem asciiDigitValue_digitChar : ∀ digit : Fin 10,
    Text.asciiDigitValue (Nat.digitChar digit) = digit := by
  decide

theorem isAsciiDigit_of_mem_chars {f : ClockField} {c : Char} (h : c ∈ f.chars) :
    Text.isAsciiDigit c = true := by
  obtain ⟨digit, -, rfl⟩ := List.mem_map.1 h
  exact isAsciiDigit_digitChar digit

theorem clockMicros_chars (f : ClockField) :
    clockMicros f.chars = f.minutes * microsPerMinute := by
  simp only [clockMicros, chars, digits, minutes, Text.ofDigits, List.map, List.take, List.drop,
    List.foldl, asciiDigitValue_digitChar]
  congr 1
  omega

end ClockField

theorem scanFrom_of_startsWithWindow {p : Nat} {cs : List Char} (h : startsWithWindow cs = true) :
    scanFrom p cs = ⟨.plainWindow, cs.take 8, p⟩ :: scanFrom (p + 8) (cs.drop 8) := by
  cases cs with
  | nil => simp [startsWithWindow] at h
  | cons c rest =>
    have hdigit : Text.isAsciiDigit c = true := by
      rw [startsWithWindow, Bool.and_eq_true, List.all_eq_true] at h
      exact h.2 c List.mem_cons_self
    have hmark : ¬ (isMarker c || isOvernightMarker c) = true := fun hm => by
      simp [nonDigit_of_mark hm] at hdigit
    rw [scanFrom, if_neg hmark, if_pos hdigit, if_pos h]
    rfl

/-- A window as it is written: a mark or none, and the eight digits of its bounds. -/
structure WrittenWindow where
  mark : Option Char
  opening : ClockField
  closing : ClockField
  marks : ∀ c ∈ mark, (isMarker c || isOvernightMarker c) = true

namespace WrittenWindow

variable {w : WrittenWindow} {ws : List WrittenWindow} {m m' : TimeOfDay} {k : Int}

def digits (w : WrittenWindow) : List Char := w.opening.chars ++ w.closing.chars

def chars (w : WrittenWindow) : List Char := w.mark.toList ++ w.digits

def shifted (k : Int) (w : WrittenWindow) : WrittenWindow :=
  { w with opening := w.opening.shifted k, closing := w.closing.shifted k }

def fragment (w : WrittenWindow) : Fragment where
  kind :=
    match w.mark with
    | none => .plainWindow
    | some c => if isOvernightMarker c then .overnightWindow else .markerWindow
  text := w.chars
  position := 0

theorem digits_fragment (w : WrittenWindow) : w.fragment.digits = w.digits := by
  obtain ⟨mark, opening, closing, marks⟩ := w
  cases mark with
  | none => rfl
  | some c =>
    rw [Fragment.digits, if_neg]
    · rfl
    · simp only [fragment]
      split <;> simp

theorem opening_fragment (w : WrittenWindow) : w.fragment.opening = w.opening.chars := by
  rw [Fragment.opening, digits_fragment]
  rfl

theorem closing_fragment (w : WrittenWindow) : w.fragment.closing = w.closing.chars := by
  rw [Fragment.closing, digits_fragment]
  rfl

theorem kind_fragment_eq_iff (w : WrittenWindow) :
    w.fragment.kind = .overnightWindow ↔ w.mark = some '-' := by
  obtain ⟨mark, opening, closing, marks⟩ := w
  cases mark with
  | none => simp [fragment]
  | some c =>
    simp only [fragment, Option.some_inj, isOvernightMarker, decide_eq_true_eq]
    by_cases h : c = '-' <;> simp [h]

theorem isWindow_fragment (w : WrittenWindow) : w.fragment.isWindow = true := by
  obtain ⟨mark, opening, closing, marks⟩ := w
  cases mark with
  | none => rfl
  | some c => cases h : isOvernightMarker c <;> simp [fragment, Fragment.isWindow, h]

theorem isAsciiDigit_of_mem_digits {c : Char} (h : c ∈ w.digits) : Text.isAsciiDigit c = true := by
  rcases List.mem_append.1 h with h | h
  · exact ClockField.isAsciiDigit_of_mem_chars h
  · exact ClockField.isAsciiDigit_of_mem_chars h

theorem startsWithWindow_digits (w : WrittenWindow) (rest : List Char) :
    startsWithWindow (w.digits ++ rest) = true := by
  have htake : (w.digits ++ rest).take 8 = w.digits := rfl
  rw [startsWithWindow, htake, Bool.and_eq_true, decide_eq_true_eq, List.all_eq_true]
  exact ⟨rfl, fun c hc => isAsciiDigit_of_mem_digits hc⟩

theorem lasts_fragment (w : WrittenWindow) : w.fragment.Lasts := by
  intro p rest
  have hstart := w.startsWithWindow_digits rest
  have hlen : w.digits.length = 8 := rfl
  obtain ⟨mark, opening, closing, marks⟩ := w
  cases mark with
  | none =>
    have htext : (fragment ⟨none, opening, closing, marks⟩).text =
        digits ⟨none, opening, closing, marks⟩ := rfl
    rw [htext, scanFrom_of_startsWithWindow hstart, List.take_left' hlen, List.drop_left' hlen,
      hlen]
    rfl
  | some c =>
    have htext : (fragment ⟨some c, opening, closing, marks⟩).text =
        c :: digits ⟨some c, opening, closing, marks⟩ := rfl
    rw [htext, List.cons_append, scanFrom, if_pos (marks c rfl), if_pos hstart,
      List.take_left' hlen, List.drop_left' hlen, List.length_cons, hlen]
    rfl

theorem isIdle_of_mem_chars {c : Char} (h : c ∈ w.chars) : isIdle c = false := by
  rcases List.mem_append.1 h with h | h
  · simp [isIdle, w.marks c (Option.mem_toList.1 h)]
  · simp [isIdle, isAsciiDigit_of_mem_digits h]

/-- The window holds the whole day: it ends when it starts, or it is marked as overnight and ends
after it starts. -/
def CoversDay (w : WrittenWindow) : Prop :=
  w.opening.minutes = w.closing.minutes ∨
    (w.mark = some '-' ∧ w.opening.minutes < w.closing.minutes)

theorem tradesAt_fragment_iff (w : WrittenWindow) (m : TimeOfDay) :
    w.fragment.TradesAt m ↔ w.CoversDay ∨
      ((m.micros : Int) - w.opening.minutes * microsPerMinute) % microsPerDay <
        (w.closing.minutes * microsPerMinute - w.opening.minutes * microsPerMinute : Int) %
          microsPerDay := by
  rw [Fragment.TradesAt, CoversDay, kind_fragment_eq_iff, opening_fragment, closing_fragment,
    ClockField.clockMicros_chars, ClockField.clockMicros_chars, or_assoc,
    Nat.cast_mul, Nat.cast_mul]
  simp only [microsPerMinute, microsPerSecond]
  exact or_congr (by omega) (or_congr (and_congr_right fun _ => by omega) Iff.rfl)

theorem minutes_modEq_shifted (k : Int) (f : ClockField) :
    ((f.shifted k).minutes * microsPerMinute : Int) ≡ (f.minutes + k) * microsPerMinute
      [ZMOD microsPerDay] := by
  rw [ClockField.minutes_shifted, microsPerDay, Nat.cast_mul]
  exact (Int.mod_modEq _ _).mul_right'

/-- A window that does not cover the day moves with its bounds. -/
theorem tradesAt_shifted (hw : ¬ w.CoversDay) (hshifted : ¬ (w.shifted k).CoversDay)
    (hm : (m'.micros : Int) = (m.micros + k * microsPerMinute) % microsPerDay) :
    (w.shifted k).fragment.TradesAt m' ↔ w.fragment.TradesAt m := by
  have hopening := minutes_modEq_shifted k w.opening
  have hclosing := minutes_modEq_shifted k w.closing
  have hmoment : (m'.micros : Int) ≡ m.micros + k * microsPerMinute [ZMOD microsPerDay] := by
    rw [hm]
    exact Int.mod_modEq _ _
  have hsince : ((m'.micros : Int) - (w.shifted k).opening.minutes * microsPerMinute) %
        microsPerDay = ((m.micros : Int) - w.opening.minutes * microsPerMinute) % microsPerDay := by
    have h := hmoment.sub hopening
    rwa [Int.add_mul, add_sub_add_right_eq_sub] at h
  have hlength : ((w.shifted k).closing.minutes * microsPerMinute -
        (w.shifted k).opening.minutes * microsPerMinute : Int) % microsPerDay =
      (w.closing.minutes * microsPerMinute - w.opening.minutes * microsPerMinute : Int) %
        microsPerDay := by
    have h := hclosing.sub hopening
    rwa [Int.add_mul, Int.add_mul, add_sub_add_right_eq_sub] at h
  rw [tradesAt_fragment_iff, tradesAt_fragment_iff, or_iff_right hw, or_iff_right hshifted, hsince,
    hlength]

end WrittenWindow

def writtenToken (ws : List WrittenWindow) : String :=
  String.ofList (ws.flatMap WrittenWindow.chars)

section Token

variable {ws : List WrittenWindow} {m m' : TimeOfDay} {k : Int}

theorem trimChars_writtenToken_ne (ws : List WrittenWindow) :
    Text.trimChars (writtenToken ws).toList ≠ alwaysOpenToken.toList := by
  intro h
  have hplus : '+' ∈ (writtenToken ws).toList :=
    Text.mem_of_mem_trimChars (h ▸ (by decide : '+' ∈ alwaysOpenToken.toList))
  rw [writtenToken, String.toList_ofList] at hplus
  obtain ⟨w, -, hw⟩ := List.mem_flatMap.1 hplus
  have hidle := WrittenWindow.isIdle_of_mem_chars hw
  exact absurd hidle (by decide)

theorem scan_writtenToken (ws : List WrittenWindow) :
    (scan (writtenToken ws).toList).map (·.movedTo 0) = ws.map WrittenWindow.fragment := by
  have hlasts : ∀ f ∈ ws.map WrittenWindow.fragment, f.Lasts := by
    intro f hf
    obtain ⟨w, -, rfl⟩ := List.mem_map.1 hf
    exact w.lasts_fragment
  have hscan := scanFrom_flatMap_text hlasts 0
  rw [List.flatMap_map, List.map_map] at hscan
  rw [writtenToken, String.toList_ofList]
  exact hscan

/-- A token trades at the moments that one of its windows holds. -/
theorem openAt_writtenToken_iff (ws : List WrittenWindow) (m : TimeOfDay) :
    openAt (windowsOf (writtenToken ws)) m = true ↔ ∃ w ∈ ws, w.fragment.TradesAt m := by
  have hscan := scan_writtenToken ws
  rw [openAt_iff_of_forall₂ (forall₂_windowsOf (trimChars_writtenToken_ne ws))]
  constructor
  · rintro ⟨f, hf, htrades⟩
    have hmem : f.movedTo 0 ∈ ws.map WrittenWindow.fragment :=
      hscan ▸ List.mem_map_of_mem (List.mem_filter.1 hf).1
    obtain ⟨w, hw, hfragment⟩ := List.mem_map.1 hmem
    exact ⟨w, hw, hfragment ▸ htrades⟩
  · rintro ⟨w, hw, htrades⟩
    have hmem : w.fragment ∈ (scan (writtenToken ws).toList).map (·.movedTo 0) :=
      hscan ▸ List.mem_map_of_mem hw
    obtain ⟨f, hf, hfragment⟩ := List.mem_map.1 hmem
    have hwindow : (f.movedTo 0).isWindow = true := hfragment ▸ w.isWindow_fragment
    exact ⟨f, List.mem_filter.2 ⟨hf, hwindow⟩, (hfragment ▸ htrades : (f.movedTo 0).TradesAt m)⟩

theorem windowsOf_writtenToken_ne_nil (hne : ws ≠ []) : windowsOf (writtenToken ws) ≠ [] := by
  obtain ⟨w, rest, rfl⟩ := List.exists_cons_of_ne_nil hne
  intro hnil
  have hmem : w.fragment ∈ (scan (writtenToken (w :: rest)).toList).map (·.movedTo 0) :=
    scan_writtenToken (w :: rest) ▸ List.mem_map_of_mem List.mem_cons_self
  obtain ⟨f, hf, hfragment⟩ := List.mem_map.1 hmem
  have hwindow : (f.movedTo 0).isWindow = true := hfragment ▸ w.isWindow_fragment
  exact Bool.noConfusion (hwindow.symm.trans ((windowsOf_eq_nil_iff.1 hnil).2 f hf))

theorem openAt_of_coversDay {w : WrittenWindow} (hw : w ∈ ws) (h : w.CoversDay) (m : TimeOfDay) :
    openAt (windowsOf (writtenToken ws)) m = true :=
  (openAt_writtenToken_iff ws m).2 ⟨w, hw, (w.tradesAt_fragment_iff m).2 (.inl h)⟩

/-- Without windows that cover the day, a shift of a token moves what it trades. -/
theorem openAt_shifted (hws : ∀ w ∈ ws, ¬ w.CoversDay)
    (hshifted : ∀ w ∈ ws, ¬ (w.shifted k).CoversDay)
    (hm : (m'.micros : Int) = (m.micros + k * microsPerMinute) % microsPerDay) :
    openAt (windowsOf (writtenToken (ws.map (·.shifted k)))) m' =
      openAt (windowsOf (writtenToken ws)) m := by
  rw [Bool.eq_iff_iff, openAt_writtenToken_iff, openAt_writtenToken_iff]
  simp only [List.mem_map, exists_exists_and_eq_and]
  exact exists_congr fun w => and_congr_right fun hw =>
    w.tradesAt_shifted (hws w hw) (hshifted w hw) hm

end Token

end TradingHours.Schedule
