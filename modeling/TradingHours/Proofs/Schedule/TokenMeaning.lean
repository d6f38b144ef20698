import Mathlib.Data.List.Forall2
import TradingHours.Proofs.Schedule.WindowFragments
import TradingHours.Schedule.Session
import TradingHours.Schedule.Token
/-!
What a token means. Each window fragment stands for one window, around the clock; a moment is traded
exactly if it lies between the bounds of a fragment on the circle of a day, and the blanks around a
token mean nothing. Main statement: `isTradingAtTime_windowsOf`.
-/
namespace TradingHours.Schedule

/-- The microseconds from midnight to the time that four digits write: the hour around the clock,
then the minute around the hour. -/
def clockMicros (hhmm : List Char) : Nat :=
  let value (digits : List Char) := Text.ofDigits 10 (digits.map Text.asciiDigitValue)
  (value (hhmm.take 2) % 24 * 60 + value (hhmm.drop 2) % 60) * microsPerMinute

theorem clockTime_micros {hhmm : List Char} (h : hhmm.length = 4) :
    (clockTime hhmm).micros = clockMicros hhmm := by
  match hhmm, h with
  | [a, b, c, d], _ =>
    simp only [clockTime, clockMicros, Text.ofDigits, TimeOfDay.wrapped, TimeOfDay.ofMinutes,
      List.take, List.drop, List.map, List.foldl]
    congr 1
    omega

theorem clockMicros_lt (hhmm : List Char) : clockMicros hhmm < microsPerDay := by
  simp only [clockMicros, microsPerDay, microsPerMinute, microsPerSecond]
  omega

theorem exists_minutes_clockMicros (hhmm : List Char) :
    ∃ i < 1440, clockMicros hhmm = i * microsPerMinute :=
  ⟨_, by omega, rfl⟩

/-- Whether a moment lies between the bounds of a window fragment. Equal bounds hold the whole day, as
does an overnight window that ends after it starts; otherwise the moment comes earlier after the
start than the end does, on the circle of the day. -/
def Fragment.TradesAt (f : Fragment) (moment : TimeOfDay) : Prop :=
  clockMicros f.opening = clockMicros f.closing ∨
    (f.kind = .overnightWindow ∧ clockMicros f.opening < clockMicros f.closing) ∨
    ((moment.micros : Int) - clockMicros f.opening) % microsPerDay <
      ((clockMicros f.closing : Int) - clockMicros f.opening) % microsPerDay

namespace Window

/-- The bounds of a window are at whole minutes. It covers the day in one form only, and one that
ends before it starts runs past midnight. -/
structure Normal (w : Window) : Prop where
  start_minutes : ∃ i < 1440, w.start.micros = i * microsPerMinute
  finish_minutes : ∃ i < 1440, w.finish.micros = i * microsPerMinute
  shape : (w.start.micros = 0 ∧ w.finish.micros = 0 ∧ w.overnight = true ∧ w.allDay = true) ∨
    (w.allDay = false ∧ w.start ≠ w.finish ∧
      (w.finish.micros < w.start.micros → w.overnight = true))

def StandsFor (f : Fragment) (w : Window) : Prop :=
  if clockMicros f.opening = clockMicros f.closing then w = .always
  else w.allDay = false ∧ w.start.micros = clockMicros f.opening ∧
    w.finish.micros = clockMicros f.closing ∧
    (w.overnight = true ↔
      f.kind = .overnightWindow ∨ clockMicros f.closing < clockMicros f.opening)

theorem standsFor_standard {f : Fragment} {start finish : TimeOfDay}
    (hs : start.micros = clockMicros f.opening) (he : finish.micros = clockMicros f.closing)
    (hk : f.kind ≠ .overnightWindow) : StandsFor f (standard start finish) := by
  unfold StandsFor standard
  by_cases h : clockMicros f.opening = clockMicros f.closing
  · have heq : start = finish := TimeOfDay.ext_micros (by omega)
    simp [h, heq]
  · have hne : start ≠ finish := fun heq => h (by rw [← hs, ← he, heq])
    have hlt : finish < start ↔ clockMicros f.closing < clockMicros f.opening := by
      rw [← hs, ← he]
      rfl
    simp [h, hne, hs, he, hk, hlt]

theorem standsFor_explicitOvernight {f : Fragment} {start finish : TimeOfDay}
    (hs : start.micros = clockMicros f.opening) (he : finish.micros = clockMicros f.closing)
    (hk : f.kind = .overnightWindow) : StandsFor f (explicitOvernight start finish) := by
  unfold StandsFor explicitOvernight
  by_cases h : clockMicros f.opening = clockMicros f.closing
  · have heq : start = finish := TimeOfDay.ext_micros (by omega)
    simp [h, heq]
  · have hne : start ≠ finish := fun heq => h (by rw [← hs, ← he, heq])
    simp [h, hne, hs, he, hk]

theorem contains_always (moment : TimeOfDay) : always.contains moment = true := rfl

theorem contains_overnight_iff {w : Window} {moment : TimeOfDay} (hc : w.coversDay = false)
    (ho : w.overnight = true) :
    w.contains moment = true ↔
      w.start.micros ≤ moment.micros ∨ moment.micros < w.finish.micros := by
  rw [contains, if_neg (by simp [hc]), if_pos ho, Bool.or_eq_true, decide_eq_true_eq,
    decide_eq_true_eq]
  rfl

theorem contains_daytime_iff {w : Window} {moment : TimeOfDay} (hc : w.coversDay = false)
    (ho : w.overnight = false) :
    w.contains moment = true ↔
      w.start.micros ≤ moment.micros ∧ moment.micros < w.finish.micros := by
  rw [contains, if_neg (by simp [hc]), if_neg (by simp [ho]), Bool.and_eq_true, decide_eq_true_eq,
    decide_eq_true_eq]
  rfl

theorem contains_iff_of_standsFor {f : Fragment} {w : Window} (h : StandsFor f w)
    (moment : TimeOfDay) :
    w.contains moment = true ↔ f.TradesAt moment := by
  have hm := moment.micros_lt
  have hs := clockMicros_lt f.opening
  have he := clockMicros_lt f.closing
  unfold StandsFor at h
  unfold Fragment.TradesAt
  split at h
  next heq => simp [h, heq, contains_always]
  next hne =>
    obtain ⟨hday, hstart, hfinish, hnight⟩ := h
    have hbounds : w.start ≠ w.finish := fun heq => hne (by rw [← hstart, ← hfinish, heq])
    have hcovers : w.coversDay = false := by simp [coversDay, hday, hbounds]
    simp only [microsPerDay, microsPerMinute, microsPerSecond] at hm hs he ⊢
    cases ho : w.overnight with
    | true =>
      rw [contains_overnight_iff hcovers ho, hstart, hfinish]
      rcases hnight.1 ho with hk | hk
      · simp only [hk, true_and]
        omega
      · omega
    | false =>
      obtain ⟨hk, hse⟩ := not_or.1 (mt hnight.2 (by simp [ho]))
      rw [contains_daytime_iff hcovers ho, hstart, hfinish]
      simp only [hk, false_and, false_or]
      omega

theorem normal_of_standsFor {f : Fragment} {w : Window} (h : StandsFor f w) : w.Normal := by
  unfold StandsFor at h
  split at h
  next =>
    subst h
    exact ⟨⟨0, by omega, rfl⟩, ⟨0, by omega, rfl⟩, .inl ⟨rfl, rfl, rfl, rfl⟩⟩
  next hne =>
    obtain ⟨hday, hstart, hfinish, hnight⟩ := h
    refine ⟨?_, ?_, .inr ⟨hday, ?_, ?_⟩⟩
    · rw [hstart]
      exact exists_minutes_clockMicros f.opening
    · rw [hfinish]
      exact exists_minutes_clockMicros f.closing
    · intro heq
      exact hne (by rw [← hstart, ← hfinish, heq])
    · rw [hstart, hfinish]
      exact fun hlt => hnight.2 (.inr hlt)

/-- A window fragment of a text stands for one window. -/
theorem exists_ofFragment? {cs : List Char} {f : Fragment} (hf : f ∈ scan cs)
    (hw : f.isWindow = true) : ∃ w, ofFragment? f = some w ∧ StandsFor f w := by
  obtain ⟨i, -, ho, hc, hd⟩ := (mem_scan_iff.1 hf).halves hw
  have hlen := lt_length_of_digitAt (hd 7 (by omega))
  have hopening : f.opening.length = 4 := by
    rw [ho, length_extract_of_le (by omega)]
    omega
  have hclosing : f.closing.length = 4 := by
    rw [hc, length_extract_of_le (by omega)]
    omega
  have hs := clockTime_micros hopening
  have he := clockTime_micros hclosing
  cases hk : f.kind with
  | skip => simp [Fragment.isWindow, hk] at hw
  | overnightWindow => exact ⟨_, by simp [ofFragment?, hk], standsFor_explicitOvernight hs he hk⟩
  | markerWindow | plainWindow =>
    exact ⟨_, by simp [ofFragment?, hk], standsFor_standard hs he (by simp [hk])⟩

theorem ofFragment?_eq_none_iff {f : Fragment} :
    ofFragment? f = none ↔ f.isWindow = false := by
  cases hk : f.kind <;> simp [ofFragment?, Fragment.isWindow, hk]

end Window

def windowsFrom (p : Nat) (cs : List Char) : List Window :=
  (scanFrom p cs).filterMap Window.ofFragment?

theorem windowsFrom_eq (p : Nat) (cs : List Char) :
    windowsFrom p cs = (windowFragments cs).filterMap Window.ofFragment? := by
  rw [← windowFragments_of_scanFrom p, List.filterMap_map, List.filterMap_filter]
  refine List.filterMap_congr fun f _ => ?_
  cases hw : f.isWindow with
  | true => rfl
  | false => simp [Window.ofFragment?_eq_none_iff.2 hw]

/-- The blanks around a text hold no windows. -/
theorem filterMap_scan_trimChars (cs : List Char) :
    (scan (Text.trimChars cs)).filterMap Window.ofFragment? =
      (scan cs).filterMap Window.ofFragment? := by
  have h := windowsFrom_eq 0 (Text.trimChars cs)
  rw [windowFragments_trimChars, ← windowsFrom_eq 0 cs] at h
  exact h

theorem forall₂_standsFor {cs : List Char} {fs : List Fragment} (h : ∀ f ∈ fs, f ∈ scan cs) :
    List.Forall₂ Window.StandsFor (fs.filter Fragment.isWindow)
      (fs.filterMap Window.ofFragment?) := by
  induction fs with
  | nil => exact .nil
  | cons f fs ih =>
    have htail := ih fun g hg => h g (List.mem_cons_of_mem f hg)
    cases hw : f.isWindow with
    | true =>
      obtain ⟨w, hof, hstands⟩ := Window.exists_ofFragment? (h f List.mem_cons_self) hw
      rw [List.filter_cons_of_pos hw, List.filterMap_cons_some hof]
      exact .cons hstands htail
    | false =>
      rw [List.filter_cons_of_neg (by simp [hw]),
        List.filterMap_cons_none (Window.ofFragment?_eq_none_iff.2 hw)]
      exact htail

theorem windowsOf_of_ne {token : String}
    (h : Text.trimChars token.toList ≠ alwaysOpenToken.toList) :
    windowsOf token = (scan token.toList).filterMap Window.ofFragment? := by
  rw [windowsOf, if_neg h, filterMap_scan_trimChars]

theorem windowsOf_of_eq {token : String}
    (h : Text.trimChars token.toList = alwaysOpenToken.toList) : windowsOf token = [.always] := by
  rw [windowsOf, if_pos h]

theorem windowsOf_eq_nil_iff {token : String} :
    windowsOf token = [] ↔ Text.trimChars token.toList ≠ alwaysOpenToken.toList ∧
      ∀ f ∈ scan token.toList, f.isWindow = false := by
  by_cases h : Text.trimChars token.toList = alwaysOpenToken.toList
  · simp [windowsOf_of_eq h, h]
  · simp only [windowsOf_of_ne h, List.filterMap_eq_nil_iff, Window.ofFragment?_eq_none_iff, ne_eq,
      h, not_false_eq_true, true_and]

theorem openAt_iff_of_forall₂ {fs : List Fragment} {windows : List Window}
    (h : List.Forall₂ Window.StandsFor fs windows) (moment : TimeOfDay) :
    openAt windows moment = true ↔
      ∃ f ∈ fs, f.TradesAt moment := by
  induction h with
  | nil => simp [openAt]
  | cons hstands _ ih =>
    have hhead := Window.contains_iff_of_standsFor hstands moment
    simp only [openAt, List.any_cons, Bool.or_eq_true] at ih ⊢
    rw [ih, hhead]
    simp only [List.mem_cons, exists_eq_or_imp]

theorem exists_standsFor {fs : List Fragment} {windows : List Window}
    (h : List.Forall₂ Window.StandsFor fs windows) :
    ∀ w ∈ windows, ∃ f, Window.StandsFor f w := by
  induction h with
  | nil => simp
  | cons hstands _ ih => exact List.forall_mem_cons.2 ⟨⟨_, hstands⟩, ih⟩

theorem forall₂_windowsOf {token : String}
    (h : Text.trimChars token.toList ≠ alwaysOpenToken.toList) :
    List.Forall₂ Window.StandsFor ((scan token.toList).filter Fragment.isWindow)
      (windowsOf token) := by
  rw [windowsOf_of_ne h]
  exact forall₂_standsFor fun f hf => hf

theorem normal_of_mem_windowsOf {token : String} {w : Window} (hw : w ∈ windowsOf token) :
    w.Normal := by
  by_cases halways : Text.trimChars token.toList = alwaysOpenToken.toList
  · rw [windowsOf_of_eq halways, List.mem_singleton] at hw
    subst hw
    exact ⟨⟨0, by omega, rfl⟩, ⟨0, by omega, rfl⟩, .inl ⟨rfl, rfl, rfl, rfl⟩⟩
  · obtain ⟨f, hstands⟩ := exists_standsFor (forall₂_windowsOf halways) w hw
    exact Window.normal_of_standsFor hstands

/-- What a token means at a moment. Besides, the windows of a token are in their one form, one for
each window fragment and in the order of the fragments. -/
theorem isTradingAtTime_windowsOf (token : String) (moment : TimeOfDay) :
    (∃ trading, isTradingAtTime (windowsOf token) moment none = .ok trading ∧
      (trading = true ↔
        Text.trimChars token.toList = alwaysOpenToken.toList ∨
        ∃ f ∈ scan token.toList, f.isWindow = true ∧ f.TradesAt moment)) ∧
    (∀ w ∈ windowsOf token, w.Normal) ∧
    if Text.trimChars token.toList = alwaysOpenToken.toList then windowsOf token = [.always]
    else List.Forall₂ Window.StandsFor ((scan token.toList).filter Fragment.isWindow)
      (windowsOf token) := by
  by_cases halways : Text.trimChars token.toList = alwaysOpenToken.toList
  · refine ⟨⟨true, ?_, by simp [halways]⟩, fun w hw => normal_of_mem_windowsOf hw, ?_⟩
    · rw [windowsOf_of_eq halways]
      rfl
    · rw [if_pos halways, windowsOf_of_eq halways]
  · have hall := forall₂_windowsOf halways
    refine ⟨⟨openAt (windowsOf token) moment, rfl, ?_⟩, fun w hw => normal_of_mem_windowsOf hw, ?_⟩
    · rw [openAt_iff_of_forall₂ hall]
      simp only [halways, false_or, List.mem_filter, and_assoc]
    · rw [if_neg halways]
      exact hall

end TradingHours.Schedule
