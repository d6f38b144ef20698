import TradingHours.Proofs.Clock.Minute
import TradingHours.Proofs.Schedule.Latch
import TradingHours.Proofs.Schedule.TokenMeaning
/-!
When an open market stays open while its schedule trades. The latch never samples the instant itself,
so a session that is over within a grace and began within a grace is missed; one of at least two
graces never is. Main statement: `staysOpen_while_trading`.
-/
namespace TradingHours

def Instant.InReach (t : Instant) (s : Span) : Prop :=
  (∃ m, t.sample s = .ok m) ∧ ∃ m, t.sample (-s) = .ok m

namespace Schedule

namespace Window

def duration (w : Window) : Nat :=
  if w.coversDay || (w.overnight && w.start < w.finish) then microsPerDay
  else if w.overnight then microsPerDay + w.finish.micros - w.start.micros
  else w.finish.micros - w.start.micros

/-- From every moment in a window that lasts at least two steps, one step ahead or one step behind
leads to a moment in it. -/
theorem contains_step {w : Window} {m a b : TimeOfDay} {step : Nat} (hm : w.contains m = true)
    (hlong : 2 * step ≤ w.duration) (ha : (a.micros : Int) = (m.micros + (step : Int)) % microsPerDay)
    (hb : (b.micros : Int) = (m.micros + -(step : Int)) % microsPerDay) :
    w.contains a = true ∨ w.contains b = true := by
  have hmlt := m.micros_lt
  have hslt := w.start.micros_lt
  have helt := w.finish.micros_lt
  cases hc : w.coversDay with
  | true => simp [contains, hc]
  | false =>
    cases ho : w.overnight with
    | true =>
      rw [contains_overnight_iff hc ho] at hm ⊢
      rw [contains_overnight_iff hc ho]
      have hdur : w.duration ≤
          if w.start.micros < w.finish.micros then microsPerDay
          else microsPerDay + w.finish.micros - w.start.micros := by
        simp only [duration, hc, ho, Bool.false_or, Bool.true_and, if_true, decide_eq_true_eq]
        exact Nat.le_refl _
      simp only [microsPerDay, microsPerMinute, microsPerSecond] at *
      split at hdur <;> omega
    | false =>
      rw [contains_daytime_iff hc ho] at hm ⊢
      rw [contains_daytime_iff hc ho]
      have hdur : w.duration = w.finish.micros - w.start.micros := by
        simp [duration, hc, ho]
      simp only [microsPerDay, microsPerMinute, microsPerSecond] at *
      omega

theorem Normal.contains_minute {w : Window} (hw : w.Normal) {m : TimeOfDay} {k : Nat}
    (hk : m.micros / microsPerMinute = k % 1440) :
    w.contains m = w.contains (.ofMinutes k) := by
  obtain ⟨⟨i, -, hi⟩, ⟨j, -, hj⟩, -⟩ := hw
  have hmk : (TimeOfDay.ofMinutes k).micros = k % 1440 * microsPerMinute := rfl
  have hstart : w.start ≤ m ↔ w.start ≤ .ofMinutes k := by
    change w.start.micros ≤ m.micros ↔ w.start.micros ≤ (TimeOfDay.ofMinutes k).micros
    rw [hmk, hi]
    simp only [microsPerMinute, microsPerSecond] at *
    omega
  have hfinish : m < w.finish ↔ .ofMinutes k < w.finish := by
    change m.micros < w.finish.micros ↔ (TimeOfDay.ofMinutes k).micros < w.finish.micros
    rw [hmk, hj]
    simp only [microsPerMinute, microsPerSecond] at *
    omega
  simp only [contains, hstart, hfinish]

end Window

theorem normal_of_mem_windowsOf? {token : Option String} {w : Window} (hw : w ∈ windowsOf? token) :
    w.Normal := by
  cases token with
  | none => simp [windowsOf?] at hw
  | some token => exact normal_of_mem_windowsOf (by simpa [windowsOf?] using hw)

def tradesAtMinute (windows : List Window) (i : Nat) : Bool := openAt windows (.ofMinutes i)

theorem openAt_minute {windows : List Window} (hw : ∀ w ∈ windows, w.Normal) {m : TimeOfDay}
    {k : Nat} (hk : m.micros / microsPerMinute = k % 1440) :
    openAt windows m = tradesAtMinute windows k := by
  induction windows with
  | nil => simp [openAt, tradesAtMinute]
  | cons w windows ih =>
    have hhead := (hw w List.mem_cons_self).contains_minute hk
    have htail := ih fun v hv => hw v (List.mem_cons_of_mem w hv)
    simp only [openAt, tradesAtMinute, List.any_cons] at htail ⊢
    rw [hhead, htail]

theorem openAt_step {windows : List Window} {w : Window} {m a b : TimeOfDay} {step : Nat}
    (hw : w ∈ windows) (hm : w.contains m = true) (hlong : 2 * step ≤ w.duration)
    (ha : (a.micros : Int) = (m.micros + (step : Int)) % microsPerDay)
    (hb : (b.micros : Int) = (m.micros + -(step : Int)) % microsPerDay) :
    openAt windows a = true ∨ openAt windows b = true := by
  rcases Window.contains_step hm hlong ha hb with h | h
  · exact .inl (List.any_eq_true.2 ⟨w, hw, h⟩)
  · exact .inr (List.any_eq_true.2 ⟨w, hw, h⟩)

section

variable {windows : List Window} {now : Instant} {m a b : TimeOfDay} {g : Span}

/-- An open market stays open exactly if the schedule trades at one of the two samples. -/
theorem nextState_open_iff (hne : windows ≠ []) (ha : now.sample g = .ok a)
    (hb : now.sample (-g) = .ok b) :
    nextState windows now (some true) none g = .ok true ↔
      openAt windows a = true ∨ openAt windows b = true := by
  rw [nextState_eq hne _ ha hb]
  simp [held]

end

section Minutes

variable {m a b : TimeOfDay} {g : Nat}

theorem minute_ahead (ha : (a.micros : Int) = (m.micros + spanOfMinutes g) % microsPerDay) :
    a.micros / microsPerMinute = (m.micros / microsPerMinute + g) % 1440 := by
  simp only [spanOfMinutes, microsPerDay, microsPerMinute, microsPerSecond] at *
  omega

theorem minute_behind (hg : g ≤ 1440)
    (hb : (b.micros : Int) = (m.micros + -spanOfMinutes g) % microsPerDay) :
    b.micros / microsPerMinute = (m.micros / microsPerMinute + (1440 - g)) % 1440 := by
  simp only [spanOfMinutes, microsPerDay, microsPerMinute, microsPerSecond] at *
  omega

theorem inReach_minute {d : Day} (hfirst : 0 < d.index) (hlast : d.index + 1 < dayCount)
    (hg : g ≤ 1440) (i : Nat) : (d.minute i).InReach (spanOfMinutes g) := by
  have hm := (TimeOfDay.ofMinutes i).micros_lt
  constructor <;> rw [Instant.exists_sample_iff] <;>
    simp only [Day.minute, Instant.ofDay, spanOfMinutes, calendarMicros, dayCount, microsPerDay,
      microsPerMinute, microsPerSecond, Option.getD_some] at * <;>
    omega

def midMinute (i : Nat) : Instant := .ofDay ⟨739620, by decide⟩ (.ofMinutes i) (some 0)

theorem inReach_midMinute (i : Nat) (hg : g ≤ 60) : (midMinute i).InReach (spanOfMinutes g) :=
  inReach_minute (by decide) (by decide) (Nat.le_trans hg (by decide)) i

end Minutes

theorem ne_nil_of_isTrading {windows : List Window} {now : Instant}
    (h : isTrading windows now = .ok true) : windows ≠ [] := by
  rintro rfl
  simp [isTrading] at h

theorem exists_moment_of_isTrading {windows : List Window} {now : Instant}
    (h : isTrading windows now = .ok true) :
    ∃ m, now.utcTimeOfDay = .ok m ∧ openAt windows m = true := by
  have hne := ne_nil_of_isTrading h
  cases hm : now.utcTimeOfDay with
  | error e => simp [isTrading, hne, hm, Except.map] at h
  | ok m => exact ⟨m, rfl, by simpa [isTrading, hne, hm, Except.map] using h⟩

/-- An open market stays open at every instant of a window that lasts at least two graces. At all
instants at which its schedule trades it stays open exactly if each trading minute of the day has
another one a grace later or a grace earlier, around the clock. -/
theorem staysOpen_while_trading (token : Option String) {g : Nat} (hg : g ≤ 60) :
    (∀ now m, now.utcTimeOfDay = .ok m → now.InReach (spanOfMinutes g) →
      (∃ w ∈ windowsOf? token, w.contains m = true ∧ 2 * (g * microsPerMinute) ≤ w.duration) →
      nextState (windowsOf? token) now (some true) none (spanOfMinutes g) = .ok true) ∧
    ((∀ now, isTrading (windowsOf? token) now = .ok true → now.InReach (spanOfMinutes g) →
        nextState (windowsOf? token) now (some true) none (spanOfMinutes g) = .ok true) ↔
      ∀ i < 1440, tradesAtMinute (windowsOf? token) i = true →
        tradesAtMinute (windowsOf? token) (i + g) = true ∨
          tradesAtMinute (windowsOf? token) (i + (1440 - g)) = true) := by
  have hnormal : ∀ w ∈ windowsOf? token, w.Normal := fun w hw => normal_of_mem_windowsOf? hw
  refine ⟨?_, ?_, ?_⟩
  · rintro now m hm ⟨⟨a, ha⟩, b, hb⟩ ⟨w, hw, hin, hlong⟩
    rw [nextState_open_iff (List.ne_nil_of_mem hw) ha hb]
    have hstep : spanOfMinutes g = ((g * microsPerMinute : Nat) : Int) := by simp [spanOfMinutes]
    have ha' := Instant.sample_micros hm ha
    have hb' := Instant.sample_micros hm hb
    rw [hstep] at ha' hb'
    exact openAt_step hw hin hlong ha' hb'
  · intro h i hi htrades
    -- one instant within a minute decides for all of them, since windows consist of whole minutes
    have hm : (midMinute i).utcTimeOfDay = .ok (.ofMinutes i) := Instant.utcTimeOfDay_ofDay _ _
    obtain ⟨⟨a, ha⟩, b, hb⟩ := inReach_midMinute i hg
    have hne : windowsOf? token ≠ [] := by
      intro hnil
      simp [tradesAtMinute, openAt, hnil] at htrades
    have htrading : isTrading (windowsOf? token) (midMinute i) = .ok true := by
      rw [isTrading_eq hne hm]
      exact congrArg _ htrades
    have hstays := h (midMinute i) htrading (inReach_midMinute i hg)
    rw [nextState_open_iff hne ha hb] at hstays
    have hmin : (TimeOfDay.ofMinutes i).micros / microsPerMinute = i := by
      simp only [TimeOfDay.ofMinutes, microsPerMinute, microsPerSecond]
      omega
    have hahead := minute_ahead (Instant.sample_micros hm ha)
    have hbehind := minute_behind (by omega) (Instant.sample_micros hm hb)
    rw [hmin] at hahead hbehind
    rwa [openAt_minute hnormal hahead, openAt_minute hnormal hbehind] at hstays
  · rintro h now htrading ⟨⟨a, ha⟩, b, hb⟩
    obtain ⟨m, hm, hopen⟩ := exists_moment_of_isTrading htrading
    rw [nextState_open_iff (ne_nil_of_isTrading htrading) ha hb]
    have hmin : m.micros / microsPerMinute < 1440 := by
      have := m.micros_lt
      simp only [microsPerDay, microsPerMinute, microsPerSecond] at *
      omega
    rw [openAt_minute hnormal (minute_ahead (Instant.sample_micros hm ha)),
      openAt_minute hnormal (minute_behind (by omega) (Instant.sample_micros hm hb))]
    apply h _ hmin
    rw [← openAt_minute hnormal (Nat.mod_eq_of_lt hmin).symm]
    exact hopen

theorem staysOpen_late_in_session :
    nextState (windowsOf? (some "09301600")) (midMinute 958) (some true) none (spanOfMinutes 5) =
      .ok true := by
  have hwindows : windowsOf? (some "09301600") =
      [⟨.ofMinutes 570, .ofMinutes 960, false, false⟩] := by decide +kernel
  refine (staysOpen_while_trading (some "09301600") (g := 5) (by decide)).1 (midMinute 958)
    (.ofMinutes 958) (Instant.utcTimeOfDay_ofDay _ _) (inReach_midMinute 958 (by decide)) ?_
  rw [hwindows]
  exact ⟨_, List.mem_singleton_self _, by decide, by decide⟩

/-- A window of one minute is over before the sample ahead and begins after the sample behind. -/
theorem closes_inside_short_window :
    (midMinute 570).InReach (spanOfMinutes 5) ∧
      isTrading (windowsOf? (some "p09300931")) (midMinute 570) = .ok true ∧
      nextState (windowsOf? (some "p09300931")) (midMinute 570) (some true) none (spanOfMinutes 5) =
        .ok false := by
  have hreach : (midMinute 570).InReach (spanOfMinutes 5) :=
    inReach_midMinute 570 (g := 5) (by decide)
  have hwindows : windowsOf? (some "p09300931") =
      [⟨.ofMinutes 570, .ofMinutes 571, false, false⟩] := by decide +kernel
  have hm : (midMinute 570).utcTimeOfDay = .ok (.ofMinutes 570) := Instant.utcTimeOfDay_ofDay _ _
  have hnormal : ∀ w ∈ windowsOf? (some "p09300931"), w.Normal :=
    fun w hw => normal_of_mem_windowsOf? hw
  refine ⟨hreach, ?_, ?_⟩
  · rw [hwindows, isTrading_eq (by simp) hm]
    exact congrArg _ (by decide)
  · obtain ⟨⟨a, ha⟩, b, hb⟩ := hreach
    have hahead := minute_ahead (g := 5) (Instant.sample_micros hm ha)
    have hbehind := minute_behind (g := 5) (by decide) (Instant.sample_micros hm hb)
    rw [nextState_eq (by simp [hwindows]) _ ha hb, openAt_minute hnormal hahead,
      openAt_minute hnormal hbehind, hwindows]
    exact congrArg _ (by decide)

end Schedule

end TradingHours
