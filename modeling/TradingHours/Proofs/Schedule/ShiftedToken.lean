import TradingHours.Proofs.Schedule.Transitions
import TradingHours.Proofs.Schedule.WrittenWindows
/-!
Tokens that are shifted by a minute. What a shifted token trades comes a minute later, so its latch
sees at each minute what the latch of the token saw at the minute before; a latch that shows the
same states all the same is one that never changes its state. Main statement:
`tokenVector_shifted_ne`.
-/
namespace TradingHours.Schedule

section Latch

variable {ahead behind ahead' behind' : Nat → Bool} {previous previous' : Bool} {n : Nat}

/-- A latch whose samples come one step later and that shows the same states shows one state. The
sample behind counts only if the one ahead is idle. -/
theorem latchedAt_of_delayed (hahead : ∀ i, i + 1 < n → ahead' (i + 1) = ahead i)
    (hbehind : ∀ i, i + 1 < n → ahead i = false → behind' (i + 1) = behind i)
    (hsame : ∀ i < n, latchedAt ahead' behind' previous' i = latchedAt ahead behind previous i)
    {i : Nat} (hi : i < n) :
    latchedAt ahead behind previous i = latchedAt ahead behind previous 0 := by
  induction i with
  | zero => rfl
  | succ i ih =>
    -- the delayed latch makes its next state from the samples that made this one
    have hnext : latchedAt ahead behind previous (i + 1) =
        (ahead i || (behind' (i + 1) && latchedAt ahead behind previous i)) := by
      rw [← hsame (i + 1) hi, latchedAt, hahead i hi, hsame i (by omega)]
    rw [← ih (by omega), hnext]
    cases ha : ahead i with
    | true => rw [latchedAt_of_ahead ha, Bool.true_or]
    | false =>
      rw [hbehind i hi ha, Bool.false_or]
      cases hb : behind i with
      | true => rw [Bool.true_and]
      | false =>
        have hidle : latchedAt ahead behind previous i = false := by
          cases i <;> simp [latchedAt, ha, hb]
        rw [hidle, Bool.and_false]

end Latch

theorem countTransitions_of_constant {f : Nat → Bool} {n : Nat} (h : ∀ i < n, f i = f 0) :
    countTransitions ((List.range n).map f) = 0 := by
  have hconst : (List.range n).map f = List.replicate n (f 0) := by
    rw [List.eq_replicate_iff, List.length_map, List.length_range]
    refine ⟨rfl, fun b hb => ?_⟩
    obtain ⟨i, hi, rfl⟩ := List.mem_map.1 hb
    exact h i (List.mem_range.1 hi)
  rw [hconst, countTransitions_replicate]

/-- What the second schedule trades is what the first one trades a minute before. -/
def MinuteLater (windows later : List Window) : Prop :=
  ∀ m m' : TimeOfDay, (m'.micros : Int) = (m.micros + (microsPerMinute : Int)) % microsPerDay →
    openAt later m' = openAt windows m

section Day

variable {windows later : List Window} {d : Day} {g : Span} {previous : Option Bool}

theorem Decided.sample_behind {t : Instant} (hne : windows ≠ []) (h : Decided windows g t)
    (hahead : tradesAfter windows g t = false) : ∃ b, t.sample (-g) = .ok b := by
  obtain ⟨ahead, ha, hset | ⟨behind, hb⟩⟩ := h
  · rw [tradesAfter_eq ha, hset] at hahead
    exact Bool.noConfusion hahead
  · rw [tradingAfter_eq hne] at hb
    cases hsample : t.sample (-g) with
    | error e => simp [hsample, Except.map] at hb
    | ok b => exact ⟨b, rfl⟩

theorem sample_minute_succ {i : Nat} {s : Span} {m m' : TimeOfDay}
    (h : (d.minute i).sample s = .ok m) (h' : (d.minute (i + 1)).sample s = .ok m') :
    (m'.micros : Int) = (m.micros + (microsPerMinute : Int)) % microsPerDay := by
  rw [sample_minute h, sample_minute h']
  simp only [microsPerDay, microsPerMinute, microsPerSecond]
  omega

theorem tradesAfter_succ {i : Nat} {s : Span} {m m' : TimeOfDay} (hne : windows ≠ [])
    (hne' : later ≠ []) (hlater : MinuteLater windows later)
    (h : (d.minute i).sample s = .ok m) (h' : (d.minute (i + 1)).sample s = .ok m') :
    tradesAfter later s (d.minute (i + 1)) = tradesAfter windows s (d.minute i) := by
  rw [tradesAfter_of_sample hne h, tradesAfter_of_sample hne' h']
  exact hlater m m' (sample_minute_succ h h')

theorem dayState_of_minuteLater (hne : windows ≠ []) (hne' : later ≠ [])
    (hlater : MinuteLater windows later)
    (hdecided : ∀ i < minutesPerDay, Decided windows g (d.minute i))
    (hdecided' : ∀ i < minutesPerDay, Decided later g (d.minute i))
    (hsame : ∀ i < minutesPerDay,
      dayState later g d previous i = dayState windows g d previous i) :
    ∀ i < minutesPerDay, dayState windows g d previous i = dayState windows g d previous 0 := by
  have hahead : ∀ i, i + 1 < minutesPerDay →
      tradesAfter later g (d.minute (i + 1)) = tradesAfter windows g (d.minute i) := by
    intro i hi
    obtain ⟨m, hm⟩ := (hdecided i (by omega)).sample_ahead hne
    obtain ⟨m', hm'⟩ := (hdecided' (i + 1) hi).sample_ahead hne'
    exact tradesAfter_succ hne hne' hlater hm hm'
  have hbehind : ∀ i, i + 1 < minutesPerDay → tradesAfter windows g (d.minute i) = false →
      tradesAfter later (-g) (d.minute (i + 1)) = tradesAfter windows (-g) (d.minute i) := by
    intro i hi hidle
    obtain ⟨m, hm⟩ := (hdecided i (by omega)).sample_behind hne hidle
    obtain ⟨m', hm'⟩ := (hdecided' (i + 1) hi).sample_behind hne' ((hahead i hi).trans hidle)
    exact tradesAfter_succ hne hne' hlater hm hm'
  exact fun i hi => latchedAt_of_delayed hahead hbehind hsame hi

/-- A schedule that is always open changes no state. -/
theorem dayState_of_always (hne : windows ≠ []) (halways : ∀ m, openAt windows m = true)
    (hdecided : ∀ i < minutesPerDay, Decided windows g (d.minute i)) :
    ∀ i < minutesPerDay, dayState windows g d previous i = true := by
  intro i hi
  obtain ⟨m, hm⟩ := (hdecided i hi).sample_ahead hne
  exact latchedAt_of_ahead (by rw [tradesAfter_of_sample hne hm, halways])

theorem countTransitions_of_minuteLater {states : List Bool} (hne : windows ≠ [])
    (hne' : later ≠ []) (hlater : MinuteLater windows later)
    (hdecided : ∀ i < minutesPerDay, Decided windows g (d.minute i))
    (hdecided' : ∀ i < minutesPerDay, Decided later g (d.minute i))
    (hstates : states = (List.range minutesPerDay).map (dayState windows g d previous))
    (hstates' : states = (List.range minutesPerDay).map (dayState later g d previous)) :
    countTransitions states = 0 := by
  have hsame : ∀ i < minutesPerDay,
      dayState later g d previous i = dayState windows g d previous i := fun i hi =>
    List.map_inj_left.1 (hstates'.symm.trans hstates) i (List.mem_range.2 hi)
  rw [hstates]
  exact countTransitions_of_constant
    (dayState_of_minuteLater hne hne' hlater hdecided hdecided' hsame)

theorem countTransitions_of_always {states : List Bool} (hne : windows ≠ [])
    (halways : ∀ m, openAt windows m = true)
    (hdecided : ∀ i < minutesPerDay, Decided windows g (d.minute i))
    (hstates : states = (List.range minutesPerDay).map (dayState windows g d previous)) :
    countTransitions states = 0 := by
  have hopen : ∀ i < minutesPerDay, dayState windows g d previous i = true :=
    dayState_of_always hne halways hdecided
  rw [hstates]
  exact countTransitions_of_constant fun i hi => (hopen i hi).trans (hopen 0 (by decide)).symm

end Day

section Token

variable {ws : List WrittenWindow} {d : Day} {g : Span} {previous : Option Bool}
  {states : List Bool} {k : Int}

theorem tokenVector_some_eq_ok_iff {token : String} (hne : windowsOf token ≠ []) :
    tokenVector (some token) d previous g = .ok states ↔
      (∀ i < minutesPerDay, Decided (windowsOf token) g (d.minute i)) ∧
        states = (List.range minutesPerDay).map (dayState (windowsOf token) g d previous) := by
  have hsome : windowsOf? (some token) = windowsOf token := rfl
  rw [← hsome] at hne ⊢
  exact tokenVector_eq_ok_iff hne

theorem countTransitions_of_shifted (hk : k = 1 ∨ k = -1) (hne : ws ≠ [])
    (h : tokenVector (some (writtenToken ws)) d previous g = .ok states)
    (h' : tokenVector (some (writtenToken (ws.map (·.shifted k)))) d previous g = .ok states) :
    countTransitions states = 0 := by
  have hwindows : windowsOf (writtenToken ws) ≠ [] := windowsOf_writtenToken_ne_nil hne
  have hwindows' : windowsOf (writtenToken (ws.map (·.shifted k))) ≠ [] :=
    windowsOf_writtenToken_ne_nil (by simpa using hne)
  obtain ⟨hdecided, hstates⟩ := (tokenVector_some_eq_ok_iff hwindows).1 h
  obtain ⟨hdecided', hstates'⟩ := (tokenVector_some_eq_ok_iff hwindows').1 h'
  by_cases hcovers : ∃ w ∈ ws, w.CoversDay
  · obtain ⟨w, hw, hcovers⟩ := hcovers
    exact countTransitions_of_always hwindows (openAt_of_coversDay hw hcovers) hdecided hstates
  by_cases hcovers' : ∃ w ∈ ws, (w.shifted k).CoversDay
  · obtain ⟨w, hw, hcovers'⟩ := hcovers'
    exact countTransitions_of_always hwindows'
      (openAt_of_coversDay (List.mem_map_of_mem hw) hcovers') hdecided' hstates'
  -- no window covers the day, so one of the two tokens trades what the other does a minute later
  have hmoves : ∀ m m' : TimeOfDay,
      (m'.micros : Int) = (m.micros + k * microsPerMinute) % microsPerDay →
      openAt (windowsOf (writtenToken (ws.map (·.shifted k)))) m' =
        openAt (windowsOf (writtenToken ws)) m := fun m m' hm =>
    openAt_shifted (fun w hw hc => hcovers ⟨w, hw, hc⟩) (fun w hw hc => hcovers' ⟨w, hw, hc⟩) hm
  rcases hk with rfl | rfl
  · refine countTransitions_of_minuteLater hwindows hwindows' ?_ hdecided hdecided' hstates hstates'
    exact fun m m' hm => hmoves m m' (by rwa [one_mul])
  · refine countTransitions_of_minuteLater hwindows' hwindows ?_ hdecided' hdecided hstates' hstates
    intro m m' hm
    have hlt := m.micros_lt
    refine (hmoves m' m ?_).symm
    rw [hm]
    simp only [microsPerDay, microsPerMinute, microsPerSecond] at hlt ⊢
    omega

/-- A token whose states change over a day has other states when it is shifted by a minute, either
way. -/
theorem tokenVector_shifted_ne (h : tokenVector (some (writtenToken ws)) d previous g = .ok states)
    (hchange : countTransitions states ≠ 0) :
    tokenVector (some (writtenToken (ws.map (·.shifted 1)))) d previous g ≠ .ok states ∧
      tokenVector (some (writtenToken (ws.map (·.shifted (-1))))) d previous g ≠ .ok states := by
  have hne : ws ≠ [] := by
    rintro rfl
    have hempty : windowsOf? (some (writtenToken [])) = [] := by decide +kernel
    rw [tokenVector_of_nil hempty] at h
    rw [← Except.ok.inj h, countTransitions_replicate] at hchange
    exact hchange rfl
  exact ⟨fun h' => hchange (countTransitions_of_shifted (.inl rfl) hne h h'),
    fun h' => hchange (countTransitions_of_shifted (.inr rfl) hne h h')⟩

def lastMinute : WrittenWindow := ⟨some '-', .ofMinutes 1439, .ofMinutes 0, by
  rintro _ ⟨⟩
  decide⟩

example : writtenToken [lastMinute] = "-23590000" := by decide +kernel

example : writtenToken [lastMinute.shifted 1] = "-00000001" := by decide +kernel

/-- The last minute of the day opens the market for a minute, a grace before it. The window that
comes a minute later covers the whole day. -/
theorem tokenVector_lastMinute_shifted : ∃ states,
    tokenVector (some (writtenToken [lastMinute])) ⟨739620, by decide⟩ none (spanOfMinutes 5) =
      .ok states ∧ countTransitions states = 2 ∧
    tokenVector (some (writtenToken [lastMinute.shifted 1])) ⟨739620, by decide⟩ none
      (spanOfMinutes 5) ≠ .ok states ∧
    tokenVector (some (writtenToken [lastMinute.shifted (-1)])) ⟨739620, by decide⟩ none
      (spanOfMinutes 5) ≠ .ok states := by
  have hcount : ((tokenVector (some (writtenToken [lastMinute])) ⟨739620, by decide⟩ none
      (spanOfMinutes 5)).map countTransitions).toOption = some 2 := by decide +kernel
  cases hstates : tokenVector (some (writtenToken [lastMinute])) ⟨739620, by decide⟩ none
      (spanOfMinutes 5) with
  | error e =>
    rw [hstates] at hcount
    cases hcount
  | ok states =>
    rw [hstates] at hcount
    have htwo : countTransitions states = 2 := Option.some.inj hcount
    have hchange : countTransitions states ≠ 0 := by
      rw [htwo]
      decide
    have hdiffer := tokenVector_shifted_ne hstates hchange
    rw [List.map_singleton, List.map_singleton] at hdiffer
    exact ⟨states, rfl, htwo, hdiffer⟩

end Token

end TradingHours.Schedule
