import TradingHours.Proofs.Clock.Shift
/-!
The minutes of a day as instants, and what a UTC clock shows a span after one of them.
-/
namespace TradingHours

def Day.minute (d : Day) (i : Nat) : Instant := .ofDay d (.ofMinutes i) (some 0)

theorem Day.minute_mod (d : Day) (i : Nat) : d.minute (i % 1440) = d.minute i := by
  simp only [minute, TimeOfDay.ofMinutes, Nat.mod_mod]

theorem Day.minute_wrap (d : Day) : d.minute minutesPerDay = d.minute 0 := by
  rw [← minute_mod, minutesPerDay, Nat.mod_self]

theorem mapM_eq_pure {m : Type → Type} [Monad m] [LawfulMonad m] {α β : Type} {f : α → m β}
    {g : α → β} {l : List α} (h : ∀ a ∈ l, f a = pure (g a)) : l.mapM f = pure (l.map g) := by
  induction l with
  | nil => rfl
  | cons a l ih =>
    have hl : l.mapM f = pure (l.map g) := ih fun b hb => h b (List.mem_cons_of_mem a hb)
    rw [List.mapM_cons, h a List.mem_cons_self, pure_bind, hl, pure_bind, List.map_cons]

theorem shift?_startOfDay (d : Day) {i : Nat} (hi : i < minutesPerDay) :
    (Instant.startOfDay d).shift? (i * microsPerMinute : Nat) = some (d.minute i) := by
  have hmod : i % 1440 = i := Nat.mod_eq_of_lt hi
  rw [Instant.shift?, Instant.ofWall?_eq_some_iff]
  simp [Instant.startOfDay, Day.minute, Instant.ofDay, TimeOfDay.midnight, TimeOfDay.ofMinutes, hmod]

theorem minuteGrid_eq (d : Day) : minuteGrid d minutesPerDay =
    .ok ((List.range minutesPerDay).map d.minute) := by
  rw [minuteGrid, inCalendar_eq_ok_iff, minuteGrid?]
  exact mapM_eq_pure fun i hi => shift?_startOfDay d (List.mem_range.1 hi)

theorem sample_minute {d : Day} {i : Nat} {s : Span} {m : TimeOfDay}
    (h : (d.minute i).sample s = .ok m) :
    (m.micros : Int) = ((i * microsPerMinute : Nat) + s) % microsPerDay := by
  rw [Instant.sample_micros (Instant.utcTimeOfDay_ofDay d (.ofMinutes i)) h]
  simp only [TimeOfDay.ofMinutes, microsPerDay, microsPerMinute, microsPerSecond]
  omega

end TradingHours
