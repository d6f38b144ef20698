import TradingHours.Proofs.Disk.Takeable
import TradingHours.Proofs.Output.MinuteColumns
import TradingHours.Proofs.Output.WrittenLines
import TradingHours.Proofs.Resolution.Straying
import TradingHours.Proofs.Table
/-!
Writing the reference files of many keys, as one turn for each key. A turn whose file is refused is
counted out and the next one follows, but a vector that strays from the calendar and a path with a
NUL end the whole work.
-/
namespace TradingHours.Output.Golden

open Disk (Path)
open Schedule (tokenVector windowsOf)

variable {g : Golden} {d : Day} {tvKey token : String} {tokens : Source.Tokens} {w w' : World}

section Turns

def counted (tvKey token : String) (work : Work Written) : Work Nat :=
  tryCatch (do let _ ← work; pure 1) fun failure =>
    match failure with
    | .incident ⟨message, .outputWrite _ _, _⟩ => do
      Work.note {
        logger := Outlet.golden.logger
        level := .warning
        event := "Golden vector write failed"
        fields := [("tv_key", .text tvKey), ("token", .text token), ("error", .text message)] }
      pure 0
    | _ => throw failure

def attempt (g : Golden) (d : Day) (tvKey token : String) : Work Nat :=
  counted tvKey token (g.writeToken tvKey token d)

theorem writeInOrder_cons (rest : Source.Tokens) :
    g.writeInOrder d ((tvKey, token) :: rest) = do
      let one ← g.attempt d tvKey token
      return one + (← g.writeInOrder d rest) := rfl

/-- The results of writing keys in order, each one in the world that the turns before it left. -/
def turns (g : Golden) (d : Day) : World → Source.Tokens → List (String × Except Failure Written)
  | _, [] => []
  | w, (tvKey, token) :: rest =>
    (tvKey, (exec (g.writeToken tvKey token d) w).1) ::
      g.turns d (exec (g.attempt d tvKey token) w).2 rest

/-- The failure of a turn that ends the work: anything but a file that is refused. -/
def stop? : Except Failure Written → Option Failure
  | .ok _ => none
  | .error (.incident ⟨_, .outputWrite _ _, _⟩) => none
  | .error failure => some failure

def tally (result : Except Failure Written) : Except Failure Nat :=
  match stop? result with
  | some failure => .error failure
  | none => .ok (if result.isOk then 1 else 0)

def ending (turns : List (String × Except Failure Written)) : Except Failure Nat :=
  match turns.findSome? fun turn => stop? turn.2 with
  | some failure => .error failure
  | none => .ok (turns.countP (·.2.isOk))

def inOrder (tokens : Source.Tokens) : Source.Tokens := tokens.mergeSort fun a b => a.1 ≤ b.1

theorem exec_counted_fst (work : Work Written) :
    (exec (counted tvKey token work) w).1 = tally (exec work w).1 := by
  rw [counted, exec_tryCatch]
  cases hr : exec work w with
  | mk result w₁ =>
    cases result with
    | ok written =>
      rw [exec_bind_ok hr, exec_pure]
      rfl
    | error failure =>
      rw [exec_bind_error hr]
      dsimp only
      split
      · next message path market context =>
        rw [exec_bind_ok exec_note, exec_pure]
        rfl
      · next hother =>
        have hstop : stop? (.error failure) = some failure := by
          unfold stop?
          split
          · next heq => cases heq
          · next heq => exact absurd (Except.error.inj heq) (hother _ _ _ _)
          · next heq => rw [Except.error.inj heq]
        rw [tally, hstop, exec_throw]

theorem ending_cons (tvKey : String) (result : Except Failure Written)
    (rest : List (String × Except Failure Written)) :
    ending ((tvKey, result) :: rest) =
      tally result >>= fun one => (ending rest).map (one + ·) := by
  rw [ending, List.findSome?_cons, tally]
  cases stop? result with
  | some failure => rfl
  | none =>
    rw [ending, List.countP_cons, Nat.add_comm]
    cases List.findSome? (fun turn => stop? turn.2) rest <;> rfl

/-- One turn and the rest. -/
theorem exec_turn_fst {one more : Work Nat} {result : Except Failure Written}
    {rest : World → Except Failure Nat} (hone : (exec one w).1 = tally result)
    (hrest : ∀ w, (exec more w).1 = rest w) :
    (exec (do
        let first ← one
        return first + (← more)) w).1 =
      tally result >>= fun first => (rest (exec one w).2).map (first + ·) := by
  rw [← hone, exec_bind]
  cases hr : exec one w with
  | mk count w₁ =>
    cases count with
    | error failure => rfl
    | ok count =>
      dsimp only
      rw [← hrest, exec_bind]
      cases exec more w₁ with
      | mk total w₂ => cases total <;> rfl

/-- The work ends as its turns say. -/
theorem exec_writeInOrder_fst (tokens : Source.Tokens) (w : World) :
    (exec (g.writeInOrder d tokens) w).1 = ending (g.turns d w tokens) := by
  induction tokens generalizing w with
  | nil => rfl
  | cons pair rest ih =>
    obtain ⟨tvKey, token⟩ := pair
    have hone : (exec (g.attempt d tvKey token) w).1 =
        tally (exec (g.writeToken tvKey token d) w).1 := by
      rw [attempt, exec_counted_fst]
    rw [writeInOrder_cons, turns, ending_cons, exec_turn_fst hone ih]

end Turns

section Stops

def Strays (g : Golden) (d : Day) (token : String) : Prop :=
  windowsOf token ≠ [] ∧
    ∃ i < minutesPerDay, Schedule.Strays (windowsOf token) g.grace (d.minute i)

/-- Nothing strays on a day whose minutes stay in the calendar with the grace around them. -/
theorem not_strays_of_inReach (h : ∀ i < minutesPerDay, (d.minute i).InReach g.grace) :
    ¬ g.Strays d token := by
  rintro ⟨-, i, hi, hstrays⟩
  obtain ⟨hahead, hbehind⟩ := h i hi
  rcases hstrays with hstrays | ⟨-, hstrays⟩
  · exact hstrays (Instant.exists_sample_iff.1 hahead)
  · exact hstrays (Instant.exists_sample_iff.1 hbehind)

theorem exec_writeToken_of_strays (h : g.Strays d token) (tvKey : String) (w : World) :
    exec (g.writeToken tvKey token d) w = (.error .dateOutOfRange, w) :=
  exec_writeToken_of_error (Schedule.tokenVector_eq_error_iff.2 ⟨rfl, h⟩)

theorem exec_counted_of_dateOutOfRange {work : Work Written}
    (h : exec work w = (.error .dateOutOfRange, w')) :
    exec (counted tvKey token work) w = (.error .dateOutOfRange, w') := by
  rw [counted, exec_tryCatch, exec_bind_error h]
  exact exec_throw _ _

theorem exec_attempt_of_strays (h : g.Strays d token) (tvKey : String) (w : World) :
    exec (g.attempt d tvKey token) w = (.error .dateOutOfRange, w) := by
  rw [attempt, exec_counted_of_dateOutOfRange (exec_writeToken_of_strays h tvKey w)]

/-- A turn ends the work only if its vector strays, or if its path holds a NUL. -/
theorem stop?_writeToken {failure : Failure}
    (h : stop? (exec (g.writeToken tvKey token d) w).1 = some failure) :
    failure = .dateOutOfRange ∧ g.Strays d token ∨
      failure = .disk .embeddedNul ∧ (g.path tvKey d).hasNul = true := by
  cases hvector : tokenVector (some token) d none g.grace with
  | error e =>
    obtain ⟨rfl, hstrays⟩ := Schedule.tokenVector_eq_error_iff.1 hvector
    rw [exec_writeToken_of_error hvector] at h
    cases h
    exact .inl ⟨rfl, hstrays⟩
  | ok states =>
    obtain ⟨lines, -, -, hwrite⟩ := exec_writeToken_of_ok hvector
    rw [hwrite, exec_writeLines_fst] at h
    cases hcall : (exec (fileCall (g.path tvKey d) lines) w.disk).1 with
    | ok _ =>
      rw [hcall] at h
      cases h
    | error fault =>
      rw [hcall] at h
      cases fault with
      | refused cause paths => cases h
      | embeddedNul =>
        cases h
        refine .inr ⟨rfl, ?_⟩
        by_contra hnul
        rw [Bool.not_eq_true] at hnul
        have hspares : NeverThrows .embeddedNul (fileCall (g.path tvKey d) lines) :=
          (Disk.ensureFolders_spares_nul (Path.hasNul_parent hnul)).bind fun _ =>
            Disk.write_spares_nul hnul
        exact hspares w.disk hcall

theorem mem_turns (h : (tvKey, token) ∈ tokens) (w : World) :
    ∃ w₁, (tvKey, (exec (g.writeToken tvKey token d) w₁).1) ∈ g.turns d w tokens := by
  induction tokens generalizing w with
  | nil => cases h
  | cons pair rest ih =>
    rw [turns]
    rcases List.mem_cons.1 h with rfl | h
    · exact ⟨w, List.mem_cons_self⟩
    · obtain ⟨w₁, hmem⟩ := ih h (exec (g.attempt d pair.1 pair.2) w).2
      exact ⟨w₁, List.mem_cons_of_mem _ hmem⟩

theorem of_mem_turns {result : Except Failure Written} (h : (tvKey, result) ∈ g.turns d w tokens) :
    ∃ token w₁, (tvKey, token) ∈ tokens ∧ result = (exec (g.writeToken tvKey token d) w₁).1 := by
  induction tokens generalizing w with
  | nil => cases h
  | cons pair rest ih =>
    rw [turns] at h
    rcases List.mem_cons.1 h with heq | h
    · cases heq
      exact ⟨pair.2, w, List.mem_cons_self, rfl⟩
    · obtain ⟨token, w₁, hmem, hresult⟩ := ih h
      exact ⟨token, w₁, List.mem_cons_of_mem _ hmem, hresult⟩

/-- Without a NUL in a path, the work ends early only by a date out of range, and it does so if the
vector of some key strays. -/
theorem ending_turns (hnul : ∀ tvKey ∈ Table.keys tokens, (g.path tvKey d).hasNul = false)
    (w : World) :
    ((∃ pair ∈ tokens, g.Strays d pair.2) →
      ending (g.turns d w tokens) = .error .dateOutOfRange) ∧
    ((∀ pair ∈ tokens, ¬ g.Strays d pair.2) →
      ending (g.turns d w tokens) = .ok ((g.turns d w tokens).countP (·.2.isOk))) := by
  have hstop : ∀ turn ∈ g.turns d w tokens, ∀ failure, stop? turn.2 = some failure →
      failure = .dateOutOfRange ∧ ∃ pair ∈ tokens, g.Strays d pair.2 := by
    rintro ⟨tvKey, result⟩ hturn failure hfailure
    obtain ⟨token, w₁, hmem, hresult⟩ := of_mem_turns hturn
    dsimp only at hfailure
    rw [hresult] at hfailure
    rcases stop?_writeToken hfailure with ⟨rfl, hstrays⟩ | ⟨-, hholds⟩
    · exact ⟨rfl, _, hmem, hstrays⟩
    · rw [hnul tvKey (List.mem_map_of_mem (f := (·.1)) hmem)] at hholds
      cases hholds
  cases hfirst : (g.turns d w tokens).findSome? fun turn => stop? turn.2 with
  | some failure =>
    obtain ⟨turn, hturn, hfailure⟩ := List.exists_of_findSome?_eq_some hfirst
    obtain ⟨rfl, pair, hpair, hstrays⟩ := hstop turn hturn failure hfailure
    refine ⟨fun _ => by rw [ending, hfirst], fun hnone => absurd hstrays (hnone pair hpair)⟩
  | none =>
    refine ⟨?_, fun _ => by rw [ending, hfirst]⟩
    rintro ⟨⟨tvKey, token⟩, hpair, hstrays⟩
    obtain ⟨w₁, hturn⟩ := mem_turns hpair w
    have hgoes := List.findSome?_eq_none_iff.1 hfirst _ hturn
    rw [exec_writeToken_of_strays hstrays] at hgoes
    cases hgoes

end Stops

section Keeping

variable {P : World → Prop}

theorem keeps_attempt (hP : Lasting P)
    (hcall : ∀ lines, Keeps P (Work.call (fileCall (g.path tvKey d) lines))) :
    Keeps P (g.attempt d tvKey token) := by
  have hwrite : Keeps P (g.writeToken tvKey token d) :=
    Keeps.ofExcept_bind fun lines _ => hP.keeps_writeLines _ (hcall lines)
  refine (hwrite.bind fun _ => .pure 1).tryCatch fun failure => ?_
  split
  · exact (hP.note (by decide)).bind fun _ => .pure 0
  · exact .throw _

theorem keeps_writeInOrder (hP : Lasting P) (hcall : ∀ tvKey ∈ Table.keys tokens, ∀ lines,
    Keeps P (Work.call (fileCall (g.path tvKey d) lines))) : Keeps P (g.writeInOrder d tokens) := by
  induction tokens with
  | nil => exact .pure 0
  | cons pair rest ih =>
    have hone := hcall pair.1 List.mem_cons_self
    have hrest := ih fun tvKey hkey => hcall tvKey (List.mem_cons_of_mem _ hkey)
    rw [writeInOrder_cons]
    exact (keeps_attempt hP hone).bind fun _ => hrest.bind fun _ => .pure _

end Keeping

/-- After the turns the count of files is noted. -/
theorem exists_writeAll_eq (g : Golden) (tokens : Source.Tokens) (d : Day) :
    ∃ entry : Nat → Journal.Entry, g.writeAll tokens d =
      g.writeInOrder d (inOrder tokens) >>= fun files => Work.note (entry files) >>= fun _ =>
        pure files :=
  ⟨_, rfl⟩

theorem exec_writeAll_fst (g : Golden) (tokens : Source.Tokens) (d : Day) (w : World) :
    (exec (g.writeAll tokens d) w).1 = ending (g.turns d w (inOrder tokens)) := by
  obtain ⟨entry, heq⟩ := exists_writeAll_eq g tokens d
  rw [heq, ← exec_writeInOrder_fst, exec_bind]
  cases exec (g.writeInOrder d (inOrder tokens)) w with
  | mk result w₁ =>
    cases result with
    | error failure => rfl
    | ok files =>
      dsimp only
      rw [exec_bind_ok exec_note, exec_pure]

end TradingHours.Output.Golden
