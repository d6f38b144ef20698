import TradingHours.Proofs.Disk.Grown
import TradingHours.Proofs.Engine.Audit
import TradingHours.Proofs.Output.GoldenFiles
import TradingHours.Proofs.Output.MinuteDecoding
/-!
The files of minutes in a run, as one turn for each market. A turn that fails is counted out, leaves
the files of other markets alone and does not keep the run from its end.
Main statement: `minuteFiles_never_stop_run`.
-/
namespace TradingHours

namespace Policy

variable {p : Policy} {market : Market} {d : Day} {failure : Failure}

/-- The states of a market at the minutes of a day, if its step goes through all of them. -/
def dayStates (p : Policy) (market : Market) (d : Day) : Except Failure (List (Instant × Bool)) :=
  (Schedule.stateVector (p.minuteStep market) d none minutesPerDay).answer

/-- A calendar that fails, at whatever minutes, does not stop the step of a market. -/
theorem exists_dayStates (h : p.tokenFor? market = none) (d : Day) :
    ∃ states, p.dayStates market d = .ok states := by
  have hstep : ∀ t previous, NeverFails (p.minuteStep market t previous) := by
    intro t previous
    rw [minuteStep, h]
    cases p.calendar with
    | none => exact .pure false
    | some calendar =>
      exact .tryCatch fun failure => NeverFails.bind (fun trail => ⟨(), _, rfl⟩) fun _ => .pure _
  have hthread : NeverFails
      (Schedule.thread (p.minuteStep market) none ((List.range minutesPerDay).map d.minute)) :=
    Output.neverFails_thread fun t _ => hstep t
  obtain ⟨states, _, hstates⟩ := hthread {}
  refine ⟨states, ?_⟩
  rw [dayStates, Traced.answer, Schedule.stateVector_minutes, hstates]

/-- The step of a market fails on a day exactly if the vector of its token does. -/
theorem dayStates_eq_error_iff : p.dayStates market d = .error failure ↔
    ∃ token source, p.tokenFor? market = some (token, source) ∧
      Schedule.tokenVector (some token) d none p.grace = .error failure := by
  cases h : p.tokenFor? market with
  | none =>
    obtain ⟨states, hstates⟩ := exists_dayStates h d
    simp [hstates]
  | some pair =>
    obtain ⟨token, source⟩ := pair
    have hsame : p.dayStates market d = .error failure ↔
        Schedule.tokenVector (some token) d none p.grace = .error failure := by
      rw [dayStates, answer_stateVector_minuteStep, ← tokenVector_of_token h]
      cases Schedule.stateVector (p.minuteAnswer market) d none minutesPerDay <;> simp [Except.map]
    rw [hsame]
    constructor
    · exact fun hvector => ⟨token, source, rfl, hvector⟩
    · rintro ⟨_, _, heq, hvector⟩
      cases heq
      exact hvector

end Policy

namespace Output

variable {policy : Policy} {market : Market} {d : Day} {states : List (Instant × Bool)}

def dayLines (states : List (Instant × Bool)) : List String :=
  states.map fun pair => minuteText pair.1 pair.2

theorem minuteLines_minuteStep (policy : Policy) (market : Market) (d : Day) :
    (minuteLines (policy.minuteStep market) d).answer =
      (policy.dayStates market d).map dayLines := by
  have hstep : ∀ t previous, (policy.minuteStep market t previous).Answers _ :=
    Policy.minuteStep_answers
  rw [(minuteLines_answers d hstep).answer_eq, minuteLines_eq, Policy.dayStates,
    (Schedule.stateVector_answers hstep d none minutesPerDay).answer_eq]
  rfl

theorem shows_dayLines (h : policy.dayStates market d = .ok states) :
    Shows d states (dayLines states) :=
  shows_of_instants (instants_of_returns_stateVector (Traced.exec_of_answer h))

end Output

namespace Engine

open Disk (GrownFrom Rooted Writable)
open Output.Golden (lastDay)
open Policy (emptyWorld)

variable {e : Engine} {policy : Policy} {d : Day} {market : Market} {markets : List Market}
  {states : List (Instant × Bool)} {failure : Failure} {w v : World}

section Turns

def stepped (policy : Policy) (d : Day) (market : Market) (w : World) : World :=
  leaves (Work.traced (Output.minuteLines (policy.minuteStep market) d)) w

/-- The markets in the order of their turns, each one with the world in which its file is due. -/
def minuteTurns (e : Engine) (policy : Policy) (d : Day) :
    World → List Market → List (Market × World)
  | _, [] => []
  | w, market :: rest =>
    (market, stepped policy d market w) ::
      e.minuteTurns policy d (leaves (e.minuteTurn policy d market) w) rest

def minutePlace (e : Engine) (home : Place) (d : Day) (market : Market) : Place :=
  (Output.minutePath e.senderPath market d).placeFrom home

/-- Whether a file is written after a step has come to its states or failed: it went through the
day, and no call of the write is refused. -/
def fileWritten (e : Engine) (d : Day) (market : Market) (v : World) :
    Except Failure (List (Instant × Bool)) → Bool
  | .ok states => (exec (Output.fileCall (Output.minutePath e.senderPath market d)
      (Output.dayLines states)) v.disk).1.isOk
  | .error _ => false

def writes (e : Engine) (policy : Policy) (d : Day) (turn : Market × World) : Bool :=
  e.fileWritten d turn.1 turn.2 (policy.dayStates turn.1 d)

theorem exists_states_of_writes (h : e.writes policy d (market, v) = true) :
    ∃ states, policy.dayStates market d = .ok states := by
  rw [writes] at h
  cases hstates : policy.dayStates market d with
  | ok states => exact ⟨states, rfl⟩
  | error failure =>
    rw [hstates, fileWritten] at h
    cases h

theorem map_fst_minuteTurns (e : Engine) (policy : Policy) (d : Day) (w : World)
    (markets : List Market) : (e.minuteTurns policy d w markets).map (·.1) = markets := by
  induction markets generalizing w with
  | nil => rfl
  | cons market rest ih => rw [minuteTurns, List.map_cons, ih]

theorem exec_stepped (policy : Policy) (d : Day) (market : Market) (w : World) :
    exec (Work.traced (Output.minuteLines (policy.minuteStep market) d)) w =
      ((policy.dayStates market d).map Output.dayLines, stepped policy d market w) := by
  rw [← Output.minuteLines_minuteStep, stepped]
  exact exec_of_fst (exec_traced_fst _ w)

theorem exec_writeMinutes_of_error (h : policy.dayStates market d = .error failure) (w : World) :
    exec (Output.writeMinutes e.senderPath market (policy.minuteStep market) d) w =
      (.error failure, stepped policy d market w) := by
  have hstep := exec_stepped policy d market w
  rw [h] at hstep
  exact exec_bind_error hstep

def writeDay (e : Engine) (d : Day) (market : Market) (states : List (Instant × Bool)) :
    Work Output.Written := do
  let written ← Output.writeLines .minute (Output.minutePath e.senderPath market d)
    (Output.dayLines states)
  Work.note {
    logger := Outlet.minute.logger
    level := .info
    event := "Wrote per-minute file"
    fields := [("market_id", .text market.id), ("output_path", .text written.path.text),
      ("lines", .int written.lines)] }
  return written

theorem exec_writeMinutes_of_ok (h : policy.dayStates market d = .ok states) (w : World) :
    exec (Output.writeMinutes e.senderPath market (policy.minuteStep market) d) w =
      exec (e.writeDay d market states) (stepped policy d market w) := by
  have hstep := exec_stepped policy d market w
  rw [h] at hstep
  exact exec_bind_ok hstep

theorem isOk_writeMinutes (e : Engine) (policy : Policy) (d : Day) (market : Market) (w : World) :
    (exec (Output.writeMinutes e.senderPath market (policy.minuteStep market) d) w).1.isOk =
      e.writes policy d (market, stepped policy d market w) := by
  cases h : policy.dayStates market d with
  | error failure =>
    rw [exec_writeMinutes_of_error h, writes, h]
    rfl
  | ok states =>
    rw [exec_writeMinutes_of_ok h, writeDay, exec_noted_fst, Output.isOk_writeLines, writes, h,
      fileWritten]

theorem exec_minuteTurn_fst (e : Engine) (policy : Policy) (d : Day) (market : Market)
    (w : World) : (exec (e.minuteTurn policy d market) w).1 =
      .ok (if e.writes policy d (market, stepped policy d market w) then 1 else 0) := by
  rw [← isOk_writeMinutes, minuteTurn, exec_tryCatch]
  cases hr : exec (Output.writeMinutes e.senderPath market (policy.minuteStep market) d) w with
  | mk result w₁ =>
    cases result with
    | ok written =>
      rw [exec_bind_ok hr]
      rfl
    | error failure =>
      rw [exec_bind_error hr]
      exact exec_missed_fst market failure w₁

theorem exec_minuteTurn (e : Engine) (policy : Policy) (d : Day) (market : Market) (w : World) :
    exec (e.minuteTurn policy d market) w =
      (.ok (if e.writes policy d (market, stepped policy d market w) then 1 else 0),
        leaves (e.minuteTurn policy d market) w) :=
  exec_of_fst (exec_minuteTurn_fst e policy d market w)

theorem leaves_writeMinuteFiles_cons (e : Engine) (policy : Policy) (d : Day) (market : Market)
    (rest : List Market) (w : World) :
    leaves (e.writeMinuteFiles policy d (market :: rest)) w =
      leaves (e.writeMinuteFiles policy d rest) (leaves (e.minuteTurn policy d market) w) := by
  obtain ⟨more, w', hmore⟩ :=
    neverFails_writeMinuteFiles (e := e) policy d rest (leaves (e.minuteTurn policy d market) w)
  rw [leaves, writeMinuteFiles_cons, exec_bind_ok (exec_minuteTurn e policy d market w),
    exec_bind_ok hmore, leaves, hmore]
  rfl

/-- The work returns, with the number of turns that write a file. -/
theorem returns_writeMinuteFiles (e : Engine) (policy : Policy) (d : Day) (markets : List Market)
    (w : World) : Returns (e.writeMinuteFiles policy d markets) w
      ((e.minuteTurns policy d w markets).countP (e.writes policy d))
      (leaves (e.writeMinuteFiles policy d markets) w) := by
  induction markets generalizing w with
  | nil => rfl
  | cons market rest ih =>
    rw [leaves_writeMinuteFiles_cons, writeMinuteFiles_cons, minuteTurns, List.countP_cons,
      Nat.add_comm]
    exact returns_bind.2 ⟨_, _, exec_minuteTurn e policy d market w, returns_bind.2
      ⟨_, _, ih (leaves (e.minuteTurn policy d market) w), returns_pure.2 ⟨rfl, rfl⟩⟩⟩

end Turns

section Files

variable {home : Place} {log : Option Place} {i : Nat}

theorem keeps_stepped {P : World → Prop} (hP : Lasting P) (policy : Policy) (d : Day)
    (market : Market) (hw : P w) : P (stepped policy d market w) := by
  rw [stepped]
  exact (hP.keeps_traced
    (Output.quiet_minuteLines (fun _ _ => Policy.quiet_minuteStep) d)).leaves hw

/-- A turn whose step fails only makes entries. -/
theorem keeps_failedTurn {P : World → Prop} (hP : Lasting P)
    (h : policy.dayStates market d = .error failure) : Keeps P (e.minuteTurn policy d market) := by
  intro w hw
  have hturn : exec (e.minuteTurn policy d market) w =
      exec (missed market failure) (stepped policy d market w) := by
    rw [minuteTurn, exec_tryCatch, exec_bind_error (exec_writeMinutes_of_error h w)]
  rw [hturn]
  exact keeps_missed hP market failure _ (keeps_stepped hP policy d market hw)

/-- Turns whose files are at other places, and turns whose step fails, leave a file alone. -/
theorem grownFrom_of_failed (hi : markets[i]? = some market)
    (hplaces : ∀ other ∈ markets.eraseIdx i,
      e.minutePlace w.disk.home d other ≠ e.minutePlace w.disk.home d market)
    (h : policy.dayStates market d = .error failure) :
    GrownFrom (e.minutePlace w.disk.home d market) w.disk
      (leaves (e.writeMinuteFiles policy d markets) w).disk := by
  have hturns : Keeps (fun v : World =>
      GrownFrom (e.minutePlace w.disk.home d market) w.disk v.disk)
      (e.writeMinuteFiles policy d markets) := by
    refine keeps_minuteTurns fun other hother => ?_
    by_cases heq : other = market
    · rw [heq]
      exact keeps_failedTurn GrownFrom.lasting h
    · have hmem : other ∈ markets.eraseIdx i := by
        obtain ⟨k, hk⟩ := List.mem_iff_getElem?.1 hother
        refine List.mem_eraseIdx_iff_getElem?.2 ⟨k, ?_, hk⟩
        rintro rfl
        exact heq (Option.some_inj.1 (hk.symm.trans hi))
      exact keeps_minuteTurn GrownFrom.lasting policy d
        fun lines => GrownFrom.keeps_fileCall (hplaces other hmem) lines
  exact hturns.leaves (GrownFrom.self _ _)

/-- A turn that writes a file leaves the lines of the day in it, with nothing behind them but an
entry of the open log about it. -/
theorem entryOf_of_written (hroot : Rooted home log w.disk)
    (h : policy.dayStates market d = .ok states)
    (hwritten : e.writes policy d (market, stepped policy d market w) = true) :
    ∃ v : World, Rooted home log v.disk ∧
      v.disk.entryOf (Output.minutePath e.senderPath market d) =
        .ok (.file (Text.encodeUtf8 (Text.unlines (Output.dayLines states)))) ∧
      ∀ place, GrownFrom place v.disk (leaves (e.minuteTurn policy d market) w).disk := by
  have habout : Disk.About home (fun _ => False) (Rooted home log) := Rooted.about
  have hlasting := habout.toBears.lasting
  have hok : (exec (Output.writeLines .minute (Output.minutePath e.senderPath market d)
      (Output.dayLines states)) (stepped policy d market w)).1.isOk = true := by
    rw [writes, h, fileWritten] at hwritten
    rw [Output.isOk_writeLines, hwritten]
  obtain ⟨written, v, hlines⟩ : ∃ written v, Returns (Output.writeLines .minute
      (Output.minutePath e.senderPath market d) (Output.dayLines states))
      (stepped policy d market w) written v :=
    let ⟨written, hreturns⟩ := returns_of_isOk hok
    ⟨written, _, hreturns⟩
  have hv : Rooted home log v.disk :=
    (hlasting.keeps_writeLines .minute (habout.keeps_fileCall id _)).of_returns
      (keeps_stepped hlasting policy d market hroot) hlines
  refine ⟨v, hv, (Output.of_returns_writeLines hlines).2, fun place => ?_⟩
  -- the entry that follows is the end of the turn
  obtain ⟨v', hday, hgrown⟩ : ∃ v',
      Returns (e.writeDay d market states) (stepped policy d market w) written v' ∧
        GrownFrom place v.disk v'.disk :=
    ⟨_, returns_bind.2 ⟨written, v, hlines, returns_bind.2 ⟨(), _, exec_note, rfl⟩⟩,
      GrownFrom.lasting.note (by decide) v (GrownFrom.self place v.disk)⟩
  have hminutes := (exec_writeMinutes_of_ok (e := e) h w).trans hday
  have hturn : exec (e.minuteTurn policy d market) w = (.ok 1, v') := by
    rw [minuteTurn, exec_tryCatch, exec_bind_ok hminutes]
    rfl
  rwa [leaves, hturn]

/-- What a turn has written is there after all turns, if no other turn writes at the same place. -/
theorem entryOf_after_turns (hroot : Rooted home log w.disk)
    (hi : (e.minuteTurns policy d w markets)[i]? = some (market, v))
    (hplaces : ∀ other ∈ markets.eraseIdx i,
      e.minutePlace home d other ≠ e.minutePlace home d market)
    (h : policy.dayStates market d = .ok states)
    (hwritten : e.writes policy d (market, v) = true) :
    ∃ tail, (log ≠ some (e.minutePlace home d market) → tail = .empty) ∧
      (leaves (e.writeMinuteFiles policy d markets) w).disk.entryOf
          (Output.minutePath e.senderPath market d) =
        .ok (.file (Text.encodeUtf8 (Text.unlines (Output.dayLines states)) ++ tail)) := by
  induction markets generalizing w i with
  | nil => cases hi
  | cons first rest ih =>
    rw [minuteTurns] at hi
    rw [leaves_writeMinuteFiles_cons]
    cases i with
    | zero =>
      -- its own turn comes first, and the others write elsewhere
      obtain ⟨rfl, rfl⟩ := Prod.mk.inj (Option.some_inj.1 hi)
      obtain ⟨v, hv, hfile, hgrown⟩ := entryOf_of_written hroot h hwritten
      have hrest : Keeps (fun u : World => GrownFrom (e.minutePlace home d first) v.disk u.disk)
          (e.writeMinuteFiles policy d rest) :=
        keeps_writeMinuteFiles GrownFrom.lasting policy d fun other hother lines =>
          GrownFrom.keeps_fileCall (by rw [hv.home_eq]; exact hplaces other hother) lines
      have hend := hrest.leaves (hgrown _)
      rw [← hv.home_eq, ← hv.growing_eq]
      rw [← hv.home_eq] at hend
      exact hend.entryOf hfile
    | succ i =>
      have habout : Disk.About home (fun _ => False) (Rooted home log) := Rooted.about
      have hturn : Keeps (fun u => Rooted home log u.disk) (e.minuteTurn policy d first) :=
        keeps_minuteTurn habout.toBears.lasting policy d fun lines => habout.keeps_fileCall id lines
      exact ih (hturn.leaves hroot) hi fun other hother =>
        hplaces other (List.mem_cons_of_mem first hother)

end Files

section Run

variable {r : Round} {at? : Option Instant} {w₁ : World} {lines : Nat}

theorem exec_sendMinutes (hfiles : e.settings.output.perMinuteFiles = true)
    (hday : r.now.utcDay = .ok d) (w : World) :
    exec (e.sendMinutes r) w = exec (e.writeMinuteFiles r.policy d r.markets) w := by
  rw [sendMinutes, if_pos hfiles, hday]
  exact exec_bind_ok rfl

/-- A run goes on from the files of minutes to its end. -/
theorem exec_run_after_minutes (hfiles : e.settings.output.perMinuteFiles = true)
    (hclock : w.now.offset = some 0) (h : Returns (e.untilSent at?) w (r, lines) w₁) :
    ∃ d files w₂, r.now.utcDay = .ok d ∧
      Returns (e.writeMinuteFiles r.policy d r.markets) w₁ files w₂ ∧
      exec (e.run at?) w = exec (e.conclude r lines files r.updated?) w₂ := by
  obtain ⟨v, -, -, hround, -⟩ := of_returns_untilSent h
  obtain ⟨files, w₂, hminutes, hrun⟩ := exec_run_of_sent hclock h
  have hday : r.now.utcDay = .ok r.now.day :=
    Instant.utcDay_of_offset_zero (offset_of_resolveRound hclock hround)
  exact ⟨r.now.day, files, w₂, hday, (exec_sendMinutes hfiles hday w₁).symm.trans hminutes, hrun⟩

/-- Writing the files of minutes never keeps a run from its end. Whatever fails of it, in whichever
turns, it returns the number of markets whose step went through the day and whose write succeeded.
A market whose file is at no other market's place has its 1440 lines there if it is counted, and what
was there before if its step failed; only the open log, if it goes to that very file, puts its
entries behind them. Then the run goes on: it saves what is recorded of the markets if one of them
has turned, and ends by what became of that; if none has, it only makes its last entry. -/
theorem minuteFiles_never_stop_run (e : Engine) :
    (∀ policy d markets w, ∃ w',
      Returns (e.writeMinuteFiles policy d markets) w
        ((e.minuteTurns policy d w markets).countP (e.writes policy d)) w' ∧
      (e.minuteTurns policy d w markets).map (·.1) = markets ∧
      ∀ i market v, (e.minuteTurns policy d w markets)[i]? = some (market, v) →
        (∀ other ∈ markets.eraseIdx i,
          e.minutePlace w.disk.home d other ≠ e.minutePlace w.disk.home d market) →
        (e.writes policy d (market, v) = true → ∃ states lines tail,
          policy.dayStates market d = .ok states ∧ Output.Shows d states lines ∧
          (w.disk.growing ≠ some (e.minutePlace w.disk.home d market) → tail = .empty) ∧
          w'.disk.entryOf (Output.minutePath e.senderPath market d) =
            .ok (.file (Text.encodeUtf8 (Text.unlines lines) ++ tail))) ∧
        (∀ failure, policy.dayStates market d = .error failure → ∃ tail,
          (w.disk.growing ≠ some (e.minutePlace w.disk.home d market) → tail = .empty) ∧
          w'.disk.contentAt (e.minutePlace w.disk.home d market) =
            (w.disk.contentAt (e.minutePlace w.disk.home d market)).map (· ++ tail))) ∧
    ∀ at? w r lines w₁, e.settings.output.perMinuteFiles = true → w.now.offset = some 0 →
      Returns (e.untilSent at?) w (r, lines) w₁ →
      ∃ d files w₂, r.now.utcDay = .ok d ∧
        Returns (e.writeMinuteFiles r.policy d r.markets) w₁ files w₂ ∧
        ((∃ resolution ∈ r.resolutions,
            resolution.state ≠ (r.previous.get? resolution.marketId).getD false) →
          ∃ states saved w₃,
            (∀ id state, states.get? id = some state ↔ r.Recorded id state) ∧
            exec (StateFile.save e.statePath states) w₂ = (saved, w₃) ∧
            exec (e.run at?) w = exec (finishSaved r lines files saved) w₃) ∧
        ((∀ resolution ∈ r.resolutions,
            resolution.state = (r.previous.get? resolution.marketId).getD false) →
          exec (e.run at?) w = exec (finish r lines files false false) w₂) := by
  refine ⟨fun policy d markets w => ?_, fun at? w r lines w₁ hfiles hclock h => ?_⟩
  · refine ⟨_, returns_writeMinuteFiles e policy d markets w, map_fst_minuteTurns e policy d w markets,
      ?_⟩
    intro i market v hi hplaces
    constructor
    · intro hwrites
      obtain ⟨states, hstates⟩ := exists_states_of_writes hwrites
      obtain ⟨tail, hlog, hfile⟩ :=
        entryOf_after_turns (Disk.rooted_self w.disk) hi hplaces hstates hwrites
      exact ⟨states, Output.dayLines states, tail, hstates, Output.shows_dayLines hstates, hlog,
        hfile⟩
    · intro failure hfailure
      have hmarket : markets[i]? = some market := by
        rw [← map_fst_minuteTurns e policy d w markets, List.getElem?_map, hi, Option.map_some]
      exact (grownFrom_of_failed hmarket hplaces hfailure).content
  · obtain ⟨d, files, w₂, hday, hminutes, hrun⟩ := exec_run_after_minutes hfiles hclock h
    refine ⟨d, files, w₂, hday, hminutes, ?_, ?_⟩
    · intro hturned
      refine ⟨_, _, _, fun id state => get?_apply_changes, rfl, ?_⟩
      rw [hrun]
      exact exec_conclude_of_changed (changes_ne_nil_iff.2 hturned) rfl
    · intro hsame
      rw [hrun, conclude_of_unchanged (changes_eq_nil_iff.2 hsame)]

def lateMarket : Market := ⟨"late", "K", "I"⟩

def shutMarket : Market := ⟨"shut", "L", "J"⟩

def latePolicy : Policy := ⟨[("K", "09301600")], [], none, spanOfMinutes 60⟩

theorem dayStates_late :
    latePolicy.dayStates lateMarket lastDay = .error .dateOutOfRange := by
  have hvector : Schedule.tokenVector (some "09301600") lastDay none latePolicy.grace =
      .error .dateOutOfRange :=
    Schedule.tokenVector_eq_error_iff.2 ⟨rfl, Output.Golden.strays_lastDay⟩
  exact Policy.dayStates_eq_error_iff.2 ⟨"09301600", .aggregated, by decide, hvector⟩

def minuteEngine : Engine := smallEngine "states" true

theorem path_shut : Output.minutePath minuteEngine.senderPath shutMarket lastDay =
    ⟨.relative, ["a_shut_99991231.txt"]⟩ := by
  decide +kernel

def afterLate : World :=
  stepped latePolicy lastDay shutMarket
    (leaves (minuteEngine.minuteTurn latePolicy lastDay lateMarket) emptyWorld)

theorem writes_shut : minuteEngine.writes latePolicy lastDay (shutMarket, afterLate) = true := by
  have hempty : Writable ["srv"] ⟨.relative, ["a_shut_99991231.txt"]⟩ emptyWorld.disk :=
    Output.Golden.writable_emptyWorld ⟨by decide +kernel, by decide +kernel, by decide⟩ (by decide)
  have hafter : Writable ["srv"] ⟨.relative, ["a_shut_99991231.txt"]⟩ afterLate.disk :=
    keeps_stepped Output.Golden.lasting_writable latePolicy lastDay shutMarket
      ((keeps_failedTurn Output.Golden.lasting_writable dayStates_late).leaves hempty)
  have hshut : latePolicy.tokenFor? shutMarket = none := by decide
  obtain ⟨states, hstates⟩ := Policy.exists_dayStates hshut lastDay
  rw [writes, hstates, fileWritten, path_shut, Output.Golden.exec_fileCall_of_writable hafter]
  rfl

theorem turns_late : minuteEngine.minuteTurns latePolicy lastDay emptyWorld
    [lateMarket, shutMarket] =
      [(lateMarket, stepped latePolicy lastDay lateMarket emptyWorld), (shutMarket, afterLate)] :=
  rfl

/-- On the last day of the calendar a market whose step fails leaves no file, the one after it has
its lines, and one file is counted. At noon of an ordinary day a run hands over the state of a market
that has opened. -/
theorem minuteFiles_never_stop_run_lastDay :
    (∃ w', Returns (minuteEngine.writeMinuteFiles latePolicy lastDay [lateMarket, shutMarket])
        emptyWorld 1 w' ∧
      w'.disk.contentAt ["a_late_99991231.txt", "srv"] = none ∧
      ∃ states lines, latePolicy.dayStates shutMarket lastDay = .ok states ∧
        Output.Shows lastDay states lines ∧
        w'.disk.entryOf ⟨.relative, ["a_shut_99991231.txt"]⟩ =
          .ok (.file (Text.encodeUtf8 (Text.unlines lines)))) ∧
    ∃ r lines w₁ d files w₂ states saved w₃,
      Returns (minuteEngine.untilSent (some (onDay 720))) sessionWorld (r, lines) w₁ ∧
      Returns (minuteEngine.writeMinuteFiles r.policy d r.markets) w₁ files w₂ ∧
      (∀ id state, states.get? id = some state ↔ r.Recorded id state) ∧
      exec (StateFile.save (.ofText "states") states) w₂ = (saved, w₃) ∧
      exec (minuteEngine.run (some (onDay 720))) sessionWorld =
        exec (finishSaved r lines files saved) w₃ := by
  obtain ⟨hminutes, hrun⟩ := minuteFiles_never_stop_run minuteEngine
  constructor
  · obtain ⟨w', hreturns, -, hfiles⟩ :=
      hminutes latePolicy lastDay [lateMarket, shutMarket] emptyWorld
    have hlate : ∀ v, minuteEngine.writes latePolicy lastDay (lateMarket, v) = false :=
      fun v => by rw [writes, dayStates_late, fileWritten]
    rw [turns_late, List.countP_cons, List.countP_singleton, hlate, writes_shut] at hreturns
    rw [turns_late] at hfiles
    refine ⟨w', hreturns, ?_, ?_⟩
    · have hplace : minuteEngine.minutePlace ["srv"] lastDay lateMarket =
          ["a_late_99991231.txt", "srv"] := by decide +kernel
      obtain ⟨tail, -, hcontent⟩ :=
        (hfiles 0 lateMarket _ rfl (by decide +kernel)).2 _ dayStates_late
      have hnone : emptyWorld.disk.contentAt ["a_late_99991231.txt", "srv"] = none := by
        decide +kernel
      rwa [show emptyWorld.disk.home = ["srv"] from rfl, hplace, hnone] at hcontent
    · obtain ⟨states, lines, tail, hstates, hshows, hlog, hfile⟩ :=
        (hfiles 1 shutMarket _ rfl (by decide +kernel)).1 writes_shut
      rw [path_shut, hlog nofun, ByteArray.append_empty] at hfile
      exact ⟨states, lines, hstates, hshows, hfile⟩
  · have hsent : (exec (minuteEngine.untilSent (some (onDay 720)))
        sessionWorld).1.toOption.map (fun sent => sent.1.changes.isEmpty) = some false := by
      decide +kernel
    obtain ⟨⟨r, lines⟩, hsent, hchanged⟩ := returns_of_map hsent
    obtain ⟨d, files, w₂, -, hfiles, hsaves, -⟩ := hrun _ _ _ _ _ rfl rfl hsent
    have hturned : r.changes ≠ [] := fun hnil => by
      rw [hnil] at hchanged
      cases hchanged
    obtain ⟨states, saved, w₃, hstates, hsave, hend⟩ := hsaves (changes_ne_nil_iff.1 hturned)
    exact ⟨r, lines, _, d, files, w₂, states, saved, w₃, hsent, hfiles, hstates, hsave, hend⟩

end Run

end Engine

end TradingHours
