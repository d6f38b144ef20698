import TradingHours.Output.Minute
import TradingHours.Output.Sender
import TradingHours.Proofs.Resolution.Quiet
import TradingHours.StateFile
/-!
What lasts while work goes on in the world. A condition lasts if it does not depend on what is
looked at, asked, counted or noted, other than changes of states; then loading sources keeps it, and
so does every output whose calls keep it.
-/
namespace TradingHours

open Disk (Path)

section Work

variable {α : Type} {P : Disk → Prop} {c : Disk.Call α} {w w' : World}

theorem exec_outcome :
    exec (Work.outcome c) w = (.ok (exec c w.disk).1, { w with disk := (exec c w.disk).2 }) := by
  rw [Work.outcome, exec_get_bind]
  rfl

theorem exec_call :
    exec (Work.call c) w =
      ((exec c w.disk).1.mapError .disk, { w with disk := (exec c w.disk).2 }) := by
  rw [Work.call, exec_bind_ok exec_outcome]
  cases (exec c w.disk).1 <;> rfl

theorem keeps_call (hc : Keeps P c) : Keeps (fun w => P w.disk) (Work.call c) := by
  intro w hw
  rw [exec_call]
  exact hc w.disk hw

/-- A condition that does not look at the disk stays through every call. -/
theorem keeps_call_of_disk {P : World → Prop}
    (hP : ∀ w disk, P w → P { w with disk := disk }) : Keeps P (Work.call c) := by
  intro w hw
  rw [exec_call]
  exact hP w _ hw

theorem returns_call {a : α} (h : Returns (Work.call c) w a w') :
    (exec c w.disk).1 = .ok a ∧ w'.disk = (exec c w.disk).2 := by
  rw [Returns, exec_call] at h
  cases hc : (exec c w.disk).1 with
  | ok b =>
    rw [hc] at h
    cases h
    exact ⟨rfl, rfl⟩
  | error fault =>
    rw [hc] at h
    cases h

theorem exec_note {e : Journal.Entry} :
    exec (Work.note e) w = (.ok (), (exec (Work.note e) w).2) := rfl

theorem neverFails_note (e : Journal.Entry) : NeverFails (Work.note e) :=
  fun _ => ⟨(), _, exec_note⟩

theorem exec_noted_fst (x : Work α) (entry : α → Journal.Entry) (w : World) :
    (exec (do
      let a ← x
      Work.note (entry a)
      return a) w).1 = (exec x w).1 := by
  rw [exec_bind]
  cases exec x w with
  | mk result w₁ => cases result <;> rfl

/-- Traced work answers in the world what it answers by itself. -/
theorem exec_traced_fst (work : Traced α) (w : World) :
    (exec (Work.traced work) w).1 = work.answer := by
  have hnotes : NeverFails ((exec work {}).2.entries.forM Work.note) := by
    rw [Array.forM, ← Array.foldlM_toList]
    exact .foldlM (fun _ e => neverFails_note e) _ _
  obtain ⟨_, w', hnoted⟩ := hnotes
    { w with trail := { w.trail with
      questions := w.trail.questions ++ (exec work {}).2.questions } }
  have hexec : exec (Work.traced work) w = exec (ofExcept work.answer) w' :=
    (exec_bind_ok rfl).trans (exec_bind_ok hnoted)
  rw [hexec, exec_ofExcept]

theorem traced_returns {work : Traced α} {a : α} (hr : work.Answers (.ok a)) (w : World) :
    ∃ w', Returns (Work.traced work) w a w' :=
  ⟨_, Prod.ext ((exec_traced_fst work w).trans hr.answer_eq) rfl⟩

theorem returns_traced {work : Traced α} {r : Except Failure α} {a : α}
    (hr : work.Answers r) (h : Returns (Work.traced work) w a w') : r = .ok a := by
  rw [← hr.answer_eq, ← exec_traced_fst work w, h]

theorem keeps_ifRefused {P : World → Prop} {work : Work α} {handle : Disk.Fault → Work α}
    (hw : Keeps P work) (hh : ∀ fault, Keeps P (handle fault)) :
    Keeps P (Work.ifRefused work handle) := by
  refine hw.tryCatch fun failure => ?_
  split
  · exact hh _
  · exact .throw _

end Work

namespace Output

def fileCall (q : Path) (lines : List String) : Disk.Call Unit := do
  Disk.ensureFolders q.parent
  Disk.write q (Text.encodeUtf8 (Text.unlines lines))

def probeCall (folder : Path) : Disk.Call Unit := do
  Disk.ensureFolders folder
  Disk.write (folder.child probeName) (Text.encodeUtf8 "test")
  Disk.unlink (folder.child probeName)

end Output

/-- A condition that lasts while files are looked at, and while anything but a change is noted. -/
structure Lasting (P : World → Prop) : Prop where
  noted : ∀ e : Journal.Entry, e.event ≠ Journal.changeEvent → Keeps P (Work.note e)
  asked : ∀ w questions, P w → P { w with trail := { w.trail with questions := questions } }
  counted : ∀ w written, P w → P { w with written := written }
  exists? : ∀ q, Keeps P (Work.call (Disk.exists? q))
  read : ∀ q, Keeps P (Work.call (Disk.read q))

namespace Lasting

variable {α : Type} {P : World → Prop} {q : Path} (hP : Lasting P)
include hP

theorem note {logger event : String} {level : Journal.Level} {fields : List (String × Value)}
    {failure : Option Failure} (he : event ≠ Journal.changeEvent) :
    Keeps P (Work.note ⟨logger, level, event, fields, failure⟩) :=
  hP.noted _ he

theorem keeps_traced {work : Traced α} (hq : Keeps Trail.Quiet work) :
    Keeps P (Work.traced work) := by
  have hentries : (exec work {}).2.Quiet := hq {} fun e he => absurd he (Array.not_mem_empty e)
  refine Keeps.bind (.modify fun w hw => hP.asked w _ hw) fun _ => Keeps.bind ?_ fun _ => .ofExcept _
  rw [Array.forM, ← Array.foldlM_toList]
  exact Keeps.foldlM (fun _ e he => hP.noted e (hentries e (Array.mem_toList_iff.1 he))) _

section Output

theorem keeps_writeLines {lines : List String} (o : Outlet)
    (hcall : Keeps P (Work.call (Output.fileCall q lines))) :
    Keeps P (Output.writeLines o q lines) := by
  refine Keeps.bind (keeps_ifRefused hcall fun fault => ?_) fun _ => ?_
  · exact (hP.note (by decide)).bind fun _ => .throw _
  · exact Keeps.bind (.modify fun w hw => hP.counted w _ hw) fun _ => .pure _

theorem keeps_healthCheck (o : Outlet) {folder : Path}
    (hcall : Keeps P (Work.call (Output.probeCall folder))) :
    Keeps P (Output.healthCheck o folder) := by
  refine keeps_ifRefused (Keeps.bind hcall fun _ => .pure true) fun fault => ?_
  exact (hP.note (by decide)).bind fun _ => .pure false

theorem keeps_writeSender (hcall : ∀ lines, Keeps P (Work.call (Output.fileCall q lines)))
    (host : String) (markets : List Market) (states : List (String × Bool)) :
    Keeps P (Output.writeSender q host markets states) :=
  (hP.keeps_writeLines _ (hcall _)).bind fun _ => (hP.note (by decide)).bind fun _ => .pure _

theorem keeps_writeMinutes {market : Market} {d : Day} (policy : Policy)
    (hcall : ∀ lines,
      Keeps P (Work.call (Output.fileCall (Output.minutePath q market d) lines))) :
    Keeps P (Output.writeMinutes q market (policy.minuteStep market) d) := by
  have hlines : Keeps Trail.Quiet (Output.minuteLines (policy.minuteStep market) d) :=
    Output.quiet_minuteLines (fun _ _ => Policy.quiet_minuteStep) d
  exact (hP.keeps_traced hlines).bind fun _ => (hP.keeps_writeLines _ (hcall _)).bind fun _ =>
    (hP.note (by decide)).bind fun _ => .pure _

end Output

section Source

theorem keeps_readLines : Keeps P (Source.readLines q) := by
  refine (hP.read q).bind fun bytes => ?_
  split
  · exact .pure _
  · exact .throw _

theorem keeps_tryLines : Keeps P (Source.tryLines q) := by
  refine (hP.keeps_readLines.bind fun _ => .pure _).tryCatch fun failure => ?_
  split
  · exact .pure _
  · exact .throw _

theorem keeps_loadMarkets (path : String) : Keeps P (Source.loadMarkets path) :=
  hP.keeps_readLines.bind fun _ => (hP.keeps_traced (Market.quiet_ofLines _)).bind fun _ =>
    (hP.note (by decide)).bind fun _ => .pure _

theorem keeps_loadDataset (path : String) : Keeps P (Source.loadDataset path) := by
  refine (hP.exists? _).bind fun there => ?_
  split
  · exact (hP.note (by decide)).bind fun _ => .pure _
  · refine hP.keeps_tryLines.bind fun lines => ?_
    split
    · exact (hP.note (by decide)).bind fun _ => .pure _
    · exact (hP.note (by decide)).bind fun _ => .pure _

theorem keeps_loadFirst (paths : List Path) : Keeps P (Source.loadFirst paths) := by
  induction paths with
  | nil => exact .pure _
  | cons path rest ih =>
    refine (hP.exists? _).bind fun there => ?_
    split
    · exact (hP.note (by decide)).bind fun _ => ih
    · refine hP.keeps_tryLines.bind fun lines => ?_
      split
      · exact (hP.note (by decide)).bind fun _ => ih
      · dsimp only
        split
        · exact (hP.note (by decide)).bind fun _ => .pure _
        · exact .pure _

theorem keeps_loadStates : Keeps P (StateFile.load q) := by
  refine (hP.exists? q).bind fun there => ?_
  split
  · exact .pure []
  · refine Keeps.tryCatch ((hP.read q).bind fun bytes => ?_) fun failure => ?_
    · split
      · exact .pure _
      · exact .throw _
    · split
      · exact (hP.note (by decide)).bind fun _ => .pure []
      · exact (hP.note (by decide)).bind fun _ => .pure []
      · exact .throw _

theorem keeps_saveStates (hcall : ∀ temporary bytes,
    Keeps P (Work.call (StateFile.replace q temporary bytes))) (states : States) :
    Keeps P (StateFile.save q states) := by
  refine Keeps.get.bind fun w => Keeps.bind (keeps_ifRefused (hcall _ _) fun fault => .throw _) ?_
  exact fun _ => hP.note (by decide)

end Source

end Lasting

end TradingHours
