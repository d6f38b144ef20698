import TradingHours.Proofs.Disk.Granted
import TradingHours.Proofs.World.Holds
/-!
What a file of lines is after it was written without a failure, and that it is written where nothing
is in its way.
-/
namespace TradingHours.Output

variable {o : Outlet} {p : Disk.Path} {lines : List String} {written : Written} {w w' : World}

/-- What writing a file of lines comes to: its calls are refused, or the file is written. -/
theorem exec_writeLines_fst (o : Outlet) (p : Disk.Path) (lines : List String) (w : World) :
    (exec (writeLines o p lines) w).1 =
      match (exec (fileCall p lines) w.disk).1 with
      | .ok _ => .ok ⟨p, lines.length⟩
      | .error (.refused cause paths) => .error (.incident (writeIncident p (.refused cause paths)))
      | .error .embeddedNul => .error (.disk .embeddedNul) := by
  have hcall := exec_call (c := fileCall p lines) (w := w)
  have hwrite : exec (writeLines o p lines) w =
      exec (Work.ifRefused (Work.call (fileCall p lines)) _ >>= _) w := rfl
  rw [hwrite, exec_bind, Work.ifRefused, exec_tryCatch, hcall]
  cases (exec (fileCall p lines) w.disk).1 with
  | ok _ => rfl
  | error fault => cases fault <;> rfl

theorem isOk_writeLines (o : Outlet) (p : Disk.Path) (lines : List String) (w : World) :
    (exec (writeLines o p lines) w).1.isOk = (exec (fileCall p lines) w.disk).1.isOk := by
  rw [exec_writeLines_fst]
  cases (exec (fileCall p lines) w.disk).1 with
  | ok _ => rfl
  | error fault => cases fault <;> rfl

/-- The lines of the file that a path leads to are the ones that were written. -/
theorem of_returns_writeLines (h : Returns (writeLines o p lines) w written w') :
    written = ⟨p, lines.length⟩ ∧
      w'.disk.entryOf p = .ok (.file (Text.encodeUtf8 (Text.unlines lines))) := by
  obtain ⟨_, w₁, hwrite, h⟩ := returns_bind.1 h
  -- the count of files does not touch the disk
  obtain ⟨_, w₂, hcount, h⟩ := returns_bind.1 h
  obtain ⟨rfl, rfl⟩ := returns_pure.1 h
  refine ⟨rfl, ?_⟩
  have hdisk : w₂.disk = w₁.disk := by
    cases hcount
    rfl
  rw [hdisk]
  rcases returns_tryCatch.1 hwrite with hcall | ⟨failure, w₃, -, hhandle⟩
  · obtain ⟨hresult, hleft⟩ := returns_call hcall
    have hdone : Returns (do
        Disk.ensureFolders p.parent
        Disk.write p (Text.encodeUtf8 (Text.unlines lines))) w.disk () w₁.disk :=
      Prod.ext hresult hleft.symm
    obtain ⟨_, d, -, hfile⟩ := returns_bind.1 hdone
    exact Disk.entryOf_of_returns_write hfile
  · -- a refused write is noted and fails all the same
    exfalso
    dsimp only at hhandle
    split at hhandle
    · obtain ⟨_, _, -, hthrow⟩ := returns_bind.1 hhandle
      exact not_returns_throw hthrow
    · exact not_returns_throw hhandle

section Clear

variable {home : Place} (hc : w.disk.Clear home p)
include hc

theorem returns_writeLines (o : Outlet) (lines : List String) :
    ∃ w', Returns (writeLines o p lines) w ⟨p, lines.length⟩ w' := by
  obtain ⟨d, hwrite⟩ := hc.returns_write (Text.encodeUtf8 (Text.unlines lines))
  have hcall : Returns (Work.call (fileCall p lines)) w () { w with disk := d } := by
    rw [Returns, exec_call, fileCall,
      exec_bind_ok (Disk.exec_ensureFolders_of_folder hc.free hc.around),
      show exec (Disk.write _ _) w.disk = _ from hwrite]
    rfl
  exact ⟨_, returns_bind.2 ⟨⟨⟩, _, returns_tryCatch.2 (.inl hcall),
    returns_bind.2 ⟨⟨⟩, _, rfl, returns_pure.2 ⟨rfl, rfl⟩⟩⟩⟩

theorem returns_writeSender (host : String) (markets : List Market)
    (states : List (String × Bool)) :
    ∃ written w', Returns (writeSender p host markets states) w written w' := by
  obtain ⟨w₁, hlines⟩ := returns_writeLines hc .sender (senderLines host markets states)
  exact ⟨_, _, returns_bind.2 ⟨_, w₁, hlines, returns_bind.2 ⟨⟨⟩, _, exec_note, rfl⟩⟩⟩

end Clear

end TradingHours.Output
