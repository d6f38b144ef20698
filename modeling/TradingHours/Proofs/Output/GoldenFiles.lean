import TradingHours.Proofs.Disk.Writable
import TradingHours.Proofs.Output.GoldenPath
import TradingHours.Proofs.Output.GoldenTurns
import TradingHours.Proofs.Output.Precomputed
/-!
Which reference files are there after the files of many keys were written. What could be written on
its own is written when its turn comes, and stays. Main statement: `writeAll_turns`.
-/
namespace TradingHours.Output.Golden

open Disk (Path Writable Aside)
open Policy (references emptyWorld newYear)
open Schedule (tokenVector)

variable {g : Golden} {d : Day} {tvKey token : String} {tokens : Source.Tokens} {w w' : World}

section Files

variable {home : Place} {lines : List String}

def Writes (g : Golden) (d : Day) (token : String) (lines : List String) : Prop :=
  ∀ tvKey w, exec (g.writeToken tvKey token d) w =
    exec (writeLines .golden (g.path tvKey d) lines) w

theorem lasting_writable {p : Path} : Lasting fun w => Writable home p w.disk :=
  Disk.lasting_of_grow Writable.outlastsRefusals fun _ bytes h => h.grow bytes

/-- What is done at the turn of another key leaves a path as it was, unless one file is in the way
of the other. -/
theorem keeps_writable {p : Path} (hother : ¬ (g.path tvKey d).InWay home p)
    (hown : ¬ p.InWay home (g.path tvKey d)) (token : String) :
    Keeps (fun w => Writable home p w.disk) (g.attempt d tvKey token) :=
  keeps_attempt lasting_writable fun _ => keeps_call (Writable.keeps_otherFile hother hown _)

/-- Neither the file of a key nor the one of any other key is in the way of the other. -/
def Apart (g : Golden) (d : Day) (home : Place) (tokens : Source.Tokens) (tvKey : String) : Prop :=
  ∀ other ∈ Table.keys tokens, ¬ (g.path other d).InWay home (g.path tvKey d) ∧
    ¬ (g.path tvKey d).InWay home (g.path other d)

theorem Apart.of_cons {rest : Source.Tokens} {other schedule : String}
    (h : g.Apart d home ((other, schedule) :: rest) tvKey) :
    Keeps (fun w => Writable home (g.path tvKey d) w.disk) (g.attempt d other schedule) ∧
      g.Apart d home rest tvKey := by
  obtain ⟨⟨hother, hown⟩, hrest⟩ := List.forall_mem_cons.1 h
  exact ⟨keeps_writable hother hown schedule, hrest⟩

/-- Keys without a slash have files that are not in the way of each other. -/
theorem apart_of_plain (hplain : ∀ key ∈ Table.keys tokens, '/' ∉ key.toList)
    (hkey : tvKey ∈ Table.keys tokens) : g.Apart d home tokens tvKey := by
  intro other hother
  have hparent := parent_path_eq g d (hplain tvKey hkey) (hplain other hother)
  exact ⟨Path.not_inWay_of_parent_eq hparent, Path.not_inWay_of_parent_eq hparent.symm⟩

theorem exec_fileCall_of_writable {p : Path} {disk : Disk} (hw : Writable home p disk)
    (lines : List String) : (exec (fileCall p lines) disk).1 = .ok () := by
  obtain rfl := hw.home_eq
  obtain ⟨_, hcall⟩ := (Disk.writable_iff hw.free (Text.encodeUtf8 (Text.unlines lines))).1 hw
  exact congrArg Prod.fst hcall

theorem fst_exec_writeToken_of_writable
    (hlines : g.Writes d token lines)
    (hw : Writable home (g.path tvKey d) w.disk) :
    (exec (g.writeToken tvKey token d) w).1 = .ok ⟨g.path tvKey d, lines.length⟩ := by
  rw [hlines, exec_writeLines_fst, exec_fileCall_of_writable hw]

/-- A key whose file can be written before the turns is written when its turn comes. -/
theorem written_in_turn (hmem : (tvKey, token) ∈ tokens) (hapart : g.Apart d home tokens tvKey)
    (hlines : g.Writes d token lines)
    (hw : Writable home (g.path tvKey d) w.disk) :
    (tvKey, .ok ⟨g.path tvKey d, lines.length⟩) ∈ g.turns d w tokens := by
  induction tokens generalizing w with
  | nil => cases hmem
  | cons pair rest ih =>
    obtain ⟨other, schedule⟩ := pair
    obtain ⟨hturn, hrest⟩ := hapart.of_cons
    rw [turns]
    rcases List.mem_cons.1 hmem with heq | hmem
    · cases heq
      rw [fst_exec_writeToken_of_writable hlines hw]
      exact List.mem_cons_self
    · exact List.mem_cons_of_mem _ (ih hmem hrest (hturn w hw))

theorem entryOf_of_returns_attempt {one : Nat}
    (hlines : g.Writes d token lines)
    (hw : Writable home (g.path tvKey d) w.disk) (h : Returns (g.attempt d tvKey token) w one w') :
    w'.disk.entryOf (g.path tvKey d) = .ok (.file (Text.encodeUtf8 (Text.unlines lines))) := by
  have hresult := fst_exec_writeToken_of_writable hlines hw
  rw [attempt, counted] at h
  rcases returns_tryCatch.1 h with h | ⟨failure, w₁, hfailed, -⟩
  · obtain ⟨written, w₁, hwrite, h⟩ := returns_bind.1 h
    obtain ⟨-, rfl⟩ := returns_pure.1 h
    rw [Returns, hlines] at hwrite
    exact (of_returns_writeLines hwrite).2
  · cases hr : exec (g.writeToken tvKey token d) w with
    | mk result w₂ =>
      rw [hr] at hresult
      cases hresult
      rw [exec_bind_ok hr] at hfailed
      cases hfailed

theorem of_returns_writeInOrder_cons {rest : Source.Tokens} {n : Nat}
    (h : Returns (g.writeInOrder d ((tvKey, token) :: rest)) w n w') :
    ∃ one w₁ more, Returns (g.attempt d tvKey token) w one w₁ ∧
      Returns (g.writeInOrder d rest) w₁ more w' := by
  rw [writeInOrder_cons] at h
  obtain ⟨one, w₁, hone, h⟩ := returns_bind.1 h
  obtain ⟨more, w₂, hmore, h⟩ := returns_bind.1 h
  obtain ⟨-, rfl⟩ := returns_pure.1 h
  exact ⟨one, w₁, more, hone, hmore⟩

/-- The file that was written in the turn of a key is there after all turns, if no other key has the
same file and the open log is not in it. -/
theorem holds_after_turns {n : Nat} (hmem : (tvKey, token) ∈ tokens)
    (hapart : g.Apart d home tokens tvKey) (hkeys : (Table.keys tokens).Nodup)
    (hplaces : ∀ other ∈ Table.keys tokens, other ≠ tvKey →
      (g.path other d).placeFrom home ≠ (g.path tvKey d).placeFrom home)
    (hlines : g.Writes d token lines)
    (hw : Writable home (g.path tvKey d) w.disk)
    (haside : Aside home ((g.path tvKey d).placeFrom home) w.disk)
    (h : Returns (g.writeInOrder d tokens) w n w') :
    w'.Holds (g.path tvKey d) home (some (Text.encodeUtf8 (Text.unlines lines))) := by
  induction tokens generalizing w n with
  | nil => cases hmem
  | cons pair rest ih =>
    obtain ⟨other, schedule⟩ := pair
    obtain ⟨one, w₁, more, hone, hmore⟩ := of_returns_writeInOrder_cons h
    obtain ⟨hturn, hrest⟩ := hapart.of_cons
    have hothers := (List.forall_mem_cons.1 hplaces).2
    obtain ⟨hnew, hdistinct⟩ := List.nodup_cons.1 hkeys
    have hstays : Keeps (fun w => Aside home ((g.path tvKey d).placeFrom home) w.disk)
        (g.attempt d other schedule) :=
      keeps_attempt Aside.about.toBears.lasting fun lines => Aside.about.keeps_fileCall id lines
    have haside₁ := hstays.of_returns haside hone
    rcases List.mem_cons.1 hmem with heq | hmem
    · cases heq
      have hfile := haside₁.holds (entryOf_of_returns_attempt hlines hw hone)
      have hlast : Keeps (World.Holds (g.path tvKey d) home
          (some (Text.encodeUtf8 (Text.unlines lines)))) (g.writeInOrder d rest) := by
        refine keeps_writeInOrder World.Holds.lasting fun key hkey lines => ?_
        refine World.Holds.keeps_fileCall (hothers key hkey ?_) lines
        rintro rfl
        exact hnew hkey
      exact hlast.of_returns hfile hmore
    · exact ih hmem hrest hdistinct hothers (hturn.of_returns hw hone) haside₁ hmore

/-- What writing a key on its own says, where no call is refused for other reasons than the tree. -/
theorem of_returns_writeToken {written : Written} (hfree : w.disk.refusals = [])
    (h : Returns (g.writeToken tvKey token d) w written w') :
    ∃ lines, g.Writes d token lines ∧ written = ⟨g.path tvKey d, lines.length⟩ ∧
      Writable w.disk.home (g.path tvKey d) w.disk ∧
      w'.disk.entryOf (g.path tvKey d) = .ok (.file (Text.encodeUtf8 (Text.unlines lines))) := by
  cases hvector : tokenVector (some token) d none g.grace with
  | error failure =>
    rw [Returns, exec_writeToken_of_error hvector] at h
    cases h
  | ok states =>
    obtain ⟨lines, -, -, hlines⟩ := exec_writeToken_of_ok hvector
    rw [Returns, hlines] at h
    obtain ⟨rfl, hfile⟩ := of_returns_writeLines h
    refine ⟨lines, hlines, rfl, ?_, hfile⟩
    have hresult := congrArg Prod.fst h
    rw [exec_writeLines_fst] at hresult
    cases hcall : (exec (fileCall (g.path tvKey d) lines) w.disk).1 with
    | ok _ => exact (Disk.writable_iff hfree _).2 ⟨_, Prod.ext hcall rfl⟩
    | error fault =>
      rw [hcall] at hresult
      cases fault <;> cases hresult

end Files

section EmptyWorld

/-- A file can be written in the one folder of a world without files. -/
theorem writable_emptyWorld {name : String} (htake : (⟨.relative, [name]⟩ : Path).Takeable)
    (hname : name ≠ "..") : Writable ["srv"] ⟨.relative, [name]⟩ emptyWorld.disk := by
  have hplace : Path.placeFrom ["srv"] ⟨.relative, [name]⟩ = [name, "srv"] := by
    simp [Path.placeFrom, Place.step, hname]
  have hplaces : Path.places ["srv"] (⟨.relative, [name]⟩ : Path).parent = [["srv"]] := by
    simp [Path.places, Path.parent]
  refine ⟨rfl, rfl, htake, ?_, ?_, ?_⟩
  · rw [hplaces]
    intro place hmem bytes
    rw [List.mem_singleton.1 hmem]
    rintro ⟨⟩
  · rw [hplaces, hplace]
    simp
  · rw [hplace]
    have hnone : emptyWorld.disk.found? [name, "srv"] = none := by
      simp [emptyWorld, Disk.empty, Disk.withFolders, Disk.found?, Disk.put, Table.get?, Table.put]
    rw [hnone]
    rintro ⟨⟩

theorem returns_writeToken_emptyWorld {d : Day} {tvKey token name : String} {states : List Bool}
    (hpath : references.path tvKey d = ⟨.relative, [name]⟩)
    (htake : (⟨.relative, [name]⟩ : Path).Takeable) (hname : name ≠ "..")
    (hvector : tokenVector (some token) d none references.grace = .ok states) :
    ∃ written w₁, Returns (references.writeToken tvKey token d) emptyWorld written w₁ := by
  obtain ⟨lines, -, -, hlines⟩ := exec_writeToken_of_ok hvector
  have hw : Writable ["srv"] (references.path tvKey d) emptyWorld.disk := by
    rw [hpath]
    exact writable_emptyWorld htake hname
  have hresult := fst_exec_writeToken_of_writable hlines hw
  obtain ⟨written, hwrite⟩ := returns_of_isOk (by rw [hresult]; rfl)
  exact ⟨written, _, hwrite⟩

end EmptyWorld

/-- Writing the files of all keys ends as the turns of the keys in order say. If no path holds a
NUL, it ends with a date out of range if the vector of some key strays from the calendar, and else
with the number of keys whose file was written. When it returns, on a tree that refuses nothing for
other reasons, every key that could be written on its own was written when its turn came, provided
its file and those of other keys are not in the way of each other; and if no other key has the same
file and the open log is not in it, its file is what it is after writing this key alone. -/
theorem writeAll_turns (g : Golden) (tokens : Source.Tokens) (d : Day) (w : World) :
    (exec (g.writeAll tokens d) w).1 = ending (g.turns d w (inOrder tokens)) ∧
    ((∀ tvKey ∈ Table.keys tokens, (g.path tvKey d).hasNul = false) →
      ((∃ pair ∈ tokens, g.Strays d pair.2) →
        (exec (g.writeAll tokens d) w).1 = .error .dateOutOfRange) ∧
      ((∀ pair ∈ tokens, ¬ g.Strays d pair.2) →
        (exec (g.writeAll tokens d) w).1 =
          .ok ((g.turns d w (inOrder tokens)).countP (·.2.isOk)))) ∧
    ∀ n w', w.disk.refusals = [] → Returns (g.writeAll tokens d) w n w' →
      ∀ tvKey token written w₁, (tvKey, token) ∈ tokens →
        Returns (g.writeToken tvKey token d) w written w₁ →
        g.Apart d w.disk.home tokens tvKey →
          (tvKey, .ok written) ∈ g.turns d w (inOrder tokens) ∧
          ((Table.keys tokens).Nodup →
            (∀ other ∈ Table.keys tokens, other ≠ tvKey →
              (g.path other d).placeFrom w.disk.home ≠ (g.path tvKey d).placeFrom w.disk.home) →
            Aside w.disk.home ((g.path tvKey d).placeFrom w.disk.home) w.disk →
              ∃ bytes, w₁.disk.entryOf (g.path tvKey d) = .ok (.file bytes) ∧
                w'.disk.entryOf (g.path tvKey d) = .ok (.file bytes)) := by
  have hperm : (inOrder tokens).Perm tokens := List.mergeSort_perm tokens _
  have hkeysperm : (Table.keys (inOrder tokens)).Perm (Table.keys tokens) := hperm.map _
  refine ⟨exec_writeAll_fst g tokens d w, fun hnul => ?_, ?_⟩
  · have hnul' : ∀ tvKey ∈ Table.keys (inOrder tokens), (g.path tvKey d).hasNul = false :=
      fun tvKey hkey => hnul tvKey (hkeysperm.mem_iff.1 hkey)
    obtain ⟨hsome, hnone⟩ := ending_turns hnul' w
    rw [exec_writeAll_fst]
    refine ⟨fun ⟨pair, hpair, hstrays⟩ => hsome ⟨pair, hperm.mem_iff.2 hpair, hstrays⟩,
      fun h => hnone fun pair hpair => h pair (hperm.mem_iff.1 hpair)⟩
  · intro n w' hfree hall tvKey token written w₁ hmem halone hapart
    obtain ⟨lines, hlines, rfl, hw, hfile⟩ := of_returns_writeToken hfree halone
    have hmem' : (tvKey, token) ∈ inOrder tokens := hperm.mem_iff.2 hmem
    have hapart' : g.Apart d w.disk.home (inOrder tokens) tvKey :=
      fun other hother => hapart other (hkeysperm.mem_iff.1 hother)
    refine ⟨written_in_turn hmem' hapart' hlines hw, fun hkeys hplaces haside => ?_⟩
    obtain ⟨entry, heq⟩ := exists_writeAll_eq g tokens d
    rw [heq] at hall
    obtain ⟨files, w₂, hturns, hnoted⟩ := returns_bind.1 hall
    obtain ⟨_, w₃, hnote, hreturn⟩ := returns_bind.1 hnoted
    obtain ⟨-, rfl⟩ := returns_pure.1 hreturn
    have hholds := holds_after_turns hmem' hapart' (hkeysperm.nodup_iff.2 hkeys)
      (fun other hother => hplaces other (hkeysperm.mem_iff.1 hother)) hlines hw haside hturns
    have hend := (World.Holds.keeps_note _).of_returns hholds hnote
    exact ⟨_, hfile, (Disk.Holds.entryOf_eq hend).2 rfl⟩

/-- On an ordinary day the work returns, and the file of a venue is there at its end. -/
theorem writeAll_turns_newYear : ∃ n w', Returns
    (references.writeAll [("tv.X", "p22000100"), ("tv.Y", "")] newYear) emptyWorld n w' ∧
      ∃ written bytes, ("tv.X", .ok written) ∈ references.turns newYear emptyWorld
          (inOrder [("tv.X", "p22000100"), ("tv.Y", "")]) ∧
        w'.disk.entryOf (references.path "tv.X" newYear) = .ok (.file bytes) := by
  obtain ⟨-, hends, hfiles⟩ :=
    writeAll_turns references [("tv.X", "p22000100"), ("tv.Y", "")] newYear emptyWorld
  have hreach : ∀ i < minutesPerDay, (newYear.minute i).InReach references.grace :=
    fun i _ => Schedule.inReach_minute (g := 60) (by decide) (by decide) (by decide) i
  have hcount := (hends (by decide +kernel)).2 fun pair _ => not_strays_of_inReach hreach
  obtain ⟨n, hreturns⟩ := returns_of_isOk (by rw [hcount]; rfl)
  have hvector : tokenVector (some "p22000100") newYear none references.grace = .ok _ :=
    Schedule.tokenVector_of_inReach (by decide +kernel) hreach
  obtain ⟨written, w₁, halone⟩ := returns_writeToken_emptyWorld Policy.path_references
    ⟨by decide +kernel, by decide +kernel, by decide⟩ (by decide) hvector
  obtain ⟨hturn, hfile⟩ := hfiles n _ rfl hreturns "tv.X" "p22000100" written w₁ (by simp) halone
    (apart_of_plain (by decide) (by decide))
  obtain ⟨bytes, -, hbytes⟩ := hfile (by decide) (by decide +kernel)
    ⟨⟨rfl, by rintro _ ⟨⟩⟩, by rintro ⟨⟩⟩
  exact ⟨n, _, hreturns, written, bytes, hturn, hbytes⟩

def lastDay : Day := ⟨dayCount - 1, by decide⟩

theorem strays_lastDay : references.Strays lastDay "09301600" := by
  refine ⟨by decide +kernel, 1439, by decide, .inl ?_⟩
  unfold Instant.Reaches
  decide +kernel

/-- On the last day of the calendar a venue with a session stops the file of a venue without one,
which could be written on its own. -/
theorem writeAll_stopped :
    exec (references.writeAll [("tv.A", "09301600"), ("tv.B", "")] lastDay) emptyWorld =
        (.error .dateOutOfRange, emptyWorld) ∧
      ∃ written w₁, Returns (references.writeToken "tv.B" "" lastDay) emptyWorld written w₁ := by
  refine ⟨?_, ?_⟩
  · obtain ⟨entry, heq⟩ :=
      exists_writeAll_eq references [("tv.A", "09301600"), ("tv.B", "")] lastDay
    have horder : inOrder [("tv.A", "09301600"), ("tv.B", "")] =
        [("tv.A", "09301600"), ("tv.B", "")] := List.mergeSort_of_pairwise (by decide)
    rw [heq, horder]
    refine exec_bind_error ?_
    rw [writeInOrder_cons]
    exact exec_bind_error (exec_attempt_of_strays strays_lastDay "tv.A" emptyWorld)
  · have hpath : references.path "tv.B" lastDay = ⟨.relative, ["golden_B_99991231.txt"]⟩ := by
      decide +kernel
    exact returns_writeToken_emptyWorld hpath ⟨by decide +kernel, by decide +kernel, by decide⟩
      (by decide) (Schedule.tokenVector_of_nil (by decide +kernel))

end TradingHours.Output.Golden
