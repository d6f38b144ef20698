import TradingHours.Proofs.Disk.Lookup
import TradingHours.Proofs.Disk.Names
import TradingHours.Proofs.World.Holds
import TradingHours.Source.Loading
/-!
What loading sources comes to. A file that cannot be read or decoded counts as one that is not
there, and the next candidate is looked at; but the question whether a candidate is there may be
refused, and then the loader fails. Main statement: `loaders_settle`.
-/
namespace TradingHours

open Disk (Path Fault)

namespace Disk

variable {p : Path} {d d' : Disk} {fault : Fault}

def linesOf : Except Fault Entry → Option (List String)
  | .ok (.file bytes) => (Text.decodeUtf8 bytes).toOption.map Text.lines
  | _ => none

theorem of_linesOf {r : Except Fault Entry} {lines : List String} (h : linesOf r = some lines) :
    ∃ bytes text, r = .ok (.file bytes) ∧ Text.decodeUtf8 bytes = .ok text ∧
      Text.lines text = lines := by
  cases r with
  | error fault => cases h
  | ok entry =>
    cases entry with
    | folder => cases h
    | file bytes =>
      cases hdecode : Text.decodeUtf8 bytes with
      | error refusal => simp [linesOf, hdecode, Except.toOption] at h
      | ok text =>
        rw [linesOf, hdecode] at h
        exact ⟨bytes, text, rfl, hdecode, Option.some.inj h⟩

/-- What becomes of a candidate: it has lines or none that can be read, or the question whether it
is there is refused. -/
def sight (d : Disk) (p : Path) : Except Fault (Option (List String)) :=
  match d.answer p with
  | .ok _ => .ok (linesOf (d.afterCall.answer p))
  | .error fault => if fault.meansAbsent then .ok none else .error fault

section Free

variable (hfree : d.refusals = [])
include hfree

theorem sight_of_free : d.sight p =
    match d.entryOf p with
    | .ok entry => .ok (linesOf (.ok entry))
    | .error fault => if fault.meansAbsent then .ok none else .error fault := by
  rw [sight, afterCall_of_free hfree, answer_of_grants (grants_of_free hfree 1)]
  cases d.entryOf p <;> rfl

theorem sight_of_overlong (h : d.Overlong p) :
    d.sight p = .error (.refused .nameTooLong [p.text]) := by
  have hentry : d.entryOf p = .error (.refused .nameTooLong [p.text]) := by
    rw [entryOf, overlong_iff.1 h]
    rfl
  rw [sight_of_free hfree, hentry]
  rfl

theorem sight_of_not_overlong (h : ¬ d.Overlong p) : d.sight p = .ok (linesOf (d.entryOf p)) := by
  rw [sight_of_free hfree]
  cases hentry : d.entryOf p with
  | ok entry => rfl
  | error fault =>
    have habsent : fault.meansAbsent = true := by
      rcases entryOf_eq_error hentry with habsent | hloc
      · exact habsent
      · refine (locate_eq_error hloc).resolve_right fun hfault => h (overlong_iff.2 ?_)
        rw [hloc, hfault]
    dsimp only
    rw [if_pos habsent]
    rfl

end Free

/-- The log makes no difference for the file of a path, unless it is that file. -/
theorem Logged.sight_eq (h : Logged d d') (hfree : d.refusals = [])
    (hp : ∀ place, d.growing = some place → d.locate p ≠ .ok place) : d'.sight p = d.sight p := by
  rw [sight_of_free hfree, sight_of_free h.free, h.entryOf_eq hp]

end Disk

namespace Source

variable {p : Path} {w : World} {fault : Fault} {lines : List String}

def looked (w : World) : World := { w with disk := w.disk.afterCall }

theorem exec_exists_call : exec (Work.call (Disk.exists? p)) w =
    (match w.disk.answer p with
      | .ok _ => .ok true
      | .error fault => if fault.meansAbsent then .ok false else .error (.disk fault),
      looked w) := by
  rw [exec_call, Disk.exec_exists?_eq, looked]
  cases w.disk.answer p with
  | ok entry => rfl
  | error fault =>
    dsimp only
    split <;> rfl

theorem exec_readLines : exec (readLines p) w =
    (match w.disk.answer p with
      | .ok (.file bytes) =>
        match Text.decodeUtf8 bytes with
        | .ok text => .ok (Text.lines text)
        | .error refusal => .error (.undecodable refusal)
      | .ok .folder => .error (.disk (.refused .isFolder [p.text]))
      | .error fault => .error (.disk fault), looked w) := by
  have hread := exec_call (c := Disk.read p) (w := w)
  rw [Disk.exec_read_eq] at hread
  rw [readLines]
  cases hanswer : w.disk.answer p with
  | error fault =>
    rw [hanswer] at hread
    exact exec_bind_error hread
  | ok entry =>
    rw [hanswer] at hread
    cases entry with
    | folder => exact exec_bind_error hread
    | file bytes =>
      rw [exec_bind_ok hread]
      dsimp only
      cases Text.decodeUtf8 bytes <;> rfl

theorem exec_tryLines_of_lines (h : Disk.linesOf (w.disk.answer p) = some lines) :
    exec (tryLines p) w = (.ok (.ok lines), looked w) := by
  obtain ⟨bytes, text, hanswer, hdecode, rfl⟩ := Disk.of_linesOf h
  have hread : exec (readLines p) w = (.ok (Text.lines text), looked w) := by
    rw [exec_readLines, hanswer]
    dsimp only
    rw [hdecode]
  rw [tryLines, exec_tryCatch, exec_bind_ok hread]
  rfl

theorem exec_tryLines_of_none (h : Disk.linesOf (w.disk.answer p) = none)
    (hnul : w.disk.answer p ≠ .error .embeddedNul) :
    ∃ why, exec (tryLines p) w = (.ok (.error why), looked w) := by
  have hread : ∃ failure, isUnreadable failure = true ∧
      exec (readLines p) w = (.error failure, looked w) := by
    rw [exec_readLines]
    cases hanswer : w.disk.answer p with
    | error fault =>
      cases fault with
      | refused cause paths => exact ⟨_, rfl, rfl⟩
      | embeddedNul => exact absurd hanswer hnul
    | ok entry =>
      cases entry with
      | folder => exact ⟨_, rfl, rfl⟩
      | file bytes =>
        rw [hanswer] at h
        dsimp only
        cases hdecode : Text.decodeUtf8 bytes with
        | error refusal => exact ⟨_, rfl, rfl⟩
        | ok text => simp [Disk.linesOf, hdecode, Except.toOption] at h
  obtain ⟨failure, hfailure, hread⟩ := hread
  refine ⟨failure.message, ?_⟩
  rw [tryLines, exec_tryCatch, exec_bind_error hread]
  dsimp only
  rw [if_pos hfailure]
  rfl

/-- How the test whether a candidate is there and the reading of it go. -/
theorem exec_candidate (p : Path) (w : World) :
    (∃ fault, w.disk.sight p = .error fault ∧
      exec (Work.call (Disk.exists? p)) w = (.error (.disk fault), looked w)) ∨
    (w.disk.sight p = .ok none ∧ exec (Work.call (Disk.exists? p)) w = (.ok false, looked w)) ∨
    exec (Work.call (Disk.exists? p)) w = (.ok true, looked w) ∧
      ((∃ why, w.disk.sight p = .ok none ∧
          exec (tryLines p) (looked w) = (.ok (.error why), looked (looked w))) ∨
        ∃ lines, w.disk.sight p = .ok (some lines) ∧
          exec (tryLines p) (looked w) = (.ok (.ok lines), looked (looked w))) := by
  rw [exec_exists_call, Disk.sight]
  cases hanswer : w.disk.answer p with
  | error fault =>
    by_cases habsent : fault.meansAbsent
    · exact .inr (.inl (by simp [habsent]))
    · exact .inl ⟨fault, by simp [habsent]⟩
  | ok entry =>
    refine .inr (.inr ⟨rfl, ?_⟩)
    cases hlines : Disk.linesOf (w.disk.afterCall.answer p) with
    | some lines => exact .inr ⟨lines, rfl, exec_tryLines_of_lines hlines⟩
    | none =>
      have hnul : w.disk.afterCall.answer p ≠ .error .embeddedNul := by
        rcases Disk.answer_afterCall hanswer with ⟨cause, h⟩ | h <;> simp [h]
      obtain ⟨why, hwhy⟩ := exec_tryLines_of_none (w := looked w) hlines hnul
      exact .inl ⟨why, rfl, hwhy⟩

def tokensFrom (parse : List String → Tokens) : Except Fault (Option (List String)) →
    Except Failure Tokens
  | .ok (some lines) => .ok (parse lines)
  | .ok none => .ok []
  | .error fault => .error (.disk fault)

theorem result_loadDataset (path : String) (w : World) :
    (exec (loadDataset path) w).1 = tokensFrom ofDataset (w.disk.sight (.ofText path)) := by
  rw [loadDataset]
  rcases exec_candidate (.ofText path) w with
    ⟨fault, hsight, hthere⟩ | ⟨hsight, hthere⟩ |
    ⟨hthere, ⟨why, hsight, hlines⟩ | ⟨lines, hsight, hlines⟩⟩
  · rw [hsight, exec_bind_error hthere]
    rfl
  · rw [hsight, exec_bind_ok hthere]
    rfl
  · rw [hsight, exec_bind_ok hthere]
    exact congrArg Prod.fst (exec_bind_ok hlines)
  · rw [hsight, exec_bind_ok hthere]
    exact congrArg Prod.fst (exec_bind_ok hlines)

/-- A loader goes on from a candidate without lines as if it had not been among the candidates. -/
theorem exec_loadFirst_cons (p : Path) (w : World) :
    (w.disk.sight p = .ok none ∧ ∃ w', ∀ rest, exec (loadFirst (p :: rest)) w =
      exec (loadFirst rest) w') ∨
    (∃ lines, w.disk.sight p = .ok (some lines) ∧ ∀ rest,
      (exec (loadFirst (p :: rest)) w).1 = .ok (ofDefinitions lines)) ∨
    ∃ fault, w.disk.sight p = .error fault ∧ ∀ rest,
      (exec (loadFirst (p :: rest)) w).1 = .error (.disk fault) := by
  rcases exec_candidate p w with
    ⟨fault, hsight, hthere⟩ | ⟨hsight, hthere⟩ |
    ⟨hthere, ⟨why, hsight, hlines⟩ | ⟨lines, hsight, hlines⟩⟩
  · refine .inr (.inr ⟨fault, hsight, fun rest => ?_⟩)
    rw [loadFirst, exec_bind_error hthere]
  · let w' := (exec (note .debug "Schedule definition file not found" p []) (looked w)).2
    refine .inl ⟨hsight, w', fun rest => ?_⟩
    rw [loadFirst, exec_bind_ok hthere]
    exact exec_bind_ok exec_note
  · let w' := (exec (note .warning "Failed to read schedule definitions" p [("error", .text why)])
      (looked (looked w))).2
    refine .inl ⟨hsight, w', fun rest => ?_⟩
    rw [loadFirst, exec_bind_ok hthere]
    exact (exec_bind_ok hlines).trans (exec_bind_ok exec_note)
  · refine .inr (.inl ⟨lines, hsight, fun rest => ?_⟩)
    rw [loadFirst, exec_bind_ok hthere]
    refine (congrArg Prod.fst (exec_bind_ok hlines)).trans ?_
    dsimp only
    split
    · rfl
    · rfl

def sights : World → List Path → List (Except Fault (Option (List String)))
  | _, [] => []
  | w, p :: rest => w.disk.sight p :: sights (exec (loadFirst [p]) w).2 rest

def firstSettled : List (Except Fault (Option (List String))) → Except Fault (Option (List String))
  | [] => .ok none
  | .ok none :: rest => firstSettled rest
  | settled :: _ => settled

theorem firstSettled_map_ok (ps : List Path) (lines : Path → Option (List String)) :
    firstSettled (ps.map fun p => .ok (lines p)) = .ok (ps.findSome? lines) := by
  induction ps with
  | nil => rfl
  | cons p rest ih =>
    rw [List.map_cons, List.findSome?_cons]
    cases lines p with
    | none => exact ih
    | some found => rfl

theorem result_loadFirst (ps : List Path) (w : World) :
    (exec (loadFirst ps) w).1 = tokensFrom ofDefinitions (firstSettled (sights w ps)) := by
  induction ps generalizing w with
  | nil => rfl
  | cons p rest ih =>
    rw [sights]
    rcases exec_loadFirst_cons p w with ⟨hsight, w', hnext⟩ | ⟨lines, hsight, hnext⟩ |
      ⟨fault, hsight, hnext⟩
    · have hstep : exec (loadFirst [p]) w = (.ok [], w') := hnext []
      rw [hsight, hnext, ih, hstep]
      rfl
    · rw [hsight, hnext]
      rfl
    · rw [hsight, hnext]
      rfl

theorem sights_of_aside {w : World} {ps : List Path} (hfree : w.disk.refusals = [])
    (hps : ∀ p ∈ ps, ∀ place, w.disk.growing = some place → w.disk.locate p ≠ .ok place) :
    sights w ps = ps.map w.disk.sight := by
  have hgrown : ∀ w', Disk.Logged w.disk w'.disk → sights w' ps = ps.map w.disk.sight := by
    induction ps with
    | nil => exact fun _ _ => rfl
    | cons p rest ih =>
      intro w' hw'
      have hnext := (Disk.lasting_of_grow Disk.Logged.outlastsRefusals
        fun d bytes hd => hd.grow bytes).keeps_loadFirst [p] w' hw'
      rw [sights, hw'.sight_eq hfree (hps p List.mem_cons_self), List.map_cons,
        ih (fun q hq => hps q (List.mem_cons_of_mem p hq)) _ hnext]
  exact hgrown w (Disk.logged_self hfree)

def candidates (path fallback : Option String) : List Path :=
  (path.toList ++ fallback.toList).map .ofText

/-- A loader returns the tokens of the first candidate that can be read and decoded, or none; it
fails only if the question whether a candidate is there is refused, and that for another reason than
that it is not there. On a tree that refuses nothing for other reasons, this is so exactly for a
path that is too long; and the journal makes no difference unless it is kept in a candidate. -/
theorem loaders_settle (w : World) :
    (∀ path, (exec (loadDataset path) w).1 =
      tokensFrom ofDataset (w.disk.sight (.ofText path))) ∧
    (∀ path fallback, (exec (loadDefinitions path fallback) w).1 =
      tokensFrom ofDefinitions (firstSettled (sights w (candidates path fallback)))) ∧
    (w.disk.refusals = [] → ∀ p,
      (w.disk.Overlong p → w.disk.sight p = .error (.refused .nameTooLong [p.text])) ∧
      (¬ w.disk.Overlong p → w.disk.sight p = .ok (Disk.linesOf (w.disk.entryOf p)))) ∧
    (w.disk.refusals = [] → ∀ path fallback,
      (∀ p ∈ candidates path fallback, ∀ place,
        w.disk.growing = some place → w.disk.locate p ≠ .ok place) →
      sights w (candidates path fallback) = (candidates path fallback).map w.disk.sight ∧
      ((∀ p ∈ candidates path fallback, ¬ w.disk.Overlong p) →
        (exec (loadDefinitions path fallback) w).1 =
          .ok (((candidates path fallback).findSome? fun p =>
            Disk.linesOf (w.disk.entryOf p)).elim [] ofDefinitions))) := by
  refine ⟨fun path => result_loadDataset path w, fun _ _ => result_loadFirst _ w,
    fun hfree p => ⟨Disk.sight_of_overlong hfree, Disk.sight_of_not_overlong hfree⟩,
    fun hfree path fallback haside => ⟨sights_of_aside hfree haside, fun hshort => ?_⟩⟩
  have hsights : sights w (candidates path fallback) = (candidates path fallback).map fun p =>
      .ok (Disk.linesOf (w.disk.entryOf p)) := by
    rw [sights_of_aside hfree haside]
    exact List.map_congr_left fun p hp => Disk.sight_of_not_overlong hfree (hshort p hp)
  rw [loadDefinitions, ← candidates, result_loadFirst, hsights, firstSettled_map_ok]
  generalize (candidates path fallback).findSome? _ = found
  cases found <;> rfl

section Tree

def definitionTree : World where
  disk := (Disk.lay (.empty ["srv"]) ⟨.relative, ["old"]⟩ .folder).lay ⟨.relative, ["new.list"]⟩
    (.file (Text.encodeUtf8 "tv.X=p09301600\n"))
  now := .startOfDay ⟨739648, by decide⟩
  mark := ""

theorem sight_newList :
    definitionTree.disk.sight (.ofText "new.list") = .ok (some ["tv.X=p09301600"]) := by
  have hlines : Text.lines "tv.X=p09301600\n" = ["tv.X=p09301600"] := by decide +kernel
  exact congrArg (Except.ok ∘ some) hlines

/-- Definitions are not read from a folder, but from the file that is named next. -/
theorem loaders_settle_definitionTree :
    definitionTree.disk.refusals = [] ∧
    (∀ p ∈ candidates (some "old") (some "new.list"), ¬ definitionTree.disk.Overlong p) ∧
    (exec (loadDefinitions (some "old") (some "new.list")) definitionTree).1 =
      .ok [("tv.X", "p09301600")] ∧
    (exec (loadDataset "gone.csv") definitionTree).1 = .ok [] := by
  obtain ⟨hdataset, -, hsight, hsights⟩ := loaders_settle definitionTree
  have hfree : definitionTree.disk.refusals = [] := by decide +kernel
  have haside : definitionTree.disk.growing = none := by decide +kernel
  have hfolder : definitionTree.disk.sight (.ofText "old") = .ok none := rfl
  have hgone : definitionTree.disk.sight (.ofText "gone.csv") = .ok none := rfl
  have hshort : ∀ p ∈ candidates (some "old") (some "new.list"),
      ¬ definitionTree.disk.Overlong p := by
    intro p hp hlong
    have hrefused := (hsight hfree p).1 hlong
    obtain rfl | rfl : p = .ofText "old" ∨ p = .ofText "new.list" := by simpa [candidates] using hp
    · cases hfolder.symm.trans hrefused
    · cases sight_newList.symm.trans hrefused
  refine ⟨hfree, hshort, ?_, ?_⟩
  · have hfound : ∀ p ∈ candidates (some "old") (some "new.list"),
        definitionTree.disk.sight p = .ok (Disk.linesOf (definitionTree.disk.entryOf p)) :=
      fun p hp => (hsight hfree p).2 (hshort p hp)
    have hold : Disk.linesOf (definitionTree.disk.entryOf (.ofText "old")) = none :=
      (Except.ok.inj (hfolder.symm.trans (hfound _ (by simp [candidates])))).symm
    have hnew : Disk.linesOf (definitionTree.disk.entryOf (.ofText "new.list")) =
        some ["tv.X=p09301600"] :=
      (Except.ok.inj (sight_newList.symm.trans (hfound _ (by simp [candidates])))).symm
    rw [(hsights hfree _ _ (by simp [haside])).2 hshort]
    change Except.ok ((List.findSome? _ [Path.ofText "old", Path.ofText "new.list"]).elim [] _) = _
    rw [List.findSome?_cons, hold, List.findSome?_cons, hnew]
    exact congrArg Except.ok (by decide +kernel)
  · rw [hdataset, hgone]
    rfl

def overlongName : String := String.ofList (List.replicate 256 'a')

theorem sight_overlongName : definitionTree.disk.sight (.ofText overlongName) =
    .error (.refused .nameTooLong [overlongName]) := by
  have hfree : definitionTree.disk.refusals = [] := by decide +kernel
  have hchars : overlongName.toList = List.replicate 256 'a' := String.toList_ofList
  have hname : Disk.FileName overlongName := by
    refine Disk.fileName_of_long ?_ ?_
    · rw [hchars, List.mem_replicate]
      decide
    · rw [hchars, List.length_replicate]
      decide
  have htext : (⟨.relative, [overlongName]⟩ : Path).text = overlongName := by
    simp [Path.text]
  have hnul : (⟨.relative, [overlongName]⟩ : Path).hasNul = false := by
    rw [Path.hasNul, htext, hchars]
    decide
  have hlong : ¬ Disk.Short overlongName := by
    rw [Disk.Short, not_or]
    exact ⟨hname.dots, by decide +kernel⟩
  rw [Path.ofText_fileName hname, Disk.sight_of_overlong hfree, htext]
  exact ⟨hnul, .inr ⟨[], overlongName, [], _, rfl, rfl, rfl, hlong⟩⟩

/-- A name that is too long is not taken for a file that is not there: the dataset loader fails, and
so does the loader of the definitions, which would have read the file that is named next. -/
theorem loaders_overlongName :
    (exec (loadDataset overlongName) definitionTree).1 =
      .error (.disk (.refused .nameTooLong [overlongName])) ∧
    (exec (loadDefinitions (some overlongName) (some "new.list")) definitionTree).1 =
      .error (.disk (.refused .nameTooLong [overlongName])) ∧
    (exec (loadDefinitions none (some "new.list")) definitionTree).1 =
      .ok [("tv.X", "p09301600")] := by
  refine ⟨?_, ?_, ?_⟩
  · rw [result_loadDataset, sight_overlongName]
    rfl
  · rw [loadDefinitions, result_loadFirst]
    change tokensFrom ofDefinitions (firstSettled
      (definitionTree.disk.sight (.ofText overlongName) :: _)) = _
    rw [sight_overlongName]
    rfl
  · rw [loadDefinitions, result_loadFirst]
    change tokensFrom ofDefinitions (firstSettled
      [definitionTree.disk.sight (.ofText "new.list")]) = _
    rw [sight_newList]
    exact congrArg Except.ok (by decide +kernel)

end Tree

end Source

end TradingHours
