import Mathlib.Logic.Function.Basic
import TradingHours.Proofs.Engine.Polling
/-!
Two runs that share a state file. Each of them loads it and, if states changed, saves it: both steps
are taken as a whole, but nothing holds the file between them. So what a run saves is what it loaded
with its own changes, and the changes of a run that saved in between are gone.

The steps of the world are followed by a plain account of what the file says and what each run has
loaded.
-/
namespace TradingHours.Engine

open Schedule (held)
open StateFile (Storable statesIn sorted)
open Disk (Path)

structure Party where
  markets : List Market
  policy : Policy
  now : Instant

def Party.changes (x : Party) (previous : States) : List Journal.Change :=
  changesOf x.policy previous x.now x.markets

def Party.updated (x : Party) (previous : States) : States :=
  sorted (apply previous (x.changes previous))

inductive Phase
  | waiting
  | resolved (previous : States)
  | saved (previous : States)

inductive Act
  | load (i : Bool)
  | save (i : Bool)
  deriving DecidableEq, Repr

structure Scene where
  world : World
  phase : Bool → Phase

section Steps

variable (p : Path) (home : Place) (parties : Bool → Party)

inductive Step : Scene → List Act → Scene → Prop
  | load {w w' : World} {phase : Bool → Phase} {previous : States} (i : Bool)
      (waits : phase i = .waiting) (grants : w.disk.Grants 2)
      (loads : Returns (StateFile.load p) w previous w') :
      Step ⟨w, phase⟩ [.load i] ⟨w', Function.update phase i (.resolved previous)⟩
  | save {w w' : World} {phase : Bool → Phase} {previous : States} (i : Bool)
      (resolves : phase i = .resolved previous) (changes : (parties i).changes previous ≠ [])
      (saves : Returns (StateFile.save p (apply previous ((parties i).changes previous))) w () w') :
      Step ⟨w, phase⟩ [.save i] ⟨w', Function.update phase i (.saved previous)⟩
  | other {w w' : World} {phase : Bool → Phase}
      (keeps : ∀ content, w.Holds p home content → w'.Holds p home content) :
      Step ⟨w, phase⟩ [] ⟨w', phase⟩

inductive Steps : Scene → List Act → Scene → Prop
  | done {a : Scene} : Steps a [] a
  | step {a b c : Scene} {acts more : List Act} (first : Step p home parties a acts b)
      (rest : Steps b more c) : Steps a (acts ++ more) c

end Steps

section Account

variable {parties : Bool → Party} {states previous : States} {x : Party} {z : Account}

structure Readable (states : States) : Prop where
  nodup : (Table.keys states).Nodup
  storable : ∀ key ∈ Table.keys states, Storable key

theorem readable_statesIn (content : Option ByteArray) : Readable (statesIn content) :=
  ⟨StateFile.nodup_statesIn, fun _ => StateFile.storable_of_mem_statesIn⟩

theorem Readable.apply (h : Readable previous)
    (hstorable : ∀ market ∈ x.markets, Storable market.id) :
    Readable (apply previous (x.changes previous)) := by
  refine ⟨nodup_apply h.nodup, fun key hkey => ?_⟩
  rcases mem_keys_apply.1 hkey with hkey | ⟨change, hchange, rfl⟩
  · exact h.storable key hkey
  · exact storable_of_mem_changesOf hstorable hchange

theorem get?_updated (h : Readable previous) (key : String) :
    (x.updated previous).get? key = (apply previous (x.changes previous)).get? key :=
  StateFile.get?_sorted (nodup_apply h.nodup) key

/-- What the state file says, and what each run has loaded. -/
structure Account where
  file : States
  loaded : Bool → States

def Account.act (parties : Bool → Party) (x : Account) : Act → Account
  | .load i => { x with loaded := Function.update x.loaded i x.file }
  | .save i => { x with file := (parties i).updated (x.loaded i) }

def Account.Follows (parties : Bool → Party) (x : Account) (i : Bool) : Phase → Prop
  | .waiting => True
  | .resolved previous => x.loaded i = previous ∧ Readable previous
  | .saved previous =>
    x.loaded i = previous ∧ Readable previous ∧ (parties i).changes previous ≠ []

theorem Account.Follows.congr {y : Account} {i : Bool} {phase : Phase}
    (h : y.Follows parties i phase) (hloaded : z.loaded i = y.loaded i) :
    z.Follows parties i phase := by
  cases phase with
  | waiting => trivial
  | resolved previous => exact ⟨hloaded.trans h.1, h.2⟩
  | saved previous => exact ⟨hloaded.trans h.1, h.2⟩

structure Tells (p : Path) (home : Place) (parties : Bool → Party) (x : Account) (a : Scene) :
    Prop where
  file : ∃ content, a.world.Holds p home content ∧ statesIn content = x.file
  runs : ∀ i, x.Follows parties i (a.phase i)

theorem Tells.follows {p : Path} {home : Place} {y : Account} {a : Scene} {i : Bool} {phase : Phase}
    (h : Tells p home parties y a) (hphase : a.phase i = phase) : y.Follows parties i phase := by
  rw [← hphase]
  exact h.runs i

end Account

section Run

variable {p : Path} {home : Place} {parties : Bool → Party} {a b c : Scene} {acts : List Act}
  {x : Account}

/-- The step: what a run loads is what the file says, and what it saves is what the file says
then. -/
theorem Step.tells (hstorable : ∀ i, ∀ market ∈ (parties i).markets, Storable market.id)
    (h : Step p home parties a acts b) (hx : Tells p home parties x a) :
    Tells p home parties (acts.foldl (Account.act parties) x) b := by
  obtain ⟨content, hw, hfile⟩ := hx.file
  cases h with
  | load i waits grants loads =>
    rw [StateFile.load_returns hw grants loads]
    have hw' := World.Holds.lasting.keeps_loadStates.of_returns hw loads
    refine ⟨⟨content, hw', hfile⟩, ?_⟩
    refine (Function.forall_update_iff _ fun j phase => Account.Follows parties _ j phase).2
      ⟨⟨?_, readable_statesIn content⟩, fun j hj => (hx.runs j).congr (Function.update_of_ne hj ..)⟩
    exact (Function.update_self ..).trans hfile.symm
  | @save w w' phase previous i resolves changes saves =>
    obtain ⟨hloaded, hreadable⟩ := hx.follows resolves
    have hafter := hreadable.apply (hstorable i)
    refine ⟨⟨_, StateFile.save_returns hw.anchored saves, ?_⟩, ?_⟩
    · rw [StateFile.statesIn_render _ hafter.nodup hafter.storable]
      exact congrArg (parties i).updated hloaded.symm
    · exact (Function.forall_update_iff _ fun j phase => Account.Follows parties _ j phase).2
        ⟨⟨hloaded, hreadable, changes⟩, fun j _ => (hx.runs j).congr rfl⟩
  | other keeps => exact ⟨⟨content, keeps content hw, hfile⟩, hx.runs⟩

theorem Steps.tells (hstorable : ∀ i, ∀ market ∈ (parties i).markets, Storable market.id)
    (h : Steps p home parties a acts b) (hx : Tells p home parties x a) :
    Tells p home parties (acts.foldl (Account.act parties) x) b := by
  induction h generalizing x with
  | done => exact hx
  | step first rest ih =>
    rw [List.foldl_append]
    exact ih (first.tells hstorable hx)

def Act.party : Act → Bool
  | .load i => i
  | .save i => i

def Phase.left (i : Bool) : Phase → List Act
  | .waiting => [.load i, .save i]
  | .resolved _ => [.save i]
  | .saved _ => []

theorem Step.left (h : Step p home parties a acts b) (i : Bool) :
    (a.phase i).left i = acts.filter (·.party = i) ++ (b.phase i).left i := by
  cases h with
  | load j waits _ _ =>
    by_cases hj : i = j
    · subst hj
      simp [waits, Phase.left, Act.party]
    · simp [Function.update_of_ne hj, Act.party, Ne.symm hj]
  | save j resolves _ _ =>
    by_cases hj : i = j
    · subst hj
      simp [resolves, Phase.left, Act.party]
    · simp [Function.update_of_ne hj, Act.party, Ne.symm hj]
  | other _ => rfl

theorem Steps.left (h : Steps p home parties a acts b) (i : Bool) :
    (a.phase i).left i = acts.filter (·.party = i) ++ (b.phase i).left i := by
  induction h with
  | done => rfl
  | step first rest ih => rw [first.left i, ih, List.filter_append, List.append_assoc]

end Run

section Order

variable {parties : Bool → Party} {acts : List Act} {previous : States} {i : Bool} {x : Party}
  {change : Journal.Change}

theorem interleavings (h : ∀ i, acts.filter (·.party = i) = [.load i, .save i]) :
    (∃ i, acts = [.load i, .save i, .load !i, .save !i]) ∨
      ∃ i j, acts = [.load i, .load !i, .save j, .save !j] := by
  have hlength : acts.length = 4 := by
    rw [List.length_eq_length_filter_add (·.party = true)]
    have hfalse : acts.filter (fun act => !decide (act.party = true)) =
        acts.filter (·.party = false) := by simp
    rw [hfalse, h true, h false]
    rfl
  have hfour : ∀ a b c d : Act, (∀ i, [a, b, c, d].filter (·.party = i) = [.load i, .save i]) →
      (∃ i, [a, b, c, d] = [.load i, .save i, .load !i, .save !i]) ∨
        ∃ i j, [a, b, c, d] = [.load i, .load !i, .save j, .save !j] := by
    rintro (i | i) (j | j) (k | k) (l | l) <;> revert i j k l <;> decide
  match acts, hlength with
  | [a, b, c, d], _ => exact hfour a b c d h

theorem get?_updated_of_change (hp : Readable previous) (h : change ∈ x.changes previous) :
    (x.updated previous).get? change.marketId = some change.after := by
  rw [get?_updated hp]
  exact get?_apply_of_change h

theorem get?_updated_of_ne (hp : Readable previous)
    (h : ∀ market ∈ x.markets, market.id ≠ change.marketId) :
    (x.updated previous).get? change.marketId = previous.get? change.marketId := by
  rw [get?_updated hp]
  refine get?_apply_of_not_mem fun hmem => ?_
  obtain ⟨mine, hmine, hid⟩ := List.mem_map.1 hmem
  obtain ⟨market, hm, hmarket⟩ := exists_market_of_change hmine
  exact h market hm (hmarket.symm.trans hid)

theorem get?_ne_of_change (h : change ∈ x.changes previous) :
    previous.get? change.marketId ≠ some change.after := by
  obtain ⟨r, -, hof⟩ := List.mem_filterMap.1 h
  intro hget
  refine after_ne_held hof ?_
  rw [hget]
  rfl

section Disjoint

variable (hdisjoint : ∀ i, ∀ market ∈ (parties i).markets, ∀ other ∈ (parties !i).markets,
  market.id ≠ other.id)
include hdisjoint

theorem ne_of_change (h : change ∈ (parties i).changes previous) :
    ∀ other ∈ (parties !i).markets, other.id ≠ change.marketId := by
  intro other hother
  obtain ⟨market, hm, hid⟩ := exists_market_of_change h
  rw [hid]
  exact (hdisjoint i market hm other hother).symm

/-- A run that loads what another one has saved keeps its changes. -/
theorem get?_updated_of_order (hp : Readable previous)
    (hq : Readable ((parties i).updated previous)) (h : change ∈ (parties i).changes previous) :
    ((parties !i).updated ((parties i).updated previous)).get? change.marketId =
      some change.after := by
  rw [get?_updated_of_ne hq (ne_of_change hdisjoint h)]
  exact get?_updated_of_change hp h

/-- A run that had loaded before another one saved takes its changes back. -/
theorem exists_lost_of_overlap (hp : Readable previous) (h : (parties i).changes previous ≠ []) :
    ∃ change ∈ (parties i).changes previous,
      ((parties !i).updated previous).get? change.marketId ≠ some change.after := by
  obtain ⟨change, hchange⟩ := List.exists_mem_of_ne_nil _ h
  refine ⟨change, hchange, ?_⟩
  rw [get?_updated_of_ne hp (ne_of_change hdisjoint hchange)]
  exact get?_ne_of_change hchange

end Disjoint

theorem account_of_order (parties : Bool → Party) (i : Bool) (y : Account) :
    ([.load i, .save i, .load !i, .save !i].foldl (Account.act parties) y).file =
        (parties !i).updated ((parties i).updated y.file) ∧
      ([.load i, .save i, .load !i, .save !i].foldl (Account.act parties) y).loaded i = y.file ∧
      ([.load i, .save i, .load !i, .save !i].foldl (Account.act parties) y).loaded (!i) =
        (parties i).updated y.file := by
  cases i <;> exact ⟨rfl, rfl, rfl⟩

theorem account_of_overlap (parties : Bool → Party) (i j : Bool) (y : Account) :
    ([.load i, .load !i, .save j, .save !j].foldl (Account.act parties) y).file =
        (parties !j).updated y.file ∧
      ∀ k, ([.load i, .load !i, .save j, .save !j].foldl (Account.act parties) y).loaded k =
        y.file := by
  cases i <;> cases j <;> exact ⟨rfl, fun k => by cases k <;> rfl⟩

end Order

section Shared

variable {p : Path} {home : Place} {parties : Bool → Party} {content : Option ByteArray}
  {w w' : World} {phase : Bool → Phase} {previous : Bool → States} {acts : List Act}

/-- The last run to save leaves what it had loaded, with its own changes. The other run's changes
are there exactly if they were there when it loaded. -/
theorem updates_kept_iff (hstorable : ∀ i, ∀ market ∈ (parties i).markets, Storable market.id)
    (hdisjoint : ∀ i, ∀ market ∈ (parties i).markets, ∀ other ∈ (parties !i).markets,
      market.id ≠ other.id)
    (hw : w.Holds p home content)
    (h : Steps p home parties ⟨w, fun _ => .waiting⟩ acts ⟨w', phase⟩)
    (hsaved : ∀ i, phase i = .saved (previous i)) :
    ∃ content', w'.Holds p home content' ∧
      (∃ j, acts.getLast? = some (.save j) ∧ ∀ key, (statesIn content').get? key =
        (apply (previous j) ((parties j).changes (previous j))).get? key) ∧
      ((∀ i, ∀ change ∈ (parties i).changes (previous i),
          (statesIn content').get? change.marketId = some change.after) ↔
        ∃ i, acts = [.load i, .save i, .load !i, .save !i]) := by
  have hstart : Tells p home parties ⟨statesIn content, fun _ => []⟩ ⟨w, fun _ => .waiting⟩ :=
    ⟨⟨content, hw, rfl⟩, fun _ => trivial⟩
  have hend := h.tells hstorable hstart
  obtain ⟨content', hw', hfile⟩ := hend.file
  have hruns := fun i => hend.follows (hsaved i)
  have horder : ∀ i, acts.filter (·.party = i) = [.load i, .save i] := by
    intro i
    have hleft := h.left i
    dsimp only at hleft
    rw [hsaved i] at hleft
    simpa [Phase.left] using hleft.symm
  refine ⟨content', hw', ?_⟩
  rw [hfile]
  rcases interleavings horder with ⟨i, rfl⟩ | ⟨i, j, rfl⟩
  · obtain ⟨hlast, hfirst, hsecond⟩ :=
      account_of_order parties i ⟨statesIn content, fun _ => []⟩
    replace hfirst : statesIn content = previous i := hfirst.symm.trans (hruns i).1
    replace hsecond : previous (!i) = (parties i).updated (previous i) := by
      rw [← (hruns !i).1, hsecond, ← hfirst]
    rw [hlast, hfirst, ← hsecond]
    refine ⟨⟨!i, rfl, get?_updated (hruns !i).2.1⟩, iff_of_true (fun k change hchange => ?_)
      ⟨i, rfl⟩⟩
    by_cases hk : k = i
    · subst hk
      have hreadable := (hruns !k).2.1
      rw [hsecond] at hreadable ⊢
      exact get?_updated_of_order hdisjoint (hruns k).2.1 hreadable hchange
    · obtain rfl : k = !i := Bool.eq_not.2 hk
      exact get?_updated_of_change (hruns !i).2.1 hchange
  · obtain ⟨hlast, hboth⟩ := account_of_overlap parties i j ⟨statesIn content, fun _ => []⟩
    have hloaded : ∀ k, statesIn content = previous k := fun k =>
      (hboth k).symm.trans (hruns k).1
    obtain ⟨change, hchange, hlost⟩ :=
      exists_lost_of_overlap hdisjoint (hruns j).2.1 (hruns j).2.2
    rw [hlast, hloaded j]
    refine ⟨⟨!j, rfl, fun key => ?_⟩, iff_of_false (fun hkept => ?_) ?_⟩
    · rw [get?_updated (hruns j).2.1, ← hloaded j, hloaded !j]
    · exact hlost (hkept j change hchange)
    · rintro ⟨k, hk⟩
      cases hk

def noonParties (i : Bool) : Party :=
  ⟨[⟨if i then "B" else "A", "K", "I"⟩], sessionPolicy, onDay 720⟩

def afterLoad (w : World) : World := (exec (StateFile.load (.ofText "states")) w).2

def afterSave (i : Bool) (previous : States) (w : World) : World :=
  (exec (StateFile.save (.ofText "states")
    (apply previous ((noonParties i).changes previous))) w).2

theorem steps_load {acts : List Act} {c : Scene} (i : Bool) (previous : States)
    (hphase : phase i = .waiting) (hg : w.disk.Grants 2)
    (hload : (exec (StateFile.load (.ofText "states")) w).1.toOption.map id = some previous)
    (h : Steps (.ofText "states") [] noonParties
      ⟨afterLoad w, Function.update phase i (.resolved previous)⟩ acts c) :
    Steps (.ofText "states") [] noonParties ⟨w, phase⟩ (.load i :: acts) c := by
  obtain ⟨_, hreturns, rfl⟩ := returns_of_map hload
  exact .step (.load i hphase hg hreturns) h

theorem steps_save {acts : List Act} {c : Scene} (i : Bool) (previous : States)
    (hphase : phase i = .resolved previous)
    (hchanges : ((noonParties i).changes previous).isEmpty = false)
    (hsave : (exec (StateFile.save (.ofText "states")
      (apply previous ((noonParties i).changes previous))) w).1.isOk = true)
    (h : Steps (.ofText "states") [] noonParties
      ⟨afterSave i previous w, Function.update phase i (.saved previous)⟩ acts c) :
    Steps (.ofText "states") [] noonParties ⟨w, phase⟩ (.save i :: acts) c := by
  obtain ⟨⟨⟩, hreturns⟩ := returns_of_isOk hsave
  refine .step (.save i hphase (fun hnil => ?_) hreturns) h
  rw [hnil] at hchanges
  cases hchanges

theorem updates_kept_in_order : ∃ w' content',
    Steps (.ofText "states") [] noonParties ⟨sessionWorld, fun _ => .waiting⟩
      [.load false, .save false, .load true, .save true]
      ⟨w', fun i => .saved (if i then [("A", true)] else [])⟩ ∧
    w'.Holds (.ofText "states") [] content' ∧
    ∀ i, ∀ change ∈ (noonParties i).changes (if i then [("A", true)] else []),
      (statesIn content').get? change.marketId = some change.after := by
  have hstorable : ∀ i, ∀ market ∈ (noonParties i).markets, Storable market.id := by
    have hline : ∀ i, ∀ market ∈ (noonParties i).markets,
        Text.Unbroken (market.id ++ "=1").toList ∧
          StateFile.ofLine? (market.id ++ "=1") = some (market.id, true) := by decide +kernel
    intro i market hm
    obtain ⟨hunbroken, hread⟩ := hline i market hm
    exact StateFile.storable_of_ofLine? hunbroken hread
  have hphase : Function.update (Function.update (Function.update (Function.update
      (fun _ => Phase.waiting) false (.resolved [])) false (.saved [])) true
        (.resolved [("A", true)])) true (.saved [("A", true)]) =
          fun i => .saved (if i then [("A", true)] else []) := by
    funext i
    cases i <;> rfl
  have hsteps : Steps (.ofText "states") [] noonParties ⟨sessionWorld, fun _ => .waiting⟩
      [.load false, .save false, .load true, .save true]
      ⟨afterSave true [("A", true)] (afterLoad (afterSave false [] (afterLoad sessionWorld))),
        fun i => .saved (if i then [("A", true)] else [])⟩ := by
    rw [← hphase]
    refine steps_load false [] rfl (by decide +kernel) (by decide +kernel) ?_
    refine steps_save false [] rfl (by decide +kernel) (by decide +kernel) ?_
    refine steps_load true [("A", true)] rfl (by decide +kernel) (by decide +kernel) ?_
    exact steps_save true [("A", true)] rfl (by decide +kernel) (by decide +kernel) .done
  have hw : sessionWorld.Holds (.ofText "states") [] none := ⟨rfl, by decide +kernel, nofun, nofun⟩
  obtain ⟨content', hw', -, hkept⟩ :=
    updates_kept_iff hstorable (by decide) hw hsteps fun i => rfl
  exact ⟨_, content', hsteps, hw', hkept.2 ⟨false, rfl⟩⟩

theorem update_lost : ∃ w' states v,
    Steps (.ofText "states") [] noonParties ⟨sessionWorld, fun _ => .waiting⟩
      [.load false, .load true, .save false, .save true] ⟨w', fun _ => .saved []⟩ ∧
    Returns (StateFile.load (.ofText "states")) w' states v ∧
    ∃ change ∈ (noonParties false).changes [], states.get? change.marketId ≠ some change.after := by
  have hphase : Function.update (Function.update (Function.update (Function.update
      (fun _ => Phase.waiting) false (.resolved [])) true (.resolved [])) false (.saved [])) true
        (.saved []) = fun _ => .saved [] := by
    funext i
    cases i <;> rfl
  have hsteps : Steps (.ofText "states") [] noonParties ⟨sessionWorld, fun _ => .waiting⟩
      [.load false, .load true, .save false, .save true]
      ⟨afterSave true [] (afterSave false [] (afterLoad (afterLoad sessionWorld))),
        fun _ => .saved []⟩ := by
    rw [← hphase]
    refine steps_load false [] rfl (by decide +kernel) (by decide +kernel) ?_
    refine steps_load true [] rfl (by decide +kernel) (by decide +kernel) ?_
    refine steps_save false [] rfl (by decide +kernel) (by decide +kernel) ?_
    exact steps_save true [] rfl (by decide +kernel) (by decide +kernel) .done
  have hload : (exec (StateFile.load (.ofText "states")) (afterSave true []
      (afterSave false [] (afterLoad (afterLoad sessionWorld))))).1.toOption.map id =
        some [("B", true)] := by decide +kernel
  obtain ⟨states, hreturns, hstates⟩ := returns_of_map hload
  have hlost : ∃ change ∈ (noonParties false).changes [],
      Table.get? [("B", true)] change.marketId ≠ some change.after := by decide +kernel
  rw [← hstates] at hlost
  exact ⟨_, _, _, hsteps, hreturns, hlost⟩

end Shared

section Real

variable {e : Engine} {home : Place} {parties : Bool → Party} {markets : List Market}
  {policy : Policy} {t now : Instant} {ts : List Instant} {w w₁ w' : World} {phase : Bool → Phase}
  {s : RunSummary} {i : Bool}

/-- A run that saves takes the two steps, and otherwise leaves the state file alone. -/
theorem steps_of_run (ha : e.Apart home markets ts) (ht : t ∈ ts)
    (hsources : Returns e.sources w (markets, policy) w₁) (hg : w₁.disk.Grants 2)
    (hutc : t.toUtc = .ok now) (hparty : parties i = ⟨markets, policy, now⟩)
    (hwaits : phase i = .waiting) (h : Returns (e.run (some t)) w s w') (hs : s.persisted = true) :
    ∃ previous, Steps e.statePath home parties ⟨w, phase⟩ [.load i, .save i]
      ⟨w', Function.update phase i (.saved previous)⟩ := by
  obtain ⟨r, counts, v, v₁, v₂, hround, hdeliver, hsave, hnote, -, -⟩ := of_returns_run h
  obtain ⟨hutc', hround⟩ := of_returns_resolveRound hround
  obtain ⟨-, v₃, v₄, hloaded, hload, hresolutions, hevaluate⟩ := of_returns_resolveAt hround
  obtain ⟨hpair, rfl⟩ := hsources.unique hloaded
  obtain ⟨rfl, rfl⟩ := Prod.mk.inj hpair
  cases hutc.symm.trans hutc'
  have hchanges : (parties i).changes r.previous = r.changes := by
    rw [hparty, Round.changes, hresolutions]
    rfl
  rcases saveUpdated_returns hsave with ⟨hfalse, -⟩ | ⟨-, hne, hsaved⟩
  · rw [hs] at hfalse
    cases hfalse
  · rw [← hchanges] at hne hsaved
    have hfirst : ∀ content, w.Holds e.statePath home content → w₁.Holds e.statePath home content :=
      fun _ hw => (keeps_sources World.Holds.lasting
        (World.Holds.keeps_probeCall ha.probe)).of_returns hw hsources
    have hbetween : ∀ content, v₄.Holds e.statePath home content →
        v₁.Holds e.statePath home content := fun _ hv =>
      (ha.keeps_deliver ht hutc).of_returns ((World.Holds.lasting.keeps_traced
        (quiet_evaluate _ _ _ _)).of_returns hv hevaluate) hdeliver
    have hlast : ∀ content, v₂.Holds e.statePath home content → w'.Holds e.statePath home content :=
      fun _ hv => (keeps_noteSummary World.Holds.lasting _).of_returns hv hnote
    refine ⟨r.previous, .step (.other hfirst) (.step (.load i hwaits hg hload)
      (.step (.other hbetween) ?_))⟩
    rw [← Function.update_idem (Phase.resolved r.previous) (.saved r.previous) phase]
    exact .step (.save i (Function.update_self ..) hne hsaved) (.step (.other hlast) .done)

end Real

end TradingHours.Engine
