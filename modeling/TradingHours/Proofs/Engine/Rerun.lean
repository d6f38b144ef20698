import TradingHours.Proofs.Engine.Failing
import TradingHours.Proofs.Output.WrittenLines
import TradingHours.Proofs.Resolution.Dependence
/-!
A run that is made again. At the same instant, with the same sources and with the state file that it
left, it finds nothing to change: what the file holds of a market is the state that resolving gave,
and from there resolving gives it again. For that, markets that share an identifier have to share
their state, since the file has one entry for them.
-/
namespace TradingHours

/-- Markets that share an identifier were resolved to one state. -/
def RunSummary.Alike (s : RunSummary) : Prop :=
  ∀ r ∈ s.resolutions, ∀ r' ∈ s.resolutions, r.marketId = r'.marketId → r.state = r'.state

instance (s : RunSummary) : Decidable s.Alike :=
  inferInstanceAs (Decidable (∀ r ∈ s.resolutions, ∀ r' ∈ s.resolutions,
    r.marketId = r'.marketId → r.state = r'.state))

namespace Engine

open Schedule (held)
open Disk (Clear)
open StateFile (Storable statesIn)

section Resolve

variable {markets : List Market} {policy : Policy} {previous next : States} {now : Instant}
  {market : Market}

theorem changesOf_eq_nil_iff :
    changesOf policy previous now markets = [] ↔ ∀ market ∈ markets,
      policy.stateAt market now (previous.get? market.id) = held (previous.get? market.id) := by
  rw [changesOf, List.filterMap_eq_nil_iff, List.forall_mem_map]
  refine forall₂_congr fun market _ => ?_
  rw [changeOf?_eq_none_iff, evaluated_state, evaluated_marketId]

theorem resolvedStates_evaluated :
    Output.resolvedStates (markets.map (evaluated policy previous now)) =
      markets.map fun market =>
        (market.id, policy.stateAt market now (previous.get? market.id)) := by
  rw [Output.resolvedStates, List.map_map]
  refine List.map_congr_left fun market _ => ?_
  rw [Function.comp_apply, evaluated_marketId, evaluated_state]

theorem resolvedStates_eq_iff :
    Output.resolvedStates (markets.map (evaluated policy next now)) =
        Output.resolvedStates (markets.map (evaluated policy previous now)) ↔
      ∀ market ∈ markets, policy.stateAt market now (next.get? market.id) =
        policy.stateAt market now (previous.get? market.id) := by
  rw [resolvedStates_evaluated, resolvedStates_evaluated, List.map_inj_left]
  exact forall₂_congr fun market _ => by simp

theorem stateAt_again
    (hnext : ∀ key, next.get? key =
      (apply previous (changesOf policy previous now markets)).get? key)
    (hm : market ∈ markets)
    (halike : ∀ other ∈ markets, other.id = market.id →
      policy.stateAt other now (previous.get? other.id) =
        policy.stateAt market now (previous.get? market.id)) :
    held (next.get? market.id) = policy.stateAt market now (previous.get? market.id) ∧
      policy.stateAt market now (next.get? market.id) =
        policy.stateAt market now (previous.get? market.id) := by
  have hheld : held (next.get? market.id) =
      policy.stateAt market now (previous.get? market.id) := by
    rw [hnext]
    exact held_get?_changesOf hm halike
  refine ⟨hheld, ?_⟩
  rw [← Policy.stateAt_held, hheld, Policy.stateAt_stateAt]

end Resolve

section Rerun

variable {e : Engine} {home : Place} {content : Option ByteArray} {markets : List Market}
  {policy : Policy} {w w' w₁ w₂ v : World} {t now : Instant} {s : RunSummary} {r : Round}
  {previous next : States}

theorem alike_iff (hs : s.resolutions = markets.map (evaluated policy previous now)) :
    s.Alike ↔ ∀ market ∈ markets, ∀ other ∈ markets, other.id = market.id →
      policy.stateAt other now (previous.get? other.id) =
        policy.stateAt market now (previous.get? market.id) := by
  simp only [RunSummary.Alike, hs, List.forall_mem_map, evaluated_marketId, evaluated_state]
  exact ⟨fun h market hm other hother => h other hother market hm,
    fun h market hm other hother => h other hother market hm⟩

/-- Resolving again gives the same states and no change exactly if markets of one identifier are
alike: of their states the file holds one. -/
theorem idle_iff_alike (hs : s.resolutions = markets.map (evaluated policy previous now))
    (hnext : ∀ key, next.get? key =
      (apply previous (changesOf policy previous now markets)).get? key) :
    (changesOf policy next now markets = [] ∧
        Output.resolvedStates (markets.map (evaluated policy next now)) =
          Output.resolvedStates s.resolutions) ↔ s.Alike := by
  rw [alike_iff hs, hs, changesOf_eq_nil_iff, resolvedStates_eq_iff]
  constructor
  · rintro ⟨hidle, hsame⟩ market hm other hother hid
    rw [← hsame other hother, ← hsame market hm, hidle other hother, hidle market hm, hid]
  · intro halike
    have hagain := fun market hm => stateAt_again hnext hm (halike market hm)
    exact ⟨fun market hm => (hagain market hm).2.trans (hagain market hm).1.symm,
      fun market hm => (hagain market hm).2⟩

theorem Apart.avoids (ha : e.Apart home markets [t]) (hw : w.Holds e.statePath home content)
    (hsources : Returns e.sources w (markets, policy) v) (hg : v.disk.Grants 2) :
    e.Avoids home (some t) w (· = e.statePath.placeFrom home) where
  sender := ha.sender
  probe := ha.probe
  minutes := by
    intro hfiles r w₁ hround d hd market hm
    obtain ⟨hutc, hr, -⟩ := resolveRound_returns ha hw hsources hg hround
    rw [hr] at hm
    rw [Instant.utcDay_of_toUtc hutc] at hd
    exact ha.minutes hfiles market hm t List.mem_cons_self d hd

theorem neverFails_announce (changes : List Journal.Change) : NeverFails (announce changes) := by
  unfold announce
  induction changes with
  | nil => exact .pure _
  | cons change rest ih => exact (neverFails_note _).bind fun _ => ih

theorem neverFails_conclude (e : Engine) (r : Round) (lines files : Nat) :
    NeverFails (e.conclude r lines files none) := by
  have hsummary : ∀ summary, NeverFails (noteSummary summary) := fun summary =>
    NeverFails.bind (fun w => ⟨w, w, rfl⟩) fun _ => neverFails_note _
  exact NeverFails.bind (.pure false) fun _ => (hsummary _).bind fun _ => .pure _

/-- A round that has nothing to save ends in a run that returns, where nothing is in the way of the
sender file. -/
theorem returns_run_of_idle (hc : w.disk.Clear home e.senderPath)
    (hround : Returns (e.resolveRound (some t)) w r w₁) (hidle : r.changes = []) :
    ∃ s w', Returns (e.run (some t)) w s w' := by
  have hc₁ : w₁.disk.Clear home e.senderPath := (keeps_resolveRound Clear.bears.lasting
    (Clear.bears.keeps_probeCall Clear.keeps_ensureFolders id fun _ h => h.erase) _).of_returns
      hc hround
  obtain ⟨_, w₂, hannounce⟩ := neverFails_announce r.changes w₁
  have hc₂ : w₂.disk.Clear home e.senderPath :=
    (keeps_announce Clear.bears.keeps_note _).of_returns hc₁ hannounce
  obtain ⟨sent, w₃, hsent⟩ := Output.returns_writeSender hc₂ e.settings.output.host r.markets
    (Output.resolvedStates r.resolutions)
  obtain ⟨hutc, -⟩ := of_returns_resolveRound hround
  obtain ⟨files, w₄, hminutes⟩ :=
    neverFails_sendMinutes (e := e) (r := r) (Instant.toUtc_eq_ok_iff.1 hutc).2 w₃
  have hdeliver : Returns (e.deliver r) w₁ (sent.lines, files) w₄ :=
    returns_bind.2 ⟨⟨⟩, w₂, hannounce, returns_bind.2 ⟨sent, w₃, hsent,
      returns_bind.2 ⟨files, w₄, hminutes, rfl⟩⟩⟩
  have huntil : Returns (e.untilSaving (some t)) w (r, sent.lines, files) w₄ :=
    returns_bind.2 ⟨r, w₁, hround, returns_bind.2 ⟨_, w₄, hdeliver, rfl⟩⟩
  have hupdated : r.updated? = none := by
    rw [Round.updated?, hidle]
    rfl
  obtain ⟨s, w', hconclude⟩ := neverFails_conclude e r sent.lines files w₄
  rw [← hupdated] at hconclude
  refine ⟨s, w', ?_⟩
  rw [run_eq_conclude]
  exact returns_bind.2 ⟨_, w₄, huntil, hconclude⟩

theorem returns_resolveRound (hutc : t.toUtc = .ok now)
    (hsources : Returns e.sources w (markets, policy) v)
    (hload : Returns (StateFile.load e.statePath) v previous w₁) : ∃ w',
      Returns (e.resolveRound (some t)) w
        ⟨now, markets, policy, previous, markets.map (evaluated policy previous now)⟩ w' := by
  obtain ⟨w', hevaluate⟩ := traced_returns (evaluate_answers markets) w₁
  exact ⟨w', returns_bind.2 ⟨now, w, returns_ofExcept.2 ⟨hutc, rfl⟩, returns_bind.2 ⟨_, v, hsources,
    returns_bind.2 ⟨previous, w₁, hload, returns_bind.2 ⟨_, w', hevaluate, rfl⟩⟩⟩⟩⟩

/-- Between the two runs the world may change, but neither the sources nor the state file. The
second run returns where it can load the state file and nothing is in the way of the sender file. -/
theorem rerun_idle (hbare : ∀ market ∈ markets, '=' ∉ market.id.toList)
    (hbang : ∀ market ∈ markets, market.id.toList.head? ≠ some '!')
    (ha : e.Apart home markets [t]) (hw : w.Holds e.statePath home content) (hr : e.Reads w)
    (h : e.Poll markets policy t w s w') (hbetween : e.Undisturbed w' w₂)
    (hsources : Returns e.sources w₂ (markets, policy) v) (hr₂ : e.Reads w₂) :
    ∃ content', w'.Holds e.statePath home content' ∧
      (∀ s₂ w₂', Returns (e.run (some t)) w₂ s₂ w₂' →
        ((s₂.stateChanged = false ∧
          Output.resolvedStates s₂.resolutions = Output.resolvedStates s.resolutions) ↔ s.Alike)) ∧
      (s.Alike →
        (exec (e.run (some t)) w₂).2.disk.contentAt (e.statePath.placeFrom home) = content' ∧
        ((content' = none → ∃ next v₁, Returns (StateFile.load e.statePath) v next v₁) →
          w₂.disk.Clear home e.senderPath → ∃ s₂ w₂', Returns (e.run (some t)) w₂ s₂ w₂')) := by
  obtain ⟨now, hutc, hresolutions, content', hw', hleft⟩ :=
    h.leaves (h.storable hbare hbang) ha List.mem_cons_self hw hr
  rw [Reads, show exec e.sources w₂ = _ from hsources] at hr₂
  have hw₂ : w₂.Holds e.statePath home content' := hbetween _ _ hw'
  have hidle := idle_iff_alike hresolutions hleft
  have hround : s.Alike → ∀ r w₃, Returns (e.resolveRound (some t)) w₂ r w₃ → r.changes = [] := by
    intro halike r w₃ hround
    obtain ⟨hutc', hr, -⟩ := resolveRound_returns ha hw₂ hsources hr₂ hround
    cases hutc.symm.trans hutc'
    rw [hr]
    exact (hidle.2 halike).1
  refine ⟨content', hw', fun s₂ w₂' h₂ => ?_, fun halike => ⟨?_, fun hnone hclear => ?_⟩⟩
  · obtain ⟨now', hutc', hresolutions', hchanged, -⟩ :=
      run_returns ha List.mem_cons_self hw₂ hsources hr₂ h₂
    cases hutc.symm.trans hutc'
    rw [← hidle, hresolutions', hchanged, Bool.not_eq_false', List.isEmpty_iff]
  · -- saving would need a change
    have hunsaved : ∀ s₂, (exec (e.run (some t)) w₂).1 = .ok s₂ → s₂.persisted = true →
        e.statePath.placeFrom home ≠ e.statePath.placeFrom home := by
      intro s₂ hs₂ hsaved
      obtain ⟨r, w₃, hreturns, hne, -⟩ :=
        entryOf_of_saved hw₂.anchored (Prod.ext hs₂ rfl : Returns _ _ s₂ _) hsaved
      exact absurd (hround halike r w₃ hreturns) hne
    rw [contentAt_run hw₂.anchored (fun hg => (hw₂.grows _ hg).1 rfl)
      (ha.avoids hw₂ hsources hr₂) hunsaved, hw₂.content_eq]
  · have hv : v.Holds e.statePath home content' := (keeps_sources World.Holds.lasting
      (World.Holds.keeps_probeCall ha.probe)).of_returns hw₂ hsources
    obtain ⟨next, v₁, hload⟩ : ∃ next v₁, Returns (StateFile.load e.statePath) v next v₁ := by
      cases content' with
      | none => exact hnone rfl
      | some bytes => exact ⟨_, StateFile.load_of_holds hr₂ hv⟩
    obtain ⟨w₃, hreturns⟩ := returns_resolveRound hutc hsources hload
    exact returns_run_of_idle hclear hreturns (hround halike _ w₃ hreturns)

theorem clear_session :
    ((smallEngine "states" false).after (onDay 720) sessionWorld).disk.Clear []
      (smallEngine "states" false).senderPath := by
  have hdisk : ∀ d : Disk, ((smallEngine "states" false).after (onDay 720) sessionWorld).disk = d →
      d.home = [] ∧ d.refusals = [] ∧
        d.locate (smallEngine "states" false).senderPath.parent = .ok [] ∧
        d.locate (smallEngine "states" false).senderPath = .ok ["a"] ∧
          d.contentAt ["a"] ≠ none := by
    rintro _ rfl
    decide +kernel
  obtain ⟨hhome, hfree, haround, hhere, hfile⟩ := hdisk _ rfl
  refine ⟨hhome, hfree, Disk.entryOf_eq_ok_iff.2 ⟨[], haround, rfl⟩, ["a"], hhere, ?_⟩
  intro hfolder
  rw [Disk.contentAt, hfolder] at hfile
  exact hfile rfl

theorem rerun_idle_session : ∃ s s₂ w₂',
    Returns ((smallEngine "states" false).run (some (onDay 720))) sessionWorld s
      ((smallEngine "states" false).after (onDay 720) sessionWorld) ∧
    s.stateChanged = true ∧
    Returns ((smallEngine "states" false).run (some (onDay 720)))
      ((smallEngine "states" false).after (onDay 720) sessionWorld) s₂ w₂' ∧
    s₂.stateChanged = false ∧
    Output.resolvedStates s₂.resolutions = Output.resolvedStates s.resolutions ∧
    w₂'.disk.contentAt ["states"] =
      ((smallEngine "states" false).after (onDay 720) sessionWorld).disk.contentAt ["states"] := by
  have hfirst : (smallEngine "states" false).shows (onDay 720) sessionWorld smallMarket =
      some ([smallMarket], [("K", "p09301600")], [], some true) := by decide +kernel
  have hsecond : (smallEngine "states" false).shows (onDay 720)
      ((smallEngine "states" false).after (onDay 720) sessionWorld) smallMarket =
        some ([smallMarket], [("K", "p09301600")], [], some true) := by decide +kernel
  have hflags : (exec ((smallEngine "states" false).run (some (onDay 720)))
      sessionWorld).1.toOption.map (fun s => (s.stateChanged, decide s.Alike)) =
        some (true, true) := by decide +kernel
  obtain ⟨s, hpoll, -⟩ := poll_of_shows hfirst
  obtain ⟨s', hs', hboth⟩ := returns_of_map hflags
  obtain ⟨rfl, -⟩ := hpoll.returns.unique hs'
  obtain ⟨hchanged, halike⟩ := Prod.mk.inj hboth
  obtain ⟨_, hpoll₂, -⟩ := poll_of_shows hsecond
  obtain ⟨v, hsources⟩ := hpoll₂.loads
  have ha : (smallEngine "states" false).Apart [] [smallMarket] [onDay 720] :=
    ⟨by decide +kernel, by decide +kernel, nofun⟩
  have hw : sessionWorld.Holds (smallEngine "states" false).statePath [] none :=
    ⟨rfl, by decide +kernel, nofun, nofun⟩
  have hfile : ((smallEngine "states" false).after (onDay 720) sessionWorld).disk.contentAt
      ["states"] ≠ none := by decide +kernel
  have hplace : (smallEngine "states" false).statePath.placeFrom [] = ["states"] := by
    decide +kernel
  obtain ⟨content', hw', hidle, hleft⟩ := rerun_idle (by decide) (by decide) ha hw
    (by decide +kernel) hpoll (fun _ _ hw => hw) hsources (by decide +kernel)
  obtain ⟨hkept, hreturns⟩ := hleft (of_decide_eq_true halike)
  rw [← hw'.content_eq, hplace] at hkept hreturns
  obtain ⟨s₂, w₂', h₂⟩ := hreturns (fun hnone => absurd hnone hfile) clear_session
  obtain ⟨hunchanged, hsame⟩ := (hidle s₂ _ h₂).2 (of_decide_eq_true halike)
  rw [show exec _ _ = _ from h₂] at hkept
  exact ⟨s, s₂, w₂', hpoll.returns, hchanged, h₂, hunchanged, hsame, hkept⟩

theorem apart_onDay {minute : Nat}
    (hsender : e.senderPath.placeFrom home ≠ e.statePath.placeFrom home)
    (hprobe : (e.senderFolder.child Output.probeName).placeFrom home ≠ e.statePath.placeFrom home)
    (hminutes : ∀ market ∈ markets, (Output.minutePath e.senderPath market
      (onDay minute).day).placeFrom home ≠ e.statePath.placeFrom home) :
    e.Apart home markets [onDay minute] where
  sender := hsender
  probe := hprobe
  minutes := by
    rintro - market hm t ht d hd
    have hday : t.utcDay = .ok (onDay minute).day := by
      rw [List.mem_singleton.1 ht, Instant.utcDay, Instant.toUtc_of_offset_zero rfl]
      rfl
    cases hday.symm.trans hd
    exact hminutes market hm

def twinWorld : World :=
  worldOf [("markets", "A K I\nA L J"), ("schedule", "\np09301600,,,K\np17001800,,,L")] []

/-- A run that is not followed by an idle one, although that is made with the same sources. -/
def Restless (e : Engine) (home : Place) (t : Instant) (w : World) : Prop :=
  ∃ markets policy s s₂ w₂, e.Apart home markets [t] ∧
    e.Poll markets policy t w s (e.after t w) ∧ e.Poll markets policy t (e.after t w) s₂ w₂ ∧
    ¬ (s₂.stateChanged = false ∧
      Output.resolvedStates s₂.resolutions = Output.resolvedStates s.resolutions)

theorem stateOf_eq {s₂ : RunSummary} {market : Market}
    (h : Output.resolvedStates s₂.resolutions = Output.resolvedStates s.resolutions) :
    s₂.stateOf market = s.stateOf market := by
  have hfind : ∀ rs : List Resolution, (rs.find? (·.marketId = market.id)).map (·.state) =
      ((Output.resolvedStates rs).find? (·.1 = market.id)).map (·.2) := by
    intro rs
    rw [Output.resolvedStates, List.find?_map, Option.map_map]
    rfl
  rw [RunSummary.stateOf, RunSummary.stateOf, hfind, hfind, h]

theorem restless_of_shows {aggregated definitions : Source.Tokens} {market : Market}
    {state state' : Option Bool} (ha : e.Apart home markets [t])
    (h : e.shows t w market = some (markets, aggregated, definitions, state))
    (h' : e.shows t (e.after t w) market = some (markets, aggregated, definitions, state'))
    (hnot : state ≠ state' ∨
      (exec (e.run (some t)) (e.after t w)).1.toOption.map (·.stateChanged) = some true) :
    e.Restless home t w := by
  obtain ⟨s, hpoll, rfl⟩ := poll_of_shows h
  obtain ⟨s₂, hpoll₂, rfl⟩ := poll_of_shows h'
  refine ⟨markets, _, s, s₂, _, ha, hpoll, hpoll₂, fun ⟨hunchanged, hsame⟩ => ?_⟩
  rcases hnot with hne | hchanged
  · exact hne (stateOf_eq hsame).symm
  · obtain ⟨s', hs', hchanged⟩ := returns_of_map hchanged
    obtain ⟨rfl, -⟩ := hpoll₂.returns.unique hs'
    rw [hunchanged] at hchanged
    cases hchanged

/-- Two markets that share an identifier and not their state, a state file behind a folder that the
first run makes for its minute files, and one that the first run may not read. -/
theorem reruns_restless :
    (smallEngine "states" false).Restless [] (onDay 720) twinWorld ∧
      (smallEngine "a_x/../states" true).Restless [] (onDay 0) (openWorld []) ∧
      (smallEngine "states" false).Restless [] (onDay 0)
        (openWorld (List.replicate 8 none ++ [some .denied])) := by
  refine ⟨?_, ?_, ?_⟩
  · have ha : (smallEngine "states" false).Apart [] [⟨"A", "K", "I"⟩, ⟨"A", "L", "J"⟩]
        [onDay 720] := ⟨by decide +kernel, by decide +kernel, nofun⟩
    have hfirst : (smallEngine "states" false).shows (onDay 720) twinWorld ⟨"A", "K", "I"⟩ =
        some ([⟨"A", "K", "I"⟩, ⟨"A", "L", "J"⟩], [("K", "p09301600"), ("L", "p17001800")], [],
          some true) := by decide +kernel
    have hsecond : (smallEngine "states" false).shows (onDay 720)
        ((smallEngine "states" false).after (onDay 720) twinWorld) ⟨"A", "K", "I"⟩ =
          some ([⟨"A", "K", "I"⟩, ⟨"A", "L", "J"⟩], [("K", "p09301600"), ("L", "p17001800")], [],
            some true) := by decide +kernel
    exact restless_of_shows ha hfirst hsecond (.inr (by decide +kernel))
  · have ha : (smallEngine "a_x/../states" true).Apart [] [smallMarket] [onDay 0] :=
      apart_onDay (by decide +kernel) (by decide +kernel) (by decide +kernel)
    have hfirst : (smallEngine "a_x/../states" true).shows (onDay 0) (openWorld []) smallMarket =
        some ([smallMarket], [], [], some false) := by decide +kernel
    have hsecond : (smallEngine "a_x/../states" true).shows (onDay 0)
        ((smallEngine "a_x/../states" true).after (onDay 0) (openWorld [])) smallMarket =
          some ([smallMarket], [], [], some true) := by decide +kernel
    exact restless_of_shows ha hfirst hsecond (.inl (by decide))
  · have ha : (smallEngine "states" false).Apart [] [smallMarket] [onDay 0] :=
      ⟨by decide +kernel, by decide +kernel, nofun⟩
    have hfirst : (smallEngine "states" false).shows (onDay 0)
        (openWorld (List.replicate 8 none ++ [some .denied])) smallMarket =
          some ([smallMarket], [], [], some false) := by decide +kernel
    have hsecond : (smallEngine "states" false).shows (onDay 0)
        ((smallEngine "states" false).after (onDay 0)
          (openWorld (List.replicate 8 none ++ [some .denied]))) smallMarket =
            some ([smallMarket], [], [], some true) := by decide +kernel
    exact restless_of_shows ha hfirst hsecond (.inl (by decide))

end Rerun

end Engine

end TradingHours
