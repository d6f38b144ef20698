import TradingHours.Proofs.Clock.Shift
import TradingHours.Proofs.Engine.Changes
import TradingHours.Proofs.Engine.Run
import TradingHours.Proofs.Market
import TradingHours.Proofs.Output.MinuteStates
/-!
Runs one after another. A run keeps no state but the state file, which it leaves as it is when no
state changed, and where a market without an entry counts as closed. The invariant that carries from
run to run is that every market is held by the file as the last run resolved it.
-/
namespace TradingHours

def RunSummary.stateOf (s : RunSummary) (market : Market) : Option Bool :=
  (s.resolutions.find? (·.marketId = market.id)).map (·.state)

namespace Engine

open Schedule (held)
open StateFile (Storable statesIn)

section Names

variable {e : Engine} {markets loaded : List Market} {policy : Policy} {w w₁ : World}

theorem storable_of_loadMarkets (h : Returns e.loadMarkets w markets w₁)
    (hbare : ∀ market ∈ markets, '=' ∉ market.id.toList)
    (hbang : ∀ market ∈ markets, market.id.toList.head? ≠ some '!') :
    ∀ market ∈ markets, Storable market.id := by
  unfold loadMarkets at h
  split at h
  · split at h
    · exact absurd h not_returns_throw
    · obtain ⟨lines, _, -, h⟩ := returns_bind.1 h
      obtain ⟨loaded, _, hlisted, h⟩ := returns_bind.1 h
      obtain ⟨_, _, -, h⟩ := returns_bind.1 h
      obtain ⟨rfl, -⟩ := returns_pure.1 h
      cases returns_traced (Market.ofLines_answers lines) hlisted
      intro market hmem
      obtain ⟨pair, -, hpair⟩ := List.mem_filterMap.1 hmem
      exact Market.storable_of_listed hpair (hbare market hmem) (hbang market hmem)
  · exact absurd h not_returns_throw

theorem of_sources (h : Returns e.sources w (markets, policy) w₁) :
    (∃ w₂, Returns e.loadMarkets w markets w₂) ∧ ∃ w₂, Returns e.buildPolicy w₂ policy w₁ := by
  obtain ⟨loaded, w₂, hload, h⟩ := returns_bind.1 h
  obtain ⟨ok, w₃, -, h⟩ := returns_bind.1 h
  have hrest : ∀ {w}, Returns (do
      let policy ← e.buildPolicy
      return (loaded, policy)) w (markets, policy) w₁ →
        loaded = markets ∧ ∃ w₂, Returns e.buildPolicy w₂ policy w₁ := by
    intro w h
    obtain ⟨_, _, hbuild, h⟩ := returns_bind.1 h
    obtain ⟨hpair, rfl⟩ := returns_pure.1 h
    cases hpair
    exact ⟨rfl, w, hbuild⟩
  have hloaded : loaded = markets ∧ ∃ w₂, Returns e.buildPolicy w₂ policy w₁ := by
    dsimp only at h
    split at h
    · obtain ⟨_, _, -, h⟩ := returns_bind.1 h
      exact hrest h
    · exact hrest h
  obtain ⟨rfl, hbuild⟩ := hloaded
  exact ⟨⟨w₂, hload⟩, hbuild⟩

end Names

section Step

variable {e : Engine} {home : Place} {content : Option ByteArray} {markets : List Market}
  {policy : Policy} {w w' : World} {t now : Instant} {ts : List Instant} {s : RunSummary}
  {previous : States}

structure Poll (e : Engine) (markets : List Market) (policy : Policy) (t : Instant) (w : World)
    (s : RunSummary) (w' : World) : Prop where
  loads : ∃ w₁, Returns e.sources w (markets, policy) w₁
  returns : Returns (e.run (some t)) w s w'
  saves : s.persisted = s.stateChanged

def Reads (e : Engine) (w : World) : Prop := (exec e.sources w).2.disk.Grants 2

instance : Decidable (e.Reads w) := inferInstanceAs (Decidable (Disk.Grants 2 _))

theorem Poll.storable (h : e.Poll markets policy t w s w')
    (hbare : ∀ market ∈ markets, '=' ∉ market.id.toList)
    (hbang : ∀ market ∈ markets, market.id.toList.head? ≠ some '!') :
    ∀ market ∈ markets, Storable market.id := by
  obtain ⟨_, hsources⟩ := h.loads
  obtain ⟨⟨_, hload⟩, -⟩ := of_sources hsources
  exact storable_of_loadMarkets hload hbare hbang

theorem find?_evaluated (hids : (markets.map (·.id)).Nodup) {market : Market}
    (hm : market ∈ markets) :
    (markets.map (evaluated policy previous now)).find? (·.marketId = market.id) =
      some (evaluated policy previous now market) := by
  obtain ⟨before, after, rfl, hnot, -⟩ := exists_split_of_nodup hids hm
  have hbefore : (before.map (evaluated policy previous now)).find?
      (·.marketId = market.id) = none := by
    rw [List.find?_eq_none]
    intro r hr hid
    obtain ⟨other, hother, rfl⟩ := List.mem_map.1 hr
    rw [decide_eq_true_eq, evaluated_marketId] at hid
    exact hnot (List.mem_map.2 ⟨other, hother, hid⟩)
  rw [List.map_append, List.find?_append, hbefore, List.map_cons,
    List.find?_cons_of_pos (by rw [decide_eq_true_eq, evaluated_marketId])]
  rfl

theorem stateOf_of_resolutions (hids : (markets.map (·.id)).Nodup)
    (hs : s.resolutions = markets.map (evaluated policy previous now)) {market : Market}
    (hm : market ∈ markets) :
    s.stateOf market = some (policy.stateAt market now (previous.get? market.id)) := by
  rw [RunSummary.stateOf, hs, find?_evaluated hids hm]
  exact congrArg some evaluated_state

theorem held_get?_changesOf {market : Market} (hm : market ∈ markets)
    (halike : ∀ other ∈ markets, other.id = market.id →
      policy.stateAt other now (previous.get? other.id) =
        policy.stateAt market now (previous.get? market.id)) :
    held ((apply previous (changesOf policy previous now markets)).get? market.id) =
      policy.stateAt market now (previous.get? market.id) := by
  have hresolutions : ∀ r ∈ markets.map (evaluated policy previous now),
      r.marketId = (evaluated policy previous now market).marketId →
        r.state = (evaluated policy previous now market).state := by
    intro r hr hid
    obtain ⟨other, hother, rfl⟩ := List.mem_map.1 hr
    rw [evaluated_marketId, evaluated_marketId] at hid
    rw [evaluated_state, evaluated_state, halike other hother hid]
  rw [← evaluated_state, changesOf, ← held_get?_apply (List.mem_map_of_mem hm) hresolutions,
    evaluated_marketId]

theorem exists_market_of_change {change : Journal.Change}
    (h : change ∈ changesOf policy previous now markets) :
    ∃ market ∈ markets, change.marketId = market.id := by
  obtain ⟨r, hr, hof⟩ := List.mem_filterMap.1 h
  obtain ⟨market, hm, rfl⟩ := List.mem_map.1 hr
  exact ⟨market, hm, by rw [(marketId_of_changeOf? hof).1, evaluated_marketId]⟩

theorem storable_of_mem_changesOf (hstorable : ∀ market ∈ markets, Storable market.id)
    {change : Journal.Change} (h : change ∈ changesOf policy previous now markets) :
    Storable change.marketId := by
  obtain ⟨market, hm, hid⟩ := exists_market_of_change h
  rw [hid]
  exact hstorable market hm

/-- A run leaves a state file that says the states it loaded, with the changes that it made. -/
theorem Poll.leaves (hstorable : ∀ market ∈ markets, Storable market.id)
    (ha : e.Apart home markets ts) (ht : t ∈ ts) (hw : w.Holds e.statePath home content)
    (hr : e.Reads w) (h : e.Poll markets policy t w s w') :
    ∃ now, t.toUtc = .ok now ∧
      s.resolutions = markets.map (evaluated policy (statesIn content) now) ∧
      ∃ content', w'.Holds e.statePath home content' ∧ ∀ key,
        (statesIn content').get? key = (apply (statesIn content)
          (changesOf policy (statesIn content) now markets)).get? key := by
  obtain ⟨w₁, hsources⟩ := h.loads
  rw [Reads, show exec e.sources w = _ from hsources] at hr
  obtain ⟨now, hutc, hresolutions, -, hleft⟩ := run_returns ha ht hw hsources hr h.returns
  refine ⟨now, hutc, hresolutions, ?_⟩
  obtain ⟨hnone, hw'⟩ | ⟨stamp, hw'⟩ := hleft h.saves
  · exact ⟨content, hw', fun key => by rw [hnone]; rfl⟩
  · refine ⟨_, hw', StateFile.get?_statesIn_render stamp (nodup_apply StateFile.nodup_statesIn) ?_⟩
    intro key hkey
    rcases mem_keys_apply.1 hkey with hkey | ⟨change, hchange, rfl⟩
    · exact StateFile.storable_of_mem_statesIn hkey
    · exact storable_of_mem_changesOf hstorable hchange

/-- The step: what the state file holds of every market after a run is the state that resolving the
market gave, from what the state file held before. -/
theorem Poll.step (hids : (markets.map (·.id)).Nodup)
    (hstorable : ∀ market ∈ markets, Storable market.id) (ha : e.Apart home markets ts)
    (ht : t ∈ ts) (hw : w.Holds e.statePath home content) (hr : e.Reads w)
    (h : e.Poll markets policy t w s w') :
    ∃ now, t.toUtc = .ok now ∧ ∃ content', w'.Holds e.statePath home content' ∧
      ∀ market ∈ markets,
        s.stateOf market =
            some (policy.stateAt market now ((statesIn content).get? market.id)) ∧
          held ((statesIn content').get? market.id) =
            policy.stateAt market now ((statesIn content).get? market.id) := by
  obtain ⟨now, hutc, hresolutions, content', hw', hleft⟩ := h.leaves hstorable ha ht hw hr
  refine ⟨now, hutc, content', hw', fun market hm => ?_⟩
  refine ⟨stateOf_of_resolutions hids hresolutions hm, ?_⟩
  rw [hleft]
  exact held_get?_changesOf hm fun other hother hid => by
    rw [List.inj_on_of_nodup_map hids hother hm hid]

end Step

section Runs

variable {e : Engine} {home : Place} {content : Option ByteArray} {markets : List Market}
  {policy : Policy} {w w' : World} {t : Instant} {ts : List Instant} {ss : List RunSummary}

def Undisturbed (e : Engine) (w w' : World) : Prop :=
  ∀ home content, w.Holds e.statePath home content → w'.Holds e.statePath home content

/-- Runs at instants, one after another. Between them the world may change in everything but the
state file. -/
inductive Polling (e : Engine) (markets : List Market) (policy : Policy) :
    World → List Instant → List RunSummary → Prop
  | done {w : World} : Polling e markets policy w [] []
  | run {w w₁ w₂ : World} {t : Instant} {ts : List Instant} {s : RunSummary}
      {ss : List RunSummary} (reads : e.Reads w) (first : e.Poll markets policy t w s w₁)
      (between : e.Undisturbed w₁ w₂) (rest : Polling e markets policy w₂ ts ss) :
      Polling e markets policy w (t :: ts) (s :: ss)

theorem Apart.tail (ha : e.Apart home markets (t :: ts)) : e.Apart home markets ts where
  sender := ha.sender
  probe := ha.probe
  minutes := fun hfiles market hm t' ht' => ha.minutes hfiles market hm t' (List.mem_cons_of_mem t ht')

theorem Polling.states (h : e.Polling markets policy w ts ss) (hids : (markets.map (·.id)).Nodup)
    (hbare : ∀ market ∈ markets, '=' ∉ market.id.toList)
    (hbang : ∀ market ∈ markets, market.id.toList.head? ≠ some '!')
    (ha : e.Apart home markets ts) (hw : w.Holds e.statePath home content) :
    ∃ utcs, ts.mapM Instant.toUtc = .ok utcs ∧ ∀ market ∈ markets,
      ss.map (·.stateOf market) =
        (policy.statesOver market ((statesIn content).get? market.id) utcs).map some := by
  -- on the runs, for any content: the next run loads what this one leaves
  induction h generalizing content with
  | done => exact ⟨[], rfl, fun _ _ => rfl⟩
  | run reads first between rest ih =>
    obtain ⟨now, hutc, content', hw', hstep⟩ :=
      first.step hids (first.storable hbare hbang) ha List.mem_cons_self hw reads
    obtain ⟨utcs, hutcs, hstates⟩ := ih ha.tail (between _ _ hw')
    refine ⟨now :: utcs, ?_, fun market hm => ?_⟩
    · rw [List.mapM_cons, hutc, hutcs]
      rfl
    · obtain ⟨hstate, hheld⟩ := hstep market hm
      -- the file may still lack a closed market, so only what is held of it carries over
      rw [List.map_cons, hstate, hstates market hm, ← Policy.statesOver_held, hheld]
      rfl

end Runs

section Computed

variable {e : Engine} {markets : List Market} {aggregated definitions : Source.Tokens}
  {policy : Policy} {w w₁ : World} {t : Instant} {market : Market} {state : Option Bool}

theorem policy_of_sources (h : Returns e.sources w (markets, policy) w₁) :
    policy = ⟨policy.aggregated, policy.definitions, e.calendar, e.settings.grace⟩ := by
  obtain ⟨-, _, hbuild⟩ := of_sources h
  obtain ⟨_, _, -, h⟩ := returns_bind.1 hbuild
  obtain ⟨_, _, -, h⟩ := returns_bind.1 h
  obtain ⟨rfl, -⟩ := returns_pure.1 h
  rfl

def shows (e : Engine) (t : Instant) (w : World) (market : Market) :
    Option (List Market × Source.Tokens × Source.Tokens × Option Bool) :=
  match exec e.sources w, exec (e.run (some t)) w with
  | (.ok (markets, policy), _), (.ok s, _) =>
    if s.persisted = s.stateChanged then
      some (markets, policy.aggregated, policy.definitions, s.stateOf market)
    else none
  | _, _ => none

def after (e : Engine) (t : Instant) (w : World) : World := (exec (e.run (some t)) w).2

theorem poll_of_shows (h : e.shows t w market = some (markets, aggregated, definitions, state)) :
    ∃ s, e.Poll markets ⟨aggregated, definitions, e.calendar, e.settings.grace⟩ t w s
      (e.after t w) ∧ s.stateOf market = state := by
  unfold shows at h
  split at h
  · next _ _ w₁ s _ hsources hrun =>
    split at h
    · next hsaves =>
      cases h
      rw [← policy_of_sources hsources, after, hrun]
      exact ⟨s, ⟨⟨w₁, hsources⟩, hrun, hsaves⟩, rfl⟩
    · cases h
  · cases h

def onDay (minute : Nat) : Instant := .ofDay ⟨739000, by decide⟩ (.ofMinutes minute) (some 0)

def smallMarket : Market := ⟨"x/y", "K", "I"⟩

def smallEngine (stateFile : String) (minuteFiles : Bool) : Engine where
  settings := { Settings.usual with
    paths := { Settings.usual.paths with
      markets := some "markets"
      aggregated := "schedule"
      stateFile := stateFile
      output := "a" }
    output := ⟨"host", minuteFiles⟩ }
  calendar := none

def smallWorld (name content : String) (refusals : List (Option Disk.Cause)) : World where
  disk := {
    entries := [(["markets"], .file (Text.encodeUtf8 "x/y K I")),
      ([name], .file (Text.encodeUtf8 content))]
    home := []
    growing := none
    refusals := refusals }
  now := onDay 0
  mark := "t"
  layout := { Journal.Layout.plain with threshold := 100 }

end Computed

section Refinement

variable {e : Engine} {home : Place} {content : Option ByteArray} {markets : List Market}
  {policy : Policy} {w : World} {ts : List Instant} {ss : List RunSummary}

/-- The invariant of `Poll.step` makes runs go through the states of resolving a market from what
the state file says of it at first. From no file, runs at the minutes of a day show the states of
the file of these minutes. -/
theorem polling_refines_resolving (hids : (markets.map (·.id)).Nodup)
    (hbare : ∀ market ∈ markets, '=' ∉ market.id.toList)
    (hbang : ∀ market ∈ markets, market.id.toList.head? ≠ some '!')
    (ha : e.Apart home markets ts) (hw : w.Holds e.statePath home content)
    (h : e.Polling markets policy w ts ss) :
    (∃ utcs, ts.mapM Instant.toUtc = .ok utcs ∧ ∀ market ∈ markets,
      ss.map (·.stateOf market) =
        (policy.statesOver market ((statesIn content).get? market.id) utcs).map some) ∧
      (content = none → ∀ market ∈ markets, ∀ d lines, minuteGrid d minutesPerDay = .ok ts →
        (Output.minuteLines (policy.minuteStep market) d).answer = .ok lines →
        lines.map (·.toList.getLast?) =
          ss.map fun s => (s.stateOf market).map Output.stateMark) := by
  obtain ⟨utcs, hutcs, hstates⟩ := h.states hids hbare hbang ha hw
  refine ⟨⟨utcs, hutcs, hstates⟩, ?_⟩
  rintro rfl market hm d lines hts hlines
  obtain ⟨grid, hgrid, hmarks⟩ := Output.marks_of_minuteStep hlines
  cases hts.symm.trans hgrid
  cases hutcs.symm.trans (mapM_toUtc_minuteGrid hts)
  have hmarket : ss.map (fun s => (s.stateOf market).map Output.stateMark) =
      (ss.map (·.stateOf market)).map (·.map Output.stateMark) := by
    rw [List.map_map]
    rfl
  rw [hmarks, hmarket, hstates market hm, List.map_map]
  rfl

def sessionWorld : World := smallWorld "schedule" "\np09301600,,,K" []

def sessionPolicy : Policy := ⟨[("K", "p09301600")], [], none, Settings.usual.grace⟩

theorem polling_refines_session : ∃ ss,
    (smallEngine "states" false).Polling [smallMarket] sessionPolicy sessionWorld
      [onDay 720, onDay 1320] ss ∧
    ss.map (·.stateOf smallMarket) = [some true, some false] ∧
    ∃ utcs, [onDay 720, onDay 1320].mapM Instant.toUtc = .ok utcs ∧ ∀ market ∈ [smallMarket],
      ss.map (·.stateOf market) =
        (sessionPolicy.statesOver market ((statesIn none).get? market.id) utcs).map some := by
  have hopen : (smallEngine "states" false).shows (onDay 720) sessionWorld smallMarket =
      some ([smallMarket], [("K", "p09301600")], [], some true) := by decide +kernel
  have hclosed : (smallEngine "states" false).shows (onDay 1320)
      ((smallEngine "states" false).after (onDay 720) sessionWorld) smallMarket =
        some ([smallMarket], [("K", "p09301600")], [], some false) := by decide +kernel
  obtain ⟨s, hpoll, hs⟩ := poll_of_shows hopen
  obtain ⟨s', hpoll', hs'⟩ := poll_of_shows hclosed
  have hpolling : (smallEngine "states" false).Polling [smallMarket] sessionPolicy sessionWorld
      [onDay 720, onDay 1320] [s, s'] :=
    .run (by decide +kernel) hpoll (fun _ _ hw => hw)
      (.run (by decide +kernel) hpoll' (fun _ _ hw => hw) .done)
  have ha : (smallEngine "states" false).Apart [] [smallMarket] [onDay 720, onDay 1320] :=
    ⟨by decide +kernel, by decide +kernel, nofun⟩
  have hw : sessionWorld.Holds (smallEngine "states" false).statePath [] none :=
    ⟨rfl, by decide +kernel, nofun, nofun⟩
  refine ⟨[s, s'], hpolling, by rw [List.map_cons, List.map_singleton, hs, hs'], ?_⟩
  exact (polling_refines_resolving (by decide) (by decide) (by decide) ha hw hpolling).1

def keepingPolicy : Policy := ⟨[], [], none, Settings.usual.grace⟩

def openWorld (refusals : List (Option Disk.Cause)) : World :=
  smallWorld "states" "x/y=1" refusals

/-- Two runs at midnight that do not go through the states of resolving, whatever state they start
from. -/
def Strays (e : Engine) (w : World) : Prop :=
  ∃ s s' w₁ w₂, e.Poll [smallMarket] keepingPolicy (onDay 0) w s w₁ ∧
    e.Poll [smallMarket] keepingPolicy (onDay 0) w₁ s' w₂ ∧
    ∀ previous, [s, s'].map (·.stateOf smallMarket) ≠
      (keepingPolicy.statesOver smallMarket previous [onDay 0, onDay 0]).map some

theorem strays_of_shows (hcalendar : e.calendar = none)
    (hgrace : e.settings.grace = Settings.usual.grace)
    (h : e.shows (onDay 0) w smallMarket = some ([smallMarket], [], [], some false))
    (h' : e.shows (onDay 0) (e.after (onDay 0) w) smallMarket =
      some ([smallMarket], [], [], some true)) : e.Strays w := by
  obtain ⟨s, hpoll, hs⟩ := poll_of_shows h
  obtain ⟨s', hpoll', hs'⟩ := poll_of_shows h'
  rw [hcalendar, hgrace] at hpoll hpoll'
  refine ⟨s, s', _, _, hpoll, hpoll', fun previous heq => ?_⟩
  rw [List.map_cons, List.map_singleton, hs, hs'] at heq
  simp only [Policy.statesOver, Policy.stateAt_of_unknown (p := keepingPolicy) rfl rfl] at heq
  cases previous <;> simp [held] at heq

/-- A state file behind a folder that the first run makes for its minute files, and one that the
first run may not read. -/
theorem polls_stray :
    '=' ∉ smallMarket.id.toList ∧ smallMarket.id.toList.head? ≠ some '!' ∧
      (openWorld []).disk.contentAt ((smallEngine "a_x/../states" true).statePath.placeFrom []) =
          some (Text.encodeUtf8 "x/y=1") ∧
      (smallEngine "a_x/../states" true).Apart [] [smallMarket] [onDay 0, onDay 0] ∧
      (smallEngine "a_x/../states" true).Strays (openWorld []) ∧
      (smallEngine "states" false).Apart [] [smallMarket] [onDay 0, onDay 0] ∧
      (smallEngine "states" false).Strays
        (openWorld (List.replicate 8 none ++ [some .denied])) := by
  refine ⟨by decide, by decide, by decide +kernel, ⟨by decide +kernel, by decide +kernel, ?_⟩,
    ?_, ?_, ?_⟩
  · rintro - market hm t ht d hd
    have hdays : t.utcDay = .ok (onDay 0).day := by
      rw [show t = onDay 0 by simpa using ht, Instant.utcDay, Instant.toUtc_of_offset_zero rfl]
      rfl
    cases hdays.symm.trans hd
    rw [List.mem_singleton.1 hm]
    decide +kernel
  · exact strays_of_shows rfl rfl (by decide +kernel) (by decide +kernel)
  · exact ⟨by decide +kernel, by decide +kernel, nofun⟩
  · exact strays_of_shows rfl rfl (by decide +kernel) (by decide +kernel)

end Refinement

end Engine

end TradingHours
