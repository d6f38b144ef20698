import TradingHours.Proofs.Engine.Rerun
import TradingHours.Proofs.Output.SenderFields
/-!
Two runs side by side that share one market. Where the sources and the state file say the same of
it, it is resolved alike, gets the same line for the sender, and is recorded alike, whatever else
there is in either run.
-/
namespace TradingHours.Engine

open Schedule (held)
open StateFile (statesIn)

variable {e : Engine} {home : Place} {content : Option ByteArray} {markets : List Market}
  {policy : Policy} {t now : Instant} {w w' : World} {s : RunSummary} {previous : States}
  {market : Market}

/-- A run by an allowlist that names every market once, in a way that the state file can hold. The
run gets at that file, and nothing else is written there. -/
structure Orderly (e : Engine) (home : Place) (content : Option ByteArray) (markets : List Market)
    (policy : Policy) (t : Instant) (w : World) (s : RunSummary) (w' : World) : Prop where
  poll : e.Poll markets policy t w s w'
  ids : (markets.map (·.id)).Nodup
  bare : ∀ market ∈ markets, '=' ∉ market.id.toList
  unmarked : ∀ market ∈ markets, market.id.toList.head? ≠ some '!'
  apart : e.Apart home markets [t]
  holds : w.Holds e.statePath home content
  reads : e.Reads w

theorem statesOf_evaluated (hids : (markets.map (·.id)).Nodup) (hm : market ∈ markets) :
    (Output.statesOf (Output.resolvedStates (markets.map (evaluated policy previous now)))).get?
      market.id = some (policy.stateAt market now (previous.get? market.id)) := by
  rw [resolvedStates_evaluated, Output.statesOf]
  have hkeys : (Table.keys (markets.map fun market =>
      (market.id, policy.stateAt market now (previous.get? market.id)))).Nodup := by
    rwa [Table.keys, List.map_map]
  rw [Table.ofPairs_of_nodup hkeys, Table.get?_eq_some_iff hkeys]
  exact List.mem_map_of_mem (f := fun market => (market.id, _)) hm

theorem getElem?_senderLines (host : String) (hids : (markets.map (·.id)).Nodup) {i : Nat}
    (hi : markets[i]? = some market) :
    (Output.senderLines host markets
      (Output.resolvedStates (markets.map (evaluated policy previous now))))[i]? =
        some (Output.senderLine host market.itemKey
          (stateValue (policy.stateAt market now (previous.get? market.id)))) := by
  rw [Output.senderLines_eq_map fun market hm => statesOf_evaluated hids hm, List.getElem?_map, hi]
  rfl

/-- A market that keeps its state keeps its record, or the lack of one. -/
theorem get?_changesOf (hids : (markets.map (·.id)).Nodup) (hm : market ∈ markets) :
    (apply previous (changesOf policy previous now markets)).get? market.id =
      if policy.stateAt market now (previous.get? market.id) = held (previous.get? market.id) then
        previous.get? market.id
      else some (policy.stateAt market now (previous.get? market.id)) := by
  split
  · next hheld =>
    refine get?_apply_of_not_mem (not_mem_changes fun r hr hid => ?_)
    obtain ⟨other, hother, rfl⟩ := List.mem_map.1 hr
    rw [evaluated_marketId] at hid
    rw [List.inj_on_of_nodup_map hids hother hm hid, evaluated_state, hheld]
  · next hne =>
    have hchanged : (evaluated policy previous now market).state ≠
        held (previous.get? (evaluated policy previous now market).marketId) := by
      rwa [evaluated_state, evaluated_marketId]
    cases hof : changeOf? previous now (evaluated policy previous now market) with
    | none => exact absurd (changeOf?_eq_none_iff.1 hof) hchanged
    | some change =>
      obtain ⟨hid, hstate⟩ := marketId_of_changeOf? hof
      have hmem : change ∈ changesOf policy previous now markets :=
        List.mem_filterMap.2 ⟨_, List.mem_map_of_mem hm, hof⟩
      rw [← evaluated_state, ← hstate, ← get?_apply_of_change hmem, hid, evaluated_marketId]
      rfl

/-- What a run says of a market: its resolution, its line for the sender, and what the next load of
the state file gives. A file that is there can be loaded. -/
structure Says (e : Engine) (markets : List Market) (s : RunSummary) (w' : World) (market : Market)
    (r : Resolution) (line : String) (recorded : Option Bool) : Prop where
  resolved : s.resolutions.find? (·.marketId = market.id) = some r
  sent : ∀ i : Nat, markets[i]? = some market → (Output.senderLines e.settings.output.host markets
    (Output.resolvedStates s.resolutions))[i]? = some line
  loaded : ∀ states v, w'.disk.Grants 2 → Returns (StateFile.load e.statePath) w' states v →
    states.get? market.id = recorded
  loads : w'.disk.contentAt (e.statePath.placeFrom w'.disk.home) ≠ none → w'.disk.Grants 2 →
    ∃ states v, Returns (StateFile.load e.statePath) w' states v

theorem Orderly.says (h : e.Orderly home content markets policy t w s w') (hm : market ∈ markets)
    (hutc : t.toUtc = .ok now) :
    e.Says markets s w' market (evaluated policy (statesIn content) now market)
      (Output.senderLine e.settings.output.host market.itemKey
        (stateValue (evaluated policy (statesIn content) now market).state))
      (if (evaluated policy (statesIn content) now market).state =
          held ((statesIn content).get? market.id) then (statesIn content).get? market.id
        else some (evaluated policy (statesIn content) now market).state) := by
  obtain ⟨now', hutc', hresolutions, content', hw', hleft⟩ :=
    h.poll.leaves (h.poll.storable h.bare h.unmarked) h.apart List.mem_cons_self h.holds h.reads
  cases hutc.symm.trans hutc'
  rw [evaluated_state]
  constructor
  · rw [hresolutions, find?_evaluated h.ids hm]
  · intro i hi
    rw [hresolutions, getElem?_senderLines _ h.ids hi]
  · intro states v hg hload
    rw [StateFile.load_returns hw' hg hload, hleft, get?_changesOf h.ids hm]
  · intro hfile hg
    rw [hw'.home_eq, hw'.content_eq] at hfile
    obtain ⟨bytes, rfl⟩ := Option.ne_none_iff_exists'.1 hfile
    obtain ⟨v, hload⟩ := StateFile.load_of_holds hg hw'
    exact ⟨_, v, hload⟩

section Pair

variable {e₁ e₂ : Engine} {home₁ home₂ : Place} {content₁ content₂ : Option ByteArray}
  {markets₁ markets₂ : List Market} {policy₁ policy₂ : Policy} {w₁ w₂ w₁' w₂' : World}
  {s₁ s₂ : RunSummary}

theorem Poll.policy_eq (h : e.Poll markets policy t w s w') :
    policy.calendar = e.calendar ∧ policy.grace = e.settings.grace := by
  obtain ⟨_, hsources⟩ := h.loads
  have hpolicy := policy_of_sources hsources
  exact ⟨congrArg Policy.calendar hpolicy, congrArg Policy.grace hpolicy⟩

/-- The runs may differ in everything else: their other markets, tokens, calendars and states, and
where their files are. -/
theorem markets_isolated (h₁ : e₁.Orderly home₁ content₁ markets₁ policy₁ t w₁ s₁ w₁')
    (h₂ : e₂.Orderly home₂ content₂ markets₂ policy₂ t w₂ s₂ w₂')
    (hm₁ : market ∈ markets₁) (hm₂ : market ∈ markets₂)
    (hgrace : e₁.settings.grace = e₂.settings.grace)
    (hhost : e₁.settings.output.host = e₂.settings.output.host)
    (haggregated : policy₁.aggregated.get? market.tvKey = policy₂.aggregated.get? market.tvKey)
    (hdefinitions : policy₁.definitions.get? market.tvKey = policy₂.definitions.get? market.tvKey)
    (hcalendar :
      e₁.calendar.map (fun c => (c.tradingDay market.tvKey, c.tradingSession market.tvKey)) =
        e₂.calendar.map fun c => (c.tradingDay market.tvKey, c.tradingSession market.tvKey))
    (hstates : (statesIn content₁).get? market.id = (statesIn content₂).get? market.id) :
    ∃ r line recorded, e₁.Says markets₁ s₁ w₁' market r line recorded ∧
      e₂.Says markets₂ s₂ w₂' market r line recorded := by
  obtain ⟨now, hutc, -⟩ := h₁.poll.leaves (h₁.poll.storable h₁.bare h₁.unmarked) h₁.apart
    List.mem_cons_self h₁.holds h₁.reads
  have hagree : Policy.AgreeAt policy₁ policy₂ market.tvKey := by
    refine ⟨haggregated, hdefinitions, ?_, ?_⟩
    · rwa [h₁.poll.policy_eq.1, h₂.poll.policy_eq.1]
    · rwa [h₁.poll.policy_eq.2, h₂.poll.policy_eq.2]
  have hevaluated : evaluated policy₂ (statesIn content₂) now market =
      evaluated policy₁ (statesIn content₁) now market := by
    unfold evaluated settled
    rw [hstates, hagree.resolution_eq]
  have hsays := h₂.says hm₂ hutc
  rw [hevaluated, ← hhost, ← hstates] at hsays
  exact ⟨_, _, _, h₁.says hm₁ hutc, hsays⟩

def pairWorld : World :=
  worldOf [("markets", "A K I\nB L J"), ("schedule", "\np09301600,,,K\np17001800,,,L")] []

def mixedWorld : World :=
  worldOf [("markets", "C M N\nA K I"), ("schedule", "\np09301600,,,K"), ("states", "C=1")] []

theorem markets_isolated_noon : ∃ s₁ s₂ r line recorded, r.state = true ∧
    (smallEngine "states" false).Says [⟨"A", "K", "I"⟩, ⟨"B", "L", "J"⟩] s₁
      ((smallEngine "states" false).after (onDay 720) pairWorld) ⟨"A", "K", "I"⟩ r line recorded ∧
    (smallEngine "states" false).Says [⟨"C", "M", "N"⟩, ⟨"A", "K", "I"⟩] s₂
      ((smallEngine "states" false).after (onDay 720) mixedWorld) ⟨"A", "K", "I"⟩ r line
        recorded := by
  have hfirst : (smallEngine "states" false).shows (onDay 720) pairWorld ⟨"A", "K", "I"⟩ =
      some ([⟨"A", "K", "I"⟩, ⟨"B", "L", "J"⟩], [("K", "p09301600"), ("L", "p17001800")], [],
        some true) := by decide +kernel
  have hsecond : (smallEngine "states" false).shows (onDay 720) mixedWorld ⟨"A", "K", "I"⟩ =
      some ([⟨"C", "M", "N"⟩, ⟨"A", "K", "I"⟩], [("K", "p09301600")], [], some true) := by
    decide +kernel
  obtain ⟨s₁, hpoll₁, hstate⟩ := poll_of_shows hfirst
  obtain ⟨s₂, hpoll₂, -⟩ := poll_of_shows hsecond
  have ha : ∀ markets, (smallEngine "states" false).Apart [] markets [onDay 720] :=
    fun _ => ⟨by decide +kernel, by decide +kernel, nofun⟩
  have hw₁ : pairWorld.Holds (smallEngine "states" false).statePath [] none :=
    ⟨rfl, by decide +kernel, nofun, nofun⟩
  have hw₂ : mixedWorld.Holds (smallEngine "states" false).statePath []
      (some (Text.encodeUtf8 "C=1")) := ⟨rfl, by decide +kernel, fun _ => by decide +kernel, nofun⟩
  obtain ⟨r, line, recorded, hsays₁, hsays₂⟩ := markets_isolated
    ⟨hpoll₁, by decide, by decide, by decide, ha _, hw₁, by decide +kernel⟩
    ⟨hpoll₂, by decide, by decide, by decide, ha _, hw₂, by decide +kernel⟩
    List.mem_cons_self (List.mem_cons_of_mem _ List.mem_cons_self) rfl rfl (by decide)
    (by decide) rfl (by decide +kernel)
  rw [RunSummary.stateOf, hsays₁.resolved] at hstate
  exact ⟨s₁, s₂, r, line, recorded, Option.some_inj.1 hstate, hsays₁, hsays₂⟩

/-- Two runs by the sources of their worlds that load the same state of a market, after which the
state file says different ones. -/
def Leaks (e : Engine) (t : Instant) (market : Market) (w₁ w₂ : World) : Prop :=
  ∃ markets₁ markets₂ policy₁ policy₂ s₁ s₂ r₁ r₂ v₁ v₂ states₁ states₂ u₁ u₂,
    e.Poll markets₁ policy₁ t w₁ s₁ (e.after t w₁) ∧
    e.Poll markets₂ policy₂ t w₂ s₂ (e.after t w₂) ∧ market ∈ markets₁ ∧ market ∈ markets₂ ∧ (markets₁.map (·.id)).Nodup ∧
    (markets₂.map (·.id)).Nodup ∧
    (∀ market ∈ markets₁ ++ markets₂, '=' ∉ market.id.toList ∧ market.id.toList.head? ≠ some '!') ∧
    Policy.AgreeAt policy₁ policy₂ market.tvKey ∧
    Returns (e.resolveRound (some t)) w₁ r₁ v₁ ∧ Returns (e.resolveRound (some t)) w₂ r₂ v₂ ∧
    r₁.previous.get? market.id = r₂.previous.get? market.id ∧
    Returns (StateFile.load e.statePath) (e.after t w₁) states₁ u₁ ∧
    Returns (StateFile.load e.statePath) (e.after t w₂) states₂ u₂ ∧
    states₁.get? market.id ≠ states₂.get? market.id

theorem leaks_of_shows {aggregated₁ aggregated₂ definitions₁ definitions₂ : Source.Tokens}
    {state₁ state₂ : Option Bool} (recorded recorded₁ recorded₂ : Option Bool)
    (h₁ : e.shows t w₁ market = some (markets₁, aggregated₁, definitions₁, state₁))
    (h₂ : e.shows t w₂ market = some (markets₂, aggregated₂, definitions₂, state₂))
    (hm : market ∈ markets₁ ∧ market ∈ markets₂)
    (hids : (markets₁.map (·.id)).Nodup ∧ (markets₂.map (·.id)).Nodup)
    (hnames : ∀ market ∈ markets₁ ++ markets₂,
      '=' ∉ market.id.toList ∧ market.id.toList.head? ≠ some '!')
    (htokens : aggregated₁.get? market.tvKey = aggregated₂.get? market.tvKey ∧
      definitions₁.get? market.tvKey = definitions₂.get? market.tvKey)
    (hround₁ : (exec (e.resolveRound (some t)) w₁).1.toOption.map (·.previous.get? market.id) =
      some recorded)
    (hround₂ : (exec (e.resolveRound (some t)) w₂).1.toOption.map (·.previous.get? market.id) =
      some recorded)
    (hload₁ : (exec (StateFile.load e.statePath) (e.after t w₁)).1.toOption.map
      (·.get? market.id) = some recorded₁)
    (hload₂ : (exec (StateFile.load e.statePath) (e.after t w₂)).1.toOption.map
      (·.get? market.id) = some recorded₂)
    (hne : recorded₁ ≠ recorded₂) : e.Leaks t market w₁ w₂ := by
  obtain ⟨s₁, hpoll₁, -⟩ := poll_of_shows h₁
  obtain ⟨s₂, hpoll₂, -⟩ := poll_of_shows h₂
  obtain ⟨r₁, hr₁, hprevious₁⟩ := returns_of_map hround₁
  obtain ⟨r₂, hr₂, hprevious₂⟩ := returns_of_map hround₂
  obtain ⟨states₁, hstates₁, hrecorded₁⟩ := returns_of_map hload₁
  obtain ⟨states₂, hstates₂, hrecorded₂⟩ := returns_of_map hload₂
  refine ⟨markets₁, markets₂, _, _, s₁, s₂, r₁, r₂, _, _, states₁, states₂, _, _, hpoll₁, hpoll₂,
    hm.1, hm.2, hids.1, hids.2, hnames, ⟨htokens.1, htokens.2, rfl, rfl⟩, hr₁, hr₂, ?_, hstates₁,
    hstates₂, ?_⟩
  · rw [hprevious₁, hprevious₂]
  · rwa [hrecorded₁, hrecorded₂]

/-- A state file behind a folder that is made for the minute files of another market, one that is
also the sender file, and one that a run may not read. -/
theorem markets_leak :
    (smallEngine "a_x/../states" true).Leaks (onDay 0) ⟨"A", "K", "I"⟩
        (worldOf [("markets", "A K I\nx/y L J"), ("states", "A=1")] [])
        (worldOf [("markets", "A K I"), ("states", "A=1")] []) ∧
      (smallEngine "a" false).Leaks (onDay 0) ⟨"host", "K", "=I"⟩
        (worldOf [("markets", "host K =I\nB L J"), ("schedule", "\n0000+0000,,,L")] [])
        (worldOf [("markets", "host K =I")] []) ∧
      (smallEngine "states" false).Leaks (onDay 0) ⟨"A", "K", "I"⟩
        (worldOf [("markets", "A K I"), ("states", "A=1")] (List.replicate 8 none ++ [some .denied]))
        (worldOf [("markets", "A K I")] []) := by
  refine ⟨?_, ?_, ?_⟩
  · have hfirst : (smallEngine "a_x/../states" true).shows (onDay 0)
        (worldOf [("markets", "A K I\nx/y L J"), ("states", "A=1")] []) ⟨"A", "K", "I"⟩ =
          some ([⟨"A", "K", "I"⟩, ⟨"x/y", "L", "J"⟩], [], [], some false) := by decide +kernel
    have hsecond : (smallEngine "a_x/../states" true).shows (onDay 0)
        (worldOf [("markets", "A K I"), ("states", "A=1")] []) ⟨"A", "K", "I"⟩ =
          some ([⟨"A", "K", "I"⟩], [], [], some false) := by decide +kernel
    exact leaks_of_shows none (some true) none hfirst hsecond (by decide) (by decide) (by decide)
      (by decide) (by decide +kernel) (by decide +kernel) (by decide +kernel) (by decide +kernel)
      (by decide)
  · have hfirst : (smallEngine "a" false).shows (onDay 0) (worldOf [("markets", "host K =I\nB L J"),
        ("schedule", "\n0000+0000,,,L")] []) ⟨"host", "K", "=I"⟩ =
          some ([⟨"host", "K", "=I"⟩, ⟨"B", "L", "J"⟩], [("L", "0000+0000")], [], some false) := by
      decide +kernel
    have hsecond : (smallEngine "a" false).shows (onDay 0) (worldOf [("markets", "host K =I")] [])
        ⟨"host", "K", "=I"⟩ = some ([⟨"host", "K", "=I"⟩], [], [], some false) := by decide +kernel
    -- the line for the sender reads as one of a state file
    exact leaks_of_shows none none (some false) hfirst hsecond (by decide) (by decide)
      (by decide) (by decide) (by decide +kernel) (by decide +kernel) (by decide +kernel)
      (by decide +kernel) (by decide)
  · have hfirst : (smallEngine "states" false).shows (onDay 0) (worldOf [("markets", "A K I"),
        ("states", "A=1")] (List.replicate 8 none ++ [some .denied])) ⟨"A", "K", "I"⟩ =
          some ([⟨"A", "K", "I"⟩], [], [], some false) := by decide +kernel
    have hsecond : (smallEngine "states" false).shows (onDay 0) (worldOf [("markets", "A K I")] [])
        ⟨"A", "K", "I"⟩ = some ([⟨"A", "K", "I"⟩], [], [], some false) := by decide +kernel
    exact leaks_of_shows none (some true) none hfirst hsecond (by decide) (by decide) (by decide)
      (by decide) (by decide +kernel) (by decide +kernel) (by decide +kernel) (by decide +kernel)
      (by decide)

end Pair

end TradingHours.Engine
