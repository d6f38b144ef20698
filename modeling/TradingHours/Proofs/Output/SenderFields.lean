import TradingHours.Proofs.Engine.Run
import TradingHours.Proofs.Market
import TradingHours.Proofs.Output.MinuteColumns
import TradingHours.Settings.Validation
/-!
The lines of the sender file by their fields. The state of a line is looked up by the identifier of
its market, so of markets that share one identifier every line shows the state of the last one.
-/
namespace TradingHours.Output

open Engine (evaluate evaluated)

variable {host itemKey : String} {markets : List Market} {resolutions : List Resolution}
  {states : List (String × Bool)} {state : Bool}

section Fields

theorem word_of_hostRule (h : Settings.hostRule.holds (.text host) = true) : Text.Word host := by
  have hboth : host ≠ "" ∧ ∀ c ∈ host.toList, Text.isBlank c = false := by
    simpa [Settings.hostRule] using h
  exact ⟨by simpa using hboth.1, hboth.2⟩

theorem fields_senderLine (hhost : Text.Word host) (hitem : Text.Word itemKey) :
    Text.fields (senderLine host itemKey (stateValue state)) =
      [host, itemKey, stateText state] := by
  rw [senderLine, Text.fields_append_space, Text.fields_append_space, hhost.fields_eq,
    hitem.fields_eq, (Text.word_decimal _).fields_eq, decimal_stateValue]
  rfl

end Fields

section Lookup

theorem senderLines_eq_map {value : Market → Bool}
    (h : ∀ market ∈ markets, (statesOf states).get? market.id = some (value market)) :
    senderLines host markets states =
      markets.map fun market => senderLine host market.itemKey (stateValue (value market)) := by
  refine List.filterMap_eq_map_iff_forall_eq_some.2 fun market hm => ?_
  rw [h market hm, Option.map_some]

structure LastOf (resolutions : List Resolution) (j : Nat) (r : Resolution) : Prop where
  found : resolutions[j]? = some r
  last : ∀ k later, j < k → resolutions[k]? = some later → later.marketId ≠ r.marketId

theorem exists_lastOf {i : Nat} {first : Resolution} (h : resolutions[i]? = some first) :
    ∃ j r, i ≤ j ∧ LastOf resolutions j r ∧ r.marketId = first.marketId ∧
      (statesOf (resolvedStates resolutions)).get? first.marketId = some r.state := by
  have hpair : ∀ k, (resolvedStates resolutions)[k]? =
      resolutions[k]?.map fun (r : Resolution) => (r.marketId, r.state) := fun _ => List.getElem?_map
  obtain ⟨j, state, hij, hlast⟩ : ∃ j state, i ≤ j ∧
      Table.LastAt (resolvedStates resolutions) first.marketId j state :=
    Table.exists_lastAt (by rw [hpair, h]; rfl)
  obtain ⟨r, hr, hboth⟩ := Option.map_eq_some_iff.1 ((hpair j).symm.trans hlast.found)
  obtain ⟨hid, hstate⟩ := Prod.mk.inj hboth
  refine ⟨j, r, hij, ⟨hr, fun k later hjk hlater => ?_⟩, hid, ?_⟩
  · rw [hid]
    exact hlast.last k _ hjk (by rw [hpair, hlater]; rfl)
  · rw [hstate]
    exact hlast.get?_ofPairs

end Lookup

section Sender

variable {policy : Policy} {previous : States} {now : Instant}

theorem getElem?_evaluated (policy : Policy) (previous : States) (now : Instant) {i : Nat}
    {market : Market} (h : markets[i]? = some market) :
    (markets.map (evaluated policy previous now))[i]? =
      some (evaluated policy previous now market) := by
  rw [List.getElem?_map, h]
  rfl

theorem senderLines_evaluated (host : String) (markets : List Market) :
    senderLines host markets (resolvedStates (markets.map (evaluated policy previous now))) =
      markets.map fun market => senderLine host market.itemKey (stateValue
        (((statesOf (resolvedStates (markets.map (evaluated policy previous now)))).get?
          market.id).getD false)) := by
  refine senderLines_eq_map fun market hm => ?_
  obtain ⟨i, hi⟩ := List.mem_iff_getElem?.1 hm
  obtain ⟨j, r, -, -, -, hget⟩ := exists_lastOf
    (getElem?_evaluated policy previous now hi)
  rw [Engine.evaluated_marketId] at hget
  rw [hget]
  rfl

/-- The last resolution of a market's identifier is its own one, unless a later market of the
allowlist repeats the identifier. -/
theorem senderLines_fields (lines : List String) (policy : Policy) (previous : States)
    (now : Instant) (hhost : Settings.hostRule.holds (.text host) = true) :
    ∃ markets resolutions, (Market.ofLines lines).answer = .ok markets ∧
      (evaluate policy previous now markets).answer = .ok resolutions ∧
      (senderLines host markets (resolvedStates resolutions)).length = markets.length ∧
      ∀ i market, markets[i]? = some market → ∃ line j r,
        (senderLines host markets (resolvedStates resolutions))[i]? = some line ∧
        Text.fields line = [host, market.itemKey, stateText r.state] ∧
        LastOf resolutions j r ∧ r.marketId = market.id ∧ i ≤ j ∧
        ((∀ k later, i < k → markets[k]? = some later → later.id ≠ market.id) → j = i) := by
  obtain ⟨markets, hmarkets⟩ : ∃ markets, (Market.ofLines lines).answer = .ok markets :=
    ⟨_, (Market.ofLines_answers lines).answer_eq⟩
  refine ⟨markets, _, hmarkets, (Engine.evaluate_answers markets).answer_eq, ?_, ?_⟩
  · rw [senderLines_evaluated, List.length_map]
  intro i market hi
  obtain ⟨j, r, hij, hlast, hid, hget⟩ := exists_lastOf
    (getElem?_evaluated policy previous now hi)
  rw [Engine.evaluated_marketId] at hid hget
  have hline : (senderLines host markets (resolvedStates
      (markets.map (evaluated policy previous now))))[i]? =
        some (senderLine host market.itemKey (stateValue r.state)) := by
    rw [senderLines_evaluated, List.getElem?_map, hi, Option.map_some, hget, Option.getD_some]
  refine ⟨_, j, r, hline, ?_, hlast, hid, hij, fun hsingle => ?_⟩
  · exact fields_senderLine (word_of_hostRule hhost)
      (Market.word_itemKey hmarkets (List.mem_of_getElem? hi))
  · by_contra hne
    obtain ⟨later, hlater, hr⟩ := Option.map_eq_some_iff.1 (List.getElem?_map.symm.trans hlast.found)
    apply hsingle j later (by omega) hlater
    rw [← hid, ← hr, Engine.evaluated_marketId]

def openPolicy : Policy := ⟨[("K", "0000+0000")], [], none, Settings.usual.grace⟩

def noon : Instant := .ofDay ⟨738500, by decide⟩ (.ofMinutes 720) (some 0)

theorem senderLines_fields_open : ∃ line r,
    (senderLines "MarketSchedule" [⟨"NYSE", "K", "I"⟩]
      (resolvedStates [evaluated openPolicy [] noon ⟨"NYSE", "K", "I"⟩]))[0]? = some line ∧
      [evaluated openPolicy [] noon ⟨"NYSE", "K", "I"⟩][0]? = some r ∧
      Text.fields line = ["MarketSchedule", "I", stateText r.state] := by
  have hhost : Settings.hostRule.holds (.text "MarketSchedule") = true := by decide +kernel
  obtain ⟨markets, resolutions, hmarkets, hresolutions, -, hlines⟩ :=
    senderLines_fields ["NYSE K I"] openPolicy [] noon hhost
  rw [(Market.ofLines_answers _).answer_eq] at hmarkets
  rw [(Engine.evaluate_answers markets).answer_eq] at hresolutions
  obtain rfl : markets = [⟨"NYSE", "K", "I"⟩] := by
    rw [← Except.ok.inj hmarkets]
    decide +kernel
  cases hresolutions
  obtain ⟨line, j, r, hline, hfields, hlast, -, -, hj⟩ := hlines 0 ⟨"NYSE", "K", "I"⟩ rfl
  obtain rfl := hj fun k later hk hlater => by
    rw [List.getElem?_eq_none (Nat.succ_le_of_lt hk)] at hlater
    cases hlater
  exact ⟨line, r, hline, hlast.found, hfields⟩

/-- The first of two markets of one identifier is open, and its line says that it is closed. -/
theorem senderLines_repeated :
    Settings.hostRule.holds (.text "MarketSchedule") = true ∧
      (Market.ofLines ["A K I", "A L J"]).answer = .ok [⟨"A", "K", "I"⟩, ⟨"A", "L", "J"⟩] ∧
      ∃ resolutions r, (evaluate openPolicy [] noon [⟨"A", "K", "I"⟩, ⟨"A", "L", "J"⟩]).answer =
          .ok resolutions ∧ resolutions[0]? = some r ∧ r.state = true ∧
        (senderLines "MarketSchedule" [⟨"A", "K", "I"⟩, ⟨"A", "L", "J"⟩]
          (resolvedStates resolutions)).map Text.fields =
            [["MarketSchedule", "I", "0"], ["MarketSchedule", "J", "0"]] := by
  refine ⟨by decide +kernel, ?_, _, evaluated openPolicy [] noon ⟨"A", "K", "I"⟩,
    (Engine.evaluate_answers _).answer_eq, rfl, by decide +kernel, by decide +kernel⟩
  exact (Market.ofLines_answers _).answer_eq.trans (congrArg Except.ok (by decide +kernel))

end Sender

end TradingHours.Output
