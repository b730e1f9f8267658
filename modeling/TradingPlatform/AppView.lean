import TradingPlatform.Agents.SleeveAgents
import TradingPlatform.Execution.SleeveGross

/-!
# What a sleeve agent sees of the positions

The broker holds one position for each symbol, for all agents together; the lot ledger knows
which agent holds how much of it. The snapshot of a sleeve agent is made of both: the broker's
positions are filtered by the symbols the agent holds, but they keep the broker's quantities.

So another sleeve shows in an agent's snapshot wherever both hold the same symbol.
`TradingPlatform.SleeveSystem.isolated_iff` says that the snapshots of two systems with the same
lots of the agent show these lots, and give the same fingerprint, exactly when in both no other
agent holds any of its symbols.
-/

namespace TradingPlatform

/-- What a snapshot is made of besides positions. -/
structure MarketView where
  barsBySymbol : Dict String (List Bar)
  killSwitchState : KillSwitchState
  effectiveMaxGross : Decimal
  managerDirective : String
  recentRejections : List RecentRejection

/-- The positions an agent is shown: the Manager all of them, a sleeve agent those in symbols it
holds lots of. -/
def App.attributedPositions (lots : LotLedger) (brokerPositions : List BrokerPosition)
    (agentId : AgentId) : List BrokerPosition :=
  if agentId = .manager then brokerPositions.map BrokerPosition.canonical
  else
    let agentQty := lots.openQtyBySymbol agentId
    (brokerPositions.filter fun p => normalizeSymbol p.symbol ∈ agentQty.keys).map
      BrokerPosition.canonical

def App.buildAgentState (lots : LotLedger) (brokerPositions : List BrokerPosition)
    (market : MarketView) (agentId : AgentId) : Agents.AgentSnapshot where
  barsBySymbol := market.barsBySymbol
  positions := App.attributedPositions lots brokerPositions agentId
  killSwitchState := market.killSwitchState
  effectiveMaxGross := market.effectiveMaxGross
  managerDirective := market.managerDirective
  recentRejections := market.recentRejections

/-- The lots of all agents, and the broker's positions. -/
structure SleeveSystem where
  lots : LotLedger
  brokerPositions : List BrokerPosition

namespace SleeveSystem

/-- What an agent holds of a symbol. -/
def ownQty (s : SleeveSystem) (agentId : AgentId) (sym : String) : Decimal :=
  ((s.lots.openQtyBySymbol agentId).get? sym).getD 0

/-- What all agents hold of a symbol. -/
def heldQty (s : SleeveSystem) (sym : String) : Decimal :=
  s.ownQty .haiku sym + s.ownQty .sonnet sym + s.ownQty .opus sym + s.ownQty .manager sym

/-- **The broker holds the sum over the agents** in every symbol: it has one position for each, and
one for every symbol that an agent holds. -/
structure HoldsSum (s : SleeveSystem) : Prop where
  nodup : (s.brokerPositions.map fun p => normalizeSymbol p.symbol).Nodup
  qty : ∀ p ∈ s.brokerPositions, p.qty = s.heldQty (normalizeSymbol p.symbol)
  held : ∀ agentId, ∀ sym ∈ (s.lots.openQtyBySymbol agentId).keys,
    ∃ p ∈ s.brokerPositions, normalizeSymbol p.symbol = sym

/-- The snapshot of a sleeve agent. -/
def snapshot (s : SleeveSystem) (market : MarketView) (agent : SleeveAgent) :
    Agents.AgentSnapshot :=
  App.buildAgentState s.lots s.brokerPositions market agent.agentId

/-- The symbols and quantities a snapshot shows. -/
def shown (state : Agents.AgentSnapshot) : List (String × Decimal) :=
  state.positions.map fun p => (p.symbol, p.qty)

/-- **The agent is shown its own lots**: the symbols and quantities are those of its open lots. -/
def ShowsOwn (s : SleeveSystem) (market : MarketView) (agent : SleeveAgent) : Prop :=
  (shown (s.snapshot market agent)).Perm (s.lots.openQtyBySymbol agent.agentId).entries

/-- **The condition**: no other agent holds a symbol that the agent holds. -/
def Alone (s : SleeveSystem) (agentId : AgentId) : Prop :=
  ∀ sym ∈ (s.lots.openQtyBySymbol agentId).keys, ∀ other, other ≠ agentId →
    sym ∉ (s.lots.openQtyBySymbol other).keys

/-! ### Quantities -/

section Quantities

variable {s : SleeveSystem} {agentId : AgentId} {sym : String}

theorem ownQty_pos_iff :
    0 < s.ownQty agentId sym ↔ sym ∈ (s.lots.openQtyBySymbol agentId).keys := by
  rw [ownQty, Dict.mem_keys_iff, LotLedger.get?_openQtyBySymbol]
  split_ifs with h <;> simp [h]

theorem ownQty_nonneg (s : SleeveSystem) (agentId : AgentId) (sym : String) :
    0 ≤ s.ownQty agentId sym := by
  rw [ownQty, LotLedger.get?_openQtyBySymbol]
  split_ifs with h
  · exact h.le
  · exact le_rfl

theorem ownQty_eq_zero_iff :
    s.ownQty agentId sym = 0 ↔ sym ∉ (s.lots.openQtyBySymbol agentId).keys := by
  rw [← ownQty_pos_iff, not_lt]
  exact ⟨le_of_eq, fun h => le_antisymm h (s.ownQty_nonneg agentId sym)⟩

/-- What all hold is what one holds just when the others hold nothing. -/
theorem heldQty_eq_ownQty_iff :
    s.heldQty sym = s.ownQty agentId sym ↔
      ∀ other, other ≠ agentId → sym ∉ (s.lots.openQtyBySymbol other).keys := by
  have h₁ := s.ownQty_nonneg .haiku sym
  have h₂ := s.ownQty_nonneg .sonnet sym
  have h₃ := s.ownQty_nonneg .opus sym
  have h₄ := s.ownQty_nonneg .manager sym
  simp only [← ownQty_eq_zero_iff]
  constructor
  · intro heq other hne
    cases agentId <;> cases other <;> first
      | exact absurd rfl hne
      | (rw [heldQty] at heq; linarith)
  · intro hzero
    have hz : ∀ other, other ≠ agentId → s.ownQty other sym = 0 := hzero
    cases agentId <;> rw [heldQty] <;> simp [hz]

end Quantities

/-! ### One system -/

section Shown

variable {s : SleeveSystem} {market : MarketView} {agent : SleeveAgent}

/-- The symbols the agent is shown are those it holds. -/
theorem HoldsSum.perm_symbols (h : s.HoldsSum) (agentId : AgentId) :
    ((s.brokerPositions.filter fun p =>
        normalizeSymbol p.symbol ∈ (s.lots.openQtyBySymbol agentId).keys).map fun p =>
      normalizeSymbol p.symbol).Perm (s.lots.openQtyBySymbol agentId).keys := by
  refine (List.perm_ext_iff_of_nodup (h.nodup.sublist (List.filter_sublist.map _))
    (Dict.nodup_keys _)).mpr fun sym => ?_
  simp only [List.mem_map, List.mem_filter, decide_eq_true_eq]
  constructor
  · rintro ⟨p, ⟨-, hp⟩, rfl⟩
    exact hp
  · intro hsym
    obtain ⟨p, hp, rfl⟩ := h.held agentId sym hsym
    exact ⟨p, ⟨hp, hsym⟩, rfl⟩

/-- **What the agent is shown**: its symbols, with what all agents hold of them. -/
theorem HoldsSum.perm_shown (h : s.HoldsSum) :
    (shown (s.snapshot market agent)).Perm
      ((s.lots.openQtyBySymbol agent.agentId).keys.map fun sym => (sym, s.heldQty sym)) := by
  have hshown : shown (s.snapshot market agent) =
      ((s.brokerPositions.filter fun p =>
          normalizeSymbol p.symbol ∈ (s.lots.openQtyBySymbol agent.agentId).keys).map fun p =>
        normalizeSymbol p.symbol).map fun sym => (sym, s.heldQty sym) := by
    rw [shown, snapshot, App.buildAgentState, App.attributedPositions,
      if_neg agent.agentId_ne_manager, List.map_map, List.map_map]
    refine List.map_congr_left fun p hp => Prod.ext rfl ?_
    exact h.qty p (List.mem_filter.mp hp).1
  rw [hshown]
  exact (h.perm_symbols agent.agentId).map _

/-- The open lots of an agent, by symbol. -/
theorem entries_openQtyBySymbol (s : SleeveSystem) (agentId : AgentId) :
    (s.lots.openQtyBySymbol agentId).entries =
      (s.lots.openQtyBySymbol agentId).keys.map fun sym => (sym, s.ownQty agentId sym) := by
  rw [Dict.keys, List.map_map]
  refine (List.map_id _).symm.trans (List.map_congr_left fun e he => Prod.ext rfl ?_)
  rw [Function.comp_apply, ownQty, Dict.get?_eq_some_iff.mpr he]
  rfl

/-- Two ways to value the same keys. -/
theorem perm_map_pair_iff {α β : Type*} {keys : List α} {f g : α → β} :
    (keys.map fun k => (k, f k)).Perm (keys.map fun k => (k, g k)) ↔ ∀ k ∈ keys, f k = g k := by
  constructor
  · intro h k hk
    have hmem := h.mem_iff.mp (List.mem_map_of_mem (f := fun k => (k, f k)) hk)
    obtain ⟨k', -, heq⟩ := List.mem_map.mp hmem
    obtain ⟨rfl, hval⟩ := Prod.mk.inj heq
    exact hval.symm
  · intro h
    exact .of_eq (List.map_congr_left fun k hk => by rw [h k hk])

/-- **The agent is shown its own lots exactly when** no other agent holds a symbol of its. -/
theorem HoldsSum.showsOwn_iff (h : s.HoldsSum) :
    s.ShowsOwn market agent ↔ s.Alone agent.agentId := by
  rw [ShowsOwn, entries_openQtyBySymbol, h.perm_shown.congr_left, perm_map_pair_iff]
  exact forall₂_congr fun sym _ => heldQty_eq_ownQty_iff

end Shown

/-! ### Two systems -/

/-- The open quantities of an agent are a matter of its own lots. -/
theorem foldl_addOpenQty_filter (agentId : AgentId) (lots : List Lot) (out : Dict String Decimal) :
    (lots.filter fun lot => lot.agentId = agentId).foldl (LotLedger.addOpenQty agentId) out =
      lots.foldl (LotLedger.addOpenQty agentId) out := by
  induction lots generalizing out with
  | nil => rfl
  | cons lot lots ih =>
    by_cases h : lot.agentId = agentId
    · rw [List.filter_cons_of_pos (by simpa using h)]
      exact ih _
    · have hskip : LotLedger.addOpenQty agentId out lot = out := if_pos (Or.inl h)
      rw [List.filter_cons_of_neg (by simpa using h), List.foldl_cons, hskip]
      exact ih _

theorem openQtyBySymbol_congr {l l' : LotLedger} {agentId : AgentId}
    (h : (l.allLots.filter fun lot => lot.agentId = agentId) =
      l'.allLots.filter fun lot => lot.agentId = agentId) :
    l.openQtyBySymbol agentId = l'.openQtyBySymbol agentId := by
  rw [LotLedger.openQtyBySymbol, LotLedger.openQtyBySymbol, ← foldl_addOpenQty_filter, h,
    foldl_addOpenQty_filter]

/-- The holdings in a fingerprint are those that are shown. -/
theorem held_congr {positions positions' : List BrokerPosition} (fmt : Agents.Format)
    (h : (positions.map fun p => (p.symbol, p.qty)).Perm
      (positions'.map fun p => (p.symbol, p.qty))) :
    Agents.held fmt positions = Agents.held fmt positions' := by
  have hmap : ∀ positions : List BrokerPosition, positions.map (Agents.holding fmt) =
      (positions.map fun p => (p.symbol, p.qty)).map fun e => e.1 ++ ":" ++ fmt.str e.2 := by
    intro positions
    rw [List.map_map]
    rfl
  rw [Agents.held, Agents.held, hmap, hmap, mergeSort_eq_of_perm (h.map _)]

/-- **The fingerprint depends on what is shown** and on nothing else of the positions. -/
theorem signalFingerprint_congr {state state' : Agents.AgentSnapshot} (fmt : Agents.Format)
    (watchlist : List String) (agent : SleeveAgent) (h : (shown state).Perm (shown state'))
    (hmarket : state' = { state with positions := state'.positions }) :
    agent.signalFingerprint fmt watchlist state = agent.signalFingerprint fmt watchlist state' := by
  rw [hmarket]
  cases agent with
  | haiku llm =>
    change some _ = some _
    rw [held_congr fmt h]
  | sonnet llm =>
    change some _ = some _
    rw [held_congr fmt h]
  | opus llm llmLite =>
    have hlength : state.positions.length = state'.positions.length := by
      simpa [shown] using h.length_eq
    have hmap : ∀ state : Agents.AgentSnapshot,
        (state.positions.map fun p => (p.symbol.toUpper, fmt.quantized 2 p.qty)) =
          (shown state).map fun e => (e.1.toUpper, fmt.quantized 2 e.2) := by
      intro state
      rw [shown, List.map_map]
      rfl
    have hsort := mergeSort_eq_of_perm (κ := Lex (String × String))
      (h.map fun e => toLex (e.1.toUpper, fmt.quantized 2 e.2))
    change OpusAgent.signalFingerprint _ _ _ = OpusAgent.signalFingerprint _ _ _
    unfold OpusAgent.signalFingerprint
    rw [hmap, hmap, hlength]
    dsimp only
    exact if_congr Iff.rfl rfl (congrArg (fun holdings => some (fmt.sha256 holdings _ _ _)) hsort)

/-- **Sleeve isolation, exactly**: two systems with the same lots of an agent both show it these
lots, and so with one fingerprint, just when in neither another agent holds a symbol of its. -/
theorem isolated_iff {s s' : SleeveSystem} (h : s.HoldsSum) (h' : s'.HoldsSum)
    (agent : SleeveAgent) (market : MarketView) (fmt : Agents.Format) (watchlist : List String)
    (hown : (s.lots.allLots.filter fun lot => lot.agentId = agent.agentId) =
      s'.lots.allLots.filter fun lot => lot.agentId = agent.agentId) :
    (s.ShowsOwn market agent ∧ s'.ShowsOwn market agent ∧
        (shown (s.snapshot market agent)).Perm (shown (s'.snapshot market agent)) ∧
        agent.signalFingerprint fmt watchlist (s.snapshot market agent) =
          agent.signalFingerprint fmt watchlist (s'.snapshot market agent)) ↔
      s.Alone agent.agentId ∧ s'.Alone agent.agentId := by
  rw [h.showsOwn_iff, h'.showsOwn_iff]
  constructor
  · rintro ⟨halone, halone', -⟩
    exact ⟨halone, halone'⟩
  · rintro ⟨halone, halone'⟩
    have hshown : s.ShowsOwn market agent := h.showsOwn_iff.mpr halone
    have hshown' : s'.ShowsOwn market agent := h'.showsOwn_iff.mpr halone'
    rw [ShowsOwn, openQtyBySymbol_congr hown] at hshown
    have hperm := hshown.trans hshown'.symm
    exact ⟨halone, halone', hperm, signalFingerprint_congr fmt watchlist agent hperm rfl⟩

/-! ### A holding in common -/

def lotOf (id : LotId) (agentId : AgentId) (symbol : String) (qty : Decimal) : Lot where
  id := id
  agentId := agentId
  symbol := symbol
  qty := qty
  entryPrice := 100
  entryDate := 0
  entryFillId := id
  remainingQty := qty

def positionOf (symbol : String) (qty : Decimal) : BrokerPosition :=
  ⟨symbol, qty, 100, 100, .equity⟩

/-- Sonnet holds 10 shares of AAPL, and Opus holds 5 shares of a symbol. -/
def withOpus (symbol : String) (positions : List BrokerPosition) : SleeveSystem where
  lots := ⟨(Dict.empty.set 0 (lotOf 0 .sonnet "AAPL" 10)).set 1 (lotOf 1 .opus symbol 5), []⟩
  brokerPositions := positions

def apart : SleeveSystem := withOpus "MSFT" [positionOf "AAPL" 10, positionOf "MSFT" 5]

def apartAgain : SleeveSystem := withOpus "NVDA" [positionOf "NVDA" 5, positionOf "AAPL" 10]

def inCommon : SleeveSystem := withOpus "AAPL" [positionOf "AAPL" 15]

theorem holdsSum_apart : apart.HoldsSum where
  nodup := by decide +kernel
  qty := by decide +kernel
  held agentId := by cases agentId <;> decide +kernel

theorem holdsSum_apartAgain : apartAgain.HoldsSum where
  nodup := by decide +kernel
  qty := by decide +kernel
  held agentId := by cases agentId <;> decide +kernel

theorem holdsSum_inCommon : inCommon.HoldsSum where
  nodup := by decide +kernel
  qty := by decide +kernel
  held agentId := by cases agentId <;> decide +kernel

/-- A market with nothing in it. -/
def quietMarket : MarketView := ⟨.empty, .ok, 1, "", []⟩

def sonnetAgent : SleeveAgent := .sonnet ⟨sonnetModel, 3⟩

theorem alone_of_others {s : SleeveSystem}
    (h : ∀ other ∈ [AgentId.haiku, .opus, .manager],
      ∀ sym ∈ (s.lots.openQtyBySymbol .sonnet).keys, sym ∉ (s.lots.openQtyBySymbol other).keys) :
    s.Alone sonnetAgent.agentId := by
  intro sym hsym other hne
  refine h other ?_ sym hsym
  cases other <;> first
    | exact absurd rfl hne
    | decide

/-- Where Opus holds something else, whatever it is, Sonnet is shown its own shares. -/
theorem showsOwn_apart :
    apart.ShowsOwn quietMarket sonnetAgent ∧ apartAgain.ShowsOwn quietMarket sonnetAgent := by
  have h := (isolated_iff holdsSum_apart holdsSum_apartAgain sonnetAgent quietMarket
    ⟨fun _ => "", fun _ _ => "", fun _ _ _ _ => ""⟩ [] (by decide +kernel)).mpr
    ⟨alone_of_others (by decide +kernel), alone_of_others (by decide +kernel)⟩
  exact ⟨h.1, h.2.1⟩

/-- **Where Opus holds the same**, Sonnet is shown the shares of both. -/
theorem not_isolated_inCommon :
    apart.HoldsSum ∧ inCommon.HoldsSum ∧
      (apart.lots.allLots.filter fun lot => lot.agentId = sonnetAgent.agentId) =
        (inCommon.lots.allLots.filter fun lot => lot.agentId = sonnetAgent.agentId) ∧
      ¬inCommon.ShowsOwn quietMarket sonnetAgent ∧
      ¬(shown (apart.snapshot quietMarket sonnetAgent)).Perm
        (shown (inCommon.snapshot quietMarket sonnetAgent)) :=
  ⟨holdsSum_apart, holdsSum_inCommon, by decide +kernel, by unfold ShowsOwn; decide +kernel,
    by decide +kernel⟩

end SleeveSystem

end TradingPlatform
