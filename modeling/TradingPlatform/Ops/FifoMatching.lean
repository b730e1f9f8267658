import TradingPlatform.Ops.CashFlowAttribution

/-!
# What matching in the order of the log comes to

The walk over the fills matches every sale with the oldest purchases of its agent under its
spelling, splitting sales over purchases and purchases over sales as it goes. In a log that never
sells what was not bought, what it leaves of the purchases of one agent under one spelling is what
one drain by everything sold so far leaves (`TradingPlatform.FillWalk.Matches`).

So what an agent realized has a closed form, with no queue in it: for every symbol what its sales
brought in, less what its purchases cost, and the cost of what is left, at the prices of the shares
bought last (`TradingPlatform.realizedByAgentFromFills_eq`).
-/

namespace TradingPlatform

/-- What an agent's sales under a spelling brought in. -/
def proceedsAs (fills : List Fill) (agentId : AgentId) (symbol : String) : Decimal :=
  ((fills.filter fun fill =>
    fill.side = .sell ∧ fill.agentId = agentId ∧ fill.symbol = symbol).map
      fun fill => fill.price * fill.qty).sum

/-- What an agent's purchases under a spelling cost. -/
def costAs (fills : List Fill) (agentId : AgentId) (symbol : String) : Decimal :=
  worth id (purchases fills agentId symbol)

/-- How much an agent has left of what it bought under a spelling. -/
def remainingAs (fills : List Fill) (agentId : AgentId) (symbol : String) : Decimal :=
  supply (purchases fills agentId symbol) - soldAs fills agentId symbol

/-- What a quantity cost, if it is of the shares bought last: the purchases are gone through from
the last one on. -/
def lastBoughtCost (fills : List Fill) (agentId : AgentId) (symbol : String) (qty : Decimal) :
    Decimal :=
  takenWorth id (purchases fills agentId symbol).reverse qty

/-- No agent ever sold more under a spelling than it had bought under it. -/
def NeverOversold (fills : List Fill) : Prop :=
  ∀ pre, pre <+: fills → ∀ agentId symbol,
    soldAs pre agentId symbol ≤ supply (purchases pre agentId symbol)

theorem NeverOversold.of_isPrefix {fills pre : List Fill} (h : NeverOversold fills)
    (hpre : pre <+: fills) : NeverOversold pre :=
  fun pre' hpre' => h pre' (hpre'.trans hpre)

/-- What an agent realized under a spelling: what was bought for it is gone, but for what the
sales left of the purchases. -/
def realizedAs (fills : List Fill) (agentId : AgentId) (symbol : String) : Decimal :=
  proceedsAs fills agentId symbol - costAs fills agentId symbol +
    worth id (drain (purchases fills agentId symbol) (soldAs fills agentId symbol))

section Concat

variable (fills : List Fill) (fill : Fill) (agentId : AgentId) (symbol : String)

theorem proceedsAs_concat :
    proceedsAs (fills ++ [fill]) agentId symbol = proceedsAs fills agentId symbol +
      if fill.side = .sell ∧ fill.agentId = agentId ∧ fill.symbol = symbol
      then fill.price * fill.qty else 0 := by
  rw [proceedsAs, List.filter_append, List.map_append, List.sum_append, List.filter_singleton,
    ← proceedsAs]
  congr 1
  split_ifs with h
  · simp [h]
  · simp [h]

variable {fills fill agentId symbol}

/-- A purchase realizes nothing. -/
theorem realizedAs_concat_of_buy (hside : fill.side = .buy)
    (henough : soldAs fills agentId symbol ≤ supply (purchases fills agentId symbol)) :
    realizedAs (fills ++ [fill]) agentId symbol = realizedAs fills agentId symbol := by
  have hsold : soldAs (fills ++ [fill]) agentId symbol = soldAs fills agentId symbol := by
    rw [soldAs_concat, if_neg (by simp [hside]), add_zero]
  have hproceeds : proceedsAs (fills ++ [fill]) agentId symbol =
      proceedsAs fills agentId symbol := by
    rw [proceedsAs_concat, if_neg (by simp [hside]), add_zero]
  rw [realizedAs, realizedAs, hsold, hproceeds, costAs, costAs, purchases_concat,
    drain_append henough, worth_append, worth_append]
  ring

/-- A sale realizes what it brings in beyond what the purchases cost that it is matched with. -/
theorem realizedAs_concat_of_sell (hpos : ∀ f ∈ fills, 0 < f.qty) (hqty : 0 < fill.qty)
    (hside : fill.side = .sell)
    (henough : soldAs (fills ++ [fill]) agentId symbol ≤
      supply (purchases (fills ++ [fill]) agentId symbol)) :
    realizedAs (fills ++ [fill]) agentId symbol = realizedAs fills agentId symbol +
      if fill.agentId = agentId ∧ fill.symbol = symbol then
        takenWorth (fill.price - ·)
          (drain (purchases fills agentId symbol) (soldAs fills agentId symbol)) fill.qty
      else 0 := by
  have hbought : purchases (fills ++ [fill]) agentId symbol = purchases fills agentId symbol := by
    rw [purchases_concat, if_neg (by simp [hside]), List.append_nil]
  rw [hbought, soldAs_concat] at henough
  rw [realizedAs, realizedAs, costAs, costAs, hbought, proceedsAs_concat, soldAs_concat]
  by_cases hkey : fill.agentId = agentId ∧ fill.symbol = symbol
  · have hitems := pos_of_mem_purchases hpos agentId symbol
    have hsold := soldAs_nonneg hpos agentId symbol
    rw [if_pos ⟨hside, hkey⟩] at henough
    -- the earlier sales leave enough for this one
    have hleft : fill.qty ≤
        supply (drain (purchases fills agentId symbol) (soldAs fills agentId symbol)) := by
      rw [supply_drain hitems hsold (by linarith)]
      linarith
    have hgain : takenWorth (fill.price - ·)
        (drain (purchases fills agentId symbol) (soldAs fills agentId symbol)) fill.qty =
          fill.price * fill.qty - takenWorth id
            (drain (purchases fills agentId symbol) (soldAs fills agentId symbol)) fill.qty := by
      refine (takenWorth_const_sub fill.price id _ _).trans ?_
      rw [sum_allocate (pos_of_mem_drain hitems) hqty.le hleft]
    rw [if_pos ⟨hside, hkey⟩, if_pos ⟨hside, hkey⟩, if_pos hkey,
      ← drain_drain hitems hsold hqty.le, worth_drain id (drain _ _), hgain]
    ring
  · rw [if_neg fun hc => hkey hc.2, if_neg fun hc => hkey hc.2, if_neg hkey, add_zero, add_zero,
      add_zero]

end Concat

namespace FillWalk

/-- **The walk matches in the order of the log**: what it leaves of the purchases is what everything
sold so far leaves, and what an agent realized is the sum over any symbols with all of its own. -/
structure Matches (w : FillWalk) (fills : List Fill) (agentId : AgentId) : Prop where
  unsold : ∀ symbol, w.unsold (agentId, symbol) =
    drain (purchases fills agentId symbol) (soldAs fills agentId symbol)
  realized : ∀ symbols : Finset String, (∀ fill ∈ fills, fill.symbol ∈ symbols) →
    w.realizedOf agentId = ∑ symbol ∈ symbols, realizedAs fills agentId symbol

theorem matches_empty (agentId : AgentId) : Matches .empty [] agentId where
  unsold _ := rfl
  realized _ _ := (Finset.sum_eq_zero fun _ _ => by
    simp [realizedAs, proceedsAs, costAs, purchases, worth, drain]).symm

variable {w : FillWalk} {fills : List Fill} {agentId : AgentId} {fill : Fill}

/-- A purchase waits at the end of the unsold. -/
theorem Matches.buy (h : w.Matches fills agentId) (hside : fill.side = .buy)
    (henough : ∀ symbol, soldAs fills agentId symbol ≤ supply (purchases fills agentId symbol)) :
    (w.step fill).Matches (fills ++ [fill]) agentId := by
  obtain ⟨hunsold, hrealized, -⟩ := w.buy_spec hside agentId
  refine ⟨fun symbol => ?_, fun symbols hs => ?_⟩
  · have hsold : soldAs (fills ++ [fill]) agentId symbol = soldAs fills agentId symbol := by
      rw [soldAs_concat, if_neg (by simp [hside]), add_zero]
    rw [hunsold, h.unsold, hsold, purchases_concat, drain_append (henough symbol)]
    simp [hside]
  · rw [hrealized, h.realized symbols fun f hf => hs f (List.mem_append_left _ hf)]
    exact Finset.sum_congr rfl fun symbol _ =>
      (realizedAs_concat_of_buy hside (henough symbol)).symm

/-- A sale takes the oldest of the unsold, and realizes what they gained. -/
theorem Matches.sell (h : w.Matches fills agentId) (hpos : ∀ f ∈ fills, 0 < f.qty)
    (hqty : 0 < fill.qty) (hside : fill.side = .sell)
    (henough : ∀ symbol, soldAs (fills ++ [fill]) agentId symbol ≤
      supply (purchases (fills ++ [fill]) agentId symbol)) :
    (w.step fill).Matches (fills ++ [fill]) agentId := by
  obtain ⟨hunsold, hrealized, -⟩ := w.sell_spec hside agentId
  refine ⟨fun symbol => ?_, fun symbols hs => ?_⟩
  · have hbought : purchases (fills ++ [fill]) agentId symbol =
        purchases fills agentId symbol := by
      rw [purchases_concat, if_neg (by simp [hside]), List.append_nil]
    rw [hunsold, h.unsold, hbought, soldAs_concat]
    by_cases hkey : fill.agentId = agentId ∧ fill.symbol = symbol
    · rw [if_pos hkey, if_pos ⟨hside, hkey⟩, drain_drain (pos_of_mem_purchases hpos _ _)
        (soldAs_nonneg hpos _ _) hqty.le]
    · rw [if_neg hkey, if_neg fun hc => hkey hc.2, add_zero]
  · have hold : ∀ f ∈ fills, f.symbol ∈ symbols := fun f hf => hs f (List.mem_append_left _ hf)
    have hnew : fill.symbol ∈ symbols :=
      hs fill (List.mem_append_right _ (List.mem_singleton_self _))
    -- the sale changes the term of its own symbol, and no other
    have hterms : ∑ symbol ∈ symbols, realizedAs (fills ++ [fill]) agentId symbol =
        ∑ symbol ∈ symbols, (realizedAs fills agentId symbol +
          if fill.agentId = agentId ∧ fill.symbol = symbol then
            takenWorth (fill.price - ·)
              (drain (purchases fills agentId symbol) (soldAs fills agentId symbol)) fill.qty
          else 0) :=
      Finset.sum_congr rfl fun symbol _ =>
        realizedAs_concat_of_sell hpos hqty hside (henough symbol)
    rw [hterms, Finset.sum_add_distrib, hrealized, h.realized symbols hold]
    congr 1
    by_cases ha : fill.agentId = agentId
    · subst ha
      simp only [true_and, if_true]
      rw [Finset.sum_ite_eq, if_pos hnew, h.unsold]
    · simp [ha]

/-- **One fill.** -/
theorem Matches.step (h : w.Matches fills agentId) (hpos : ∀ f ∈ fills, 0 < f.qty)
    (hqty : 0 < fill.qty)
    (henough : ∀ symbol, soldAs fills agentId symbol ≤ supply (purchases fills agentId symbol))
    (henough' : ∀ symbol, soldAs (fills ++ [fill]) agentId symbol ≤
      supply (purchases (fills ++ [fill]) agentId symbol)) :
    (w.step fill).Matches (fills ++ [fill]) agentId := by
  cases hside : fill.side with
  | buy => exact h.buy hside henough
  | sell => exact h.sell hpos hqty hside henough'

/-- **The whole walk.** -/
theorem matches_walkOf (hpos : ∀ f ∈ fills, 0 < f.qty) (hnot : NeverOversold fills)
    (agentId : AgentId) : (walkOf fills).Matches fills agentId := by
  induction fills using List.reverseRecOn with
  | nil => exact matches_empty agentId
  | append_singleton fills fill ih =>
    have hpre : fills <+: fills ++ [fill] := List.prefix_append _ _
    have hpos' : ∀ f ∈ fills, 0 < f.qty := fun f hf => hpos f (List.mem_append_left _ hf)
    have hih := ih hpos' (hnot.of_isPrefix hpre)
    rw [walkOf, run_concat]
    exact hih.step hpos' (hpos fill (List.mem_append_right _ (List.mem_singleton_self _)))
      (hnot fills hpre agentId) (hnot _ List.prefix_rfl agentId)

end FillWalk

/-- **Attribution by the log of the fills is exact**: whatever the partial sizes, what an agent
realized is the sum over the symbols of what its sales brought in, less what its purchases cost, and
the cost of what is left at the prices of the shares bought last. -/
theorem realizedByAgentFromFills_eq {log : List LoggedEvent}
    (hlen : (fillsLogged log).length ≤ fillHistoryLimit)
    (hpos : ∀ fill ∈ fillsLogged log, 0 < fill.qty) (hnot : NeverOversold (fillsLogged log))
    (agentId : AgentId) :
    ((realizedByAgentFromFills (some log)).get? agentId).getD 0 =
      ∑ symbol ∈ ((fillsLogged log).map (·.symbol)).toFinset,
        (proceedsAs (fillsLogged log) agentId symbol - costAs (fillsLogged log) agentId symbol +
          lastBoughtCost (fillsLogged log) agentId symbol
            (remainingAs (fillsLogged log) agentId symbol)) := by
  have hwalk : ((realizedByAgentFromFills (some log)).get? agentId).getD 0 =
      (walkLog log).realizedOf agentId := rfl
  have hmatches := FillWalk.matches_walkOf hpos hnot agentId
  rw [hwalk, walkLog_eq hlen, hmatches.realized _ fun fill hfill =>
    List.mem_toFinset.mpr (List.mem_map_of_mem hfill)]
  refine Finset.sum_congr rfl fun symbol _ => ?_
  rw [realizedAs, worth_drain_eq_takenWorth_reverse id (pos_of_mem_purchases hpos agentId symbol)
    (soldAs_nonneg hpos agentId symbol) (hnot _ List.prefix_rfl agentId symbol)]
  rfl

/-- Two purchases at different prices, and two sales that split them. -/
def splitFills : List Fill :=
  [haikuFill 1 .buy 10 100, haikuFill 2 .buy 10 200, haikuFill 3 .sell 4 150,
    haikuFill 4 .sell 8 150]

/-- The log of these fills. -/
def splitLog : List LoggedEvent :=
  splitFills.map fun fill => ⟨.fillReceived (serializeFill fill), fill.orderId, fill.timestamp⟩

theorem neverOversold_splitFills : NeverOversold splitFills := by
  intro pre hpre agentId symbol
  by_cases hkey : agentId = .haiku ∧ symbol = "AAPL"
  · obtain ⟨rfl, rfl⟩ := hkey
    have hall : ∀ pre ∈ splitFills.inits,
        soldAs pre .haiku "AAPL" ≤ supply (purchases pre .haiku "AAPL") := by decide +kernel
    exact hall pre ((List.mem_inits _ _).mpr hpre)
  · -- nobody else trades, and nothing else is traded
    have hown : ∀ fill ∈ splitFills, fill.agentId = .haiku ∧ fill.symbol = "AAPL" := by decide
    have hnone : ∀ side : OrderSide, pre.filter (fun fill =>
        fill.side = side ∧ fill.agentId = agentId ∧ fill.symbol = symbol) = [] := by
      intro side
      refine List.filter_eq_nil_iff.mpr fun fill hfill hc => hkey ?_
      obtain ⟨-, rfl, rfl⟩ := of_decide_eq_true hc
      exact hown fill (hpre.subset hfill)
    rw [soldAs, purchases, hnone, hnone]
    exact le_rfl

theorem fillsLogged_splitLog : fillsLogged splitLog = splitFills := by decide +kernel

theorem realizedByAgentFromFills_splitLog :
    ((realizedByAgentFromFills (some splitLog)).get? .haiku).getD 0 = 400 ∧
    ((realizedByAgentFromFills (some splitLog)).get? .haiku).getD 0 =
      ∑ symbol ∈ ((fillsLogged splitLog).map (·.symbol)).toFinset,
        (proceedsAs (fillsLogged splitLog) .haiku symbol -
          costAs (fillsLogged splitLog) .haiku symbol +
          lastBoughtCost (fillsLogged splitLog) .haiku symbol
            (remainingAs (fillsLogged splitLog) .haiku symbol)) :=
  ⟨by decide +kernel, realizedByAgentFromFills_eq (by decide +kernel) (by decide +kernel)
    (fillsLogged_splitLog.symm ▸ neverOversold_splitFills) .haiku⟩

end TradingPlatform
