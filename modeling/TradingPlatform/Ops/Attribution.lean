import TradingPlatform.Drain
import TradingPlatform.Execution.OmsBus
import TradingPlatform.Ops.EquitySnapshotter

/-!
# Profit and loss by agent

Once a day the profit and loss of every sleeve is computed, in two halves. What was realized comes
from the log of the fills: every sale is matched with the purchases of the same agent under the
same spelling of the symbol, in the order of the log. What was not realized comes from the lot
ledger: what is left of every lot, at the latest close of its symbol.

`TradingPlatform.FillWalk.sell_spec` says what a sale does to the purchases it is matched with, and
`TradingPlatform.get?_computeDailyPnl` what the computation gives for an agent.
-/

namespace TradingPlatform

/-- The profit and loss of one agent. -/
structure PnLBreakdown where
  realized : Decimal
  unrealized : Decimal
  total : Decimal
  numOpenLots : ℕ
  numClosedLots : ℕ
  deriving DecidableEq

/-! ### What was realized -/

/-- What the walk over the fills keeps: the purchases that are not sold yet, by agent and spelling,
each with a quantity and a price, and what every agent has realized. -/
structure FillWalk where
  queues : Dict (AgentId × String) (List (Decimal × Decimal))
  realized : Dict AgentId Decimal

namespace FillWalk

def empty : FillWalk := ⟨.empty, .empty⟩

/-- Match a sale with purchases, the oldest first. A part of the sale that finds no purchase is
skipped. -/
def matchSell (fill : Fill) : List (Decimal × Decimal) → Decimal → Dict AgentId Decimal →
    List (Decimal × Decimal) × Dict AgentId Decimal
  | [], _, realized => ([], realized)
  | front :: queue, remainingToMatch, realized =>
    if remainingToMatch ≤ 0 then (front :: queue, realized)
    else
      let consume := min front.1 remainingToMatch
      let realized := realized.set fill.agentId
        ((realized.get? fill.agentId).getD 0 + (fill.price - front.2) * consume)
      if front.1 - consume ≤ 0 then matchSell fill queue (remainingToMatch - consume) realized
      -- what is left of the purchase is left because the sale is met
      else ((front.1 - consume, front.2) :: queue, realized)

/-- Take a fill into account. -/
def step (w : FillWalk) (fill : Fill) : FillWalk :=
  let key := (fill.agentId, fill.symbol)
  match fill.side with
  | .buy =>
    { w with
      queues := w.queues.set key ((w.queues.get? key).getD [] ++ [(fill.qty, fill.price)]) }
  | .sell =>
    ((w.queues.get? key).map fun queue =>
      let (queue, realized) := matchSell fill queue fill.qty w.realized
      { queues := w.queues.set key queue, realized := realized : FillWalk }).getD w

end FillWalk

/-- How many fills the walk asks the log for. -/
def fillHistoryLimit : ℕ := 1000000

/-- The most recent fills of a log, newest first. -/
def recentFills (log : List LoggedEvent) (n : ℕ) : List Fill := (fillsLogged log).reverse.take n

/-- What every agent has realized, by the log. A log that cannot be read has no fills. -/
def realizedByAgentFromFills (log : Option (List LoggedEvent)) : Dict AgentId Decimal :=
  let fills := (log.map fun log => (recentFills log fillHistoryLimit).reverse).getD []
  (run FillWalk.step FillWalk.empty fills).realized

/-! ### What was not realized -/

/-- The latest close of every symbol that has one. -/
def latestCloseCache (marketData : String → Option Decimal) (symbols : List String) :
    Dict String Decimal :=
  (symbols.filterMap fun sym => (marketData sym).map fun close => (sym, close)).foldl
    (fun out e => out.set e.1 e.2) .empty

/-- What is not realized of a lot. -/
def lotUnrealized (lot : Lot) (mark : Option Decimal) : Decimal :=
  if lot.isClosed = true ∨ lot.remainingQty ≤ 0 then 0
  else (mark.map fun mark => (mark - lot.entryPrice) * lot.remainingQty).getD 0

/-- What is summed up for an agent. -/
structure PnLBucket where
  realized : Decimal
  unrealized : Decimal
  numOpenLots : ℕ
  numClosedLots : ℕ

def PnLBucket.addLot (marks : Dict String Decimal) (bucket : PnLBucket) (lot : Lot) : PnLBucket :=
  { bucket with
    unrealized := bucket.unrealized + lotUnrealized lot (marks.get? lot.symbol)
    numClosedLots := if lot.isClosed then bucket.numClosedLots + 1 else bucket.numClosedLots
    numOpenLots := if lot.isClosed then bucket.numOpenLots else bucket.numOpenLots + 1 }

def PnLBucket.breakdown (bucket : PnLBucket) : PnLBreakdown where
  realized := bucket.realized
  unrealized := bucket.unrealized
  total := bucket.realized + bucket.unrealized
  numOpenLots := bucket.numOpenLots
  numClosedLots := bucket.numClosedLots

/-- One bucket for each agent with a sleeve, also if there is nothing to put into it. -/
def sleeveBuckets (realizedByAgent : Dict AgentId Decimal) : Dict AgentId PnLBucket :=
  tradingAgents.foldl (fun accum aid =>
    accum.set aid ⟨(realizedByAgent.get? aid).getD 0, 0, 0, 0⟩) .empty

/-- The symbols of which something is held. -/
def LotLedger.openSymbols (lots : LotLedger) : List String :=
  ((lots.allLots.filter fun lot => lot.isClosed = false ∧ 0 < lot.remainingQty).map
    (·.symbol)).dedup

/-- **The profit and loss of every sleeve.** The lots of an agent without a sleeve are skipped. -/
def computeDailyPnl (lots : LotLedger) (log : Option (List LoggedEvent))
    (marketData : String → Option Decimal) : Dict AgentId PnLBreakdown :=
  let marks := latestCloseCache marketData lots.openSymbols
  (lots.allLots.foldl (fun accum lot => accum.modify lot.agentId (·.addLot marks lot))
    (sleeveBuckets (realizedByAgentFromFills log))).mapValues PnLBucket.breakdown

/-! ### What a fill does to the walk -/

namespace FillWalk

/-- The purchases of an agent under a spelling that are not sold yet. -/
def unsold (w : FillWalk) (key : AgentId × String) : List (Decimal × Decimal) :=
  (w.queues.get? key).getD []

def realizedOf (w : FillWalk) (agentId : AgentId) : Decimal := (w.realized.get? agentId).getD 0

/-- What an agent paid for the purchases that are not sold yet. -/
def unsoldCost (w : FillWalk) (agentId : AgentId) : Decimal :=
  (w.queues.entries.map fun e => if e.1.1 = agentId then worth id e.2 else 0).sum

/-- Matching a sale drains the queue. -/
theorem matchSell_fst (fill : Fill) (queue : List (Decimal × Decimal)) (remaining : Decimal)
    (realized : Dict AgentId Decimal) :
    (matchSell fill queue remaining realized).1 = drain queue remaining := by
  induction queue generalizing remaining realized with
  | nil => rfl
  | cons front queue ih =>
    rw [matchSell]
    rcases le_or_gt remaining 0 with h₀ | h₀
    · rw [if_pos h₀, drain_of_nonpos h₀]
    · rw [if_neg h₀.not_ge]
      dsimp only
      rcases le_or_gt front.1 remaining with hle | hlt
      · rw [min_eq_left hle, if_pos (sub_self _).le, ih, drain_cons_of_le h₀ hle]
      · rw [min_eq_right hlt.le, if_neg (sub_pos.mpr hlt).not_ge, drain_cons_of_lt h₀ hlt]

/-- Matching a sale realizes, on every share that finds a purchase, what it was sold for beyond
what it was bought for. -/
theorem matchSell_snd (fill : Fill) (queue : List (Decimal × Decimal)) (remaining : Decimal)
    (realized : Dict AgentId Decimal) (agentId : AgentId) :
    ((matchSell fill queue remaining realized).2.get? agentId).getD 0 =
      (realized.get? agentId).getD 0 +
        if fill.agentId = agentId then takenWorth (fill.price - ·) queue remaining else 0 := by
  induction queue generalizing remaining realized with
  | nil => simp [matchSell, takenWorth, allocate]
  | cons front queue ih =>
    rw [matchSell]
    rcases le_or_gt remaining 0 with h₀ | h₀
    · rw [if_pos h₀, takenWorth, allocate_of_nonpos h₀]
      simp
    · have htaken : takenWorth (fill.price - ·) (front :: queue) remaining =
          (fill.price - front.2) * min front.1 remaining +
            takenWorth (fill.price - ·) queue (remaining - min front.1 remaining) := by
        rw [takenWorth, allocate_cons_of_pos h₀, List.map_cons, List.sum_cons, mul_comm]
        rfl
      have hset : ((realized.set fill.agentId ((realized.get? fill.agentId).getD 0 +
          (fill.price - front.2) * min front.1 remaining)).get? agentId).getD 0 =
            (realized.get? agentId).getD 0 + if fill.agentId = agentId
              then (fill.price - front.2) * min front.1 remaining else 0 := by
        rw [Dict.get?_set]
        by_cases h : fill.agentId = agentId
        · subst h
          rw [if_pos rfl, if_pos rfl]
          rfl
        · rw [if_neg (Ne.symm h), if_neg h, add_zero]
      rw [if_neg h₀.not_ge, htaken]
      dsimp only
      rcases le_or_gt front.1 remaining with hle | hlt
      · rw [if_pos (sub_nonpos.mpr (le_min le_rfl hle)), ih, hset, add_assoc]
        split_ifs
        · rfl
        · rw [add_zero]
      · -- the sale is met, and nothing more is taken
        rw [min_eq_right hlt.le, if_neg (sub_pos.mpr hlt).not_ge, sub_self]
        rw [min_eq_right hlt.le] at hset
        rw [hset, takenWorth, allocate_of_nonpos le_rfl]
        simp

section Step

variable (w : FillWalk) {fill : Fill}

theorem step_of_buy (hside : fill.side = .buy) :
    w.step fill =
      { w with
        queues := w.queues.set (fill.agentId, fill.symbol)
          (w.unsold (fill.agentId, fill.symbol) ++ [(fill.qty, fill.price)]) } := by
  rw [step]
  dsimp only
  rw [hside]
  rfl

theorem unsold_set (key key' : AgentId × String) (queue : List (Decimal × Decimal))
    (realized : Dict AgentId Decimal) :
    (⟨w.queues.set key queue, realized⟩ : FillWalk).unsold key' =
      if key' = key then queue else w.unsold key' := by
  rw [unsold, Dict.get?_set]
  split_ifs
  · rfl
  · rfl

/-- Changing a queue changes what its agent paid for what is not sold. -/
theorem unsoldCost_set (key : AgentId × String) (queue : List (Decimal × Decimal))
    (realized : Dict AgentId Decimal) (agentId : AgentId) :
    (⟨w.queues.set key queue, realized⟩ : FillWalk).unsoldCost agentId =
      w.unsoldCost agentId +
        if key.1 = agentId then worth id queue - worth id (w.unsold key) else 0 := by
  rw [unsoldCost, unsoldCost, unsold]
  rcases hget : w.queues.get? key with _ | old
  · rw [Dict.sum_set_of_notMem _ (Dict.get?_eq_none_iff.mp hget)]
    split_ifs
    · simp [worth]
    · rfl
  · rw [Dict.sum_set_of_get? _ hget]
    split_ifs
    · rfl
    · rw [sub_zero]

/-- **A purchase** waits behind those that came before it. -/
theorem buy_spec (hside : fill.side = .buy) (agentId : AgentId) :
    (∀ symbol, (w.step fill).unsold (agentId, symbol) = w.unsold (agentId, symbol) ++
      if fill.agentId = agentId ∧ fill.symbol = symbol then [(fill.qty, fill.price)] else []) ∧
    (w.step fill).realizedOf agentId = w.realizedOf agentId ∧
    (w.step fill).unsoldCost agentId = w.unsoldCost agentId +
      if fill.agentId = agentId then fill.qty * fill.price else 0 := by
  rw [step_of_buy w hside]
  refine ⟨fun symbol => ?_, rfl, ?_⟩
  · rw [unsold_set]
    by_cases h : fill.agentId = agentId ∧ fill.symbol = symbol
    · obtain ⟨rfl, rfl⟩ := h
      rw [if_pos rfl, if_pos ⟨rfl, rfl⟩]
    · rw [if_neg fun hc => h (Prod.mk.inj hc.symm), if_neg h, List.append_nil]
  · rw [unsoldCost_set, worth_append, add_sub_cancel_left]
    simp [worth]

/-- **A sale** is taken off the purchases it is matched with. -/
theorem sell_spec (hside : fill.side = .sell) (agentId : AgentId) :
    (∀ symbol, (w.step fill).unsold (agentId, symbol) =
      if fill.agentId = agentId ∧ fill.symbol = symbol
      then drain (w.unsold (agentId, symbol)) fill.qty else w.unsold (agentId, symbol)) ∧
    (w.step fill).realizedOf agentId = w.realizedOf agentId +
      (if fill.agentId = agentId then
        takenWorth (fill.price - ·) (w.unsold (fill.agentId, fill.symbol)) fill.qty else 0) ∧
    (w.step fill).unsoldCost agentId = w.unsoldCost agentId -
      if fill.agentId = agentId then
        takenWorth id (w.unsold (fill.agentId, fill.symbol)) fill.qty else 0 := by
  rw [step]
  dsimp only
  rw [hside]
  dsimp only
  rcases hget : w.queues.get? (fill.agentId, fill.symbol) with _ | queue
  · have hnone : w.unsold (fill.agentId, fill.symbol) = [] := by
      rw [unsold, hget]
      rfl
    rw [Option.map_none, Option.getD_none, hnone]
    refine ⟨fun symbol => ?_, by simp [takenWorth, allocate], by simp [takenWorth, allocate]⟩
    split_ifs with h
    · rw [← h.1, ← h.2, hnone]
      rfl
    · rfl
  · have hsome : w.unsold (fill.agentId, fill.symbol) = queue := by
      rw [unsold, hget]
      rfl
    rw [Option.map_some, Option.getD_some, hsome]
    refine ⟨fun symbol => ?_, matchSell_snd fill queue fill.qty w.realized agentId, ?_⟩
    · rw [unsold_set, matchSell_fst]
      by_cases h : fill.agentId = agentId ∧ fill.symbol = symbol
      · obtain ⟨rfl, rfl⟩ := h
        rw [if_pos rfl, if_pos ⟨rfl, rfl⟩, hsome]
      · rw [if_neg fun hc => h (Prod.mk.inj hc.symm), if_neg h]
    · rw [unsoldCost_set, hsome, matchSell_fst, worth_drain]
      split_ifs
      · ring
      · rw [sub_zero, add_zero]

end Step

end FillWalk

/-! ### What the computation gives -/

/-- The walk over the fills a log still shows. -/
def walkLog (log : List LoggedEvent) : FillWalk :=
  run FillWalk.step .empty (recentFills log fillHistoryLimit).reverse

/-- What is not realized of the lots of an agent. -/
def LotLedger.unrealizedOf (lots : LotLedger) (marketData : String → Option Decimal)
    (agentId : AgentId) : Decimal :=
  lots.total fun lot => if lot.agentId = agentId then lotUnrealized lot (marketData lot.symbol)
    else 0

/-- How many lots of an agent are closed, or are not. -/
def LotLedger.numLots (lots : LotLedger) (agentId : AgentId) (isClosed : Bool) : ℕ :=
  (lots.allLots.filter fun lot => lot.agentId = agentId ∧ lot.isClosed = isClosed).length

theorem get?_latestCloseCache (marketData : String → Option Decimal) (symbols : List String)
    (sym : String) :
    (latestCloseCache marketData symbols).get? sym =
      if sym ∈ symbols then marketData sym else none := by
  have hfold : ∀ (symbols : List String) (out : Dict String Decimal),
      ((symbols.filterMap fun sym => (marketData sym).map fun close => (sym, close)).foldl
        (fun out e => out.set e.1 e.2) out).get? sym =
          if sym ∈ symbols ∧ (marketData sym).isSome then marketData sym else out.get? sym := by
    intro symbols
    induction symbols with
    | nil => simp
    | cons sym' symbols ih =>
      intro out
      rcases hclose : marketData sym' with _ | close
      · rw [List.filterMap_cons_none (by rw [hclose]; rfl), ih]
        by_cases hsym : sym = sym'
        · simp [hsym, hclose]
        · simp [hsym]
      · rw [List.filterMap_cons_some (by rw [hclose]; rfl), List.foldl_cons, ih, Dict.get?_set]
        by_cases hsym : sym = sym'
        · simp [hsym, hclose]
        · simp [hsym]
  rw [latestCloseCache, hfold, Dict.get?_empty]
  rcases marketData sym with _ | close
  · simp
  · simp

/-- A lot counts at its close, whether the close was looked up for it or not. -/
theorem lotUnrealized_latestCloseCache {lots : LotLedger} {lot : Lot} (h : lot ∈ lots.allLots)
    (marketData : String → Option Decimal) :
    lotUnrealized lot ((latestCloseCache marketData lots.openSymbols).get? lot.symbol) =
      lotUnrealized lot (marketData lot.symbol) := by
  rw [get?_latestCloseCache]
  split_ifs with hopen
  · rfl
  · have hskip : lot.isClosed = true ∨ lot.remainingQty ≤ 0 := by
      by_contra hc
      rw [not_or, Bool.not_eq_true, not_le] at hc
      refine hopen (List.mem_dedup.mpr (List.mem_map_of_mem (List.mem_filter.mpr ⟨h, ?_⟩)))
      exact decide_eq_true hc
    rw [lotUnrealized, lotUnrealized, if_pos hskip, if_pos hskip]

theorem get?_foldl_addLot (marks : Dict String Decimal) (lots : List Lot)
    (accum : Dict AgentId PnLBucket) (agentId : AgentId) :
    (lots.foldl (fun accum lot => accum.modify lot.agentId (·.addLot marks lot)) accum).get?
        agentId =
      (accum.get? agentId).map fun bucket =>
        (lots.filter fun lot => lot.agentId = agentId).foldl (·.addLot marks) bucket := by
  induction lots generalizing accum with
  | nil => simp
  | cons lot lots ih =>
    rw [List.foldl_cons, ih, Dict.get?_modify, List.filter_cons]
    by_cases h : agentId = lot.agentId
    · rw [if_pos h, if_pos (decide_eq_true h.symm), Option.map_map]
      rfl
    · rw [if_neg h, if_neg (by simpa using fun hc => h hc.symm)]

/-- Summing up the lots of an agent. -/
theorem foldl_addLot (marks : Dict String Decimal) (agentId : AgentId) (lots : List Lot)
    (bucket : PnLBucket) :
    (lots.filter fun lot => lot.agentId = agentId).foldl (·.addLot marks) bucket =
      { bucket with
        unrealized := bucket.unrealized + (lots.map fun lot =>
          if lot.agentId = agentId then lotUnrealized lot (marks.get? lot.symbol) else 0).sum
        numOpenLots := bucket.numOpenLots +
          (lots.filter fun lot => lot.agentId = agentId ∧ lot.isClosed = false).length
        numClosedLots := bucket.numClosedLots +
          (lots.filter fun lot => lot.agentId = agentId ∧ lot.isClosed = true).length } := by
  induction lots generalizing bucket with
  | nil => simp
  | cons lot lots ih =>
    rw [List.filter_cons, List.map_cons, List.sum_cons]
    by_cases h : lot.agentId = agentId
    · rw [if_pos (decide_eq_true h), List.foldl_cons, ih, if_pos h, PnLBucket.addLot]
      cases hclosed : lot.isClosed <;> simp [h, hclosed, add_assoc, add_comm]
    · rw [if_neg (by simpa using h), ih, if_neg h]
      simp [h]

theorem get?_sleeveBuckets (realizedByAgent : Dict AgentId Decimal) {agentId : AgentId}
    (h : agentId ∈ tradingAgents) :
    (sleeveBuckets realizedByAgent).get? agentId =
      some ⟨(realizedByAgent.get? agentId).getD 0, 0, 0, 0⟩ := by
  fin_cases h <;> simp [sleeveBuckets, tradingAgents]

/-- **The profit and loss of an agent**: what the walk over the fills realized, and what the lots
are worth beyond what they were bought for. -/
theorem get?_computeDailyPnl (lots : LotLedger) (log : List LoggedEvent)
    (marketData : String → Option Decimal) {agentId : AgentId} (h : agentId ∈ tradingAgents) :
    (computeDailyPnl lots (some log) marketData).get? agentId =
      some
        { realized := (walkLog log).realizedOf agentId
          unrealized := lots.unrealizedOf marketData agentId
          total := (walkLog log).realizedOf agentId + lots.unrealizedOf marketData agentId
          numOpenLots := lots.numLots agentId false
          numClosedLots := lots.numLots agentId true } := by
  have hsum : (lots.allLots.map fun lot => if lot.agentId = agentId then lotUnrealized lot
      ((latestCloseCache marketData lots.openSymbols).get? lot.symbol) else 0).sum =
        lots.unrealizedOf marketData agentId := by
    refine congrArg List.sum (List.map_congr_left fun lot hlot => ?_)
    rw [lotUnrealized_latestCloseCache hlot]
  rw [computeDailyPnl, Dict.get?_mapValues, get?_foldl_addLot, get?_sleeveBuckets _ h,
    Option.map_some, Option.map_some, foldl_addLot, hsum]
  simp only [zero_add]
  rfl

end TradingPlatform
