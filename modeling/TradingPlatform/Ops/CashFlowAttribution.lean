import TradingPlatform.Execution.LotConservation
import TradingPlatform.Execution.SleeveEquity
import TradingPlatform.Ops.Attribution

/-!
# Attribution, the cash flow and the ledger

The two halves of the profit and loss of a sleeve choose the shares that were sold on their own.
The walk over the fills takes those bought first in the log, under the spelling of the sale; the
ledger takes the lots with the oldest entry date, whatever the spelling. The halves add up to the
cash flow exactly as long as no sale tells the two apart: the walk finds all the shares that are
sold, and they cost what the lots cost that the ledger consumes
(`TradingPlatform.FillBooks.SameCost`). Then what the walk leaves unsold costs what the ledger
keeps open (`TradingPlatform.FillBooks.Agrees`), and from there every sum follows
(`TradingPlatform.FillBooks.reconciles_run_iff`).

The walk sees the last million of the fills, so this is about the first million.
-/

namespace TradingPlatform

/-! ### What the fills say -/

/-- The fills of an agent. -/
def ownFills (fills : List Fill) (agentId : AgentId) : List Fill :=
  fills.filter fun fill => fill.agentId = agentId

/-- What sales brought in beyond what purchases cost. -/
def cashFlow (fills : List Fill) : Decimal := (fills.map sellProceeds).sum - (fills.map buyCost).sum

/-- What is left of what was bought, at the marks. -/
def heldValue (fills : List Fill) (mark : String → Decimal) : Decimal :=
  ((fills.map fun fill => normalizeSymbol fill.symbol).dedup.map
    fun sym => openQty fills sym * mark sym).sum

/-- What an agent bought under a spelling: quantities and prices, in the order of the fills. -/
def purchases (fills : List Fill) (agentId : AgentId) (symbol : String) :
    List (Decimal × Decimal) :=
  (fills.filter fun fill => fill.side = .buy ∧ fill.agentId = agentId ∧ fill.symbol = symbol).map
    fun fill => (fill.qty, fill.price)

/-- How much an agent sold under a spelling. -/
def soldAs (fills : List Fill) (agentId : AgentId) (symbol : String) : Decimal :=
  ((fills.filter fun fill =>
    fill.side = .sell ∧ fill.agentId = agentId ∧ fill.symbol = symbol).map (·.qty)).sum

section Concat

variable (fills : List Fill) (fill : Fill) (agentId : AgentId) (symbol : String)

theorem purchases_concat :
    purchases (fills ++ [fill]) agentId symbol = purchases fills agentId symbol ++
      if fill.side = .buy ∧ fill.agentId = agentId ∧ fill.symbol = symbol
      then [(fill.qty, fill.price)] else [] := by
  rw [purchases, List.filter_append, List.map_append, List.filter_singleton, ← purchases]
  congr 1
  split_ifs with h
  · simp [h]
  · simp [h]

theorem soldAs_concat :
    soldAs (fills ++ [fill]) agentId symbol = soldAs fills agentId symbol +
      if fill.side = .sell ∧ fill.agentId = agentId ∧ fill.symbol = symbol
      then fill.qty else 0 := by
  rw [soldAs, List.filter_append, List.map_append, List.sum_append, List.filter_singleton,
    ← soldAs]
  congr 1
  split_ifs with h
  · simp [h]
  · simp [h]

theorem ownFills_concat :
    ownFills (fills ++ [fill]) agentId =
      ownFills fills agentId ++ if fill.agentId = agentId then [fill] else [] := by
  rw [ownFills, List.filter_append, List.filter_singleton, ← ownFills]
  simp only [Bool.cond_decide]

theorem cashFlow_ownFills_concat :
    cashFlow (ownFills (fills ++ [fill]) agentId) = cashFlow (ownFills fills agentId) +
      if fill.agentId = agentId then sellProceeds fill - buyCost fill else 0 := by
  rw [ownFills_concat, cashFlow, cashFlow, List.map_append, List.map_append, List.sum_append,
    List.sum_append]
  split_ifs
  · simp only [List.map_cons, List.map_nil, List.sum_cons, List.sum_nil]
    ring
  · simp

end Concat

theorem pos_of_mem_purchases {fills : List Fill} (h : ∀ fill ∈ fills, 0 < fill.qty)
    (agentId : AgentId) (symbol : String) :
    ∀ item ∈ purchases fills agentId symbol, 0 < item.1 := by
  intro item hitem
  obtain ⟨fill, hfill, rfl⟩ := List.mem_map.mp hitem
  exact h fill (List.mem_of_mem_filter hfill)

theorem soldAs_nonneg {fills : List Fill} (h : ∀ fill ∈ fills, 0 < fill.qty) (agentId : AgentId)
    (symbol : String) : 0 ≤ soldAs fills agentId symbol := by
  refine List.sum_nonneg fun q hq => ?_
  obtain ⟨fill, hfill, rfl⟩ := List.mem_map.mp hq
  exact (h fill (List.mem_of_mem_filter hfill)).le

/-- What an agent paid for what the ledger keeps open. -/
def LotLedger.openCost (l : LotLedger) (agentId : AgentId) : Decimal :=
  l.total fun lot => if lot.agentId = agentId then lot.remainingQty * lot.entryPrice else 0

/-- The walk over some fills. -/
def walkOf (fills : List Fill) : FillWalk := run FillWalk.step .empty fills

theorem walkLog_eq {log : List LoggedEvent} (h : (fillsLogged log).length ≤ fillHistoryLimit) :
    walkLog log = walkOf (fillsLogged log) := by
  rw [walkLog, recentFills, List.take_of_length_le (by rwa [List.length_reverse]),
    List.reverse_reverse, walkOf]

namespace FillBooks

/-! ### The claims, and the condition -/

/-- A sell snaps nothing away. -/
def SnapsNothing (method : LotMethod) (s : FillBooks) (b : Booking) : Prop :=
  b.fill.side = .sell →
    ∀ p ∈ s.ledger.consumption b.fill.agentId b.fill.symbol b.fill.qty method,
      residual b.fill p = 0

/-- **Attribution reconciles**: whatever the closes of the open lots are, the total of every sleeve
is its cash flow and what is left at the marks, and what is not realized is what is left at the
marks, less what the purchases cost that the walk did not consume. -/
def Reconciles (s : FillBooks) : Prop :=
  ∀ (log : List LoggedEvent) (marketData : String → Option Decimal), fillsLogged log = s.fills →
    (∀ lot ∈ s.ledger.allLots, lot.isClosed = false → (marketData lot.symbol).isSome) →
      ∀ agentId ∈ tradingAgents, ∃ pnl,
        (computeDailyPnl s.ledger (some log) marketData).get? agentId = some pnl ∧
          pnl.total = cashFlow (ownFills s.fills agentId) +
            heldValue (ownFills s.fills agentId) (fun sym => (marketData sym).getD 0) ∧
          pnl.unrealized =
            heldValue (ownFills s.fills agentId) (fun sym => (marketData sym).getD 0) -
              (walkLog log).unsoldCost agentId

/-- **The condition**: as many shares as a sleeve sells were bought under the spelling of the sell
and are not sold under it yet, and the first of them cost what the lots cost that the ledger
consumes. -/
def SameCost (method : LotMethod) (s : FillBooks) (b : Booking) : Prop :=
  b.fill.side = .sell → b.fill.agentId ∈ tradingAgents →
    soldAs s.fills b.fill.agentId b.fill.symbol + b.fill.qty ≤
        supply (purchases s.fills b.fill.agentId b.fill.symbol) ∧
      takenWorth id (purchases s.fills b.fill.agentId b.fill.symbol)
          (soldAs s.fills b.fill.agentId b.fill.symbol + b.fill.qty) -
        takenWorth id (purchases s.fills b.fill.agentId b.fill.symbol)
          (soldAs s.fills b.fill.agentId b.fill.symbol) =
        ((s.ledger.consumption b.fill.agentId b.fill.symbol b.fill.qty method).map
          fun p => p.2 * p.1.entryPrice).sum

/-- **The books are kept**: what is open is what the fills left. -/
structure Kept (s : FillBooks) : Prop where
  inv : s.Inv
  qty_pos : ∀ fill ∈ s.fills, 0 < fill.qty
  held : ∀ (agentId : AgentId) (g : String → Decimal),
    (s.ledger.total fun lot => if lot.agentId = agentId then lot.remainingQty * g lot.symbol
      else 0) = ((ownFills s.fills agentId).map
        fun fill => fill.signedQty * g (normalizeSymbol fill.symbol)).sum

/-- **The walk follows the fills**: what it leaves of the purchases is what the sales left. -/
structure Follows (w : FillWalk) (fills : List Fill) : Prop where
  unsold : ∀ agentId ∈ tradingAgents, ∀ symbol, w.unsold (agentId, symbol) =
    drain (purchases fills agentId symbol) (soldAs fills agentId symbol)
  enough : ∀ agentId ∈ tradingAgents, ∀ symbol,
    soldAs fills agentId symbol ≤ supply (purchases fills agentId symbol)

/-- **The walk and the ledger agree** on what the shares cost that an agent still has, and the walk
has realized the cash flow and that cost. -/
structure Agrees (w : FillWalk) (s : FillBooks) (agentId : AgentId) : Prop where
  cost : w.unsoldCost agentId = s.ledger.openCost agentId
  realized : w.realizedOf agentId = cashFlow (ownFills s.fills agentId) + w.unsoldCost agentId

section Steps

variable {s : FillBooks} {b : Booking} {method : LotMethod} {w : FillWalk} {agentId : AgentId}

/-! ### The ledger -/

theorem kept_empty : empty.Kept where
  inv := inv_empty
  qty_pos _ h := absurd h List.not_mem_nil
  held _ _ := rfl

/-- The ledger can meet a sell that the fills can meet. -/
theorem Kept.available (hs : s.Kept) (hb : s.Covered b) : s.Available b := by
  intro hside
  have hheld : s.ledger.total (heldBy b.fill.agentId (normalizeSymbol b.fill.symbol)) =
      netOf s.fills b.fill.agentId (normalizeSymbol b.fill.symbol) := by
    have hone := hs.held b.fill.agentId fun sym =>
      if sym = normalizeSymbol b.fill.symbol then 1 else 0
    have hlots : ∀ lot : Lot, heldBy b.fill.agentId (normalizeSymbol b.fill.symbol) lot =
        if lot.agentId = b.fill.agentId then
          lot.remainingQty * (if lot.symbol = normalizeSymbol b.fill.symbol then 1 else 0)
        else 0 := by
      intro lot
      rw [heldBy, ite_and, mul_ite, mul_one, mul_zero]
    rw [funext hlots, hone, netOf, ownFills]
    induction s.fills with
    | nil => rfl
    | cons fill fills ih =>
      rw [List.filter_cons, List.map_cons, List.sum_cons, ← ih]
      by_cases ha : fill.agentId = b.fill.agentId
      · rw [if_pos (decide_eq_true ha), List.map_cons, List.sum_cons]
        simp [ha]
      · rw [if_neg (by simpa using ha), if_neg fun hc => ha hc.1, zero_add]
  rw [hs.inv.totalOpenQty, hheld]
  exact hb.covered hside

/-- What a purchase adds to a sum over the lots of an agent. -/
theorem Kept.total_buy (hs : s.Kept) (hb : s.Covered b) (hside : b.fill.side = .buy)
    (f : Lot → Decimal) :
    ((s.step method b).ledger.total fun lot =>
        if lot.agentId = agentId then lot.remainingQty * f lot else 0) =
      (s.ledger.total fun lot => if lot.agentId = agentId then lot.remainingQty * f lot else 0) +
        if b.fill.agentId = agentId then b.fill.qty * f (.ofFill b.fill b.lotId) else 0 := by
  have hnew : b.fill.id ∉ s.ledger.booked := hs.inv.booked ▸ hb.fresh_fill
  have hledger : (s.step method b).ledger =
      (s.ledger.markBooked b.fill.id).openLot b.fill b.lotId :=
    LotLedger.bookFill_of_buy hnew hside b.lotId
  rw [hledger]
  exact LotLedger.total_openLot b.fill _ hb.fresh_lot

/-- What a sale that snaps nothing away takes off a sum over the lots of an agent. -/
theorem Kept.total_sell (hs : s.Kept) (hb : s.Covered b) (hside : b.fill.side = .sell)
    (hsnap : s.SnapsNothing method b) {f : Lot → Decimal}
    (hf : ∀ (lot : Lot) (taken : Decimal), f (lot.consume taken b.fill) = f lot) :
    ((s.step method b).ledger.total fun lot =>
        if lot.agentId = agentId then lot.remainingQty * f lot else 0) =
      (s.ledger.total fun lot => if lot.agentId = agentId then lot.remainingQty * f lot else 0) -
        if b.fill.agentId = agentId then
          ((s.ledger.consumption b.fill.agentId b.fill.symbol b.fill.qty method).map
            fun p => p.2 * f p.1).sum
        else 0 := by
  obtain ⟨-, -, hsells, -⟩ := hs.inv.sells method hb hside (hs.available hb)
  rw [hsells.total, sub_eq_add_neg]
  congr 1
  have hterm : ∀ p ∈ s.ledger.consumption b.fill.agentId b.fill.symbol b.fill.qty method,
      ((if (p.1.consume p.2 b.fill).agentId = agentId then
          (p.1.consume p.2 b.fill).remainingQty * f (p.1.consume p.2 b.fill) else 0) -
        if p.1.agentId = agentId then p.1.remainingQty * f p.1 else 0) =
        if b.fill.agentId = agentId then -(p.2 * f p.1) else 0 := by
    intro p hp
    obtain ⟨⟨-, ha, -⟩, -⟩ := LotLedger.of_mem_consumption hp
    have hres : p.1.remainingQty - p.2 - (p.1.consume p.2 b.fill).remainingQty = 0 :=
      hsnap hside p hp
    change (if p.1.agentId = agentId then _ else 0) - _ = _
    rw [hf, ha]
    split_ifs
    · linear_combination -f p.1 * hres
    · exact sub_zero 0
  rw [List.map_congr_left hterm]
  split_ifs
  · rw [List.sum_neg, List.map_map]
    rfl
  · simp

theorem Kept.step (hs : s.Kept) (hb : s.Covered b) (hsnap : s.SnapsNothing method b) :
    (s.step method b).Kept where
  inv := hs.inv.step hb (hs.available hb)
  qty_pos := List.forall_mem_append.mpr ⟨hs.qty_pos, List.forall_mem_singleton.mpr hb.qty_pos⟩
  held agentId g := by
    have hfills : ((ownFills (s.step method b).fills agentId).map
        fun fill => fill.signedQty * g (normalizeSymbol fill.symbol)).sum =
          ((ownFills s.fills agentId).map
            fun fill => fill.signedQty * g (normalizeSymbol fill.symbol)).sum +
          if b.fill.agentId = agentId then b.fill.signedQty * g (normalizeSymbol b.fill.symbol)
          else 0 := by
      rw [show (s.step method b).fills = s.fills ++ [b.fill] from rfl, ownFills_concat,
        List.map_append, List.sum_append]
      split_ifs <;> simp
    rw [hfills, ← hs.held]
    cases hside : b.fill.side with
    | buy =>
      rw [hs.total_buy hb hside fun lot => g lot.symbol, Fill.signedQty, hside]
      rfl
    | sell =>
      rw [hs.total_sell hb hside hsnap fun _ _ => rfl, sub_eq_add_neg, Fill.signedQty, hside]
      congr 1
      split_ifs
      · have havail := hs.available hb hside
        rw [hs.inv.totalOpenQty, ← hs.inv.sum_candidates method] at havail
        have hqty := LotLedger.sum_consumption hb.qty_pos.le havail
        have hsum : ((s.ledger.consumption b.fill.agentId b.fill.symbol b.fill.qty method).map
            fun p => p.2 * g p.1.symbol).sum =
              ((s.ledger.consumption b.fill.agentId b.fill.symbol b.fill.qty method).map
                Prod.snd).sum * g (normalizeSymbol b.fill.symbol) := by
          rw [← List.sum_map_mul_right]
          refine congrArg List.sum (List.map_congr_left fun p hp => ?_)
          rw [(LotLedger.of_mem_consumption hp).1.2.2.1]
        rw [hsum, hqty, neg_mul]
      · exact neg_zero

/-- What is left at the marks is what the lots are worth there. -/
theorem Kept.heldValue (hs : s.Kept) (agentId : AgentId) (mark : String → Decimal) :
    heldValue (ownFills s.fills agentId) mark =
      s.ledger.total fun lot => if lot.agentId = agentId then lot.remainingQty * mark lot.symbol
        else 0 := by
  rw [hs.held, TradingPlatform.heldValue, sum_openQty_mul _ (List.nodup_dedup _)]
  exact fun fill hfill => List.mem_dedup.mpr (List.mem_map_of_mem hfill)

/-- What is not realized of the lots is what they are worth at the marks, less what they cost. -/
theorem Kept.unrealizedOf (hs : s.Kept) {marketData : String → Option Decimal}
    (hcov : ∀ lot ∈ s.ledger.allLots, lot.isClosed = false → (marketData lot.symbol).isSome)
    (agentId : AgentId) :
    s.ledger.unrealizedOf marketData agentId =
      TradingPlatform.heldValue (ownFills s.fills agentId) (fun sym => (marketData sym).getD 0) -
        s.ledger.openCost agentId := by
  rw [hs.heldValue, LotLedger.openCost, LotLedger.unrealizedOf, LotLedger.total, LotLedger.total,
    LotLedger.total, ← sum_map_sub]
  refine congrArg List.sum (List.map_congr_left fun lot hlot => ?_)
  split_ifs
  · have hclosed := hs.inv.closed_iff lot hlot
    have hnonneg := hs.inv.remaining_nonneg lot hlot
    rw [lotUnrealized]
    split_ifs with hskip
    · have hzero : lot.remainingQty = 0 :=
        hskip.elim hclosed.mp fun h => le_antisymm h hnonneg
      rw [hzero]
      ring
    · rw [not_or, Bool.not_eq_true] at hskip
      obtain ⟨mark, hmark⟩ := Option.isSome_iff_exists.mp (hcov lot hlot hskip.1)
      rw [hmark, Option.map_some, Option.getD_some, Option.getD_some]
      ring
  · exact (sub_zero 0).symm

/-- **What reconciling comes down to.** -/
theorem Kept.reconciles_iff (hs : s.Kept) (hlen : s.fills.length ≤ fillHistoryLimit) :
    s.Reconciles ↔ ∀ agentId ∈ tradingAgents, Agrees (walkOf s.fills) s agentId := by
  have hwalk : ∀ log, fillsLogged log = s.fills → walkLog log = walkOf s.fills := by
    intro log hlog
    rw [← hlog]
    exact walkLog_eq (by rwa [hlog])
  constructor
  · intro h agentId ha
    let log : List LoggedEvent :=
      s.fills.map fun fill => ⟨.fillReceived (serializeFill fill), fill.orderId, fill.timestamp⟩
    have hlog : fillsLogged log = s.fills := by
      rw [fillsLogged, List.filterMap_map]
      exact List.filterMap_some
    obtain ⟨pnl, hpnl, htotal, hunrealized⟩ :=
      h log (fun _ => some 0) hlog (fun _ _ _ => rfl) agentId ha
    rw [get?_computeDailyPnl _ _ _ ha, hwalk log hlog, Option.some_inj] at hpnl
    subst hpnl
    dsimp only at htotal hunrealized
    rw [hwalk log hlog] at hunrealized
    rw [hs.unrealizedOf fun _ _ _ => rfl] at htotal hunrealized
    constructor <;> linarith
  · intro h log marketData hlog hcov agentId ha
    have hag := h agentId ha
    refine ⟨_, get?_computeDailyPnl _ _ _ ha, ?_, ?_⟩
    · rw [hwalk log hlog, hs.unrealizedOf hcov, hag.realized, hag.cost]
      ring
    · rw [hwalk log hlog, hs.unrealizedOf hcov, hag.cost]

/-! ### The walk -/

theorem follows_empty : Follows .empty [] := ⟨fun _ _ _ => rfl, fun _ _ _ => le_rfl⟩

theorem agrees_empty : Agrees .empty empty agentId :=
  ⟨rfl, ((add_zero _).trans (sub_zero 0)).symm⟩

/-- A purchase waits behind the others. -/
theorem Follows.buy {fills : List Fill} (h : Follows w fills) {fill : Fill} (hqty : 0 < fill.qty)
    (hside : fill.side = .buy) : Follows (w.step fill) (fills ++ [fill]) := by
  have hsold : ∀ agentId symbol, soldAs (fills ++ [fill]) agentId symbol =
      soldAs fills agentId symbol := by
    intro agentId symbol
    rw [soldAs_concat, if_neg (by simp [hside]), add_zero]
  constructor
  · intro agentId ha symbol
    rw [(w.buy_spec hside agentId).1, h.unsold agentId ha, hsold, purchases_concat,
      drain_append (h.enough agentId ha symbol)]
    simp [hside]
  · intro agentId ha symbol
    rw [hsold, purchases_concat, supply_append]
    refine le_add_of_le_of_nonneg (h.enough agentId ha symbol) ?_
    split_ifs
    · simpa using hqty.le
    · exact le_rfl

/-- A sale that finds its purchases is taken off them. -/
theorem Follows.sell {fills : List Fill} (h : Follows w fills) (hpos : ∀ f ∈ fills, 0 < f.qty)
    {fill : Fill} (hqty : 0 < fill.qty) (hside : fill.side = .sell)
    (hok : fill.agentId ∈ tradingAgents → soldAs fills fill.agentId fill.symbol + fill.qty ≤
      supply (purchases fills fill.agentId fill.symbol)) :
    Follows (w.step fill) (fills ++ [fill]) := by
  have hbought : ∀ agentId symbol, purchases (fills ++ [fill]) agentId symbol =
      purchases fills agentId symbol := by
    intro agentId symbol
    rw [purchases_concat, if_neg (by simp [hside]), List.append_nil]
  constructor
  · intro agentId ha symbol
    rw [(w.sell_spec hside agentId).1, h.unsold agentId ha, hbought, soldAs_concat]
    by_cases hkey : fill.agentId = agentId ∧ fill.symbol = symbol
    · rw [if_pos hkey, if_pos ⟨hside, hkey⟩, drain_drain (pos_of_mem_purchases hpos _ _)
        (soldAs_nonneg hpos _ _) hqty.le]
    · rw [if_neg hkey, if_neg fun hc => hkey hc.2, add_zero]
  · intro agentId ha symbol
    rw [hbought, soldAs_concat]
    split_ifs with hkey
    · obtain ⟨-, rfl, rfl⟩ := hkey
      exact hok ha
    · rw [add_zero]
      exact h.enough agentId ha symbol

/-! ### One fill -/

/-- A purchase costs both what it costs. -/
theorem Kept.agrees_buy (hs : s.Kept) (hb : s.Covered b) (hside : b.fill.side = .buy)
    (h : Agrees w s agentId) : Agrees (w.step b.fill) (s.step method b) agentId := by
  obtain ⟨-, hrealized, hcost⟩ := w.buy_spec hside agentId
  have hopen := @Kept.total_buy s b method agentId hs hb hside (·.entryPrice)
  have hflow : cashFlow (ownFills (s.step method b).fills agentId) =
      cashFlow (ownFills s.fills agentId) -
        if b.fill.agentId = agentId then b.fill.qty * b.fill.price else 0 := by
    rw [show (s.step method b).fills = s.fills ++ [b.fill] from rfl, cashFlow_ownFills_concat,
      sellProceeds, buyCost, hside]
    split_ifs
    · ring
    · rw [add_zero, sub_zero]
  constructor
  · rw [hcost, h.cost]
    exact hopen.symm
  · rw [hrealized, hcost, hflow, h.realized]
    ring

/-- A sale is no matter to the other agents. -/
theorem Kept.agrees_sell_of_ne (hs : s.Kept) (hb : s.Covered b) (hside : b.fill.side = .sell)
    (hsnap : s.SnapsNothing method b) (hne : b.fill.agentId ≠ agentId) :
    Agrees (w.step b.fill) (s.step method b) agentId ↔ Agrees w s agentId := by
  obtain ⟨-, hrealized, hcost⟩ := w.sell_spec hside agentId
  have hopen : (s.step method b).ledger.openCost agentId = s.ledger.openCost agentId := by
    have htotal := @Kept.total_sell s b method agentId hs hb hside hsnap (·.entryPrice)
      fun _ _ => rfl
    rwa [if_neg hne, sub_zero] at htotal
  have hflow : cashFlow (ownFills (s.step method b).fills agentId) =
      cashFlow (ownFills s.fills agentId) := by
    rw [show (s.step method b).fills = s.fills ++ [b.fill] from rfl, cashFlow_ownFills_concat,
      if_neg hne, add_zero]
  rw [if_neg hne, add_zero] at hrealized
  rw [if_neg hne, sub_zero] at hcost
  constructor
  · intro h
    exact ⟨by rw [← hcost, h.cost, hopen], by rw [← hrealized, h.realized, hflow, hcost]⟩
  · intro h
    exact ⟨by rw [hcost, h.cost, hopen], by rw [hrealized, h.realized, hflow, hcost]⟩

/-- **A sale** keeps the two in agreement exactly if the walk finds all that is sold, at the cost
of what the ledger consumes. -/
theorem Kept.agrees_sell_iff (hs : s.Kept) (hb : s.Covered b) (hside : b.fill.side = .sell)
    (hsnap : s.SnapsNothing method b) (hw : Follows w s.fills)
    (ha : b.fill.agentId ∈ tradingAgents) (h : Agrees w s b.fill.agentId) :
    Agrees (w.step b.fill) (s.step method b) b.fill.agentId ↔ s.SameCost method b := by
  set bought := purchases s.fills b.fill.agentId b.fill.symbol with hbought
  set sold := soldAs s.fills b.fill.agentId b.fill.symbol with hsold
  have hpos : ∀ item ∈ bought, 0 < item.1 := pos_of_mem_purchases hs.qty_pos _ _
  have hnonneg : 0 ≤ sold := soldAs_nonneg hs.qty_pos _ _
  have hunsold : w.unsold (b.fill.agentId, b.fill.symbol) = drain bought sold :=
    hw.unsold _ ha _
  have hleft : ∀ item ∈ drain bought sold, 0 < item.1 := pos_of_mem_drain hpos
  obtain ⟨-, hgain, hcost⟩ := w.sell_spec hside b.fill.agentId
  rw [if_pos rfl, hunsold] at hgain hcost
  have hrealized : (w.step b.fill).realizedOf b.fill.agentId = w.realizedOf b.fill.agentId +
      (b.fill.price * ((allocate Prod.fst (drain bought sold) b.fill.qty).map Prod.snd).sum -
        takenWorth id (drain bought sold) b.fill.qty) :=
    hgain.trans (congrArg (w.realizedOf _ + ·) (takenWorth_const_sub _ id _ _))
  have hopen := @Kept.total_sell s b method b.fill.agentId hs hb hside hsnap (·.entryPrice)
    fun _ _ => rfl
  have hflow : cashFlow (ownFills (s.step method b).fills b.fill.agentId) =
      cashFlow (ownFills s.fills b.fill.agentId) + b.fill.price * b.fill.qty := by
    rw [show (s.step method b).fills = s.fills ++ [b.fill] from rfl, cashFlow_ownFills_concat,
      if_pos rfl, sellProceeds, buyCost, hside, sub_zero]
  rw [if_pos rfl] at hopen
  -- enough is left to sell exactly if all that is sold is taken
  have henough : sold + b.fill.qty ≤ supply bought ↔
      ((allocate Prod.fst (drain bought sold) b.fill.qty).map Prod.snd).sum = b.fill.qty := by
    rw [sum_allocate_eq_iff hleft hb.qty_pos.le,
      supply_drain hpos hnonneg (hw.enough _ ha _), le_sub_iff_add_le']
  have hprice := hb.price_pos
  have hbefore := h.cost
  have hgained := h.realized
  rw [LotLedger.openCost] at hbefore
  rw [SameCost, ← hbought, ← hsold, henough, ← takenWorth_drain id hpos hnonneg hb.qty_pos.le]
  constructor
  · rintro ⟨hcost', hrealized'⟩ - -
    rw [LotLedger.openCost, hopen, hcost] at hcost'
    rw [hrealized, hflow, hcost] at hrealized'
    refine ⟨mul_left_cancel₀ hprice.ne' ?_, ?_⟩
    · linarith
    · linarith
  · intro hsame
    obtain ⟨hall, hcost'⟩ := hsame hside ha
    constructor
    · rw [LotLedger.openCost, hopen, hcost]
      linarith
    · rw [hrealized, hflow, hcost, hall]
      linarith

/-- **The invariant**: the books are kept, and while the walk sees all fills it follows them and
agrees with the ledger. -/
structure Attributed (s : FillBooks) : Prop where
  kept : s.Kept
  follows : s.fills.length ≤ fillHistoryLimit → Follows (walkOf s.fills) s.fills
  agrees : s.fills.length ≤ fillHistoryLimit →
    ∀ agentId ∈ tradingAgents, Agrees (walkOf s.fills) s agentId

theorem attributed_empty : empty.Attributed :=
  ⟨kept_empty, fun _ => follows_empty, fun _ _ _ => agrees_empty⟩

theorem walkOf_step : walkOf (s.step method b).fills = (walkOf s.fills).step b.fill :=
  run_concat s.fills b.fill

theorem length_fills_step : (s.step method b).fills.length = s.fills.length + 1 :=
  List.length_append

/-- A fill keeps the invariant if it keeps the walk and the ledger in agreement. -/
theorem Attributed.step (hs : s.Attributed) (hb : s.Covered b) (hsnap : s.SnapsNothing method b)
    (hok : s.fills.length < fillHistoryLimit → s.SameCost method b) :
    (s.step method b).Attributed := by
  refine ⟨hs.kept.step hb hsnap, fun hlen => ?_, fun hlen agentId ha => ?_⟩ <;>
    rw [length_fills_step] at hlen <;> rw [walkOf_step] <;>
    have hfollows := hs.follows (Nat.le_of_succ_le hlen) <;>
    cases hside : b.fill.side
  · exact hfollows.buy hb.qty_pos hside
  · exact hfollows.sell hs.kept.qty_pos hb.qty_pos hside fun ha => (hok hlen hside ha).1
  · exact hs.kept.agrees_buy hb hside (hs.agrees (Nat.le_of_succ_le hlen) agentId ha)
  · have hag := hs.agrees (Nat.le_of_succ_le hlen) agentId ha
    by_cases hne : b.fill.agentId = agentId
    · subst hne
      exact (hs.kept.agrees_sell_iff hb hside hsnap hfollows ha hag).mpr (hok hlen)
    · exact (hs.kept.agrees_sell_of_ne hb hside hsnap hne).mpr hag

theorem Attributed.reconciles (hs : s.Attributed) (hlen : s.fills.length ≤ fillHistoryLimit) :
    s.Reconciles := (hs.kept.reconciles_iff hlen).mpr (hs.agrees hlen)

/-- A sale that tells the two apart breaks what was reconciled. -/
theorem Attributed.not_reconciles_step (hs : s.Attributed) (hb : s.Covered b)
    (hsnap : s.SnapsNothing method b) (hlen : s.fills.length < fillHistoryLimit)
    (hnot : ¬s.SameCost method b) : ¬(s.step method b).Reconciles := by
  have hold : s.fills.length ≤ fillHistoryLimit := hlen.le
  have hnew : (s.step method b).fills.length ≤ fillHistoryLimit := by
    rwa [length_fills_step]
  rw [(hs.kept.step hb hsnap).reconciles_iff hnew, walkOf_step]
  intro hag
  have hsell : b.fill.side = .sell ∧ b.fill.agentId ∈ tradingAgents := by
    by_contra hc
    exact hnot fun hside ha => absurd ⟨hside, ha⟩ hc
  exact hnot ((hs.kept.agrees_sell_iff hb hsell.1 hsnap (hs.follows hold) hsell.2
    (hs.agrees hold _ hsell.2)).mp (hag _ hsell.2))

end Steps

theorem fills_run (method : LotMethod) (s : FillBooks) (bookings : List Booking) :
    (run (step method) s bookings).fills = s.fills ++ bookings.map (·.fill) := by
  induction bookings generalizing s with
  | nil => exact (List.append_nil _).symm
  | cons b bookings ih =>
    rw [run_cons, ih, step, List.map_cons, List.append_assoc]
    rfl

/-- **When attribution reconciles.** In every history that never sells more than was bought and
snaps nothing away, the profit and loss of the sleeves is the cash flow and what is left at the
marks after every one of the first million fills exactly if every sell of a sleeve finds its shares
under its own spelling, and the first of them cost what the lots cost that the ledger consumes. -/
theorem reconciles_run_iff {method : LotMethod} {bookings : List Booking}
    (hcovered : Along (step method) Covered empty bookings)
    (hsnap : Along (step method) (SnapsNothing method) empty bookings) :
    (∀ pre, pre <+: bookings → pre.length ≤ fillHistoryLimit →
        (run (step method) empty pre).Reconciles) ↔
      Along (step method) (fun s b => s.fills.length < fillHistoryLimit → s.SameCost method b)
        empty bookings := by
  have hlength : ∀ pre : List Booking, (run (step method) empty pre).fills.length = pre.length := by
    intro pre
    rw [fills_run, List.length_append, List.length_map]
    exact Nat.zero_add _
  have hstep : ∀ (s : FillBooks) (b : Booking), s.Attributed →
      s.Covered b ∧ s.SnapsNothing method b →
      (s.fills.length < fillHistoryLimit → s.SameCost method b) → (s.step method b).Attributed :=
    fun s b hs hb hok => hs.step hb.1 hb.2 hok
  have hreached : ∀ s : FillBooks, s.Attributed → s.fills.length ≤ fillHistoryLimit →
      s.Reconciles := fun s hs => hs.reconciles
  have hbroken : ∀ (s : FillBooks) (b : Booking), s.Attributed →
      s.Covered b ∧ s.SnapsNothing method b →
      ¬(s.fills.length < fillHistoryLimit → s.SameCost method b) →
      ¬((s.step method b).fills.length ≤ fillHistoryLimit → (s.step method b).Reconciles) := by
    intro s b hs hb hnot hc
    rw [Classical.not_imp] at hnot
    refine hs.not_reconciles_step hb.1 hb.2 hnot.1 hnot.2 (hc ?_)
    rw [length_fills_step]
    exact hnot.1
  have hiff := forall_reached_iff_along_within hstep hreached hbroken attributed_empty
    (hcovered.and hsnap)
  simpa only [hlength] using hiff

/-! ### A history that reconciles, and one that does not -/

instance (method : LotMethod) (s : FillBooks) (b : Booking) : Decidable (s.SnapsNothing method b) :=
  inferInstanceAs (Decidable (_ → _))

instance (method : LotMethod) (s : FillBooks) (b : Booking) : Decidable (s.SameCost method b) :=
  inferInstanceAs (Decidable (_ → _ → _ ∧ _))

/-- Ten shares are bought at a hundred, and five of them sold at a hundred and ten. -/
theorem reconciles_roundTrip : (run (step .fifo) empty (roundTrip 5)).Reconciles :=
  (reconciles_run_iff (by decide +kernel) (by decide +kernel)).mpr (by decide +kernel)
    (roundTrip 5) List.prefix_rfl (by decide +kernel)

/-- A fill of one coin. -/
def coinFill (id : FillId) (symbol : String) (side : OrderSide) (price : Decimal) : Fill where
  id := id
  orderId := id
  agentId := .haiku
  symbol := symbol
  side := side
  qty := 1
  price := price
  timestamp := 0

/-- A coin is bought under one spelling at a hundred, and sold under the other at a hundred and
fifty. -/
def coinRun : List Booking :=
  [⟨coinFill 1 "BTC/USD" .buy 100, 1⟩, ⟨coinFill 2 "BTCUSD" .sell 150, 2⟩]

/-- The log of the fills. -/
def coinLog : List LoggedEvent :=
  coinRun.map fun b => ⟨.fillReceived (serializeFill b.fill), b.fill.orderId, b.fill.timestamp⟩

/-- **Fifty dollars that are nowhere**: the ledger consumes the coin, the walk does not find it. The
profit and loss is zero, the cash flow is fifty. -/
theorem not_reconciles_coinRun :
    Along (step .fifo) Covered empty coinRun ∧
      Along (step .fifo) (SnapsNothing .fifo) empty coinRun ∧
      ((computeDailyPnl (run (step .fifo) empty coinRun).ledger (some coinLog) fun _ =>
        some 0).get? .haiku).map (·.total) = some 0 ∧
      cashFlow (ownFills (run (step .fifo) empty coinRun).fills .haiku) = 50 ∧
      ¬(run (step .fifo) empty coinRun).Reconciles := by
  have htotal : ((computeDailyPnl (run (step .fifo) empty coinRun).ledger (some coinLog) fun _ =>
      some 0).get? .haiku).map (·.total) = some 0 := by decide +kernel
  refine ⟨by decide +kernel, by decide +kernel, htotal, by decide +kernel, fun h => ?_⟩
  obtain ⟨pnl, hpnl, hflow, -⟩ :=
    h coinLog (fun _ => some 0) rfl (fun _ _ _ => rfl) .haiku (by decide)
  rw [hpnl, Option.map_some, Option.some_inj] at htotal
  rw [htotal] at hflow
  exact absurd hflow (by decide +kernel)

end FillBooks

end TradingPlatform
