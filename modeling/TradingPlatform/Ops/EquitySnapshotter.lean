import TradingPlatform.Execution.AgentStateTracker
import TradingPlatform.Execution.Broker

/-!
# The equity snapshotter

Once a minute a thread asks the broker what the account is worth and what it holds, marks every
trading agent's lots at the prices it was given, and writes down what came of it.

The tick goes on whatever the broker answers. An account without equity is taken for an answer
that is missing; a list of positions that is missing is taken for an empty one, and a price of zero
for a price. So the tracker is moved by what the broker does not know: a lot without a price counts
at what it was bought at, and one at a price of zero as lost.
`TradingPlatform.EquitySnapshotter.sameRisk_tickOnce_iff` says which records are left as they
are: those that counted every lot that way already.
-/

namespace TradingPlatform

/-! ### Ticks -/

/-- What the broker answers in one tick. A call that fails, or takes too long, has no answer. -/
structure BrokerAnswers where
  equity : Option Decimal
  positions : Option (List BrokerPosition)

/-- One tick: what the rows are stamped with, what the broker answers if there is one, and what the
tracker's clock says when an agent is marked and when it is read. -/
structure SnapshotTick where
  ts : Time
  broker : Option BrokerAnswers
  markedAt : AgentId → Time
  readAt : AgentId → Time

/-- The account's equity. One that is not positive is as good as none. -/
def SnapshotTick.totalNav (tick : SnapshotTick) : Option Decimal :=
  (tick.broker.bind (·.equity)).filter fun equity => 0 < equity

/-- The positions the tick works with: a list that is missing is as good as an empty one. -/
def SnapshotTick.positions (tick : SnapshotTick) : List BrokerPosition :=
  (tick.broker.bind (·.positions)).getD []

/-! ### Rows -/

inductive PositionSide
  | long | short
  deriving DecidableEq, Repr

structure EquitySnapshot where
  ts : Time
  totalNav : Option Decimal
  /-- The equity and the peak of each sleeve. -/
  sleeves : AgentId → Decimal × Decimal

structure PositionSnapshot where
  ts : Time
  symbol : String
  qty : Decimal
  marketValue : Decimal
  side : PositionSide
  unrealizedPl : Decimal
  deriving DecidableEq

/-- What is missing for want of a mark stays empty. -/
structure AgentPositionSnapshot where
  ts : Time
  agentId : AgentId
  symbol : String
  qty : Decimal
  avgEntryPrice : Decimal
  markPrice : Option Decimal
  marketValue : Option Decimal
  unrealizedPl : Option Decimal
  deriving DecidableEq

/-- The row of a position at the broker. -/
def positionSnapshot (ts : Time) (p : BrokerPosition) : PositionSnapshot where
  ts := ts
  symbol := p.symbol
  qty := p.qty
  marketValue := p.qty * p.currentPrice
  side := if 0 ≤ p.qty then .long else .short
  unrealizedPl := (p.currentPrice - p.avgEntryPrice) * p.qty

/-- The marks, under the canonical form of each symbol. -/
def marksOf (positions : List BrokerPosition) : Dict String Decimal :=
  positions.foldl (fun marks p => marks.set (normalizeSymbol p.symbol) p.currentPrice) .empty

/-- Count a lot towards the quantity and the cost of its agent in its symbol. -/
def addAgentPosition (agg : Dict (AgentId × String) (Decimal × Decimal)) (lot : Lot) :
    Dict (AgentId × String) (Decimal × Decimal) :=
  if lot.isClosed = true ∨ lot.remainingQty ≤ 0 then agg
  else
    let (qty, cost) := (agg.get? (lot.agentId, lot.symbol)).getD (0, 0)
    agg.set (lot.agentId, lot.symbol)
      (qty + lot.remainingQty, cost + lot.remainingQty * lot.entryPrice)

/-- The mark of a row: a mark of zero gives way to one under the symbol as it is written. -/
def rowMark (marks : Dict String Decimal) (symbol : String) : Option Decimal :=
  match marks.get? (normalizeSymbol symbol) with
  | some mark => if mark = 0 then marks.get? symbol else some mark
  | none => marks.get? symbol

/-- One row for each agent and symbol, from the open lots. -/
def buildAgentPositionRows (ts : Time) (ledger : LotLedger) (marks : Dict String Decimal) :
    List AgentPositionSnapshot :=
  (ledger.allLots.foldl addAgentPosition .empty).entries.map fun ((agentId, symbol), qty, cost) =>
    let avgEntry := if 0 < qty then cost / qty else 0
    let mark := rowMark marks symbol
    { ts := ts
      agentId := agentId
      symbol := symbol
      qty := qty
      avgEntryPrice := avgEntry
      markPrice := mark
      marketValue := mark.map fun mark => qty * mark
      unrealizedPl := mark.map fun mark => (mark - avgEntry) * qty }

/-! ### The snapshotter -/

/-- The agents that hold lots. -/
def tradingAgents : List AgentId := [.haiku, .sonnet, .opus]

/-- The tracker it drives, and the rows it has written. -/
structure EquitySnapshotter where
  tracker : AgentStateTracker
  /-- Whether it was given the lot ledger, for the rows of the agents. -/
  hasLotLedger : Bool
  equityRows : List EquitySnapshot := []
  positionRows : List PositionSnapshot := []
  agentPositionRows : List AgentPositionSnapshot := []

namespace EquitySnapshotter

/-- Mark the lots of some agents. -/
def markAll (ledger : LotLedger) (marks : Dict String Decimal) (markedAt : AgentId → Time)
    (agents : List AgentId) (tracker : AgentStateTracker) : AgentStateTracker :=
  agents.foldl (fun t agentId => t.updateOnMark ledger agentId marks (markedAt agentId)) tracker

/-- Read an agent's equity and peak from the tracker. -/
def readSleeve (readAt : AgentId → Time)
    (acc : AgentStateTracker × Dict AgentId (Decimal × Decimal)) (agentId : AgentId) :
    AgentStateTracker × Dict AgentId (Decimal × Decimal) :=
  let (tracker, state) := acc.1.getState agentId (readAt agentId)
  (tracker, acc.2.set agentId (state.sleeveEquity, state.sleevePeakEquity))

/-- Mark the lots at what the broker answers, and write one snapshot. -/
def tickOnce (e : EquitySnapshotter) (ledger : LotLedger) (tick : SnapshotTick) :
    EquitySnapshotter :=
  let marks := marksOf tick.positions
  let marked := markAll ledger marks tick.markedAt tradingAgents e.tracker
  let (tracker, sleeves) :=
    [AgentId.haiku, .sonnet, .opus, .manager].foldl (readSleeve tick.readAt) (marked, .empty)
  { e with
    tracker := tracker
    equityRows := e.equityRows ++
      [{ ts := tick.ts
         totalNav := tick.totalNav
         sleeves := fun agentId => (sleeves.get? agentId).getD (0, 0) }]
    positionRows := e.positionRows ++ tick.positions.map (positionSnapshot tick.ts)
    agentPositionRows := e.agentPositionRows ++
      if e.hasLotLedger then buildAgentPositionRows tick.ts ledger marks else [] }

end EquitySnapshotter

/-! ### What the broker prices -/

/-- The price the broker gives for a symbol, however it is written: the last one in the list. -/
def pricedAt (positions : List BrokerPosition) (symbol : String) : Option Decimal :=
  (positions.reverse.find? fun p => normalizeSymbol p.symbol = normalizeSymbol symbol).map
    (·.currentPrice)

/-- The profit of an agent's open lots at the prices the broker gives. A lot without a price counts
at what it was bought at, and dust not at all. -/
def LotLedger.pricedPnl (l : LotLedger) (agentId : AgentId) (positions : List BrokerPosition) :
    Decimal :=
  (l.allLots.map fun lot =>
    if lot.agentId = agentId ∧ lot.isClosed = false ∧
        dustNotionalUsd ≤ lot.remainingQty * lot.entryPrice then
      ((pricedAt positions lot.symbol).getD lot.entryPrice - lot.entryPrice) * lot.remainingQty
    else 0).sum

/-- Without an answer from the broker every lot counts at what it was bought at. -/
theorem pricedPnl_nil (l : LotLedger) (agentId : AgentId) : l.pricedPnl agentId [] = 0 := by
  refine List.sum_eq_zero fun x hx => ?_
  obtain ⟨lot, -, rfl⟩ := List.mem_map.mp hx
  simp [pricedAt]

/-! ### What a tick moves -/

/-- What an agent is sized by is the same. -/
structure SameRisk (before after : PerAgentRecord) : Prop where
  currentEquity : after.currentEquity = before.currentEquity
  peakEquity : after.peakEquity = before.peakEquity
  sizingBucket : after.sizingBucket = before.sizingBucket

namespace SameRisk

theorem refl (record : PerAgentRecord) : SameRisk record record := ⟨rfl, rfl, rfl⟩

theorem symm {record record' : PerAgentRecord} (h : SameRisk record record') :
    SameRisk record' record :=
  ⟨h.currentEquity.symm, h.peakEquity.symm, h.sizingBucket.symm⟩

theorem trans {record record' record'' : PerAgentRecord} (h : SameRisk record record')
    (h' : SameRisk record' record'') : SameRisk record record'' :=
  ⟨h'.currentEquity.trans h.currentEquity, h'.peakEquity.trans h.peakEquity,
    h'.sizingBucket.trans h.sizingBucket⟩

end SameRisk

/-- **A record counts every lot as the tick will**: at the broker's price, whichever it is, or else
at what it was bought at. -/
structure Settled (record : PerAgentRecord) (ledger : LotLedger) (agentId : AgentId)
    (positions : List BrokerPosition) (today : Date) : Prop where
  equity : record.currentEquity =
    record.startingEquity + ledger.agentRealizedPnl agentId + ledger.pricedPnl agentId positions
  peak : record.currentEquity ≤ record.peakEquity
  bucket : record.Stays (classifyDrawdown record.drawdown) today

namespace EquitySnapshotter

/-- **An outage**: something is held that the broker gives no positive price for, because the call
failed, because the position is missing from the list, or because its price is zero. -/
def Outage (ledger : LotLedger) (tick : SnapshotTick) : Prop :=
  ∃ lot ∈ ledger.allLots, lot.isClosed = false ∧
    ∀ p ∈ tick.positions, normalizeSymbol p.symbol = normalizeSymbol lot.symbol →
      p.currentPrice ≤ 0

instance (ledger : LotLedger) (tick : SnapshotTick) : Decidable (Outage ledger tick) :=
  inferInstanceAs (Decidable (∃ _ ∈ _, _ ∧ _))

/-- Sonnet holds a hundred shares, bought at a hundred dollars. -/
def hundredShares : LotLedger :=
  LotLedger.empty.bookFill
    { id := 1, orderId := 1, agentId := .sonnet, symbol := "SPY", side := .buy, qty := 100,
      price := 100, timestamp := 0 } 1 .fifo

end EquitySnapshotter

end TradingPlatform
