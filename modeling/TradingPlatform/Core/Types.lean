import Mathlib

/-!
# Core domain types

The identifiers, enumerations and records that the order management system, the
reconciler, the lot ledger and the risk gate exchange.

Three choices hold throughout. A decimal is a rational, so arithmetic is exact. An
instant is a number of microseconds. An identifier is a natural number: the
program draws identifiers at random and only ever compares them.

The optional fields of an order carry their default values here too, since the log
of the order management system keeps only some of them and the reader of the log
falls back on the defaults for the rest.
-/

namespace TradingPlatform

/-! ### Identifiers, numbers, instants -/

/-- Exact decimals. -/
abbrev Decimal := ℚ

/-- An instant, in microseconds. -/
abbrev Time := ℤ

/-- A calendar day, counted from a fixed one. -/
abbrev Date := ℤ

abbrev IntentId := ℕ
abbrev OrderId := ℕ
abbrev FillId := ℕ
abbrev LotId := ℕ

/-- The number of microseconds in a second. -/
def microsPerSecond : ℤ := 1000000

/-- The number of microseconds in a day. -/
def microsPerDay : ℤ := 86400 * microsPerSecond

/-- The day an instant falls on. -/
def Time.date (t : Time) : Date := t / microsPerDay

theorem Time.date_mono {t t' : Time} (h : t ≤ t') : Time.date t ≤ Time.date t' :=
  Int.ediv_le_ediv (by decide) h

/-- The canonical form of a trading symbol: crypto pairs arrive with and without a
slash, and both forms name one position. -/
def normalizeSymbol (symbol : String) : String :=
  String.ofList (symbol.toList.filter (· ≠ '/'))

/-! ### Enumerations -/

inductive AgentId
  | haiku | sonnet | opus | manager
  deriving DecidableEq, Repr

inductive Sleeve
  | equity | crypto | options
  deriving DecidableEq, Repr

inductive Action
  | buy | sell | rebalanceTo | close
  deriving DecidableEq, Repr

inductive OrderSide
  | buy | sell
  deriving DecidableEq, Repr

inductive OrderType
  | market | limit | stop | stopLimit | trailingStop
  deriving DecidableEq, Repr

inductive OrderClass
  | simple | bracket | oco | oto | mleg
  deriving DecidableEq, Repr

inductive TimeInForce
  | day | gtc | opg | cls | ioc | fok
  deriving DecidableEq, Repr

inductive OrderState
  /-- Created locally, not yet submitted. -/
  | pending
  /-- Sent to the broker, awaiting acknowledgement. -/
  | submitted
  /-- The broker confirmed receipt. -/
  | accepted
  /-- The source's `PARTIAL`. -/
  | partiallyFilled
  | filled
  | cancelled
  | rejected
  | expired
  deriving DecidableEq, Repr

inductive OrderEvent
  | submit | accept | partialFill | fullFill | cancel | reject | expire
  deriving DecidableEq, Repr

inductive KillSwitchState
  | ok
  /-- Two per cent down within the day. -/
  | dailyLoss
  | drawdownHalved
  | drawdownPaused
  | drawdownLiquidate
  | reconciliationBreak
  | heartbeatMissed
  | budgetExhausted
  deriving DecidableEq, Repr

inductive DrawdownBucket
  | normal | yellow | orange | red | forcedCash
  deriving DecidableEq, Repr

inductive LotMethod
  | fifo | lifo
  deriving DecidableEq, Repr

inductive AssetClass
  | equity | etf | crypto | option
  deriving DecidableEq, Repr

/-! ### Records -/

/-- One leg of a multi-leg options order. -/
structure OptionLeg where
  symbol : String
  side : OrderSide
  ratioQty : ℤ
  deriving DecidableEq

/-- An instruction sent, or to be sent, to the broker. -/
structure Order where
  id : OrderId
  intentId : IntentId
  agentId : AgentId
  symbol : String
  side : OrderSide
  qty : Decimal
  orderType : OrderType
  orderClass : OrderClass
  timeInForce : TimeInForce
  state : OrderState
  createdAt : Time
  limitPrice : Option Decimal := none
  stopPrice : Option Decimal := none
  trailPercent : Option Decimal := none
  brokerOrderId : Option String := none
  legs : List OptionLeg := []
  submittedAt : Option Time := none
  filledAt : Option Time := none
  filledQty : Decimal := 0
  filledAvgPrice : Option Decimal := none
  rejectionReason : Option String := none
  isLetf : Bool := false
  letfEntryDate : Option Date := none
  deriving DecidableEq

/-- A confirmed execution. -/
structure Fill where
  id : FillId
  orderId : OrderId
  agentId : AgentId
  symbol : String
  side : OrderSide
  qty : Decimal
  price : Decimal
  timestamp : Time
  commission : Decimal := 0
  isPartial : Bool := false
  deriving DecidableEq

/-- The effect of a fill on a position: up for a buy, down for a sell. -/
def Fill.signedQty (fill : Fill) : Decimal :=
  match fill.side with
  | .buy => fill.qty
  | .sell => -fill.qty

/-- An agent's proposed position change: never an amount, always a weight. -/
structure Intent where
  id : IntentId
  agentId : AgentId
  symbol : String
  action : Action
  /-- A fraction of the agent's sleeve equity. -/
  targetWeight : Decimal
  sleeve : Sleeve
  /-- One to ten. -/
  conviction : ℤ
  legs : List OptionLeg := []
  deriving DecidableEq

/-- A current open position in one symbol, of one agent. -/
structure Position where
  agentId : AgentId
  symbol : String
  qty : Decimal
  currentPrice : Decimal
  sleeve : Sleeve
  deriving DecidableEq

def Position.marketValue (position : Position) : Decimal := position.qty * position.currentPrice

/-- A tax lot: one purchase. -/
structure Lot where
  id : LotId
  agentId : AgentId
  symbol : String
  qty : Decimal
  entryPrice : Decimal
  entryDate : Date
  entryFillId : FillId
  remainingQty : Decimal
  exitFillId : Option FillId := none
  exitDate : Option Date := none
  exitPrice : Option Decimal := none
  isClosed : Bool := false
  deriving DecidableEq

/-- The profit of what was sold out of a lot, at the lot's one exit price. -/
def Lot.realizedPnl (lot : Lot) : Option Decimal :=
  lot.exitPrice.map fun exitPrice => (exitPrice - lot.entryPrice) * (lot.qty - lot.remainingQty)

/-- A lot with less than this left in it is not a real holding. -/
def dustNotionalUsd : Decimal := 1 / 100

/-- A snapshot of an agent's operational state. -/
structure AgentState where
  agentId : AgentId
  sleeveEquity : Decimal
  sleevePeakEquity : Decimal
  drawdownBucket : DrawdownBucket
  drawdownBucketEntryDate : Option Date
  consecutiveLosses : ℕ
  isBenched : Bool
  benchUntil : Option Time
  deriving DecidableEq

/-! ### Names -/

/-- The source's names for the agents, as they stand in messages. -/
def AgentId.value : AgentId → String
  | .haiku => "haiku"
  | .sonnet => "sonnet"
  | .opus => "opus"
  | .manager => "manager"

def OrderSide.value : OrderSide → String
  | .buy => "buy"
  | .sell => "sell"

def KillSwitchState.value : KillSwitchState → String
  | .ok => "ok"
  | .dailyLoss => "daily_loss"
  | .drawdownHalved => "drawdown_halved"
  | .drawdownPaused => "drawdown_paused"
  | .drawdownLiquidate => "drawdown_liquidate"
  | .reconciliationBreak => "reconciliation_break"
  | .heartbeatMissed => "heartbeat_missed"
  | .budgetExhausted => "budget_exhausted"

/-! ### Order states -/

/-- The states an order never leaves. -/
def OrderState.Terminal (state : OrderState) : Prop :=
  state = .filled ∨ state = .cancelled ∨ state = .rejected ∨ state = .expired

instance : DecidablePred OrderState.Terminal := fun _ => inferInstanceAs (Decidable (_ ∨ _))

/-- The states in which the broker may still act on an order. -/
def OrderState.Open (state : OrderState) : Prop :=
  state = .pending ∨ state = .submitted ∨ state = .accepted ∨ state = .partiallyFilled

instance : DecidablePred OrderState.Open := fun _ => inferInstanceAs (Decidable (_ ∨ _))

/-- The two enumerations of the source are complementary. -/
theorem OrderState.open_iff_not_terminal (state : OrderState) : state.Open ↔ ¬state.Terminal := by
  cases state <;> decide

end TradingPlatform
