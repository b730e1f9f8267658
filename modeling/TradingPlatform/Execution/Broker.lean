import TradingPlatform.Core.Types

/-!
# What the broker says

The broker's own vocabulary for an order's lifecycle, the status it reports when
polled, and the events it delivers. A broker is not modelled: it is whoever chooses
these values, so a statement over all of them is a statement over every broker.
-/

namespace TradingPlatform

/-- The broker's view of an order's lifecycle. -/
inductive BrokerOrderState
  /-- Accepted by the broker, not yet routed. -/
  | new
  /-- Routed to a venue. -/
  | accepted
  | partiallyFilled
  | filled
  | canceled
  | rejected
  | expired
  /-- The broker has no record. -/
  | unknown
  deriving DecidableEq, Repr

/-- Snapshot of a broker-side order. -/
structure BrokerOrderStatus where
  brokerOrderId : String
  clientOrderId : OrderId
  symbol : String
  side : OrderSide
  qty : Decimal
  filledQty : Decimal
  avgFillPrice : Option Decimal
  state : BrokerOrderState
  submittedAt : Time
  updatedAt : Time
  rejectionReason : Option String := none
  deriving DecidableEq

/-- The broker's view of a held position. -/
structure BrokerPosition where
  symbol : String
  /-- Positive for a long position, negative for a short one. -/
  qty : Decimal
  avgEntryPrice : Decimal
  currentPrice : Decimal
  assetClass : AssetClass
  deriving DecidableEq

/-- A position under the canonical form of its symbol. -/
def BrokerPosition.canonical (p : BrokerPosition) : BrokerPosition :=
  { p with symbol := normalizeSymbol p.symbol }

/-- An asynchronous event from the broker about one of our orders. -/
structure BrokerOrderEvent where
  brokerOrderId : String
  clientOrderId : OrderId
  newState : BrokerOrderState
  fill : Option Fill := none
  rejectionReason : Option String := none
  timestamp : Option Time := none
  deriving DecidableEq

/-- An optional string, or a default: an empty string counts as absent, as the
source's `or` has it. -/
def orDefault (text : Option String) (default : String) : String :=
  match text with
  | none => default
  | some t => if t = "" then default else t

/-- The synthetic fills take the broker's average price, or zero when it reports
none. -/
def BrokerOrderStatus.fillPrice (status : BrokerOrderStatus) : Decimal :=
  status.avgFillPrice.getD 0

end TradingPlatform
