import TradingPlatform.Execution.Broker

/-!
# The event log

The append-only log of the order management system. An event has a kind, and each
kind its own payload. A payload is what the encoder keeps: an order's does not
carry every field of the order, and the decoder puts defaults in the missing places
(`TradingPlatform.deserializeOrder_serializeOrder` says which fields come back).

The sequence number of an event is its position in the log, and the text encoding
of a payload is not modelled: decimals, instants and identifiers are written in
full, so a payload is read back as it was written.
-/

namespace TradingPlatform

/-- The fields of an order that its log payload keeps. -/
structure OrderPayload where
  id : OrderId
  intentId : IntentId
  agentId : AgentId
  symbol : String
  side : OrderSide
  qty : Decimal
  orderType : OrderType
  orderClass : OrderClass
  timeInForce : TimeInForce
  state : OrderState
  createdAt : Time
  limitPrice : Option Decimal
  stopPrice : Option Decimal
  isLetf : Bool
  deriving DecidableEq

def serializeOrder (order : Order) : OrderPayload where
  id := order.id
  intentId := order.intentId
  agentId := order.agentId
  symbol := order.symbol
  side := order.side
  qty := order.qty
  orderType := order.orderType
  orderClass := order.orderClass
  timeInForce := order.timeInForce
  state := order.state
  createdAt := order.createdAt
  limitPrice := order.limitPrice
  stopPrice := order.stopPrice
  isLetf := order.isLetf

def deserializeOrder (payload : OrderPayload) : Order where
  id := payload.id
  intentId := payload.intentId
  agentId := payload.agentId
  symbol := payload.symbol
  side := payload.side
  qty := payload.qty
  orderType := payload.orderType
  orderClass := payload.orderClass
  timeInForce := payload.timeInForce
  state := payload.state
  createdAt := payload.createdAt
  limitPrice := payload.limitPrice
  stopPrice := payload.stopPrice
  isLetf := payload.isLetf

/-- **What a round trip through the log loses**: the trailing percentage, the legs,
the entry date of a leveraged fund, and whatever the broker had reported. -/
theorem deserializeOrder_serializeOrder (order : Order) :
    deserializeOrder (serializeOrder order) =
      { order with
        trailPercent := none, brokerOrderId := none, legs := [], submittedAt := none,
        filledAt := none, filledQty := 0, filledAvgPrice := none, rejectionReason := none,
        letfEntryDate := none } :=
  rfl

/-- A fill's log payload has all of its fields. -/
structure FillPayload where
  id : FillId
  orderId : OrderId
  agentId : AgentId
  symbol : String
  side : OrderSide
  qty : Decimal
  price : Decimal
  timestamp : Time
  commission : Decimal
  isPartial : Bool
  deriving DecidableEq

def serializeFill (fill : Fill) : FillPayload where
  id := fill.id
  orderId := fill.orderId
  agentId := fill.agentId
  symbol := fill.symbol
  side := fill.side
  qty := fill.qty
  price := fill.price
  timestamp := fill.timestamp
  commission := fill.commission
  isPartial := fill.isPartial

def deserializeFill (payload : FillPayload) : Fill where
  id := payload.id
  orderId := payload.orderId
  agentId := payload.agentId
  symbol := payload.symbol
  side := payload.side
  qty := payload.qty
  price := payload.price
  timestamp := payload.timestamp
  commission := payload.commission
  isPartial := payload.isPartial

@[simp] theorem deserializeFill_serializeFill (fill : Fill) :
    deserializeFill (serializeFill fill) = fill :=
  rfl

/-- Every event the order management system may log, with its payload. -/
inductive EventKind
  | orderSubmitIntent (payload : OrderPayload)
  | orderAccepted (brokerOrderId : String)
  | orderRejected (reason : Option String)
  | fillReceived (payload : FillPayload)
  | orderCancelRequested (brokerOrderId : String)
  | orderCancelled (reason : Option String)
  | orderExpired
  | reconcileNoop (brokerState : BrokerOrderState) (deltaQty : Option Decimal)
  | reconcileRecovered (brokerState : BrokerOrderState) (deltaQty : Option Decimal)
  | reconcileAbandoned (reason : String)
  deriving DecidableEq

/-- One row of the log. -/
structure LoggedEvent where
  kind : EventKind
  orderId : OrderId
  ts : Time
  deriving DecidableEq

end TradingPlatform
