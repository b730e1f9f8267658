import TradingPlatform.Core.StateMachine
import TradingPlatform.Execution.OmsStore

/-!
# The order management system

Every handler of the live system follows one rule: append an event to the log, then
update the maps in memory, then publish. The maps are
`TradingPlatform.Book` – orders, their machines, the broker's identifiers, the fills
of each order – and the system is a book with a log and the list of published events
(`TradingPlatform.Oms`). The lock of the source makes a handler one step, so a
handler is a function of the state.

The broker is called in the middle of two handlers, and may deliver events before
its call returns. What it does there is an argument: `TradingPlatform.SubmitCall` and
`TradingPlatform.CancelCall` list the events delivered and how the call ended. A
handler reads the clock once here, and fresh identifiers are arguments too.

Looking up a key that is not there is an exception in the source. The live handlers
only look up orders they know, and their maps have the same keys
(`TradingPlatform.Oms.WellFormed`), so the branch for a missing key leaves the state
alone and is never taken.
-/

namespace TradingPlatform

/-- What the system publishes on the event bus. -/
inductive BusEvent
  | orderPlaced (order : Order)
  | orderStateChanged (orderId : OrderId) (oldState newState : OrderState) (timestamp : Time)
  | fillReceived (fill : Fill)
  deriving DecidableEq

/-- The maps in memory. -/
structure Book where
  orders : Dict OrderId Order
  fsms : Dict OrderId OrderFsm
  brokerIdToOrder : Dict String OrderId
  fillsByOrder : Dict OrderId (List Fill)

/-- The maps of a system that has just been constructed. -/
def Book.empty : Book := ⟨.empty, .empty, .empty, .empty⟩

/-- The order management system: its maps, its log, what it has published. -/
structure Oms extends Book where
  store : List LoggedEvent
  bus : List BusEvent

/-- A system over an empty log. -/
def Oms.empty : Oms := { Book.empty with store := [], bus := [] }

/-! ### Fills -/

/-- Brokers round quantities; an order whose residual is below this is fully
filled. -/
def fillQtyTolerance : Decimal := 1 / 1000000000

def isFullyFilled (orderQty filledQty : Decimal) : Bool :=
  orderQty - filledQty < fillQtyTolerance

/-- The order with a fill added to its aggregates. The live path and the replay path
of the source repeat this text. -/
def Order.bookFill (order : Order) (fill : Fill) (ts : Time) : Order :=
  let newFilledQty := order.filledQty + fill.qty
  { order with
    filledQty := newFilledQty
    filledAvgPrice := some <|
      match order.filledAvgPrice with
      | none => fill.price
      | some avg => (avg * order.filledQty + fill.price * fill.qty) / newFilledQty
    filledAt := if isFullyFilled order.qty newFilledQty then some ts else order.filledAt }

/-- The lifecycle event a fill amounts to. -/
def Order.fillEvent (order : Order) (fill : Fill) : OrderEvent :=
  if isFullyFilled order.qty (order.filledQty + fill.qty) then .fullFill else .partialFill

/-- The fill with the agent and the symbol of its order. The side stays as the broker
adapter stamped it. -/
def Fill.correctedFor (fill : Fill) (order : Order) : Fill :=
  { fill with agentId := order.agentId, symbol := order.symbol }

namespace Oms

/-! ### State transitions -/

def append (s : Oms) (kind : EventKind) (orderId : OrderId) (ts : Time) : Oms :=
  { s with store := s.store ++ [⟨kind, orderId, ts⟩] }

def publish (s : Oms) (event : BusEvent) : Oms := { s with bus := s.bus ++ [event] }

/-- Drive the machine of an order and copy its new state to the order; an event
without an arc changes nothing. -/
def transition (s : Oms) (orderId : OrderId) (event : OrderEvent) (ts : Time) : Oms :=
  match s.fsms.get? orderId with
  | none => s
  | some fsm =>
    if fsm.canTrigger event then
      { s with
        fsms := s.fsms.set orderId (fsm.after event)
        orders := s.orders.modify orderId fun order =>
          { order with state := (fsm.after event).state }
        bus := s.bus ++ [.orderStateChanged orderId fsm.state (fsm.after event).state ts] }
    else s

def recordAccepted (s : Oms) (orderId : OrderId) (brokerOrderId : String) (ts : Time) : Oms :=
  match s.orders.get? orderId with
  | none => s
  | some order =>
    -- the callback fired twice
    if order.brokerOrderId = some brokerOrderId then s
    else
      let s := s.append (.orderAccepted brokerOrderId) orderId ts
      let s := { s with
        brokerIdToOrder := s.brokerIdToOrder.set brokerOrderId orderId
        orders := s.orders.set orderId
          { order with brokerOrderId := some brokerOrderId, submittedAt := some ts } }
      s.transition orderId .accept ts

def handleFill (s : Oms) (orderId : OrderId) (fill : Fill) (ts : Time) : Oms :=
  match s.orders.get? orderId with
  | none => s
  | some order =>
    let fill := fill.correctedFor order
    let s := s.append (.fillReceived (serializeFill fill)) orderId ts
    let s := { s with
      fillsByOrder := s.fillsByOrder.modify orderId fun fills => fills ++ [fill]
      orders := s.orders.set orderId (order.bookFill fill ts) }
    let s := s.transition orderId (order.fillEvent fill) ts
    s.publish (.fillReceived fill)

/-- Close an order that is not terminal yet: log it, update the order, drive its
machine. The three handlers below are this at their own event. -/
def handleClosing (s : Oms) (orderId : OrderId) (kind : EventKind) (update : Order → Order)
    (event : OrderEvent) (ts : Time) : Oms :=
  match s.orders.get? orderId with
  | none => s
  | some order =>
    if order.state.Terminal then s
    else
      let s := s.append kind orderId ts
      let s := { s with orders := s.orders.set orderId (update order) }
      s.transition orderId event ts

def handleCancellation (s : Oms) (orderId : OrderId) (ts : Time) : Oms :=
  s.handleClosing orderId (.orderCancelled none) id .cancel ts

def handleRejection (s : Oms) (orderId : OrderId) (reason : String) (ts : Time) : Oms :=
  s.handleClosing orderId (.orderRejected (some reason))
    (fun order => { order with rejectionReason := some reason }) .reject ts

def handleExpiry (s : Oms) (orderId : OrderId) (ts : Time) : Oms :=
  s.handleClosing orderId .orderExpired id .expire ts

/-! ### Broker events -/

/-- The broker callback. Events for unknown orders, and fill states without a fill,
are ignored. -/
def onBrokerEvent (s : Oms) (event : BrokerOrderEvent) (now : Time) : Oms :=
  let orderId := event.clientOrderId
  if orderId ∈ s.orders.keys then
    let ts := event.timestamp.getD now
    match event.newState with
    | .accepted =>
      if orderId ∈ s.brokerIdToOrder.values then s
      else s.recordAccepted orderId event.brokerOrderId ts
    | .partiallyFilled | .filled =>
      match event.fill with
      | none => s
      | some fill => s.handleFill orderId fill ts
    | .canceled => s.handleCancellation orderId ts
    | .rejected =>
      s.handleRejection orderId (orDefault event.rejectionReason "broker rejected") ts
    | .expired => s.handleExpiry orderId ts
    | .new | .unknown => s
  else s

/-- The events a broker delivers in one go, one after the other. -/
def onBrokerEvents (s : Oms) (events : List BrokerOrderEvent) (now : Time) : Oms :=
  events.foldl (fun s event => s.onBrokerEvent event now) s

end Oms

/-! ### Submission and cancellation -/

/-- How the broker answered a submission. -/
inductive SubmitOutcome
  | returned (brokerOrderId : String)
  | rejected (reason : String)
  | unavailable
  deriving DecidableEq

/-- A call of the broker's `submit_order`: the events it delivers before it returns,
and how it returns. -/
structure SubmitCall where
  callbacks : List BrokerOrderEvent
  outcome : SubmitOutcome
  deriving DecidableEq

/-- A call of the broker's `cancel_order`. -/
structure CancelCall where
  callbacks : List BrokerOrderEvent
  /-- Whether the call raised. -/
  failed : Bool
  deriving DecidableEq

structure SubmitResult where
  /-- The order as it stands after the call. -/
  order : Order
  brokerOrderId : Option String
  accepted : Bool
  rejectionReason : Option String := none
  deriving DecidableEq

/-- The exceptions that leave the system's public operations. -/
inductive OmsError
  /-- Only a pending order can be submitted. -/
  | notPending (state : OrderState)
  | unknownOrder (orderId : OrderId)
  | brokerUnavailable
  | brokerError
  deriving DecidableEq

/-- The identifiers a synthetic order and its fill draw. -/
structure GhostIds where
  order : OrderId
  intent : IntentId
  fill : FillId
  deriving DecidableEq

/-- A synthetic order: one that never was at the broker. -/
structure Ghost where
  ids : GhostIds
  brokerOrderId : String
  side : OrderSide
  symbol : String
  qty : Decimal
  price : Decimal
  agentId : AgentId
  ts : Time
  deriving DecidableEq

def Ghost.order (ghost : Ghost) : Order where
  id := ghost.ids.order
  intentId := ghost.ids.intent
  agentId := ghost.agentId
  symbol := ghost.symbol
  side := ghost.side
  qty := ghost.qty
  orderType := .market
  orderClass := .simple
  timeInForce := .gtc
  state := .pending
  createdAt := ghost.ts

/-- The one fill of a synthetic order: all of it. -/
def Ghost.fill (ghost : Ghost) : Fill where
  id := ghost.ids.fill
  orderId := ghost.ids.order
  agentId := ghost.agentId
  symbol := ghost.symbol
  side := ghost.side
  qty := ghost.qty
  price := ghost.price
  timestamp := ghost.ts

namespace Oms

/-- Steps 1 and 2 of a submission: set up the maps, persist the intent before any side
effect, drive the order to submitted and publish it. -/
def persistIntent (s : Oms) (order : Order) (now : Time) : Oms :=
  let s := { s with
    orders := s.orders.set order.id order
    fsms := s.fsms.set order.id (buildOrderFsm .pending)
    fillsByOrder := s.fillsByOrder.set order.id [] }
  let s := s.append (.orderSubmitIntent (serializeOrder order)) order.id now
  let s := s.transition order.id .submit now
  s.publish (.orderPlaced ((s.orders.get? order.id).getD order))

/-- Step 4 of a submission: what the broker's answer changes. An unavailable broker
changes nothing, since the caller may retry. -/
def settleSubmit (s : Oms) (orderId : OrderId) (outcome : SubmitOutcome) (now : Time) : Oms :=
  match outcome with
  | .rejected reason => s.handleRejection orderId reason now
  | .unavailable => s
  | .returned brokerOrderId =>
    -- a callback may have recorded the acceptance already
    if brokerOrderId ∈ s.brokerIdToOrder.keys then s
    else s.recordAccepted orderId brokerOrderId now

/-- Submit an order to the broker. -/
def submitOrder (s : Oms) (order : Order) (call : SubmitCall) (now : Time) :
    Oms × Except OmsError SubmitResult :=
  if order.state = .pending then
    let s := s.persistIntent order now
    let s := s.onBrokerEvents call.callbacks now
    let s := s.settleSubmit order.id call.outcome now
    let placed := (s.orders.get? order.id).getD order
    match call.outcome with
    | .rejected reason =>
      (s, .ok { order := placed, brokerOrderId := none, accepted := false,
                rejectionReason := some reason })
    | .unavailable => (s, .error .brokerUnavailable)
    | .returned brokerOrderId =>
      (s, .ok { order := placed, brokerOrderId := some brokerOrderId, accepted := true })
  else (s, .error (.notPending order.state))

/-- The part of a cancellation that precedes the call of the broker. An order the broker
never accepted is cancelled on the spot. -/
def requestCancel (s : Oms) (orderId : OrderId) (now : Time) : Oms :=
  match s.orders.get? orderId with
  | none => s
  | some order =>
    if order.state.Terminal then s
    else
      match order.brokerOrderId with
      | none =>
        let s := s.append (.orderCancelled (some "cancel before broker accept")) orderId now
        s.transition orderId .cancel now
      | some brokerOrderId => s.append (.orderCancelRequested brokerOrderId) orderId now

/-- Request the cancellation of an open order. The broker confirms it by an event. -/
def cancelOrder (s : Oms) (orderId : OrderId) (call : CancelCall) (now : Time) :
    Oms × Except OmsError Unit :=
  match s.orders.get? orderId with
  | none => (s, .error (.unknownOrder orderId))
  | some order =>
    if order.state.Terminal ∨ order.brokerOrderId = none then
      (s.requestCancel orderId now, .ok ())
    else
      let s := s.requestCancel orderId now
      let s := s.onBrokerEvents call.callbacks now
      (s, if call.failed then .error .brokerError else .ok ())

/-- Move an open order to filled when the broker says so and its fills are all here.
Nothing is logged. -/
def forceCloseFilled (s : Oms) (orderId : OrderId) (ts : Time) : Oms :=
  match s.orders.get? orderId with
  | none => s
  | some order =>
    if order.state.Terminal then s
    else
      let s := { s with
        orders := s.orders.set orderId { order with qty := order.filledQty, filledAt := some ts } }
      s.transition orderId .fullFill ts

/-! ### Synthetic orders -/

/-- Trigger an order's machine and assign the event's state to the order whether or
not the machine moved. -/
def drive (s : Oms) (orderId : OrderId) (event : OrderEvent) : Oms :=
  { s with
    fsms := s.fsms.modify orderId fun fsm => fsm.after event
    orders := s.orders.modify orderId fun order => { order with state := event.target } }

/-- Write an order that never was at the broker, with one fill that completes it. -/
def bookGhost (s : Oms) (ghost : Ghost) : Oms :=
  let orderId := ghost.ids.order
  let s := { s with
    orders := s.orders.set orderId ghost.order
    fsms := s.fsms.set orderId (buildOrderFsm .pending)
    fillsByOrder := s.fillsByOrder.set orderId [] }
  let s := s.append (.orderSubmitIntent (serializeOrder ghost.order)) orderId ghost.ts
  let s := s.drive orderId .submit
  let s := s.append (.orderAccepted ghost.brokerOrderId) orderId ghost.ts
  let s := { s with
    brokerIdToOrder := s.brokerIdToOrder.set ghost.brokerOrderId orderId
    orders := s.orders.modify orderId fun order =>
      { order with brokerOrderId := some ghost.brokerOrderId, submittedAt := some ghost.ts } }
  let s := s.drive orderId .accept
  s.handleFill orderId ghost.fill ghost.ts

/-- Inject a synthetic buy for a broker position the system missed. -/
def adoptOrphanPosition (s : Oms) (ids : GhostIds) (symbol : String) (qty price : Decimal)
    (agentId : AgentId) (ts : Time) : Oms :=
  s.bookGhost
    { ids := ids, brokerOrderId := "ghost-" ++ toString ids.order, side := .buy,
      symbol := symbol, qty := qty, price := price, agentId := agentId, ts := ts }

/-- Inject a synthetic sell that writes a position down. -/
def bookFeeOffset (s : Oms) (ids : GhostIds) (symbol : String) (qty price : Decimal)
    (agentId : AgentId) (ts : Time) : Oms :=
  s.bookGhost
    { ids := ids, brokerOrderId := "ghost-fee-" ++ toString ids.order, side := .sell,
      symbol := symbol, qty := qty, price := price, agentId := agentId, ts := ts }

/-! ### Inspection -/

def listOrders (s : Oms) : List Order := s.orders.values

def listOpenOrders (s : Oms) : List Order := s.orders.values.filter fun order => order.state.Open

def getFills (s : Oms) (orderId : OrderId) : List Fill := (s.fillsByOrder.get? orderId).getD []

end Oms

/-! ### Operations -/

/-- One operation on the live system, with what its environment contributes. -/
inductive OmsOp
  | submitOrder (order : Order) (call : SubmitCall) (now : Time)
  | cancelOrder (orderId : OrderId) (call : CancelCall) (now : Time)
  | forceCloseFilled (orderId : OrderId) (ts : Time)
  | adoptOrphanPosition (ids : GhostIds) (symbol : String) (qty price : Decimal)
      (agentId : AgentId) (ts : Time)
  | bookFeeOffset (ids : GhostIds) (symbol : String) (qty price : Decimal)
      (agentId : AgentId) (ts : Time)
  | brokerEvent (event : BrokerOrderEvent) (now : Time)
  deriving DecidableEq

/-- The state an operation leaves. -/
def Oms.step (s : Oms) : OmsOp → Oms
  | .submitOrder order call now => (s.submitOrder order call now).1
  | .cancelOrder orderId call now => (s.cancelOrder orderId call now).1
  | .forceCloseFilled orderId ts => s.forceCloseFilled orderId ts
  | .adoptOrphanPosition ids symbol qty price agentId ts =>
    s.adoptOrphanPosition ids symbol qty price agentId ts
  | .bookFeeOffset ids symbol qty price agentId ts =>
    s.bookFeeOffset ids symbol qty price agentId ts
  | .brokerEvent event now => s.onBrokerEvent event now

end TradingPlatform
