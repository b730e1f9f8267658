import TradingPlatform.Core.EventBus
import TradingPlatform.Execution.OmsReplay

/-!
# Subscribers that raise

The order management system publishes in the middle of its work: when it has driven the machine of
an order, before it calls the broker, after it recorded a fill. The bus calls the handlers in the
same thread, so an exception of a handler leaves the operation at that point.
`TradingPlatform.Subscribed` is the order management system with the inboxes of its handlers, and
here its operations are translated once more, with the exceptions. Where no handler raises they are
the operations of `TradingPlatform.Oms` (`TradingPlatform.Subscribed.submitOrder_silenced`).

`TradingPlatform.Subscribed.Unaffected` is what one would like to have: the books, the log, the call
of the broker and the events that the other handlers receive are as if nobody had raised. A broker
event keeps the books, as it publishes last; but a handler that raises on the state change of a
fill keeps the fill from everybody. A submission is lost to the broker when a handler raises before
the broker is called. `TradingPlatform.Subscribed.unaffected_iff` says exactly when an operation is
unaffected: the first exception comes when there is nothing left to do.

The exceptions of handlers are other ones than those of the broker, which only brokers raise.
-/

namespace TradingPlatform

/-- The names under which one subscribes. -/
instance : Event BusEvent where
  name
    | .orderPlaced _ => "order.placed"
    | .orderStateChanged .. => "order.state_changed"
    | .fillReceived _ => "fill.received"

/-- The order management system with the handlers of its bus. -/
structure Subscribed where
  oms : Oms
  inboxes : EventBus.Inboxes BusEvent
  /-- The orders for which the broker was called. -/
  sent : List OrderId

/-- What an operation leaves, and whether it left by an exception of a handler. -/
structure Subscribed.Outcome where
  state : Subscribed
  raised : Bool

/-- Go on, unless an exception was raised. -/
def Subscribed.Outcome.andThen (o : Outcome) (f : Subscribed → Outcome) : Outcome :=
  if o.raised then o else f o.state

namespace Subscribed

/-! ### The operations, with their exceptions -/

section Operations

variable (bus : EventBus BusEvent)

def publish (w : Subscribed) (event : BusEvent) : Outcome :=
  ⟨{ w with oms := w.oms.publish event, inboxes := (bus.publish event w.inboxes).1 },
    (bus.publish event w.inboxes).2⟩

def transition (w : Subscribed) (orderId : OrderId) (event : OrderEvent) (ts : Time) : Outcome :=
  match w.oms.fsms.get? orderId with
  | none => ⟨w, false⟩
  | some fsm =>
    if fsm.canTrigger event then
      let s := { w.oms with
        fsms := w.oms.fsms.set orderId (fsm.after event)
        orders := w.oms.orders.modify orderId fun order =>
          { order with state := (fsm.after event).state } }
      publish bus { w with oms := s }
        (.orderStateChanged orderId fsm.state (fsm.after event).state ts)
    else ⟨w, false⟩

def recordAccepted (w : Subscribed) (orderId : OrderId) (brokerOrderId : String) (ts : Time) :
    Outcome :=
  match w.oms.orders.get? orderId with
  | none => ⟨w, false⟩
  | some order =>
    if order.brokerOrderId = some brokerOrderId then ⟨w, false⟩
    else
      let s := w.oms.append (.orderAccepted brokerOrderId) orderId ts
      let s := { s with
        brokerIdToOrder := s.brokerIdToOrder.set brokerOrderId orderId
        orders := s.orders.set orderId
          { order with brokerOrderId := some brokerOrderId, submittedAt := some ts } }
      transition bus { w with oms := s } orderId .accept ts

def handleFill (w : Subscribed) (orderId : OrderId) (fill : Fill) (ts : Time) : Outcome :=
  match w.oms.orders.get? orderId with
  | none => ⟨w, false⟩
  | some order =>
    let fill := fill.correctedFor order
    let s := w.oms.append (.fillReceived (serializeFill fill)) orderId ts
    let s := { s with
      fillsByOrder := s.fillsByOrder.modify orderId fun fills => fills ++ [fill]
      orders := s.orders.set orderId (order.bookFill fill ts) }
    (transition bus { w with oms := s } orderId (order.fillEvent fill) ts).andThen fun w =>
      publish bus w (.fillReceived fill)

def handleClosing (w : Subscribed) (orderId : OrderId) (kind : EventKind) (update : Order → Order)
    (event : OrderEvent) (ts : Time) : Outcome :=
  match w.oms.orders.get? orderId with
  | none => ⟨w, false⟩
  | some order =>
    if order.state.Terminal then ⟨w, false⟩
    else
      let s := w.oms.append kind orderId ts
      let s := { s with orders := s.orders.set orderId (update order) }
      transition bus { w with oms := s } orderId event ts

def handleCancellation (w : Subscribed) (orderId : OrderId) (ts : Time) : Outcome :=
  handleClosing bus w orderId (.orderCancelled none) id .cancel ts

def handleRejection (w : Subscribed) (orderId : OrderId) (reason : String) (ts : Time) : Outcome :=
  handleClosing bus w orderId (.orderRejected (some reason))
    (fun order => { order with rejectionReason := some reason }) .reject ts

def handleExpiry (w : Subscribed) (orderId : OrderId) (ts : Time) : Outcome :=
  handleClosing bus w orderId .orderExpired id .expire ts

def onBrokerEvent (w : Subscribed) (event : BrokerOrderEvent) (now : Time) : Outcome :=
  let orderId := event.clientOrderId
  if orderId ∈ w.oms.orders.keys then
    let ts := event.timestamp.getD now
    match event.newState with
    | .accepted =>
      if orderId ∈ w.oms.brokerIdToOrder.values then ⟨w, false⟩
      else recordAccepted bus w orderId event.brokerOrderId ts
    | .partiallyFilled | .filled =>
      match event.fill with
      | none => ⟨w, false⟩
      | some fill => handleFill bus w orderId fill ts
    | .canceled => handleCancellation bus w orderId ts
    | .rejected =>
      handleRejection bus w orderId (orDefault event.rejectionReason "broker rejected") ts
    | .expired => handleExpiry bus w orderId ts
    | .new | .unknown => ⟨w, false⟩
  else ⟨w, false⟩

def persistIntent (w : Subscribed) (order : Order) (now : Time) : Outcome :=
  let s := { w.oms with
    orders := w.oms.orders.set order.id order
    fsms := w.oms.fsms.set order.id (buildOrderFsm .pending)
    fillsByOrder := w.oms.fillsByOrder.set order.id [] }
  let s := s.append (.orderSubmitIntent (serializeOrder order)) order.id now
  (transition bus { w with oms := s } order.id .submit now).andThen fun w =>
    publish bus w (.orderPlaced ((w.oms.orders.get? order.id).getD order))

def settleSubmit (w : Subscribed) (orderId : OrderId) (outcome : SubmitOutcome) (now : Time) :
    Outcome :=
  match outcome with
  | .rejected reason => handleRejection bus w orderId reason now
  | .unavailable => ⟨w, false⟩
  | .returned brokerOrderId =>
    if brokerOrderId ∈ w.oms.brokerIdToOrder.keys then ⟨w, false⟩
    else recordAccepted bus w orderId brokerOrderId now

/-- The broker is called for an order. -/
def callFor (w : Subscribed) (orderId : OrderId) : Subscribed :=
  { w with sent := w.sent ++ [orderId] }

/-- A call of the broker delivers its events one after the other, and then its answer. An exception
goes back through the broker, which delivers no more. -/
def callBroker (orderId : OrderId) (outcome : SubmitOutcome) (now : Time) :
    List BrokerOrderEvent → Subscribed → Outcome
  | [], w => settleSubmit bus w orderId outcome now
  | event :: events, w =>
    (onBrokerEvent bus w event now).andThen (callBroker orderId outcome now events)

/-- What a submission returns, or raises on behalf of the broker. -/
def submitResult (s : Oms) (order : Order) : SubmitOutcome → Except OmsError SubmitResult
  | .rejected reason =>
    .ok { order := (s.orders.get? order.id).getD order, brokerOrderId := none, accepted := false,
          rejectionReason := some reason }
  | .unavailable => .error .brokerUnavailable
  | .returned brokerOrderId =>
    .ok { order := (s.orders.get? order.id).getD order, brokerOrderId := some brokerOrderId,
          accepted := true }

/-- Submit an order. There is no result if a handler's exception comes out instead. -/
def submitOrder (w : Subscribed) (order : Order) (call : SubmitCall) (now : Time) :
    Outcome × Option (Except OmsError SubmitResult) :=
  if order.state = .pending then
    let o := (persistIntent bus w order now).andThen fun w =>
      callBroker bus order.id call.outcome now call.callbacks (w.callFor order.id)
    (o, if o.raised then none else some (submitResult o.state.oms order call.outcome))
  else (⟨w, false⟩, some (.error (.notPending order.state)))

end Operations

end Subscribed

/-- An operation whose handlers may raise. -/
inductive PublishingOp
  | submitOrder (order : Order) (call : SubmitCall) (now : Time)
  | brokerEvent (event : BrokerOrderEvent) (now : Time)

namespace Subscribed

def step (bus : EventBus BusEvent) (w : Subscribed) : PublishingOp → Outcome
  | .submitOrder order call now => (submitOrder bus w order call now).1
  | .brokerEvent event now => onBrokerEvent bus w event now

/-- **An operation is not affected by the exceptions of handlers.** -/
structure Unaffected (bus : EventBus BusEvent) (w : Subscribed) (op : PublishingOp) : Prop where
  /-- The orders, their machines, the broker's identifiers and the fills. -/
  book : (step bus w op).state.oms.toBook = (step bus.silenced w op).state.oms.toBook
  store : (step bus w op).state.oms.store = (step bus.silenced w op).state.oms.store
  sent : (step bus w op).state.sent = (step bus.silenced w op).state.sent
  /-- What the handlers receive that never raise. -/
  inboxes : ∀ k, bus.Returns k →
    (step bus w op).state.inboxes k = (step bus.silenced w op).state.inboxes k

end Subscribed

/-! ### What an operation publishes -/

namespace Oms

variable (s : Oms)

/-- The state change an event brings about, if the machine of the order has the arc. -/
def stateChange (orderId : OrderId) (event : OrderEvent) (ts : Time) : List BusEvent :=
  match s.fsms.get? orderId with
  | none => []
  | some fsm =>
    if fsm.canTrigger event then
      [.orderStateChanged orderId fsm.state (fsm.after event).state ts]
    else []

/-- What recording an acceptance publishes. -/
def acceptEvents (orderId : OrderId) (brokerOrderId : String) (ts : Time) : List BusEvent :=
  match s.orders.get? orderId with
  | none => []
  | some order =>
    if order.brokerOrderId = some brokerOrderId then [] else s.stateChange orderId .accept ts

/-- What recording a fill publishes. -/
def fillEvents (orderId : OrderId) (fill : Fill) (ts : Time) : List BusEvent :=
  match s.orders.get? orderId with
  | none => []
  | some order =>
    s.stateChange orderId (order.fillEvent (fill.correctedFor order)) ts ++
      [.fillReceived (fill.correctedFor order)]

/-- What closing an order publishes. -/
def closeEvents (orderId : OrderId) (event : OrderEvent) (ts : Time) : List BusEvent :=
  match s.orders.get? orderId with
  | none => []
  | some order => if order.state.Terminal then [] else s.stateChange orderId event ts

/-- What a broker event makes the system publish. -/
def brokerEvents (event : BrokerOrderEvent) (now : Time) : List BusEvent :=
  let orderId := event.clientOrderId
  if orderId ∈ s.orders.keys then
    let ts := event.timestamp.getD now
    match event.newState with
    | .accepted =>
      if orderId ∈ s.brokerIdToOrder.values then []
      else s.acceptEvents orderId event.brokerOrderId ts
    | .partiallyFilled | .filled =>
      match event.fill with
      | none => []
      | some fill => s.fillEvents orderId fill ts
    | .canceled => s.closeEvents orderId .cancel ts
    | .rejected => s.closeEvents orderId .reject ts
    | .expired => s.closeEvents orderId .expire ts
    | .new | .unknown => []
  else []

/-- What the broker's answer to a submission makes the system publish. -/
def answerEvents (orderId : OrderId) (outcome : SubmitOutcome) (now : Time) : List BusEvent :=
  match outcome with
  | .rejected _ => s.closeEvents orderId .reject now
  | .unavailable => []
  | .returned brokerOrderId =>
    if brokerOrderId ∈ s.brokerIdToOrder.keys then []
    else s.acceptEvents orderId brokerOrderId now

/-- What a submission publishes before the broker is called. -/
def intentEvents (order : Order) (now : Time) : List BusEvent :=
  [.orderStateChanged order.id .pending .submitted now,
    .orderPlaced { order with state := .submitted }]

/-- A broker event that changes nothing. -/
def Ignores (event : BrokerOrderEvent) : Prop :=
  match s.orders.get? event.clientOrderId with
  | none => True
  | some order =>
    match event.newState with
    | .accepted => event.clientOrderId ∈ s.brokerIdToOrder.values ∨
        order.brokerOrderId = some event.brokerOrderId
    | .partiallyFilled | .filled => event.fill = none
    | .canceled | .rejected | .expired => order.state.Terminal
    | .new | .unknown => True

/-- An answer to a submission that changes nothing. -/
def KnowsAnswer (orderId : OrderId) (outcome : SubmitOutcome) : Prop :=
  match outcome with
  | .rejected _ => ∀ order ∈ s.orders.get? orderId, order.state.Terminal
  | .unavailable => True
  | .returned brokerOrderId => brokerOrderId ∈ s.brokerIdToOrder.keys ∨
      ∀ order ∈ s.orders.get? orderId, order.brokerOrderId = some brokerOrderId

end Oms

namespace Subscribed

/-- **What an operation on the system comes to**: it publishes these events, up to the first
exception, and leaves these books. -/
structure Performs (bus : EventBus BusEvent) (received : EventBus.Inboxes BusEvent)
    (called : List OrderId) (s : Oms) (events : List BusEvent) (o : Outcome) : Prop where
  inboxes : o.state.inboxes = (bus.publishAll events received).1
  raised : o.raised = (bus.publishAll events received).2
  sent : o.state.sent = called
  book : o.state.oms.toBook = s.toBook
  store : o.state.oms.store = s.store
  /-- With what has been published, if there was no exception. -/
  oms : o.raised = false → o.state.oms = s

section Performs

variable (bus : EventBus BusEvent) {received : EventBus.Inboxes BusEvent}
  {called : List OrderId} {s : Oms} {events : List BusEvent} {o : Outcome}

theorem performs_nothing (w : Subscribed) :
    Performs bus w.inboxes w.sent w.oms [] ⟨w, false⟩ :=
  ⟨rfl, rfl, rfl, rfl, rfl, fun _ => rfl⟩

theorem performs_publish (w : Subscribed) (s : Oms) (event : BusEvent) :
    Performs bus w.inboxes w.sent (s.publish event) [event]
      (publish bus { w with oms := s } event) := by
  have hsingle : bus.publishAll [event] w.inboxes = bus.publish event w.inboxes :=
    EventBus.publishAll_singleton event w.inboxes
  exact ⟨by rw [hsingle]; rfl, by rw [hsingle]; rfl, rfl, rfl, rfl, fun _ => rfl⟩

/-- Publishing one more event. -/
theorem Performs.andThen_publish (h : Performs bus received called s events o)
    (f : Oms → BusEvent) :
    Performs bus received called (s.publish (f s)) (events ++ [f s])
      (o.andThen fun w => publish bus w (f w.oms)) := by
  rw [Outcome.andThen]
  have happend : bus.publishAll (events ++ [f s]) received = _ :=
    EventBus.publishAll_append events [f s] received
  rw [← h.raised] at happend
  by_cases hraised : o.raised = true
  · rw [if_pos hraised] at happend ⊢
    refine ⟨by rw [happend, h.inboxes], by rw [happend, h.raised], h.sent, h.book, h.store,
      fun hc => absurd (hc.symm.trans hraised) Bool.false_ne_true⟩
  · rw [if_neg hraised] at happend ⊢
    obtain rfl := h.oms (Bool.eq_false_of_not_eq_true hraised)
    have hlast := performs_publish bus o.state o.state.oms (f o.state.oms)
    rw [← h.inboxes] at happend
    exact ⟨hlast.inboxes.trans (congrArg Prod.fst happend.symm),
      hlast.raised.trans (congrArg Prod.snd happend.symm), h.sent, rfl, rfl, fun _ => rfl⟩

/-- Driving the machine of an order, once its books are written. -/
theorem performs_transition (w : Subscribed) (s : Oms) (orderId : OrderId) (event : OrderEvent)
    (ts : Time) :
    Performs bus w.inboxes w.sent (s.transition orderId event ts) (s.stateChange orderId event ts)
      (transition bus { w with oms := s } orderId event ts) := by
  unfold transition Oms.transition Oms.stateChange
  dsimp only
  cases s.fsms.get? orderId with
  | none => exact performs_nothing bus { w with oms := s }
  | some fsm =>
    dsimp only
    split_ifs
    · exact performs_publish bus w { s with
        fsms := s.fsms.set orderId (fsm.after event)
        orders := s.orders.modify orderId fun order =>
          { order with state := (fsm.after event).state } } _
    · exact performs_nothing bus { w with oms := s }

theorem performs_recordAccepted (w : Subscribed) (orderId : OrderId) (brokerOrderId : String)
    (ts : Time) :
    Performs bus w.inboxes w.sent (w.oms.recordAccepted orderId brokerOrderId ts)
      (w.oms.acceptEvents orderId brokerOrderId ts)
      (recordAccepted bus w orderId brokerOrderId ts) := by
  unfold recordAccepted Oms.recordAccepted Oms.acceptEvents
  cases w.oms.orders.get? orderId with
  | none => exact performs_nothing bus w
  | some order =>
    dsimp only
    split_ifs
    · exact performs_nothing bus w
    · exact performs_transition bus w _ orderId .accept ts

theorem performs_handleFill (w : Subscribed) (orderId : OrderId) (fill : Fill) (ts : Time) :
    Performs bus w.inboxes w.sent (w.oms.handleFill orderId fill ts)
      (w.oms.fillEvents orderId fill ts) (handleFill bus w orderId fill ts) := by
  unfold handleFill Oms.handleFill Oms.fillEvents
  cases w.oms.orders.get? orderId with
  | none => exact performs_nothing bus w
  | some order =>
    exact Performs.andThen_publish bus (performs_transition bus w _ orderId _ ts) fun _ =>
      BusEvent.fillReceived (fill.correctedFor order)

theorem performs_handleClosing (w : Subscribed) (orderId : OrderId) (kind : EventKind)
    (update : Order → Order) (event : OrderEvent) (ts : Time) :
    Performs bus w.inboxes w.sent (w.oms.handleClosing orderId kind update event ts)
      (w.oms.closeEvents orderId event ts) (handleClosing bus w orderId kind update event ts) := by
  unfold handleClosing Oms.handleClosing Oms.closeEvents
  cases w.oms.orders.get? orderId with
  | none => exact performs_nothing bus w
  | some order =>
    dsimp only
    split_ifs
    · exact performs_nothing bus w
    · exact performs_transition bus w _ orderId event ts

/-- **A broker event.** -/
theorem performs_onBrokerEvent (w : Subscribed) (event : BrokerOrderEvent) (now : Time) :
    Performs bus w.inboxes w.sent (w.oms.onBrokerEvent event now) (w.oms.brokerEvents event now)
      (onBrokerEvent bus w event now) := by
  unfold onBrokerEvent Oms.onBrokerEvent Oms.brokerEvents
  dsimp only
  by_cases hk : event.clientOrderId ∈ w.oms.orders.keys
  · rw [if_pos hk, if_pos hk, if_pos hk]
    cases event.newState with
    | accepted =>
      dsimp only
      split_ifs
      · exact performs_nothing bus w
      · exact performs_recordAccepted bus w _ _ _
    | partiallyFilled | filled =>
      cases event.fill with
      | none => exact performs_nothing bus w
      | some fill => exact performs_handleFill bus w _ _ _
    | canceled => exact performs_handleClosing bus w _ _ _ _ _
    | rejected => exact performs_handleClosing bus w _ _ _ _ _
    | expired => exact performs_handleClosing bus w _ _ _ _ _
    | new | unknown => exact performs_nothing bus w
  · rw [if_neg hk, if_neg hk, if_neg hk]
    exact performs_nothing bus w

/-- The broker's answer to a submission. -/
theorem performs_settleSubmit (w : Subscribed) (orderId : OrderId) (outcome : SubmitOutcome)
    (now : Time) :
    Performs bus w.inboxes w.sent (w.oms.settleSubmit orderId outcome now)
      (w.oms.answerEvents orderId outcome now) (settleSubmit bus w orderId outcome now) := by
  unfold settleSubmit Oms.settleSubmit Oms.answerEvents
  cases outcome with
  | rejected reason => exact performs_handleClosing bus w _ _ _ _ _
  | unavailable => exact performs_nothing bus w
  | returned brokerOrderId =>
    dsimp only
    split_ifs
    · exact performs_nothing bus w
    · exact performs_recordAccepted bus w _ _ _

/-- The first half of a submission. -/
theorem performs_persistIntent (w : Subscribed) {order : Order} (h : order.state = .pending)
    (now : Time) :
    Performs bus w.inboxes w.sent (w.oms.persistIntent order now) (Oms.intentEvents order now)
      (persistIntent bus w order now) := by
  let s : Oms := { w.oms with
    orders := w.oms.orders.set order.id order
    fsms := w.oms.fsms.set order.id (buildOrderFsm .pending)
    fillsByOrder := w.oms.fillsByOrder.set order.id []
    store := w.oms.store ++ [⟨.orderSubmitIntent (serializeOrder order), order.id, now⟩] }
  have hchange : s.stateChange order.id .submit now =
      [.orderStateChanged order.id .pending .submitted now] := by
    have hfsm : s.fsms.get? order.id = some (buildOrderFsm .pending) := Dict.get?_set_self _ _ _
    have harc : (buildOrderFsm .pending).canTrigger .submit = true := by decide
    have hafter : ((buildOrderFsm .pending).after .submit).state = .submitted := by decide
    unfold Oms.stateChange
    rw [hfsm]
    dsimp only
    rw [if_pos harc, hafter]
    rfl
  have hplaced : ((s.transition order.id .submit now).orders.get? order.id).getD order =
      { order with state := .submitted } := by
    have hself := (Oms.persistIntent_introduces w.oms h now).get?_self
    change (s.transition order.id .submit now).orders.get? order.id = _ at hself
    rw [hself]
    rfl
  have hboth := (performs_transition bus w s order.id .submit now).andThen_publish bus
    fun s => .orderPlaced ((s.orders.get? order.id).getD order)
  rw [hchange, hplaced] at hboth
  have hpersist : w.oms.persistIntent order now = (s.transition order.id .submit now).publish
      (.orderPlaced { order with state := .submitted }) :=
    congrArg (fun placed => (s.transition order.id .submit now).publish (.orderPlaced placed))
      hplaced
  rw [hpersist]
  exact hboth

end Performs

/-! ### What is ignored -/

section Ignored

variable {s : Oms} {orderId : OrderId}

/-- A step is ignored, or logged. -/
def IgnoredOrLogged (ignored : Prop) (s s' : Oms) (events : List BusEvent) : Prop :=
  (ignored ∧ s' = s ∧ events = []) ∨ (¬ignored ∧ s.store.length < s'.store.length)

theorem ignoredOrLogged_recordAccepted (s : Oms) (orderId : OrderId) (brokerOrderId : String)
    (ts : Time) :
    IgnoredOrLogged (∀ order ∈ s.orders.get? orderId, order.brokerOrderId = some brokerOrderId)
      s (s.recordAccepted orderId brokerOrderId ts) (s.acceptEvents orderId brokerOrderId ts) := by
  unfold Oms.recordAccepted Oms.acceptEvents
  rcases s.orders.get? orderId with _ | order
  · exact Or.inl ⟨by simp, rfl, rfl⟩
  · by_cases h : order.brokerOrderId = some brokerOrderId
    · exact Or.inl ⟨by simpa using h, if_pos h, if_pos h⟩
    · refine Or.inr ⟨by simpa using h, ?_⟩
      dsimp only
      rw [if_neg h, Oms.store_transition]
      simp [Oms.append]

theorem ignoredOrLogged_handleClosing (s : Oms) (orderId : OrderId) (kind : EventKind)
    (update : Order → Order) (event : OrderEvent) (ts : Time) :
    IgnoredOrLogged (∀ order ∈ s.orders.get? orderId, order.state.Terminal)
      s (s.handleClosing orderId kind update event ts) (s.closeEvents orderId event ts) := by
  unfold Oms.handleClosing Oms.closeEvents
  rcases s.orders.get? orderId with _ | order
  · exact Or.inl ⟨by simp, rfl, rfl⟩
  · by_cases h : order.state.Terminal
    · exact Or.inl ⟨by simpa using h, if_pos h, if_pos h⟩
    · refine Or.inr ⟨by simpa using h, ?_⟩
      dsimp only
      rw [if_neg h, Oms.store_transition]
      simp [Oms.append]

theorem store_lt_handleFill {order : Order} (ho : s.orders.get? orderId = some order) (fill : Fill)
    (ts : Time) : s.store.length < (s.handleFill orderId fill ts).store.length := by
  unfold Oms.handleFill
  rw [ho]
  simp [Oms.publish, Oms.append]

/-- A broker event is ignored, or logged. -/
theorem ignoredOrLogged_onBrokerEvent (s : Oms) (event : BrokerOrderEvent) (now : Time) :
    IgnoredOrLogged (s.Ignores event) s (s.onBrokerEvent event now)
      (s.brokerEvents event now) := by
  unfold Oms.Ignores Oms.onBrokerEvent Oms.brokerEvents
  dsimp only
  rcases ho : s.orders.get? event.clientOrderId with _ | order
  · have hk := Dict.get?_eq_none_iff.mp ho
    exact Or.inl ⟨trivial, if_neg hk, if_neg hk⟩
  · have hclosing := fun kind update lifecycle => ignoredOrLogged_handleClosing s
      event.clientOrderId kind update lifecycle (event.timestamp.getD now)
    have haccepted := ignoredOrLogged_recordAccepted s event.clientOrderId event.brokerOrderId
      (event.timestamp.getD now)
    simp only [ho, Option.mem_def, Option.some.injEq, forall_eq'] at hclosing haccepted
    rw [if_pos (Dict.mem_keys_of_get? ho), if_pos (Dict.mem_keys_of_get? ho)]
    cases event.newState with
    | accepted =>
      dsimp only
      split_ifs with hv
      · exact Or.inl ⟨Or.inl hv, rfl, rfl⟩
      · rw [or_iff_right hv]
        exact haccepted
    | partiallyFilled | filled =>
      dsimp only
      cases event.fill with
      | none => exact Or.inl ⟨rfl, rfl, rfl⟩
      | some fill => exact Or.inr ⟨Option.some_ne_none fill, store_lt_handleFill ho fill _⟩
    | canceled => exact hclosing _ _ _
    | rejected => exact hclosing _ _ _
    | expired => exact hclosing _ _ _
    | new | unknown => exact Or.inl ⟨trivial, rfl, rfl⟩

/-- An answer to a submission is known, or logged. -/
theorem ignoredOrLogged_settleSubmit (s : Oms) (orderId : OrderId) (outcome : SubmitOutcome)
    (now : Time) :
    IgnoredOrLogged (s.KnowsAnswer orderId outcome) s (s.settleSubmit orderId outcome now)
      (s.answerEvents orderId outcome now) := by
  unfold Oms.KnowsAnswer Oms.settleSubmit Oms.answerEvents
  cases outcome with
  | rejected reason => exact ignoredOrLogged_handleClosing s _ _ _ _ _
  | unavailable => exact Or.inl ⟨trivial, rfl, rfl⟩
  | returned brokerOrderId =>
    dsimp only
    split_ifs with hk
    · exact Or.inl ⟨Or.inl hk, rfl, rfl⟩
    · rw [or_iff_right hk]
      exact ignoredOrLogged_recordAccepted s _ _ _

end Ignored

/-! ### Where the exceptions do no harm -/

/-- The rest of a call of the broker changes nothing. -/
def NothingLeft (s : Oms) (orderId : OrderId) (outcome : SubmitOutcome)
    (events : List BrokerOrderEvent) : Prop :=
  (∀ event ∈ events, s.Ignores event) ∧ s.KnowsAnswer orderId outcome

/-- A call of the broker is spared: the first exception deprives nobody of an event, and when it
comes there is nothing left of the call. -/
def SparesCall (bus : EventBus BusEvent) (orderId : OrderId) (outcome : SubmitOutcome)
    (now : Time) : List BrokerOrderEvent → Oms → EventBus.Inboxes BusEvent → Prop
  | [], s, inboxes => bus.Spares (s.answerEvents orderId outcome now) inboxes
  | event :: events, s, inboxes =>
    if (bus.publishAll (s.brokerEvents event now) inboxes).2 then
      bus.Spares (s.brokerEvents event now) inboxes ∧
        NothingLeft (s.onBrokerEvent event now) orderId outcome events
    else
      SparesCall bus orderId outcome now events (s.onBrokerEvent event now)
        (bus.publishAll (s.brokerEvents event now) inboxes).1

/-- **The exceptions of an operation do no harm.** Before the broker is called there must be
none. -/
def Spared (bus : EventBus BusEvent) (w : Subscribed) : PublishingOp → Prop
  | .brokerEvent event now => bus.Spares (w.oms.brokerEvents event now) w.inboxes
  | .submitOrder order call now => order.state = .pending →
      (bus.publishAll (Oms.intentEvents order now) w.inboxes).2 = false ∧
        SparesCall bus order.id call.outcome now call.callbacks (w.oms.persistIntent order now)
          (bus.publishAll (Oms.intentEvents order now) w.inboxes).1

section Exact

variable {bus : EventBus BusEvent} {received : EventBus.Inboxes BusEvent}
  {called : List OrderId} {s : Oms} {orderId : OrderId} {outcome : SubmitOutcome} {now : Time}

/-- The same books, and the same events for the handlers that never raise. -/
structure Same (bus : EventBus BusEvent) (w w' : Subscribed) : Prop where
  book : w.oms.toBook = w'.oms.toBook
  store : w.oms.store = w'.oms.store
  inboxes : ∀ k, bus.Returns k → w.inboxes k = w'.inboxes k

theorem Performs.same_iff {events : List BusEvent} {o o' : Outcome}
    (h : Performs bus received called s events o)
    (h' : Performs bus.silenced received called s events o') :
    Same bus o.state o'.state ↔ bus.Spares events received := by
  rw [EventBus.spares_iff, ← h.inboxes, ← h'.inboxes]
  exact ⟨fun hsame => hsame.inboxes,
    fun hsame => ⟨h.book.trans h'.book.symm, h.store.trans h'.store.symm, hsame⟩⟩

/-- If nobody can raise, nobody does. -/
theorem Performs.not_raised {events : List BusEvent} {o : Outcome}
    (h : Performs bus.silenced received called s events o) : o.raised = false :=
  h.raised.trans (EventBus.publishAll_silenced events received).1

/-- Without an exception it makes no difference whether there could be one. -/
theorem Performs.state_eq {events : List BusEvent} {o o' : Outcome}
    (h : Performs bus received called s events o)
    (h' : Performs bus.silenced received called s events o') (hraised : o.raised = false) :
    o.state = o'.state := by
  have hinboxes : o.state.inboxes = o'.state.inboxes := by
    rw [h.inboxes, h'.inboxes,
      EventBus.publishAll_of_not_raised (h.raised.symm.trans hraised)]
  have homs : o.state.oms = o'.state.oms := (h.oms hraised).trans (h'.oms h'.not_raised).symm
  have hsent : o.state.sent = o'.state.sent := h.sent.trans h'.sent.symm
  obtain ⟨⟨oms, inboxes, sent⟩, raised⟩ := o
  obtain ⟨⟨oms', inboxes', sent'⟩, raised'⟩ := o'
  dsimp only at hinboxes homs hsent
  rw [hinboxes, homs, hsent]

theorem IgnoredOrLogged.length_le {ignored : Prop} {s' : Oms} {events : List BusEvent}
    (h : IgnoredOrLogged ignored s s' events) : s.store.length ≤ s'.store.length := by
  rcases h with ⟨-, rfl, -⟩ | ⟨-, hlt⟩
  · exact le_rfl
  · exact hlt.le

/-- A call of the broker forgets nothing. -/
theorem length_le_call (s : Oms) (orderId : OrderId) (outcome : SubmitOutcome) (now : Time)
    (events : List BrokerOrderEvent) :
    s.store.length ≤
      ((s.onBrokerEvents events now).settleSubmit orderId outcome now).store.length := by
  induction events generalizing s with
  | nil => exact (ignoredOrLogged_settleSubmit s orderId outcome now).length_le
  | cons event events ih =>
    exact (ignoredOrLogged_onBrokerEvent s event now).length_le.trans (ih _)

/-- A call that logs nothing had nothing left to do. -/
theorem nothingLeft_of_store_eq {events : List BrokerOrderEvent} (now : Time)
    (h : ((s.onBrokerEvents events now).settleSubmit orderId outcome now).store = s.store) :
    NothingLeft s orderId outcome events := by
  have hlength := congrArg List.length h
  induction events with
  | nil =>
    rcases ignoredOrLogged_settleSubmit s orderId outcome now with ⟨hknows, -⟩ | ⟨-, hlt⟩
    · exact ⟨by simp, hknows⟩
    · exact absurd hlength hlt.ne'
  | cons event events ih =>
    change ((Oms.onBrokerEvents (s.onBrokerEvent event now) events now).settleSubmit orderId
      outcome now).store = _ at h
    rcases ignoredOrLogged_onBrokerEvent s event now with ⟨hignores, heq, -⟩ | ⟨-, hlt⟩
    · rw [heq] at h
      obtain ⟨hrest, hknows⟩ := ih h (congrArg List.length h)
      exact ⟨List.forall_mem_cons.mpr ⟨hignores, hrest⟩, hknows⟩
    · exact absurd hlength (hlt.trans_le (length_le_call _ _ _ _ events)).ne'

/-- A call of the broker when nobody raises. -/
theorem callBroker_silenced (bus : EventBus BusEvent) (orderId : OrderId)
    (outcome : SubmitOutcome) (now : Time) (events : List BrokerOrderEvent) (w : Subscribed) :
    let o := callBroker bus.silenced orderId outcome now events w
    o.raised = false ∧
      o.state.oms = (w.oms.onBrokerEvents events now).settleSubmit orderId outcome now ∧
      o.state.sent = w.sent ∧
      (NothingLeft w.oms orderId outcome events →
        o.state.oms = w.oms ∧ o.state.inboxes = w.inboxes) := by
  induction events generalizing w with
  | nil =>
    have h := performs_settleSubmit bus.silenced w orderId outcome now
    refine ⟨h.not_raised, h.oms h.not_raised, h.sent, fun hleft => ?_⟩
    rcases ignoredOrLogged_settleSubmit w.oms orderId outcome now with ⟨-, heq, hnone⟩ | ⟨hnot, -⟩
    · rw [hnone] at h
      exact ⟨(h.oms h.not_raised).trans heq, h.inboxes⟩
    · exact absurd hleft.2 hnot
  | cons event events ih =>
    have h := performs_onBrokerEvent bus.silenced w event now
    dsimp only
    rw [callBroker, Outcome.andThen, h.not_raised, if_neg Bool.false_ne_true]
    obtain ⟨hraised, homs, hsent, hleft⟩ := ih (onBrokerEvent bus.silenced w event now).state
    rw [h.oms h.not_raised] at homs hleft
    refine ⟨hraised, homs, hsent.trans h.sent, fun hnothing => ?_⟩
    obtain ⟨hignores, hrest⟩ := List.forall_mem_cons.mp hnothing.1
    rcases ignoredOrLogged_onBrokerEvent w.oms event now with ⟨-, heq, hnone⟩ | ⟨hnot, -⟩
    · rw [heq] at hleft
      rw [hnone] at h
      obtain ⟨hsame, hinboxes⟩ := hleft ⟨hrest, hnothing.2⟩
      exact ⟨hsame, hinboxes.trans h.inboxes⟩
    · exact absurd hignores hnot

/-- **A call of the broker does as well as without exceptions** exactly if it is spared. -/
theorem same_callBroker_iff (bus : EventBus BusEvent) (orderId : OrderId)
    (outcome : SubmitOutcome) (now : Time) (events : List BrokerOrderEvent) (w : Subscribed) :
    Same bus (callBroker bus orderId outcome now events w).state
        (callBroker bus.silenced orderId outcome now events w).state ↔
      SparesCall bus orderId outcome now events w.oms w.inboxes := by
  induction events generalizing w with
  | nil =>
    exact (performs_settleSubmit bus w orderId outcome now).same_iff
      (performs_settleSubmit bus.silenced w orderId outcome now)
  | cons event events ih =>
    have h := performs_onBrokerEvent bus w event now
    have h' := performs_onBrokerEvent bus.silenced w event now
    rw [callBroker, callBroker, Outcome.andThen, Outcome.andThen, h'.not_raised,
      if_neg Bool.false_ne_true, SparesCall, ← h.raised]
    by_cases hraised : (onBrokerEvent bus w event now).raised = true
    · rw [if_pos hraised, if_pos hraised, ← h.same_iff h']
      obtain ⟨-, homs, -, hleft⟩ := callBroker_silenced bus orderId outcome now events
        (onBrokerEvent bus.silenced w event now).state
      rw [h'.oms h'.not_raised] at homs hleft
      constructor
      · intro hsame
        have hnothing : NothingLeft (w.oms.onBrokerEvent event now) orderId outcome events := by
          refine nothingLeft_of_store_eq now ?_
          rw [← homs, ← hsame.store, h.store]
        obtain ⟨hsame', hinboxes⟩ := hleft hnothing
        refine ⟨⟨h.book.trans h'.book.symm, h.store.trans h'.store.symm, fun k hk => ?_⟩, hnothing⟩
        rw [hsame.inboxes k hk, hinboxes]
      · rintro ⟨hsame, hnothing⟩
        obtain ⟨hsame', hinboxes⟩ := hleft hnothing
        refine ⟨?_, ?_, fun k hk => ?_⟩
        · rw [hsame', h.book]
        · rw [hsame', h.store]
        · rw [hinboxes, hsame.inboxes k hk]
    · have hfalse := Bool.eq_false_of_not_eq_true hraised
      rw [if_neg hraised, if_neg hraised, ← h.state_eq h' hfalse, ih, h.oms hfalse, h.inboxes]

theorem sent_callBroker (bus : EventBus BusEvent) (events : List BrokerOrderEvent)
    (w : Subscribed) :
    (callBroker bus orderId outcome now events w).state.sent = w.sent := by
  induction events generalizing w with
  | nil => exact (performs_settleSubmit bus w orderId outcome now).sent
  | cons event events ih =>
    have h := performs_onBrokerEvent bus w event now
    rw [callBroker, Outcome.andThen]
    split_ifs
    · exact h.sent
    · exact (ih _).trans h.sent

/-- **When the subscribers do no harm**: exactly if the first exception of an operation deprives no
other handler of an event, and comes when there is nothing left to do. -/
theorem unaffected_iff {w : Subscribed} {op : PublishingOp} :
    Unaffected bus w op ↔ Spared bus w op := by
  cases op with
  | brokerEvent event now =>
    have h := performs_onBrokerEvent bus w event now
    have h' := performs_onBrokerEvent bus.silenced w event now
    rw [Spared, ← h.same_iff h']
    exact ⟨fun hu => ⟨hu.book, hu.store, hu.inboxes⟩,
      fun hs => ⟨hs.book, hs.store, h.sent.trans h'.sent.symm, hs.inboxes⟩⟩
  | submitOrder order call now =>
    by_cases hpending : order.state = .pending
    · have h := performs_persistIntent bus w hpending now
      have h' := performs_persistIntent bus.silenced w hpending now
      have hstep : ∀ bus : EventBus BusEvent, step bus w (.submitOrder order call now) =
          (persistIntent bus w order now).andThen fun w =>
            callBroker bus order.id call.outcome now call.callbacks (w.callFor order.id) :=
        fun bus => by rw [step, submitOrder, if_pos hpending]
      have hquiet : step bus.silenced w (.submitOrder order call now) =
          callBroker bus.silenced order.id call.outcome now call.callbacks
            ((persistIntent bus.silenced w order now).state.callFor order.id) := by
        rw [hstep, Outcome.andThen, h'.not_raised, if_neg Bool.false_ne_true]
      rw [Spared, ← h.raised, forall_prop_of_true hpending]
      by_cases hraised : (persistIntent bus w order now).raised = true
      · -- the broker is not called
        have hlost : step bus w (.submitOrder order call now) = persistIntent bus w order now := by
          rw [hstep, Outcome.andThen, if_pos hraised]
        refine iff_of_false (fun hu => ?_) fun hs => Bool.false_ne_true (hs.1.symm.trans hraised)
        have hsent := hu.sent
        rw [hlost, hquiet, sent_callBroker, callFor, h.sent, h'.sent] at hsent
        exact List.cons_ne_nil _ _ (List.self_eq_append_right.mp hsent)
      · have hfalse := Bool.eq_false_of_not_eq_true hraised
        have hloud : step bus w (.submitOrder order call now) =
            callBroker bus order.id call.outcome now call.callbacks
              ((persistIntent bus w order now).state.callFor order.id) := by
          rw [hstep, Outcome.andThen, if_neg hraised]
        have hstate := h.state_eq h' hfalse
        have homs : ((persistIntent bus w order now).state.callFor order.id).oms =
          w.oms.persistIntent order now := h.oms hfalse
        have hinboxes : ((persistIntent bus w order now).state.callFor order.id).inboxes =
          (bus.publishAll (Oms.intentEvents order now) w.inboxes).1 := h.inboxes
        have hsame := same_callBroker_iff bus order.id call.outcome now call.callbacks
          ((persistIntent bus w order now).state.callFor order.id)
        rw [homs, hinboxes, ← hloud, hstate, ← hquiet] at hsame
        constructor
        · exact fun hu => ⟨hfalse, hsame.mp ⟨hu.book, hu.store, hu.inboxes⟩⟩
        · intro hs
          obtain ⟨hbook, hstore, hinboxes⟩ := hsame.mpr hs.2
          refine ⟨hbook, hstore, ?_, hinboxes⟩
          rw [hloud, hquiet, sent_callBroker, sent_callBroker, hstate]
    · have hstep : ∀ bus : EventBus BusEvent,
          step bus w (.submitOrder order call now) = ⟨w, false⟩ := fun bus => by
        rw [step, submitOrder, if_neg hpending]
      refine iff_of_true ⟨?_, ?_, ?_, fun k _ => ?_⟩ fun hc => absurd hc hpending
      all_goals rw [hstep, hstep]

/-- **Where nobody raises, a submission is the one of the order management system.** -/
theorem submitOrder_silenced (bus : EventBus BusEvent) (w : Subscribed) (order : Order)
    (call : SubmitCall) (now : Time) :
    (submitOrder bus.silenced w order call now).1.state.oms =
        (w.oms.submitOrder order call now).1 ∧
      (submitOrder bus.silenced w order call now).2 =
        some (w.oms.submitOrder order call now).2 := by
  by_cases hpending : order.state = .pending
  · have h := performs_persistIntent bus.silenced w hpending now
    obtain ⟨hraised, homs, -⟩ := callBroker_silenced bus order.id call.outcome now call.callbacks
      ((persistIntent bus.silenced w order now).state.callFor order.id)
    have hpersist : ((persistIntent bus.silenced w order now).state.callFor order.id).oms =
      w.oms.persistIntent order now := h.oms h.not_raised
    rw [hpersist] at homs
    rw [submitOrder, if_pos hpending, Oms.submitOrder, if_pos hpending, Outcome.andThen,
      h.not_raised, if_neg Bool.false_ne_true]
    dsimp only
    rw [hraised, if_neg Bool.false_ne_true, homs]
    cases call.outcome with
    | rejected reason => exact ⟨rfl, rfl⟩
    | unavailable => exact ⟨rfl, rfl⟩
    | returned brokerOrderId => exact ⟨rfl, rfl⟩
  · rw [submitOrder, if_neg hpending, Oms.submitOrder, if_neg hpending]
    exact ⟨rfl, rfl⟩

end Exact

/-- The first handler is subscribed to state changes and always raises; the second one books the
fills. -/
def raisingBus : EventBus BusEvent where
  subscriptions := [("order.state_changed", 0), ("fill.received", 1)]
  raises handler _ _ := handler = 0

/-- A system nobody has heard from. -/
def silent (s : Oms) : Subscribed := ⟨s, fun _ => [], []⟩

/-- An order the broker accepted. -/
def acceptedOms : Oms :=
  Oms.empty.step (.submitOrder (Oms.marketOrder 1 .buy 10) ⟨[], .returned "b-1"⟩ 0)

/-- **What a handler can do**: an order it raises on is logged as submitted, and never sent. A fill
it raises on is recorded, and the lots do not hear of it. -/
theorem not_unaffected_raisingBus :
    let submission := PublishingOp.submitOrder (Oms.marketOrder 1 .buy 10) ⟨[], .returned "b-1"⟩ 0
    let fill := PublishingOp.brokerEvent (Oms.fillEventFor 7 1 .buy 10 .filled) 2
    (((step raisingBus (silent .empty) submission).state.oms.orders.get? 1).map (·.state) =
          some .submitted ∧
        (step raisingBus (silent .empty) submission).state.sent = [] ∧
        ¬Unaffected raisingBus (silent .empty) submission) ∧
      ((step raisingBus (silent acceptedOms) fill).state.oms.getFills 1).length = 1 ∧
        (step raisingBus (silent acceptedOms) fill).state.inboxes 1 = [] ∧
        ¬Unaffected raisingBus (silent acceptedOms) fill := by
  intro submission fill
  have hreturns : raisingBus.Returns 1 := fun _ _ => rfl
  have hunsent : (step raisingBus (silent .empty) submission).state.sent = [] := by decide +kernel
  have hsent : (step raisingBus.silenced (silent .empty) submission).state.sent = [1] := by
    decide +kernel
  have hunheard : (step raisingBus (silent acceptedOms) fill).state.inboxes 1 = [] := by
    decide +kernel
  have hheard : ((step raisingBus.silenced (silent acceptedOms) fill).state.inboxes 1).length =
      1 := by
    decide +kernel
  refine ⟨⟨by decide +kernel, hunsent, fun h => ?_⟩, by decide +kernel, hunheard, fun h => ?_⟩
  · have hc := hunsent.symm.trans (h.sent.trans hsent)
    exact absurd hc (by decide)
  · have hc := hunheard.symm.trans (h.inboxes 1 hreturns)
    rw [← hc] at hheard
    exact absurd hheard (by decide)

end Subscribed

end TradingPlatform
