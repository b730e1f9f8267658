import TradingPlatform.Execution.FakeBroker
import TradingPlatform.Execution.LifeCycle
import TradingPlatform.Execution.Positions

/-!
# The system on the simulated broker

The order management system and the simulated broker keep books of their own: the one adds up the
fills it was told of, the other moves a position at every fill. They are compared here when neither
is in the middle of an operation. In between they do disagree, since a fill is booked by the broker
before it is delivered.

What carries the agreement through a run is `TradingPlatform.PaperDesk.Agree`: the broker has no
order the system does not know, and of each order the two have the same filled quantity, and the
same symbol. Only a fill changes any of this on either side
(`TradingPlatform.PaperDesk.Agree.recordFill`), whatever the state of its order.
-/

namespace TradingPlatform

/-- The system, and the broker it is connected to. -/
structure PaperDesk where
  oms : Oms
  broker : FakeBroker

/-- What a test does with the two. -/
inductive PaperOp
  | submitOrder (order : Order) (brokerOrderId : String) (fillId : FillId) (now : Time)
  | cancelOrder (orderId : OrderId) (now : Time)
  | forceFullFill (orderId : OrderId) (price : Option Decimal) (fillId : FillId) (now : Time)
  | forcePartialFill (orderId : OrderId) (qty : Decimal) (price : Option Decimal)
      (fillId : FillId) (now : Time)
  | forceReject (orderId : OrderId) (reason : String) (now : Time)
  | setFillMode (mode : FillMode)
  | setPrice (symbol : String) (price : Decimal)
  | injectSubmitFailure (error : BrokerError)
  | injectCancelFailure (error : BrokerError)
  deriving DecidableEq

/-- The broker's identifier the system asks it to cancel, if it asks at all. -/
def Oms.cancelTarget? (s : Oms) (orderId : OrderId) : Option String :=
  match s.orders.get? orderId with
  | none => none
  | some order => if order.state.Terminal then none else order.brokerOrderId

namespace PaperDesk

/-- A new system on a new broker. -/
def new (fillMode : FillMode) (startingCash : Decimal) : PaperDesk :=
  ⟨Oms.empty, FakeBroker.new fillMode startingCash⟩

/-- What forcing an order does to the two: nothing, if it raises. -/
def deliver (d : PaperDesk) (forced : Except ForceError (FakeBroker × List BrokerOrderEvent))
    (now : Time) : PaperDesk :=
  match forced with
  | .error _ => d
  | .ok (broker, events) => ⟨d.oms.onBrokerEvents events now, broker⟩

def step (d : PaperDesk) : PaperOp → PaperDesk
  | .submitOrder order brokerOrderId fillId now =>
    -- the broker is not called for an order that is not pending
    if order.state = .pending then
      let (broker, call) := d.broker.submitOrder order brokerOrderId fillId now
      ⟨(d.oms.submitOrder order call now).1, broker⟩
    else d
  | .cancelOrder orderId now =>
    match d.oms.cancelTarget? orderId with
    | none => ⟨(d.oms.cancelOrder orderId ⟨[], false⟩ now).1, d.broker⟩
    | some brokerOrderId =>
      let (broker, call) := d.broker.cancelOrder brokerOrderId now
      ⟨(d.oms.cancelOrder orderId call now).1, broker⟩
  | .forceFullFill orderId price fillId now =>
    d.deliver (d.broker.forceFullFill orderId price fillId now) now
  | .forcePartialFill orderId qty price fillId now =>
    d.deliver (d.broker.forcePartialFill orderId qty price fillId now) now
  | .forceReject orderId reason now => d.deliver (d.broker.forceReject orderId reason now) now
  | .setFillMode mode => { d with broker := d.broker.setFillMode mode }
  | .setPrice symbol price => { d with broker := d.broker.setPrice symbol price }
  | .injectSubmitFailure error => { d with broker := d.broker.injectSubmitFailure error }
  | .injectCancelFailure error => { d with broker := d.broker.injectCancelFailure error }

/-- An order is submitted once, with nothing filled, and gets an identifier of its own from the
broker; a forced fill is of a positive quantity. -/
def Admits (d : PaperDesk) : PaperOp → Prop
  | .submitOrder order brokerOrderId _ _ =>
    order.id ∉ d.oms.orders.keys ∧ order.filledQty = 0 ∧ brokerOrderId ∉ d.broker.orders.keys
  | .forcePartialFill _ qty _ _ _ => 0 < qty
  | _ => True

instance (d : PaperDesk) : (op : PaperOp) → Decidable (d.Admits op)
  | .submitOrder .. => inferInstanceAs (Decidable (_ ∧ _ ∧ _))
  | .forcePartialFill _ qty _ _ _ => inferInstanceAs (Decidable (0 < qty))
  | .cancelOrder .. | .forceFullFill .. | .forceReject .. | .setFillMode _ | .setPrice ..
  | .injectSubmitFailure _ | .injectCancelFailure _ => isTrue trivial

/-- **The two agree**: on the position in every symbol, and on the filled quantity of every
order. -/
structure Agrees (d : PaperDesk) : Prop where
  position : ∀ sym, Reconciler.ourQty d.oms.computeExpectedPositions sym =
    Reconciler.brokerQty d.broker.positions sym
  filledQty : ∀ k order, d.oms.orders.get? k = some order →
    order.filledQty = d.broker.filledQty k
  known : ∀ k status, d.broker.findOrderByClientId k = some status → k ∈ d.oms.orders.keys

/-- The invariant: the two agree, and of an order both have they have the same symbol. -/
structure Agree (s : Oms) (b : FakeBroker) : Prop where
  keyed : s.Keyed
  keyedBroker : b.Keyed
  filledQty : ∀ k order, s.orders.get? k = some order → order.filledQty = b.filledQty k
  known : ∀ k status, b.findOrderByClientId k = some status →
    ∃ order, s.orders.get? k = some order ∧ order.symbol = status.symbol
  position : ∀ sym, s.netQty sym = Reconciler.brokerQty b.positions sym

section Agree

variable {s s' : Oms} {b b' : FakeBroker}

/-- A quiet step of the system. -/
theorem Agree.quiet (h : Agree s b) (hq : s.Quiet s') : Agree s' b where
  keyed := hq.keyed h.keyed
  keyedBroker := h.keyedBroker
  filledQty := by
    intro k order' ho'
    have hk : k ∈ s.orders.keys := hq.keys ▸ Dict.mem_keys_of_get? ho'
    obtain ⟨order, ho⟩ := Dict.mem_keys_iff.mp hk
    obtain ⟨order'', ho'', hsame⟩ := hq.exists_order ho
    obtain rfl : order' = order'' := Option.some.inj (ho'.symm.trans ho'')
    rw [hsame.filledQty]
    exact h.filledQty k order ho
  known := by
    intro k status hstatus
    obtain ⟨order, ho, hsym⟩ := h.known k status hstatus
    obtain ⟨order', ho', hsame⟩ := hq.exists_order ho
    exact ⟨order', ho', hsame.symbol.trans hsym⟩
  position := by
    intro sym
    rw [Oms.netQty, hq.total _ h.keyed]
    exact h.position sym

/-- A step of the broker that moves no position, and fills nothing. -/
theorem Agree.update (h : Agree s b) (hkeyed : b'.Keyed) (hpos : b'.positions = b.positions)
    (hfilled : ∀ k, b'.filledQty k = b.filledQty k)
    (hknown : ∀ k status, b'.findOrderByClientId k = some status →
      ∃ order, s.orders.get? k = some order ∧ order.symbol = status.symbol) : Agree s b' where
  keyed := h.keyed
  keyedBroker := hkeyed
  filledQty k order ho := (h.filledQty k order ho).trans (hfilled k).symm
  known := hknown
  position sym := by rw [h.position, hpos]

/-- What leaves the broker's books alone. -/
theorem Agree.congr (h : Agree s b) (horders : b'.orders = b.orders)
    (hclients : b'.clientToBroker = b.clientToBroker) (hpos : b'.positions = b.positions) :
    Agree s b' := by
  have hfind := FakeBroker.find_congr horders hclients
  refine h.update (h.keyedBroker.congr horders hclients) hpos (fun k => ?_) ?_
  · rw [FakeBroker.filledQty, hfind, FakeBroker.filledQty]
  · rw [hfind]
    exact h.known

/-- Another state of an order at the broker. -/
theorem Agree.write (h : Agree s b) {old record : BrokerOrder}
    (hold : b.orders.get? record.status.brokerOrderId = some old)
    (hclient : record.status.clientOrderId = old.status.clientOrderId)
    (hsym : record.status.symbol = old.status.symbol)
    (hfilled : record.status.filledQty = old.status.filledQty) : Agree s (b.write record) := by
  obtain ⟨hkeyed, hfind⟩ := h.keyedBroker.write hold hclient
  have hfindOld := FakeBroker.find_of_get? h.keyedBroker hold
  refine h.update hkeyed rfl (fun k => ?_) fun k status hstatus => ?_
  · rw [FakeBroker.filledQty, hfind, FakeBroker.filledQty]
    split_ifs with hk
    · rw [hk, hclient, hfindOld, Option.map_some, Option.map_some, hfilled]
    · rfl
  · rw [hfind] at hstatus
    split_ifs at hstatus with hk
    · cases hstatus
      rw [hk, hclient, hsym]
      exact h.known _ _ hfindOld
    · exact h.known k status hstatus

/-- A new order at the broker, of which nothing is filled. -/
theorem Agree.keep (h : Agree s b) {record : BrokerOrder}
    (hnew : b.findOrderByClientId record.status.clientOrderId = none)
    (hid : record.status.brokerOrderId ∉ b.orders.keys) (hfilled : record.status.filledQty = 0)
    (hknown : ∃ order, s.orders.get? record.status.clientOrderId = some order ∧
      order.symbol = record.status.symbol) : Agree s (b.keep record) := by
  obtain ⟨hkeyed, hfind⟩ := h.keyedBroker.keep hnew hid
  refine h.update hkeyed rfl (fun k => ?_) fun k status hstatus => ?_
  · rw [FakeBroker.filledQty, hfind, FakeBroker.filledQty]
    split_ifs with hk
    · rw [hk, hnew, Option.map_some, Option.map_none, hfilled]
      rfl
    · rfl
  · rw [hfind] at hstatus
    split_ifs at hstatus with hk
    · cases hstatus
      rw [hk]
      exact hknown
    · exact h.known k status hstatus

/-- A new order in the system, which the broker has not seen. -/
theorem Agree.persistIntent (h : Agree s b) {order : Order} (hp : order.state = .pending)
    (hfresh : order.id ∉ s.orders.keys) (hfilled : order.filledQty = 0) (now : Time) :
    b.findOrderByClientId order.id = none ∧ Agree (s.persistIntent order now) b := by
  have hintro := Oms.persistIntent_introduces s hp now
  have hnew : b.findOrderByClientId order.id = none := by
    rw [Option.eq_none_iff_forall_ne_some]
    intro status hstatus
    obtain ⟨known, hknown, -⟩ := h.known _ _ hstatus
    exact hfresh (Dict.mem_keys_of_get? hknown)
  refine ⟨hnew, hintro.keyed h.keyed, h.keyedBroker, fun k order' ho => ?_,
    fun k status hstatus => ?_,
    fun sym => ?_⟩
  · rw [hintro.orders] at ho
    split_ifs at ho with hk
    · cases ho
      rw [hk, FakeBroker.filledQty, hnew]
      exact hfilled
    · exact h.filledQty k order' ho
  · obtain ⟨known, hknown, hsym⟩ := h.known k status hstatus
    rw [hintro.orders, if_neg]
    · exact ⟨known, hknown, hsym⟩
    · rintro rfl
      exact hfresh (Dict.mem_keys_of_get? hknown)
  · rw [Oms.netQty, hintro.total _ hfresh]
    exact h.position sym

/-- The event of a recorded fill is handled as a fill of its order. -/
theorem onBrokerEvent_recordFill {record : BrokerOrder} {order : Order}
    (ho : s.orders.get? record.status.clientOrderId = some order) (b : FakeBroker)
    (qty price : Decimal) (fillId : FillId) (now now' : Time) :
    s.onBrokerEvent (b.recordFill record qty price fillId now).2 now' =
      s.handleFill record.status.clientOrderId
        (FakeBroker.filledRecord record qty price fillId now).2 now := by
  refine Oms.onBrokerEvent_of_fill ho ?_ rfl
  by_cases hfull : record.status.qty ≤ record.status.filledQty + qty
  · simp [FakeBroker.recordFill, FakeBroker.filledRecord, hfull]
  · simp [FakeBroker.recordFill, FakeBroker.filledRecord, hfull]

/-- An order keeps its symbol when a fill is handled, of itself or of another. -/
theorem exists_symbol_handleFill (hs : s.Keyed) {k₀ : OrderId} {order₀ : Order}
    (h₀ : s.orders.get? k₀ = some order₀) (fill : Fill) (now : Time) {k : OrderId} {order : Order}
    (ho : s.orders.get? k = some order) :
    ∃ order', (s.handleFill k₀ fill now).orders.get? k = some order' ∧
      order'.symbol = order.symbol := by
  obtain ⟨fsm, hf⟩ := hs.exists_fsm h₀
  rw [(Oms.handleFill_advances h₀ hf fill now).orders]
  split_ifs with hk
  · obtain rfl : order = order₀ := Option.some.inj (ho.symm.trans (hk ▸ h₀))
    exact ⟨_, rfl, (Order.sameTrade_moved _ _ _).symbol⟩
  · exact ⟨order, ho, rfl⟩

/-- **A fill**: the broker books it, and the system books it when it hears of it. -/
theorem Agree.recordFill (h : Agree s b) {record : BrokerOrder}
    (hrecord : b.orders.get? record.status.brokerOrderId = some record) (qty price : Decimal)
    (fillId : FillId) (now now' : Time) :
    Agree (s.onBrokerEvent (b.recordFill record qty price fillId now).2 now')
      (b.recordFill record qty price fillId now).1 := by
  have hfindOld := FakeBroker.find_of_get? h.keyedBroker hrecord
  obtain ⟨order, ho, hsym⟩ := h.known _ _ hfindOld
  obtain ⟨hkeyed, hfind⟩ := h.keyedBroker.recordFill hrecord qty price fillId now
  rw [onBrokerEvent_recordFill ho b qty price fillId now now']
  set fill := (FakeBroker.filledRecord record qty price fillId now).2
  refine ⟨h.keyed.handleFill _ _ _, hkeyed, fun k order' ho' => ?_, fun k status hstatus => ?_,
    fun sym => ?_⟩
  · rw [FakeBroker.filledQty, hfind]
    obtain ⟨fsm, hf⟩ := h.keyed.exists_fsm ho
    rw [(Oms.handleFill_advances ho hf fill now).orders] at ho'
    split_ifs at ho' with hk
    · cases ho'
      rw [if_pos hk, (Order.sameTrade_moved _ _ _).filledQty]
      have hbefore := h.filledQty _ order ho
      rw [FakeBroker.filledQty, hfindOld, Option.map_some, Option.getD_some] at hbefore
      exact congrArg (· + qty) hbefore
    · rw [if_neg hk]
      exact h.filledQty k order' ho'
  · rw [hfind] at hstatus
    split_ifs at hstatus with hk
    · cases hstatus
      obtain ⟨known, hknown, hsym'⟩ := exists_symbol_handleFill h.keyed ho fill now ho
      exact ⟨known, hk ▸ hknown, hsym'.trans hsym⟩
    · obtain ⟨known, hknown, hsym'⟩ := h.known k status hstatus
      obtain ⟨known', hknown', hsym''⟩ := exists_symbol_handleFill h.keyed ho fill now hknown
      exact ⟨known', hknown', hsym''.trans hsym'⟩
  · have hposition : Reconciler.brokerQty
        (b.recordFill record qty price fillId now).1.positions sym = _ :=
      FakeBroker.brokerQty_applyFillToAccount (b.write _) record.status.symbol record.status.side
        qty price sym
    rw [hposition, Oms.netQty, Oms.total_handleFill _ h.keyed ho fill now, ← hsym]
    refine congrArg₂ (· + ·) (h.position sym) ?_
    rw [Oms.signedFor]
    exact if_congr eq_comm rfl rfl

/-- Events that bring no fill. -/
theorem Agree.onBrokerEvents (h : Agree s b) {events : List BrokerOrderEvent}
    (hfill : ∀ event ∈ events, event.fill = none) (now : Time) :
    Agree (s.onBrokerEvents events now) b := by
  induction events generalizing s with
  | nil => exact h
  | cons event events ih =>
    obtain ⟨hevent, hrest⟩ := List.forall_mem_cons.mp hfill
    exact ih (h.quiet (Oms.quiet_onBrokerEvent h.keyed hevent now)) hrest

/-! ### The operations -/

/-- **A submission keeps the agreement**, in every fill mode. -/
theorem Agree.submitOrder (h : Agree s b) {order : Order} (hp : order.state = .pending)
    {brokerOrderId : String} (hfresh : order.id ∉ s.orders.keys) (hfilled : order.filledQty = 0)
    (hid : brokerOrderId ∉ b.orders.keys) (fillId : FillId) (now : Time) :
    Agree (s.submitOrder order (b.submitOrder order brokerOrderId fillId now).2 now).1
      (b.submitOrder order brokerOrderId fillId now).1 := by
  obtain ⟨hnew, h₁⟩ := h.persistIntent hp hfresh hfilled now
  have hintent : ∃ known, (s.persistIntent order now).orders.get? order.id = some known ∧
      known.symbol = order.symbol :=
    ⟨_, (Oms.persistIntent_introduces s hp now).get?_self, rfl⟩
  -- the order at the broker, in whichever state
  have hkeep : ∀ state reason, Agree (s.persistIntent order now)
      (b.keep (FakeBroker.newRecord order brokerOrderId state reason now)) :=
    fun state reason => h₁.keep hnew hid rfl hintent
  rw [Oms.submitOrder_fst hp]
  unfold FakeBroker.submitOrder
  rcases b.raiseOnNextSubmit with _ | error
  · rcases b.clientToBroker.get? order.id with _ | existing
    · by_cases hreject : b.fillMode = .reject
      · let event : BrokerOrderEvent :=
          { brokerOrderId := brokerOrderId, clientOrderId := order.id, newState := .rejected,
            rejectionReason := some FakeBroker.rejectReason, timestamp := some now }
        have hfill : event.fill = none := rfl
        have h₂ := (hkeep .rejected (some FakeBroker.rejectReason)).quiet
          (Oms.quiet_onBrokerEvent h₁.keyed hfill now)
        dsimp only
        rw [if_pos hreject]
        exact h₂.quiet (Oms.quiet_settleSubmit h₂.keyed _ _ _)
      · let event : BrokerOrderEvent :=
          { brokerOrderId := brokerOrderId, clientOrderId := order.id, newState := .accepted,
            timestamp := some now }
        have hfill : event.fill = none := rfl
        have h₂ := (hkeep .accepted none).quiet (Oms.quiet_onBrokerEvent h₁.keyed hfill now)
        dsimp only
        rw [if_neg hreject]
        rcases b.fillMode.autoFill? order.qty with _ | qty
        · exact h₂.quiet (Oms.quiet_settleSubmit h₂.keyed _ _ _)
        · have h₃ := h₂.recordFill (Dict.get?_set_self _ _ _) qty
            (b.priceFor order.symbol order.limitPrice) fillId now now
          exact h₃.quiet (Oms.quiet_settleSubmit h₃.keyed _ _ _)
    · exact h₁.quiet (Oms.quiet_settleSubmit h₁.keyed _ _ _)
  · have h₂ : Agree (s.persistIntent order now) { b with raiseOnNextSubmit := none } :=
      h₁.congr rfl rfl rfl
    exact h₂.quiet (Oms.quiet_settleSubmit h₂.keyed _ _ _)

/-- A cancellation in which the broker fills nothing. -/
theorem Agree.cancelOrder (h : Agree s b) {call : CancelCall}
    (hfill : ∀ event ∈ call.callbacks, event.fill = none) (k : OrderId) (now : Time) :
    Agree (s.cancelOrder k call now).1 b := by
  have h₁ := h.quiet (Oms.quiet_requestCancel h.keyed k now)
  unfold Oms.cancelOrder
  split
  · exact h
  · split_ifs
    · exact h₁
    · exact h₁.onBrokerEvents hfill now
    · exact h₁.onBrokerEvents hfill now

/-- The broker fills nothing in a cancellation, whether or not it cancels. -/
theorem Agree.brokerCancelOrder (h : Agree s b) (brokerOrderId : String) (now : Time) :
    Agree s (b.cancelOrder brokerOrderId now).1 ∧
      ∀ event ∈ (b.cancelOrder brokerOrderId now).2.callbacks, event.fill = none := by
  unfold FakeBroker.cancelOrder
  rcases b.raiseOnNextCancel with _ | error
  · rcases hrecord : b.orders.get? brokerOrderId with _ | record
    · exact ⟨h, by simp⟩
    · dsimp only
      split_ifs
      · exact ⟨h, by simp⟩
      · have hold : b.orders.get? record.status.brokerOrderId = some record := by
          rw [(h.keyedBroker.client _ _ hrecord).1]
          exact hrecord
        exact ⟨h.write hold rfl rfl rfl, by simp⟩
  · exact ⟨h.congr rfl rfl rfl, by simp⟩

theorem get?_of_recordOf (hb : b.Keyed) {k : OrderId} {record : BrokerOrder}
    (h : b.recordOf k = .ok record) :
    b.orders.get? record.status.brokerOrderId = some record ∧ record.status.clientOrderId = k := by
  unfold FakeBroker.recordOf at h
  split at h
  · cases h
  · rename_i r hr
    cases h
    obtain ⟨id, hid, hr⟩ := Option.bind_eq_some_iff.mp hr
    obtain ⟨r', hr', hclient⟩ := hb.record k id hid
    obtain rfl : record = r' := Option.some.inj (hr.symm.trans hr')
    exact ⟨(hb.client id _ hr).1.symm ▸ hr, hclient⟩

end Agree

section Run

variable {d : PaperDesk}

theorem Agree.forceFullFill (h : Agree d.oms d.broker) (k : OrderId) (price : Option Decimal)
    (fillId : FillId) (now : Time) :
    let d' := d.deliver (d.broker.forceFullFill k price fillId now) now
    Agree d'.oms d'.broker := by
  unfold FakeBroker.forceFullFill
  rcases hr : d.broker.recordOf k with error | record
  · exact h
  · obtain ⟨hrecord, -⟩ := get?_of_recordOf h.keyedBroker hr
    dsimp only
    split_ifs
    · exact h
    · exact h.recordFill hrecord _ _ fillId now now

theorem Agree.forcePartialFill (h : Agree d.oms d.broker) (k : OrderId) (qty : Decimal)
    (price : Option Decimal) (fillId : FillId) (now : Time) :
    let d' := d.deliver (d.broker.forcePartialFill k qty price fillId now) now
    Agree d'.oms d'.broker := by
  unfold FakeBroker.forcePartialFill
  rcases hr : d.broker.recordOf k with error | record
  · exact h
  · obtain ⟨hrecord, -⟩ := get?_of_recordOf h.keyedBroker hr
    dsimp only
    split_ifs
    · exact h
    · exact h.recordFill hrecord _ _ fillId now now

theorem Agree.forceReject (h : Agree d.oms d.broker) (k : OrderId) (reason : String)
    (now : Time) :
    let d' := d.deliver (d.broker.forceReject k reason now) now
    Agree d'.oms d'.broker := by
  unfold FakeBroker.forceReject
  rcases hr : d.broker.recordOf k with error | record
  · exact h
  · obtain ⟨hrecord, -⟩ := get?_of_recordOf h.keyedBroker hr
    refine Agree.onBrokerEvents ?_ (by simp) now
    exact h.write hrecord rfl rfl rfl

/-- **Every operation keeps the agreement.** -/
theorem Agree.step (h : Agree d.oms d.broker) {op : PaperOp} (hop : d.Admits op) :
    Agree (d.step op).oms (d.step op).broker := by
  cases op with
  | submitOrder order brokerOrderId fillId now =>
    obtain ⟨hfresh, hfilled, hid⟩ := hop
    rw [PaperDesk.step]
    split_ifs with hp
    · exact h.submitOrder hp hfresh hfilled hid fillId now
    · exact h
  | cancelOrder orderId now =>
    rw [PaperDesk.step]
    rcases d.oms.cancelTarget? orderId with _ | brokerOrderId
    · exact h.cancelOrder (by simp) orderId now
    · obtain ⟨hbroker, hfill⟩ := h.brokerCancelOrder brokerOrderId now
      exact hbroker.cancelOrder hfill orderId now
  | forceFullFill orderId price fillId now => exact h.forceFullFill orderId price fillId now
  | forcePartialFill orderId qty price fillId now =>
    exact h.forcePartialFill orderId qty price fillId now
  | forceReject orderId reason now => exact h.forceReject orderId reason now
  | setFillMode mode => exact h.congr rfl rfl rfl
  | setPrice symbol price => exact h.congr rfl rfl rfl
  | injectSubmitFailure error => exact h.congr rfl rfl rfl
  | injectCancelFailure error => exact h.congr rfl rfl rfl

theorem agree_new (fillMode : FillMode) (startingCash : Decimal) :
    Agree (new fillMode startingCash).oms (new fillMode startingCash).broker where
  keyed := Oms.WellFormed.empty.toKeyed
  keyedBroker := FakeBroker.keyed_new _ _
  filledQty k order ho := absurd ho (by simp [new, Oms.empty, Book.empty])
  known k status hstatus :=
    absurd hstatus (by simp [new, FakeBroker.new, FakeBroker.findOrderByClientId])
  position sym := rfl

theorem Agree.agrees (h : Agree d.oms d.broker) : d.Agrees where
  position sym := (Oms.ourQty_computeExpectedPositions h.keyed sym).trans (h.position sym)
  filledQty := h.filledQty
  known k status hstatus := by
    obtain ⟨order, ho, -⟩ := h.known k status hstatus
    exact Dict.mem_keys_of_get? ho

end Run

/-- **The system and the simulated broker agree** after every run that starts with both new, in
whichever fill mode and through any changes of it. -/
theorem agrees_run (fillMode : FillMode) (startingCash : Decimal) {ops : List PaperOp}
    (hops : Along step Admits (new fillMode startingCash) ops) :
    (run step (new fillMode startingCash) ops).Agrees := by
  have hstep : ∀ (d : PaperDesk) (op : PaperOp), Agree d.oms d.broker → d.Admits op →
      Agree (d.step op).oms (d.step op).broker :=
    fun d op hd hop => hd.step hop
  exact Agree.agrees (hops.invariant hstep (agree_new fillMode startingCash))

/-- A half that is filled at once, a cancellation, and a fill of the rest all the same; then a sale
of more than that. -/
def flipRun : List PaperOp :=
  [.submitOrder (Oms.marketOrder 1 .buy 10) "b-1" 7 0,
    .cancelOrder 1 1,
    .forceFullFill 1 none 8 2,
    .setFillMode .instant,
    .submitOrder (Oms.marketOrder 2 .sell 25) "b-2" 9 3]

theorem agrees_flipRun :
    Reconciler.brokerQty (run step (new .partialThenHold 30000) flipRun).broker.positions "AAPL" =
        -15 ∧
      (run step (new .partialThenHold 30000) flipRun).Agrees :=
  ⟨by decide +kernel, agrees_run _ _ (by decide +kernel)⟩

end PaperDesk

end TradingPlatform
