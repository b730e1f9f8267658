import TradingPlatform.Execution.OmsLog

/-!
# The Alpaca adapter

The adapter turns an update of Alpaca's trade stream into an event of ours. An update does not
say for which agent the order was placed, and the adapter reads that, and the side, from what
it remembered when it submitted the order (`TradingPlatform.AlpacaBroker.orderMeta`). The
memory dies with the process; for an order it does not remember the adapter stamps a default
agent and the buying side on the fill. The order management system repairs the agent and the
symbol and takes the side as it comes.

`TradingPlatform.Desk` is the order management system with its adapter and the list of open
orders the reconciler is working through, and a restart is one of its steps.
`TradingPlatform.Desk.fillsAgree_run_iff` says exactly which runs keep every fill in agreement
with its order: those in which no execution of a sell arrives while the adapter does not
remember the order.

The stream's callbacks run in a thread of their own and wait for the lock of the order
management system, so no update is delivered in the middle of a submission.
-/

namespace TradingPlatform

/-! ### Trade updates -/

/-- What a trade update is about. -/
inductive TradeEvent
  | new | pendingNew | accepted | partialFill | fill | canceled | expired | rejected | replaced
  | pendingCancel | pendingReplace | restated
  /-- Any other text. -/
  | other
  deriving DecidableEq, Repr

def alpacaTradeEventToState : TradeEvent → BrokerOrderState
  | .new => .new
  | .pendingNew => .new
  | .accepted => .accepted
  | .partialFill => .partiallyFilled
  | .fill => .filled
  | .canceled => .canceled
  | .expired => .expired
  | .rejected => .rejected
  | .replaced => .canceled
  | .pendingCancel => .accepted
  | .pendingReplace => .accepted
  | .restated => .accepted
  | .other => .unknown

/-- An update of the trade stream. -/
structure TradeUpdate where
  /-- The client identifier, if the broker's text for it is one of ours. -/
  clientOrderId : Option OrderId
  brokerOrderId : String
  event : TradeEvent
  symbol : Option String := none
  assetClass : Option AssetClass := none
  price : Option Decimal := none
  qty : Option Decimal := none
  timestamp : Option Time := none
  deriving DecidableEq

/-- A number that is there and is not zero. -/
def truthy (number : Option Decimal) : Option Decimal := number.filter (· ≠ 0)

def cryptoTakerFee : Decimal := 25 / 10000

/-- The adapter's own state: what it remembers of the orders it submitted. -/
structure AlpacaBroker where
  orderMeta : Dict OrderId OrderMeta

namespace AlpacaBroker

/-- The part of a submission that precedes the call of the broker. -/
def submitOrder (broker : AlpacaBroker) (order : Order) : AlpacaBroker where
  orderMeta := broker.orderMeta.set order.id order.orderMeta

/-- The side the adapter stamps on a fill. -/
def sideOf (broker : AlpacaBroker) (orderId : OrderId) : OrderSide :=
  ((broker.orderMeta.get? orderId).map (·.side)).getD .buy

/-- The price and the quantity of the execution an update reports, if it reports one. -/
def execution? (update : TradeUpdate) : Option (Decimal × Decimal) :=
  if update.event = .fill ∨ update.event = .partialFill then
    match truthy update.price, truthy update.qty with
    | some price, some qty => some (price, qty)
    | _, _ => none
  else none

/-- The fill an execution becomes. -/
def fillOf (broker : AlpacaBroker) (update : TradeUpdate) (orderId : OrderId)
    (price qty : Decimal) (fillId : FillId) (ts : Time) : Fill where
  id := fillId
  orderId := orderId
  agentId := ((broker.orderMeta.get? orderId).map (·.agentId)).getD .haiku
  symbol := update.symbol.getD ""
  side := broker.sideOf orderId
  -- the fee of a crypto purchase is taken in kind
  qty := if update.assetClass = some .crypto ∧ broker.sideOf orderId = .buy
    then qty * (1 - cryptoTakerFee) else qty
  price := price
  timestamp := ts
  isPartial := update.event = .partialFill

/-- Translate a trade update to a broker event. -/
def tradeUpdateToEvent (broker : AlpacaBroker) (update : TradeUpdate) (fillId : FillId)
    (now : Time) : Option BrokerOrderEvent :=
  update.clientOrderId.map fun orderId =>
    let ts := update.timestamp.getD now
    { brokerOrderId := update.brokerOrderId
      clientOrderId := orderId
      newState := alpacaTradeEventToState update.event
      fill := (execution? update).map fun (price, qty) =>
        broker.fillOf update orderId price qty fillId ts
      timestamp := some ts }

end AlpacaBroker

namespace Oms

/-- The executions of a sell reduce the position in its symbol, by as much as was executed. -/
def SellsReduce (s : Oms) : Prop :=
  ∀ k order, s.orders.get? k = some order → order.side = .sell →
    ((s.getFills k).map (signedFor order.symbol)).sum = -((s.getFills k).map (·.qty)).sum

theorem FillsAgree.sellsReduce {s : Oms} (h : s.FillsAgree) : s.SellsReduce := by
  intro k order ho hsell
  rw [List.sum_neg, List.map_map]
  refine congrArg List.sum (List.map_congr_left fun fill hfill => ?_)
  obtain ⟨hside, -, hsym⟩ := h k order ho fill (List.mem_append_left _ hfill)
  rw [signedFor, if_pos hsym, Fill.signedQty, hside, hsell]
  rfl

end Oms

/-! ### The desk -/

/-- The order management system, its adapter, and the open orders the reconciler listed. -/
structure Desk where
  oms : Oms
  broker : AlpacaBroker
  openOrders : List Order

/-- A step of the desk, with what its environment contributes. -/
inductive DeskOp
  | submitOrder (order : Order) (outcome : SubmitOutcome) (now : Time)
  | cancelOrder (orderId : OrderId) (failed : Bool) (now : Time)
  | tradeUpdate (update : TradeUpdate) (fillId : FillId) (now : Time)
  | listOpenOrders
  /-- The reconciler polls one of the orders it listed. -/
  | pollOrder (order : Order) (status : BrokerOrderStatus) (fillId : FillId)
  | forceCloseFilled (orderId : OrderId) (ts : Time)
  /-- The reconciler adopts a position, or a fee is written off. -/
  | bookGhost (ghost : Ghost)
  /-- The process ends and a new one starts: it recovers from the log, with an adapter that
  remembers nothing. -/
  | restart (env : RecoveryEnv)

namespace Desk

/-- A desk over an empty log. -/
def start : Desk := ⟨.empty, ⟨.empty⟩, []⟩

def step (s : Desk) : DeskOp → Desk
  | .submitOrder order outcome now =>
    { s with
      oms := (s.oms.submitOrder order ⟨[], outcome⟩ now).1
      broker := if order.state = .pending then s.broker.submitOrder order else s.broker }
  | .cancelOrder orderId failed now =>
    { s with oms := (s.oms.cancelOrder orderId ⟨[], failed⟩ now).1 }
  | .tradeUpdate update fillId now =>
    match s.broker.tradeUpdateToEvent update fillId now with
    | none => s
    | some event => { s with oms := s.oms.onBrokerEvent event now }
  | .listOpenOrders => { s with openOrders := s.oms.listOpenOrders }
  | .pollOrder order status fillId =>
    if order ∈ s.openOrders ∧ order.brokerOrderId ≠ none then
      { s with oms := (Reconciler.applyStatus s.oms order status fillId).1 }
    else s
  | .forceCloseFilled orderId ts => { s with oms := s.oms.forceCloseFilled orderId ts }
  | .bookGhost ghost => { s with oms := s.oms.bookGhost ghost }
  | .restart env =>
    { oms := match (Oms.reboot s.oms.store).recover env with
        | some (oms, _) => oms
        -- a log that cannot be replayed keeps the system down
        | none => Oms.reboot s.oms.store
      broker := ⟨.empty⟩
      openOrders := [] }

/-- What is taken for granted of the environment: an identifier names one order, and a broker
that is asked about an order answers about that order. -/
def Admissible (s : Desk) : DeskOp → Prop
  | .submitOrder order _ _ => ∀ old ∈ s.oms.orders.get? order.id, old.orderMeta = order.orderMeta
  | .bookGhost ghost =>
    ∀ old ∈ s.oms.orders.get? ghost.ids.order, old.orderMeta = ghost.order.orderMeta
  | .pollOrder order status _ => status.clientOrderId = order.id
  | _ => True

instance (s : Desk) : (op : DeskOp) → Decidable (s.Admissible op)
  | .submitOrder order _ _ =>
    inferInstanceAs (Decidable (∀ old ∈ s.oms.orders.get? order.id,
      old.orderMeta = order.orderMeta))
  | .bookGhost ghost =>
    inferInstanceAs (Decidable (∀ old ∈ s.oms.orders.get? ghost.ids.order,
      old.orderMeta = ghost.order.orderMeta))
  | .pollOrder order status _ => inferInstanceAs (Decidable (status.clientOrderId = order.id))
  | .cancelOrder .. | .tradeUpdate .. | .listOpenOrders | .forceCloseFilled .. | .restart _ =>
    isTrue trivial

/-- **The condition**: no execution of a sell arrives while the adapter does not remember the
order. -/
def RemembersSells (s : Desk) : DeskOp → Prop
  | .tradeUpdate update _ _ => AlpacaBroker.execution? update ≠ none →
    ∀ orderId ∈ update.clientOrderId, ∀ order ∈ s.oms.orders.get? orderId,
      order.side = .sell → orderId ∈ s.broker.orderMeta.keys
  | _ => True

instance (s : Desk) : (op : DeskOp) → Decidable (s.RemembersSells op)
  | .tradeUpdate update _ _ =>
    inferInstanceAs (Decidable (AlpacaBroker.execution? update ≠ none →
      ∀ orderId ∈ update.clientOrderId, ∀ order ∈ s.oms.orders.get? orderId,
        order.side = .sell → orderId ∈ s.broker.orderMeta.keys))
  | .submitOrder .. | .cancelOrder .. | .listOpenOrders | .pollOrder .. | .forceCloseFilled ..
  | .bookGhost _ | .restart _ => isTrue trivial

/-- **The invariant of the desk**: what the adapter remembers of an order, and what the
reconciler listed, is what the order is. -/
structure Inv (s : Desk) : Prop where
  consistent : s.oms.Consistent
  remembered : ∀ k m, s.broker.orderMeta.get? k = some m →
    (s.oms.orders.get? k).map Order.orderMeta = some m
  listed : ∀ order ∈ s.openOrders,
    (s.oms.orders.get? order.id).map Order.orderMeta = some order.orderMeta

theorem inv_start : start.Inv where
  consistent := Oms.consistent_empty
  remembered _ _ h := absurd h (by simp [start])
  listed _ h := absurd h List.not_mem_nil

section

variable {s : Desk}

theorem Inv.withOms (hs : s.Inv) {oms : Oms} (hc : oms.Consistent)
    (hkeep : s.oms.KeepsOrders oms) : ({ s with oms := oms } : Desk).Inv where
  consistent := hc
  remembered k m h := hkeep k m (hs.remembered k m h)
  listed order h := hkeep _ _ (hs.listed order h)

theorem Inv.quiet (hs : s.Inv) {oms : Oms} (h : s.oms.Quiet oms) :
    ({ s with oms := oms } : Desk).Inv :=
  hs.withOms (hs.consistent.quiet h) h.keepsOrders

/-- An event is harmless if the fill it brings has the side of its order. -/
theorem Inv.onBrokerEvent (hs : s.Inv) {event : BrokerOrderEvent} (now : Time)
    (hside : ∀ order fill, s.oms.orders.get? event.clientOrderId = some order →
      event.fill = some fill → fill.side = order.side) :
    ({ s with oms := s.oms.onBrokerEvent event now } : Desk).Inv := by
  rcases Oms.onBrokerEvent_cases hs.consistent.keyed event now with
    hq | ⟨order, fill, ho, hfill, -, heq⟩
  · exact hs.quiet hq
  · rw [heq]
    exact hs.withOms (hs.consistent.handleFill ho (hside order fill ho hfill) _)
      (Oms.keepsOrders_of_eq (Oms.orderMeta_handleFill hs.consistent.keyed _ _ _))

theorem Inv.submitOrder (hs : s.Inv) {order : Order} (outcome : SubmitOutcome) (now : Time)
    (hid : ∀ old, s.oms.orders.get? order.id = some old → old.orderMeta = order.orderMeta) :
    (s.step (.submitOrder order outcome now)).Inv := by
  by_cases hp : order.state = .pending
  · have hi := Oms.persistIntent_introduces s.oms hp now
    have hc := hs.consistent.introduces hi hid
    have hq := Oms.quiet_settleSubmit hc.keyed order.id outcome now
    have hkeep := (hi.keepsOrders hid).trans hq.keepsOrders
    have homs : (s.oms.submitOrder order ⟨[], outcome⟩ now).1 =
        (s.oms.persistIntent order now).settleSubmit order.id outcome now := by
      rw [Oms.submitOrder, if_pos hp]
      cases outcome <;> rfl
    rw [step, homs, if_pos hp]
    refine ⟨hc.quiet hq, fun k m hk => ?_, fun o ho => hkeep _ _ (hs.listed o ho)⟩
    rw [AlpacaBroker.submitOrder, Dict.get?_set] at hk
    split_ifs at hk with hkk
    · cases hk
      rw [hkk, hq.orderMeta, hi.get?_self]
      rfl
    · exact hkeep k m (hs.remembered k m hk)
  · rw [step, Oms.submitOrder, if_neg hp, if_neg hp]
    exact hs

theorem Inv.cancelOrder (hs : s.Inv) (orderId : OrderId) (failed : Bool) (now : Time) :
    (s.step (.cancelOrder orderId failed now)).Inv := by
  have hq := Oms.quiet_requestCancel hs.consistent.keyed orderId now
  rw [step, Oms.cancelOrder]
  rcases s.oms.orders.get? orderId with _ | order
  · exact hs
  · dsimp only
    split_ifs <;> exact hs.quiet hq

/-- The adapter stamps the right side on a fill of an order it remembers, and on every fill of
a buy. -/
theorem Inv.sideOf_eq (hs : s.Inv) {orderId : OrderId} {order : Order}
    (h : s.oms.orders.get? orderId = some order) :
    s.broker.sideOf orderId = order.side ↔
      (order.side = .sell → orderId ∈ s.broker.orderMeta.keys) := by
  rw [AlpacaBroker.sideOf]
  rcases hm : s.broker.orderMeta.get? orderId with _ | m
  · rw [← Dict.get?_eq_none_iff.not_left, hm]
    cases order.side <;> simp
  · have hk := hs.remembered orderId m hm
    rw [h, Option.map_some, Option.some_inj] at hk
    rw [← hk]
    exact iff_of_true rfl fun _ => Dict.mem_keys_of_get? hm

theorem Inv.tradeUpdate (hs : s.Inv) {update : TradeUpdate} {fillId : FillId} {now : Time}
    (hok : s.RemembersSells (.tradeUpdate update fillId now)) :
    (s.step (.tradeUpdate update fillId now)).Inv := by
  rw [step, AlpacaBroker.tradeUpdateToEvent]
  rcases hid : update.clientOrderId with _ | orderId
  · exact hs
  · refine hs.onBrokerEvent now fun order fill ho hfill => ?_
    obtain ⟨⟨price, qty⟩, hex, rfl⟩ := Option.map_eq_some_iff.mp hfill
    refine (hs.sideOf_eq ho).mpr (hok ?_ orderId hid order ho)
    rw [hex]
    exact Option.some_ne_none _

/-- **A forgotten sell becomes a buy.** -/
theorem Inv.not_fillsAgree_tradeUpdate (hs : s.Inv) {update : TradeUpdate} {fillId : FillId}
    {now : Time} (hok : ¬s.RemembersSells (.tradeUpdate update fillId now)) :
    ¬(s.step (.tradeUpdate update fillId now)).oms.FillsAgree := by
  unfold RemembersSells at hok
  push Not at hok
  obtain ⟨hex, orderId, hid, order, ho, hsell, hno⟩ := hok
  obtain ⟨⟨price, qty⟩, hex⟩ := Option.ne_none_iff_exists'.mp hex
  have hst : alpacaTradeEventToState update.event = .partiallyFilled ∨
      alpacaTradeEventToState update.event = .filled := by
    rw [AlpacaBroker.execution?] at hex
    split_ifs at hex with hev
    rcases hev with hev | hev <;> rw [hev]
    · exact Or.inr rfl
    · exact Or.inl rfl
  have hid' : update.clientOrderId = some orderId := hid
  rw [step, AlpacaBroker.tradeUpdateToEvent, hid', Option.map_some, hex]
  dsimp only
  rw [Oms.onBrokerEvent_of_fill ho hst rfl, Oms.fillsAgree_handleFill_iff hs.consistent ho]
  intro hside
  exact hno ((hs.sideOf_eq ho).mp hside hsell)

theorem Inv.pollOrder (hs : s.Inv) {order : Order} {status : BrokerOrderStatus}
    (fillId : FillId) (hid : status.clientOrderId = order.id) :
    (s.step (.pollOrder order status fillId)).Inv := by
  rw [step]
  split_ifs with hpoll
  · have hlisted := hs.listed order hpoll.1
    rw [Reconciler.applyStatus]
    dsimp only
    split_ifs
    · refine hs.onBrokerEvent _ fun o fill ho hfill => ?_
      cases hfill
      have ho' : s.oms.orders.get? order.id = some o := hid ▸ ho
      rw [ho', Option.map_some, Option.some_inj] at hlisted
      exact (OrderMeta.mk.inj hlisted).2.2.2.symm
    · exact hs.quiet (Oms.quiet_forceCloseFilled hs.consistent.keyed _ _)
    · exact hs.quiet (Oms.quiet_onBrokerEvent hs.consistent.keyed rfl _)
    · exact hs
  · exact hs

theorem Inv.restart (hs : s.Inv) (env : RecoveryEnv) : (s.step (.restart env)).Inv := by
  obtain ⟨⟨oms, summary⟩, hrec, hc⟩ := hs.consistent.recover env
  rw [step, hrec]
  exact ⟨hc, fun _ _ h => absurd h (by simp), fun _ h => absurd h List.not_mem_nil⟩

/-- A step that meets the condition keeps the invariant. -/
theorem Inv.step (hs : s.Inv) {op : DeskOp} (hadm : s.Admissible op) (hok : s.RemembersSells op) :
    (s.step op).Inv := by
  cases op with
  | submitOrder order outcome now => exact hs.submitOrder outcome now hadm
  | cancelOrder orderId failed now => exact hs.cancelOrder orderId failed now
  | tradeUpdate update fillId now => exact hs.tradeUpdate hok
  | listOpenOrders =>
    refine ⟨hs.consistent, hs.remembered, fun order ho => ?_⟩
    obtain ⟨k, hk⟩ := Dict.mem_values_iff.mp (List.mem_of_mem_filter ho)
    change (s.oms.orders.get? order.id).map _ = _
    rw [hs.consistent.keyed.id_eq k order hk, hk]
    rfl
  | pollOrder order status fillId => exact hs.pollOrder fillId hadm
  | forceCloseFilled orderId ts =>
    exact hs.quiet (Oms.quiet_forceCloseFilled hs.consistent.keyed _ _)
  | bookGhost ghost =>
    exact hs.withOms (hs.consistent.bookGhost hadm)
      (Oms.evolves_bookGhost hs.consistent.durable hadm).keepsOrders
  | restart env => exact hs.restart env

end

/-- **The exact condition.** A run keeps every fill in agreement with its order – and so every
sell's executions reduce the position – exactly when no execution of a sell arrives while the
adapter does not remember the order. -/
theorem fillsAgree_run_iff {ops : List DeskOp} (h : Along step Admissible start ops) :
    (∀ pre, pre <+: ops →
      (run step start pre).oms.FillsAgree ∧ (run step start pre).oms.SellsReduce) ↔
      Along step RemembersSells start ops := by
  refine forall_reached_iff_along_within
    (P := fun s : Desk => s.oms.FillsAgree ∧ s.oms.SellsReduce)
    (fun s op hs hadm hok => hs.step hadm hok)
    (fun s hs => ⟨hs.consistent.fillsAgree, hs.consistent.fillsAgree.sellsReduce⟩)
    (fun s op hs _ hnot hP => ?_) inv_start h
  cases op with
  | tradeUpdate update fillId now => exact hs.not_fillsAgree_tradeUpdate hnot hP.1
  | submitOrder order outcome now => exact hnot trivial
  | cancelOrder orderId failed now => exact hnot trivial
  | listOpenOrders => exact hnot trivial
  | pollOrder order status fillId => exact hnot trivial
  | forceCloseFilled orderId ts => exact hnot trivial
  | bookGhost ghost => exact hnot trivial
  | restart env => exact hnot trivial

/-! ### A restart -/

/-- The broker's record of an order of ours that it accepted. -/
def acceptedStatus (order : Order) : BrokerOrderStatus where
  brokerOrderId := "b-" ++ toString order.id
  clientOrderId := order.id
  symbol := order.symbol
  side := order.side
  qty := order.qty
  filledQty := 0
  avgFillPrice := none
  state := .accepted
  submittedAt := 0
  updatedAt := 0

/-- The stream reports that such an order is filled. -/
def filledUpdate (order : Order) : TradeUpdate where
  clientOrderId := some order.id
  brokerOrderId := "b-" ++ toString order.id
  event := .fill
  symbol := some order.symbol
  price := some 100
  qty := some order.qty

/-- An order is submitted, the process restarts, and the order is filled. -/
def restartRun (order : Order) : List DeskOp :=
  [.submitOrder order (.returned ("b-" ++ toString order.id)) 0,
    .restart ⟨fun _ => some (acceptedStatus order), fun _ => 0, 1⟩,
    .tradeUpdate (filledUpdate order) 7 2]

/-- A purchase survives the restart. -/
theorem fillsAgree_restartRun_buy :
    (run step start (restartRun (Oms.marketOrder 1 .buy 10))).oms.FillsAgree :=
  ((fillsAgree_run_iff (by decide +kernel)).mpr (by decide +kernel) _ List.prefix_rfl).1

/-- **A sale does not**: it is recorded as a purchase. -/
theorem not_fillsAgree_restartRun_sell :
    Along step Admissible start (restartRun (Oms.marketOrder 1 .sell 10)) ∧
      ¬(run step start (restartRun (Oms.marketOrder 1 .sell 10))).oms.FillsAgree := by
  refine ⟨by decide +kernel, fun h => ?_⟩
  have horder : ((run step start (restartRun (Oms.marketOrder 1 .sell 10))).oms.orders.get? 1).map
      (·.side) = some .sell := by decide +kernel
  have hfills : ((run step start (restartRun (Oms.marketOrder 1 .sell 10))).oms.getFills 1).map
      (·.side) = [.buy] := by decide +kernel
  obtain ⟨order, ho, hsell⟩ := Option.map_eq_some_iff.mp horder
  obtain ⟨fill, hfill, hbuy⟩ := List.mem_map.mp (hfills ▸ List.mem_singleton_self OrderSide.buy)
  have hside := (h 1 order ho fill (List.mem_append_left _ hfill)).1
  rw [hbuy, hsell] at hside
  cases hside

end Desk

end TradingPlatform
