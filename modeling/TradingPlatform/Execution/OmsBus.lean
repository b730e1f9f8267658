import TradingPlatform.Execution.OmsLog

/-!
# What is logged is published

The lot ledger and the trackers know of a fill only what the event bus tells them. The order
management system logs a fill before it publishes it, and it does both in one place. So the
fills an operation publishes are the fills it logs, in the same order
(`TradingPlatform.Oms.emits_step`, `TradingPlatform.Oms.emits_reconcileOpenOrders`); a replay of
the log, on the other hand, publishes nothing.

A process that dies leaves a log that is cut short. It can be replayed all the same, and the
recovery of a new process always returns (`TradingPlatform.Oms.Restartable.exists_recover`).
-/

namespace TradingPlatform

/-- The fill an event of the log is about. -/
def LoggedEvent.fill? (logged : LoggedEvent) : Option Fill :=
  match logged.kind with
  | .fillReceived payload => some (deserializeFill payload)
  | _ => none

/-- The fill an event of the bus is about. -/
def BusEvent.fill? : BusEvent → Option Fill
  | .fillReceived fill => some fill
  | .orderPlaced _ | .orderStateChanged .. => none

/-- The fills of a log, of all orders. -/
def fillsLogged (log : List LoggedEvent) : List Fill := log.filterMap (·.fill?)

/-- The fills among some events of the bus. -/
def fillsPublished (bus : List BusEvent) : List Fill := bus.filterMap (·.fill?)

/-- An intent is logged under the identifier of its order. -/
def LoggedEvent.IdAgrees (logged : LoggedEvent) : Prop :=
  match logged.kind with
  | .orderSubmitIntent payload => payload.id = logged.orderId
  | _ => True

theorem fillsLogged_append (log log' : List LoggedEvent) :
    fillsLogged (log ++ log') = fillsLogged log ++ fillsLogged log' :=
  List.filterMap_append

namespace Oms

/-- **What is logged is published**: from one state to the other some events were logged and some
published, and the fills among them are the same. -/
structure Emits (s s' : Oms) : Prop where
  exists_eq : ∃ log bus, s'.store = s.store ++ log ∧ s'.bus = s.bus ++ bus ∧
    fillsLogged log = fillsPublished bus ∧ ∀ e ∈ log, e.IdAgrees

section Emits

variable {s s' s'' : Oms}

theorem emits_of_eq (hstore : s'.store = s.store) (hbus : s'.bus = s.bus) : s.Emits s' :=
  ⟨[], [], by rw [hstore, List.append_nil], by rw [hbus, List.append_nil], rfl, by simp⟩

theorem Emits.refl (s : Oms) : s.Emits s := emits_of_eq rfl rfl

theorem Emits.trans (h : s.Emits s') (h' : s'.Emits s'') : s.Emits s'' := by
  obtain ⟨log, bus, hstore, hbus, hfills, hids⟩ := h
  obtain ⟨log', bus', hstore', hbus', hfills', hids'⟩ := h'
  refine ⟨log ++ log', bus ++ bus', ?_, ?_, ?_, ?_⟩
  · rw [hstore', hstore, List.append_assoc]
  · rw [hbus', hbus, List.append_assoc]
  · rw [fillsLogged_append, fillsPublished, List.filterMap_append, hfills, hfills']
    rfl
  · intro e he
    rcases List.mem_append.mp he with he | he
    · exact hids e he
    · exact hids' e he

/-- What neither logs nor publishes anything. -/
theorem Emits.congr (h : s.Emits s') (hstore : s''.store = s'.store) (hbus : s''.bus = s'.bus) :
    s.Emits s'' := h.trans (emits_of_eq hstore hbus)

/-- Logging an event that is no fill. -/
theorem Emits.append (h : s.Emits s') (kind : EventKind) (k : OrderId) (ts : Time)
    (hfill : (⟨kind, k, ts⟩ : LoggedEvent).fill? = none)
    (hid : (⟨kind, k, ts⟩ : LoggedEvent).IdAgrees) : s.Emits (s'.append kind k ts) := by
  refine h.trans ⟨[⟨kind, k, ts⟩], [], rfl, (List.append_nil _).symm, ?_, fun e he => ?_⟩
  · rw [fillsLogged, List.filterMap_cons_none hfill]
    rfl
  · rwa [List.mem_singleton.mp he]

/-- Publishing an event that is no fill. -/
theorem Emits.publish (h : s.Emits s') {event : BusEvent} (hfill : event.fill? = none) :
    s.Emits (s'.publish event) := by
  refine h.trans ⟨[], [event], (List.append_nil _).symm, rfl, ?_, by simp⟩
  rw [fillsPublished, List.filterMap_cons_none hfill]
  rfl

/-- Driving an order logs nothing, and publishes no fill. -/
theorem transition_emits (s : Oms) (k : OrderId) (event : OrderEvent) (ts : Time) :
    (s.transition k event ts).store = s.store ∧
      ∃ bus, (s.transition k event ts).bus = s.bus ++ bus ∧ fillsPublished bus = [] := by
  unfold transition
  split
  · exact ⟨rfl, [], (List.append_nil _).symm, rfl⟩
  · split_ifs
    · exact ⟨rfl, _, rfl, rfl⟩
    · exact ⟨rfl, [], (List.append_nil _).symm, rfl⟩

theorem Emits.transition (h : s.Emits s') (k : OrderId) (event : OrderEvent) (ts : Time) :
    s.Emits (s'.transition k event ts) := by
  obtain ⟨hstore, bus, hbus, hfills⟩ := s'.transition_emits k event ts
  exact h.trans ⟨[], bus, by rw [hstore, List.append_nil], hbus, hfills.symm, by simp⟩

/-! ### The handlers -/

theorem Emits.recordAccepted (h : s.Emits s') (k : OrderId) (brokerOrderId : String) (ts : Time) :
    s.Emits (s'.recordAccepted k brokerOrderId ts) := by
  unfold Oms.recordAccepted
  split
  · exact h
  · split_ifs
    · exact h
    · refine ((h.append (.orderAccepted brokerOrderId) k ts rfl trivial).congr ?_ ?_).transition
        k .accept ts
      · rfl
      · rfl

/-- A fill is logged, and then published. -/
theorem Emits.handleFill (h : s.Emits s') (k : OrderId) (fill : Fill) (ts : Time) :
    s.Emits (s'.handleFill k fill ts) := by
  unfold Oms.handleFill
  split
  · exact h
  · rename_i order _
    obtain ⟨hstore, bus, hbus, hfills⟩ := transition_emits
      { s'.append (.fillReceived (serializeFill (fill.correctedFor order))) k ts with
        fillsByOrder := s'.fillsByOrder.modify k fun fills => fills ++ [fill.correctedFor order]
        orders := s'.orders.set k (order.bookFill (fill.correctedFor order) ts) } k
      (order.fillEvent (fill.correctedFor order)) ts
    refine h.trans ⟨[⟨.fillReceived (serializeFill (fill.correctedFor order)), k, ts⟩],
      bus ++ [.fillReceived (fill.correctedFor order)], hstore, ?_, ?_, ?_⟩
    · exact (congrArg (· ++ [_]) hbus).trans (List.append_assoc _ _ _)
    · unfold fillsPublished at hfills ⊢
      rw [List.filterMap_append, hfills]
      rfl
    · intro e he
      rw [List.mem_singleton.mp he]
      trivial

theorem Emits.handleClosing (h : s.Emits s') (k : OrderId) {kind : EventKind}
    (update : Order → Order) (event : OrderEvent) (ts : Time)
    (hfill : (⟨kind, k, ts⟩ : LoggedEvent).fill? = none)
    (hid : (⟨kind, k, ts⟩ : LoggedEvent).IdAgrees) :
    s.Emits (s'.handleClosing k kind update event ts) := by
  unfold Oms.handleClosing
  split
  · exact h
  · split_ifs
    · exact h
    · refine ((h.append kind k ts hfill hid).congr ?_ ?_).transition k event ts
      · rfl
      · rfl

theorem Emits.handleCancellation (h : s.Emits s') (k : OrderId) (ts : Time) :
    s.Emits (s'.handleCancellation k ts) :=
  h.handleClosing k _ _ ts rfl trivial

theorem Emits.handleRejection (h : s.Emits s') (k : OrderId) (reason : String) (ts : Time) :
    s.Emits (s'.handleRejection k reason ts) :=
  h.handleClosing k _ _ ts rfl trivial

theorem Emits.handleExpiry (h : s.Emits s') (k : OrderId) (ts : Time) :
    s.Emits (s'.handleExpiry k ts) :=
  h.handleClosing k _ _ ts rfl trivial

theorem emits_onBrokerEvent (s : Oms) (event : BrokerOrderEvent) (now : Time) :
    s.Emits (s.onBrokerEvent event now) := by
  have h := Emits.refl s
  unfold onBrokerEvent
  dsimp only
  by_cases hk : event.clientOrderId ∈ s.orders.keys
  · rw [if_pos hk]
    cases event.newState with
    | accepted =>
      dsimp only
      split_ifs
      · exact h
      · exact h.recordAccepted _ _ _
    | partiallyFilled | filled =>
      cases event.fill with
      | none => exact h
      | some fill => exact h.handleFill _ _ _
    | canceled => exact h.handleCancellation _ _
    | rejected => exact h.handleRejection _ _ _
    | expired => exact h.handleExpiry _ _
    | new | unknown => exact h
  · rw [if_neg hk]
    exact h

theorem emits_persistIntent (s : Oms) (order : Order) (now : Time) :
    s.Emits (s.persistIntent order now) := by
  have hintent := (Emits.refl s).append (.orderSubmitIntent (serializeOrder order)) order.id now
    rfl rfl
  unfold persistIntent
  refine ((hintent.congr ?_ ?_).transition order.id .submit now).publish rfl
  · rfl
  · rfl

theorem emits_settleSubmit (s : Oms) (k : OrderId) (outcome : SubmitOutcome) (now : Time) :
    s.Emits (s.settleSubmit k outcome now) := by
  have h := Emits.refl s
  cases outcome with
  | rejected reason => exact h.handleRejection _ _ _
  | unavailable => exact h
  | returned brokerOrderId =>
    unfold settleSubmit
    dsimp only
    split_ifs
    · exact h
    · exact h.recordAccepted _ _ _

theorem emits_requestCancel (s : Oms) (k : OrderId) (now : Time) :
    s.Emits (s.requestCancel k now) := by
  have h := Emits.refl s
  unfold requestCancel
  split
  · exact h
  · split_ifs
    · exact h
    · split
      · exact (h.append (.orderCancelled (some "cancel before broker accept")) k now rfl
          trivial).transition k .cancel now
      · exact h.append _ k now rfl trivial

theorem Emits.forceCloseFilled (h : s.Emits s') (k : OrderId) (ts : Time) :
    s.Emits (s'.forceCloseFilled k ts) := by
  unfold Oms.forceCloseFilled
  split
  · exact h
  · split_ifs
    · exact h
    · refine (h.congr ?_ ?_).transition k .fullFill ts
      · rfl
      · rfl

theorem emits_bookGhost (s : Oms) (ghost : Ghost) : s.Emits (s.bookGhost ghost) := by
  have hintent := (Emits.refl s).append (.orderSubmitIntent (serializeOrder ghost.order))
    ghost.ids.order ghost.ts rfl rfl
  have haccepted := hintent.append (.orderAccepted ghost.brokerOrderId) ghost.ids.order ghost.ts
    rfl trivial
  unfold bookGhost
  refine (haccepted.congr ?_ ?_).handleFill _ _ _
  · rfl
  · rfl

theorem emits_handle (s : Oms) (h : Handler) : s.Emits (s.handle h) := by
  cases h with
  | persistIntent order now =>
    rw [handle]
    split_ifs
    · exact emits_persistIntent s order now
    · exact .refl s
  | settleSubmit orderId outcome now => exact emits_settleSubmit _ _ _ _
  | requestCancel orderId now => exact emits_requestCancel _ _ _
  | forceCloseFilled orderId ts => exact (Emits.refl s).forceCloseFilled _ _
  | bookGhost ghost => exact emits_bookGhost _ _
  | brokerEvent event now => exact emits_onBrokerEvent _ _ _

/-- **An operation publishes the fills it logs.** -/
theorem emits_step (s : Oms) (op : OmsOp) : s.Emits (s.step op) := by
  rw [step_eq_run]
  exact run_invariant (fun s' h (he : s.Emits s') => he.trans (emits_handle s' h)) (.refl s) _

/-! ### Recovery -/

theorem emits_catchUpFromBroker (s : Oms) (k : OrderId) (broker : BrokerOrderStatus)
    (fillId : FillId) (ts : Time) : s.Emits (s.catchUpFromBroker k broker fillId ts) := by
  have h := Emits.refl s
  unfold catchUpFromBroker
  rcases s.orders.get? k with _ | order
  · exact h
  dsimp only
  have haccepted : s.Emits (if order.brokerOrderId = none
      then s.recordAccepted k broker.brokerOrderId ts else s) := by
    split_ifs
    · exact h.recordAccepted _ _ _
    · exact h
  generalize (if order.brokerOrderId = none then s.recordAccepted k broker.brokerOrderId ts
    else s) = accepted at *
  have hfilled : s.Emits (if 0 < broker.filledQty - order.filledQty
      then accepted.handleFill k (syntheticFill order broker fillId ts) ts else accepted) := by
    split_ifs
    · exact haccepted.handleFill _ _ _
    · exact haccepted
  generalize (if 0 < broker.filledQty - order.filledQty
    then accepted.handleFill k (syntheticFill order broker fillId ts) ts else accepted) = filled
    at *
  have hclosed : s.Emits (filled.catchUpTerminal k broker ts) := by
    unfold catchUpTerminal
    cases broker.state with
    | canceled => exact hfilled.handleCancellation _ _
    | rejected => exact hfilled.handleRejection _ _ _
    | expired => exact hfilled.handleExpiry _ _
    | filled => exact hfilled.forceCloseFilled _ _
    | new | accepted | partiallyFilled | unknown => exact hfilled
  split_ifs
  · exact hclosed.append _ k ts rfl trivial
  · exact hclosed.append _ k ts rfl trivial

theorem emits_reconcileOpenOrder (env : RecoveryEnv) (s : Oms) (k : OrderId) :
    s.Emits (reconcileOpenOrder env s k).1 := by
  have h := Emits.refl s
  unfold reconcileOpenOrder
  split
  · exact h
  · split_ifs
    · exact h
    · split
      · exact (h.append (.reconcileAbandoned "broker has no record after recovery") k env.now rfl
          trivial).handleRejection _ _ _
      · split_ifs
        · exact h.append _ k env.now rfl trivial
        · exact emits_catchUpFromBroker _ _ _ _ _

/-- **Asking the broker publishes the fills it logs.** -/
theorem emits_reconcileOpenOrders (env : RecoveryEnv) (s : Oms) :
    s.Emits (s.reconcileOpenOrders env).1 := by
  rw [fst_reconcileOpenOrders]
  exact run_invariant (fun s' k (he : s.Emits s') => he.trans (emits_reconcileOpenOrder env s' k))
    (.refl s) _

end Emits

/-! ### The events a handler publishes -/

/-- What is published when an order in a state is driven by an event: the change, if there is an
arc. -/
def changeEvents (k : OrderId) (state : OrderState) (event : OrderEvent) (ts : Time) :
    List BusEvent :=
  (orderTable.get? (state, event)).toList.map fun toState =>
    .orderStateChanged k state toState ts

theorem bus_transition {s : Oms} {k : OrderId} {fsm : OrderFsm} (hf : s.fsms.get? k = some fsm)
    (event : OrderEvent) (ts : Time) :
    (s.transition k event ts).bus = s.bus ++ changeEvents k fsm.state event ts := by
  rw [transition, hf, changeEvents]
  dsimp only
  rw [StateMachine.state_after, StateMachine.canTrigger]
  rcases orderTable.get? (fsm.state, event) with _ | toState
  · exact (List.append_nil _).symm
  · rfl

section Bus

variable {s : Oms} {k : OrderId} {order : Order} {fsm : OrderFsm}

theorem bus_recordAccepted (h : s.orders.get? k = some order) (hf : s.fsms.get? k = some fsm)
    {brokerOrderId : String} (hb : order.brokerOrderId ≠ some brokerOrderId) (ts : Time) :
    (s.recordAccepted k brokerOrderId ts).bus = s.bus ++ changeEvents k fsm.state .accept ts := by
  rw [recordAccepted, h]
  dsimp only
  rw [if_neg hb]
  exact bus_transition (s := { s.append (.orderAccepted brokerOrderId) k ts with
    brokerIdToOrder := s.brokerIdToOrder.set brokerOrderId k
    orders := s.orders.set k
      { order with brokerOrderId := some brokerOrderId, submittedAt := some ts } }) hf .accept ts

theorem bus_handleFill (h : s.orders.get? k = some order) (hf : s.fsms.get? k = some fsm)
    (fill : Fill) (ts : Time) :
    (s.handleFill k fill ts).bus =
      s.bus ++ (changeEvents k fsm.state (order.fillEvent fill) ts ++
        [.fillReceived (fill.correctedFor order)]) := by
  rw [handleFill, h, ← List.append_assoc]
  exact congrArg (· ++ [_]) (bus_transition (s :=
    { s.append (.fillReceived (serializeFill (fill.correctedFor order))) k ts with
      fillsByOrder := s.fillsByOrder.modify k fun fills => fills ++ [fill.correctedFor order]
      orders := s.orders.set k (order.bookFill (fill.correctedFor order) ts) }) hf _ ts)

theorem bus_handleClosing (h : s.orders.get? k = some order) (hf : s.fsms.get? k = some fsm)
    (ht : ¬order.state.Terminal) (kind : EventKind) (update : Order → Order) (event : OrderEvent)
    (ts : Time) :
    (s.handleClosing k kind update event ts).bus =
      s.bus ++ changeEvents k fsm.state event ts := by
  rw [handleClosing, h]
  dsimp only
  rw [if_neg ht]
  exact bus_transition (s := { s.append kind k ts with
    orders := s.orders.set k (update order) }) hf event ts

theorem bus_requestCancel (h : s.orders.get? k = some order) (hf : s.fsms.get? k = some fsm)
    (ht : ¬order.state.Terminal) (hb : order.brokerOrderId = none) (now : Time) :
    (s.requestCancel k now).bus = s.bus ++ changeEvents k fsm.state .cancel now := by
  rw [requestCancel, h]
  dsimp only
  rw [if_neg ht, hb]
  exact bus_transition (s := s.append (.orderCancelled (some "cancel before broker accept")) k now)
    hf .cancel now

theorem bus_requestCancel_of_accepted (h : s.orders.get? k = some order)
    (ht : ¬order.state.Terminal) {brokerOrderId : String}
    (hb : order.brokerOrderId = some brokerOrderId) (now : Time) :
    (s.requestCancel k now).bus = s.bus := by
  rw [requestCancel, h]
  dsimp only
  rw [if_neg ht, hb]
  rfl

theorem bus_forceCloseFilled (h : s.orders.get? k = some order) (hf : s.fsms.get? k = some fsm)
    (ht : ¬order.state.Terminal) (ts : Time) :
    (s.forceCloseFilled k ts).bus = s.bus ++ changeEvents k fsm.state .fullFill ts := by
  rw [forceCloseFilled, h]
  dsimp only
  rw [if_neg ht]
  exact bus_transition (s := { s with
    orders := s.orders.set k { order with qty := order.filledQty, filledAt := some ts } }) hf
    .fullFill ts

theorem bus_persistIntent (s : Oms) {order : Order} (h : order.state = .pending) (now : Time) :
    (s.persistIntent order now).bus =
      s.bus ++ [.orderStateChanged order.id .pending .submitted now,
        .orderPlaced { order with state := .submitted }] := by
  have hplaced := (persistIntent_introduces s h now).get?_self
  have hf : (s.fsms.set order.id (buildOrderFsm .pending)).get? order.id =
      some (buildOrderFsm .pending) := Dict.get?_set_self _ _ _
  have hbus := bus_transition (s :=
    { s with
      orders := s.orders.set order.id order
      fsms := s.fsms.set order.id (buildOrderFsm .pending)
      fillsByOrder := s.fillsByOrder.set order.id []
      store := s.store ++ [⟨.orderSubmitIntent (serializeOrder order), order.id, now⟩] })
    hf .submit now
  refine (congrArg₂ (fun bus placed => bus ++ [.orderPlaced (Option.getD placed order)]) hbus
    hplaced).trans ?_
  exact List.append_assoc _ _ _

end Bus

/-! ### A log that was cut short -/

/-- **A log a new process can start from**: it replays, and every intent is under the identifier of
its order. -/
structure Restartable (log : List LoggedEvent) : Prop where
  replays : ∃ b, Book.empty.applyLog log = some b
  idAgrees : ∀ e ∈ log, e.IdAgrees

/-- A replayed order has the identifier it is under. -/
theorem id_replayCell {k : OrderId} {log : List LoggedEvent} (hlog : ∀ e ∈ log, e.IdAgrees)
    {cell : Option Cell} (hcell : ∀ c ∈ cell, c.order.id = k) :
    ∀ c ∈ Book.replayCell k log cell, c.order.id = k := by
  induction log generalizing cell with
  | nil => exact hcell
  | cons e log ih =>
    refine ih (fun e' he' => hlog e' (List.mem_cons_of_mem _ he')) ?_
    dsimp only
    split_ifs with hk
    · have hid := hlog e List.mem_cons_self
      obtain ⟨kind, k', ts⟩ := e
      cases kind with
      | orderSubmitIntent payload =>
        rintro c ⟨⟩
        exact hid.trans hk.symm
      | orderAccepted _ | orderRejected _ | fillReceived _ | orderCancelled _ | orderExpired =>
        intro c hc
        obtain ⟨c', hc', rfl⟩ := Option.map_eq_some_iff.mp hc
        exact hcell c' hc'
      | orderCancelRequested _ | reconcileNoop _ _ | reconcileRecovered _ _
      | reconcileAbandoned _ => exact hcell
    · exact hcell

/-- A system that was restarted from its log can be restarted again. -/
theorem Restartable.durable {log : List LoggedEvent} (h : Restartable log) {b : Book}
    (hb : Book.empty.applyLog log = some b) : ({ reboot log with toBook := b } : Oms).Durable := by
  obtain ⟨hp, hcell, -⟩ := Book.paired_empty.applyLog hb
  constructor
  · refine ⟨hp.fsms_isSome, hp.fills_isSome, fun k order ho => ?_⟩
    have ho' : b.orders.get? k = some order := ho
    rw [hp.get?_orders, hcell, Option.map_eq_some_iff] at ho'
    obtain ⟨cell, hk, rfl⟩ := ho'
    exact id_replayCell h.idAgrees (by simp [Book.cell, Book.empty]) cell hk
  · refine ⟨b, hb, fun k => ?_⟩
    change _ = (b.orders.get? k).map Order.orderMeta
    rw [hp.get?_orders, Option.map_map]
    rfl

/-- Every part of a log that comes first is a log to start from. -/
theorem Restartable.of_isPrefix {log log' : List LoggedEvent} (h : Restartable log)
    (hp : log' <+: log) : Restartable log' := by
  obtain ⟨rest, rfl⟩ := hp
  obtain ⟨b, hb⟩ := h.replays
  rw [Book.applyLog_append] at hb
  obtain ⟨b', hb', -⟩ := Option.bind_eq_some_iff.mp hb
  exact ⟨⟨b', hb'⟩, fun e he => h.idAgrees e (List.mem_append_left _ he)⟩

/-- **Recovery always returns**, whatever the broker says, and logs what it publishes. -/
theorem Restartable.exists_recover {log : List LoggedEvent} (h : Restartable log)
    (env : RecoveryEnv) :
    ∃ r, (reboot log).recover env = some r ∧ r.1.Durable ∧ (reboot log).Emits r.1 := by
  obtain ⟨b, hb⟩ := h.replays
  have hd := h.durable hb
  let r : Oms := { reboot log with toBook := b }
  have hr : (reboot log).replayLog = some r := Option.map_eq_some_iff.mpr ⟨b, hb, rfl⟩
  have hstart : (reboot log).Emits r := emits_of_eq rfl rfl
  refine ⟨r.reconcileOpenOrders env, by rw [recover, hr, Option.map_some], ?_,
    hstart.trans (emits_reconcileOpenOrders env r)⟩
  rw [fst_reconcileOpenOrders]
  have hstep : ∀ (s : Oms) (k : OrderId), s.Durable → (reconcileOpenOrder env s k).1.Durable :=
    fun s k hs => (evolves_reconcileOpenOrder hs env k).durable
  exact run_invariant hstep hd _

/-- A log stays one to start from. -/
theorem Durable.restartable {s : Oms} (hs : s.Durable) (hids : ∀ e ∈ s.store, e.IdAgrees) :
    Restartable s.store := by
  obtain ⟨b, hb⟩ := hs.recorded
  exact ⟨⟨b, hb.replays⟩, hids⟩

theorem Durable.handle {s : Oms} (hs : s.Durable) (h : Handler) : (s.handle h).Durable := by
  rcases handle_cases hs.keyed h with hq | ⟨order, now, -, -, hi⟩ | ⟨ghost, -, heq⟩ |
    ⟨event, now, order, fill, -, -, -, -, heq⟩
  · exact (hq.evolves hs).durable
  · obtain ⟨b, hb⟩ := hs.recorded
    exact ⟨hi.keyed hs.keyed, hb.introduces hi⟩
  · obtain ⟨s₁, s₂, fsm, h₁, -, hf₁, h₂, h₃⟩ := s.bookGhost_steps ghost
    obtain ⟨b, hb⟩ := hs.recorded
    have hd₁ : s₁.Durable := ⟨h₁.keyed hs.keyed, hb.introduces h₁⟩
    have hq : s₁.Quiet s₂ := h₂.quiet h₁.get?_self hf₁ ⟨rfl, rfl, rfl, rfl, rfl⟩ rfl trivial
    rw [heq, h₃]
    exact (evolves_handleFill (hq.evolves hd₁).durable _ _ _).durable
  · rw [heq]
    exact (evolves_handleFill hs _ _ _).durable

theorem Durable.step {s : Oms} (hs : s.Durable) (op : OmsOp) : (s.step op).Durable := by
  rw [step_eq_run]
  exact run_invariant (fun s' h (hs' : s'.Durable) => hs'.handle h) hs _

end Oms

end TradingPlatform
