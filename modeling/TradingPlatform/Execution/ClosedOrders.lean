import TradingPlatform.Execution.Attribution
import TradingPlatform.Execution.FillAccounting
import TradingPlatform.Execution.OmsBus

/-!
# Filled orders, and whether they are closed

An order with nothing left to fill should be over. The lifecycle takes it there from the accepted
and the partially filled state, and from no other: a completing fill that finds its order still
submitted is recorded, and the order stays submitted
(`TradingPlatform.Order.ClosedInTime`). An acceptance that comes later leaves it accepted.

The reconciler closes an order that the broker reports as filled and whose fills are all recorded.
But it polls only the orders whose broker identifier the system has learnt, and of an order that
is still submitted it has learnt none. `TradingPlatform.Reconciler.Closing` is the condition under
which neither happens, and `TradingPlatform.Reconciler.closedOrders_run` says that in the runs
that meet it every full order is closed, and every pass closes what the broker has filled.
-/

namespace TradingPlatform

/-- **A full order is over**, and of an order that is only submitted no broker identifier is
known. -/
structure Order.ClosedInTime (order : Order) : Prop where
  terminal : isFullyFilled order.qty order.filledQty = true → order.state.Terminal
  submitted : order.state = .submitted → order.brokerOrderId = none

/-- The state of an order after its machine, in the same state, was asked for a transition. -/
theorem Order.state_moved {order : Order} {fsm : OrderFsm} {state : OrderState}
    (hfsm : fsm.state = state) (hstate : order.state = state) (event : OrderEvent) :
    (order.moved fsm event).state = (orderTable.get? (state, event)).getD state := by
  rw [Order.moved_eq (hfsm.trans hstate.symm)]
  exact (StateMachine.state_after fsm event).trans (by rw [hfsm])

/-- What a move must bring along to leave an order closed in time. -/
theorem Order.closedInTime_moved {order : Order} {fsm : OrderFsm} {event : OrderEvent}
    (hfsm : fsm.state = order.state) (hevent : event ≠ .submit)
    (hfull : isFullyFilled order.qty order.filledQty = true → order.state.Terminal ∨
      orderTable.get? (order.state, event) ≠ none ∧ event.target.Terminal)
    (hsub : order.state = .submitted → orderTable.get? (order.state, event) = none →
      order.brokerOrderId = none) : (order.moved fsm event).ClosedInTime := by
  rw [Order.moved_eq hfsm, StateMachine.state_after, hfsm]
  rcases harc : orderTable.get? (order.state, event) with _ | toState
  · rw [Option.getD_none]
    refine ⟨fun h => ?_, fun h => hsub h harc⟩
    exact (hfull h).resolve_right fun hc => hc.1 harc
  · obtain rfl := orderTable_get?_eq_some harc
    rw [Option.getD_some]
    refine ⟨fun h => ?_, fun h => ?_⟩
    · rcases hfull h with ht | ⟨-, ht⟩
      · rw [orderTable_get?_of_terminal ht] at harc
        exact absurd harc.symm (Option.some_ne_none _)
      · exact ht
    · have htarget : event.target ≠ .submitted := by
        revert hevent
        cases event <;> decide
      exact absurd h htarget

namespace Oms

/-- Something holds of every order. -/
def AllOrders (Q : Order → Prop) (s : Oms) : Prop :=
  ∀ k order, s.orders.get? k = some order → Q order

section AllOrders

variable {Q : Order → Prop} {s s' : Oms}

theorem AllOrders.congr (h : s.AllOrders Q) (hbook : s'.toBook = s.toBook) : s'.AllOrders Q := by
  intro k order ho
  rw [hbook] at ho
  exact h k order ho

theorem Moves.allOrders {k : OrderId} {order : Order} {fsm : OrderFsm} {event : OrderEvent}
    {fills : List Fill} (h : s.Moves s' k order fsm event fills) (hs : s.AllOrders Q)
    (hmoved : Q (order.moved fsm event)) : s'.AllOrders Q := by
  intro k' order' ho
  rw [h.orders] at ho
  split_ifs at ho
  · exact Option.some.inj ho ▸ hmoved
  · exact hs k' order' ho

theorem Introduces.allOrders {order : Order} {ts : Time} (h : s.Introduces s' order ts)
    (hs : s.AllOrders Q) (hnew : Q { order with state := .submitted }) : s'.AllOrders Q := by
  intro k' order' ho
  rw [h.orders] at ho
  split_ifs at ho
  · exact Option.some.inj ho ▸ hnew
  · exact hs k' order' ho

end AllOrders

/-! ### Orders that are closed in time -/

/-- **A completing fill comes in time**: it does not find its order still submitted. -/
def Timely (s : Oms) (event : BrokerOrderEvent) : Prop :=
  ∀ order ∈ s.orders.get? event.clientOrderId, ∀ fill ∈ event.fill,
    event.newState = .partiallyFilled ∨ event.newState = .filled →
      order.fillEvent fill = .fullFill → order.state ≠ .submitted

instance (s : Oms) (event : BrokerOrderEvent) : Decidable (s.Timely event) :=
  inferInstanceAs (Decidable (∀ order ∈ s.orders.get? event.clientOrderId, ∀ fill ∈ event.fill,
    event.newState = .partiallyFilled ∨ event.newState = .filled →
      order.fillEvent fill = .fullFill → order.state ≠ .submitted))

section ClosedInTime

variable {s : Oms}

theorem closedInTime_recordAccepted (hs : s.WellFormed) (h : s.AllOrders Order.ClosedInTime)
    (k : OrderId) (brokerOrderId : String) (ts : Time) :
    (s.recordAccepted k brokerOrderId ts).AllOrders Order.ClosedInTime := by
  rcases ho : s.orders.get? k with _ | order
  · rwa [Oms.recordAccepted, ho]
  by_cases hb : order.brokerOrderId = some brokerOrderId
  · rwa [recordAccepted_eq_self ho hb]
  obtain ⟨fsm, hf, hstate⟩ := hs.exists_fsm ho
  refine (recordAccepted_advances ho hf hb ts).toMoves.allOrders h ?_
  refine Order.closedInTime_moved hstate (by rintro ⟨⟩) (fun hfull => Or.inl ?_)
    fun hsub hnone => ?_
  · exact (h k order ho).terminal hfull
  · -- a submitted order has an arc for its acceptance
    rw [show orderTable.get? _ = _ from congrArg (fun st => orderTable.get? (st, _)) hsub] at hnone
    exact absurd hnone (by decide)

theorem closedInTime_handleClosing (hs : s.WellFormed) (h : s.AllOrders Order.ClosedInTime)
    (k : OrderId) (kind : EventKind) {update : Order → Order} {event : OrderEvent} (ts : Time)
    (hstate : ∀ order : Order, (update order).state = order.state)
    (hupdate : ∀ order : Order, order.ClosedInTime → (update order).ClosedInTime)
    (hevent : event ≠ .submit) :
    (s.handleClosing k kind update event ts).AllOrders Order.ClosedInTime := by
  rcases ho : s.orders.get? k with _ | order
  · rwa [Oms.handleClosing, ho]
  by_cases ht : order.state.Terminal
  · rwa [handleClosing_eq_self ho ht]
  obtain ⟨fsm, hf, hfsm⟩ := hs.exists_fsm ho
  have hnew := hupdate order (h k order ho)
  refine (handleClosing_advances ho hf ht kind update event ts).toMoves.allOrders h ?_
  exact Order.closedInTime_moved (hfsm.trans (hstate order).symm) hevent
    (fun hfull => Or.inl (hnew.terminal hfull)) fun hsub _ => hnew.submitted hsub

/-- **A fill leaves its order closed in time if it comes in time.** -/
theorem closedInTime_handleFill (hs : s.WellFormed) (h : s.AllOrders Order.ClosedInTime)
    {k : OrderId} {order : Order} (ho : s.orders.get? k = some order) {fill : Fill}
    (htimely : order.fillEvent fill = .fullFill → order.state ≠ .submitted) (ts : Time) :
    (s.handleFill k fill ts).AllOrders Order.ClosedInTime := by
  obtain ⟨fsm, hf, hfsm⟩ := hs.exists_fsm ho
  have hpending := hs.ne_pending k order ho
  refine (handleFill_advances ho hf fill ts).toMoves.allOrders h ?_
  refine Order.closedInTime_moved hfsm ?_ (fun hfull => ?_) fun hsub _ => ?_
  · change (if _ then OrderEvent.fullFill else .partialFill) ≠ .submit
    split_ifs <;> decide
  · have hevent : order.fillEvent (fill.correctedFor order) = .fullFill := if_pos hfull
    have hsub := htimely hevent
    rw [hevent]
    change order.state.Terminal ∨ orderTable.get? (order.state, .fullFill) ≠ none ∧ _
    revert hsub hpending
    cases order.state <;> decide
  · exact (h k order ho).submitted hsub

theorem closedInTime_onBrokerEvent (hs : s.WellFormed) (h : s.AllOrders Order.ClosedInTime)
    {event : BrokerOrderEvent} (htimely : s.Timely event) (now : Time) :
    (s.onBrokerEvent event now).AllOrders Order.ClosedInTime := by
  by_cases hk : event.clientOrderId ∈ s.orders.keys
  · obtain ⟨order, ho⟩ := Dict.mem_keys_iff.mp hk
    rw [Oms.onBrokerEvent, if_pos hk]
    cases hst : event.newState with
    | accepted =>
      dsimp only
      split_ifs
      · exact h
      · exact closedInTime_recordAccepted hs h _ _ _
    | partiallyFilled | filled =>
      rcases hfill : event.fill with _ | fill
      · exact h
      · exact closedInTime_handleFill hs h ho (htimely order ho fill hfill (by simp [hst])) _
    | canceled | expired =>
      exact closedInTime_handleClosing hs h _ _ _ (fun _ => rfl) (fun _ h => h) (by rintro ⟨⟩)
    | rejected =>
      exact closedInTime_handleClosing hs h _ _ _ (fun _ => rfl)
        (fun _ h => ⟨h.terminal, h.submitted⟩) (by rintro ⟨⟩)
    | new | unknown => exact h
  · rwa [Oms.onBrokerEvent, if_neg hk]

theorem closedInTime_settleSubmit (hs : s.WellFormed) (h : s.AllOrders Order.ClosedInTime)
    (k : OrderId) (outcome : SubmitOutcome) (now : Time) :
    (s.settleSubmit k outcome now).AllOrders Order.ClosedInTime := by
  cases outcome with
  | rejected reason =>
    exact closedInTime_handleClosing hs h _ _ _ (fun _ => rfl)
      (fun _ h => ⟨h.terminal, h.submitted⟩) (by rintro ⟨⟩)
  | unavailable => exact h
  | returned brokerOrderId =>
    unfold settleSubmit
    dsimp only
    split_ifs
    · exact h
    · exact closedInTime_recordAccepted hs h _ _ _

/-- A forced close ends in a terminal state, unless it finds its order still submitted. -/
theorem closedInTime_forceCloseFilled (hs : s.WellFormed) (h : s.AllOrders Order.ClosedInTime)
    {k : OrderId} {order : Order} (ho : s.orders.get? k = some order)
    (hsub : order.state ≠ .submitted) (ts : Time) :
    (s.forceCloseFilled k ts).AllOrders Order.ClosedInTime ∧
      ∃ order', (s.forceCloseFilled k ts).orders.get? k = some order' ∧ order'.state.Terminal := by
  by_cases ht : order.state.Terminal
  · rw [forceCloseFilled_eq_self ho ht]
    exact ⟨h, order, ho, ht⟩
  obtain ⟨fsm, hf, hfsm⟩ := hs.exists_fsm ho
  have hpending := hs.ne_pending k order ho
  have hmove := forceCloseFilled_moves ho hf ht ts
  have harc : orderTable.get? (order.state, .fullFill) = some .filled := by
    revert hpending hsub ht
    cases order.state <;> decide
  refine ⟨hmove.allOrders h
    (Order.closedInTime_moved hfsm (by rintro ⟨⟩) (fun _ => Or.inr ?_) ?_), ?_⟩
  · exact ⟨fun hc => Option.some_ne_none _ (harc.symm.trans hc), by decide⟩
  · exact fun hc => absurd hc hsub
  · refine ⟨_, (hmove.orders k).trans (if_pos rfl), ?_⟩
    rw [Order.state_moved (by exact hfsm) rfl]
    exact Or.inl (congrArg (fun toState => toState.getD order.state) harc)

theorem closedInTime_forceClose (hs : s.WellFormed) (h : s.AllOrders Order.ClosedInTime)
    {k : OrderId} (hsub : ∀ order ∈ s.orders.get? k, order.state ≠ .submitted) (ts : Time) :
    (s.forceCloseFilled k ts).AllOrders Order.ClosedInTime := by
  rcases ho : s.orders.get? k with _ | order
  · rwa [Oms.forceCloseFilled, ho]
  · exact (closedInTime_forceCloseFilled hs h ho (hsub order ho) ts).1

/-- A synthetic order is there, filled, and two events told of it. -/
theorem bookGhost_spec (s : Oms) (ghost : Ghost) :
    ∃ order, (s.bookGhost ghost).orders.get? ghost.ids.order = some order ∧
      order.state = .filled ∧ order.intentId = ghost.ids.intent ∧
      order.agentId = ghost.agentId ∧
      (s.bookGhost ghost).bus = s.bus ++
        [.orderStateChanged ghost.ids.order .accepted .filled ghost.ts,
          .fillReceived ghost.fill] := by
  let t : Oms :=
    { orders := ((((s.orders.set ghost.ids.order ghost.order).modify ghost.ids.order fun order =>
        { order with state := .submitted }).modify ghost.ids.order fun order =>
        { order with
          brokerOrderId := some ghost.brokerOrderId
          submittedAt := some ghost.ts }).modify ghost.ids.order fun order =>
        { order with state := .accepted })
      fsms := ((s.fsms.set ghost.ids.order (buildOrderFsm .pending)).modify ghost.ids.order
        fun fsm => fsm.after .submit).modify ghost.ids.order fun fsm => fsm.after .accept
      brokerIdToOrder := s.brokerIdToOrder.set ghost.brokerOrderId ghost.ids.order
      fillsByOrder := s.fillsByOrder.set ghost.ids.order []
      store := s.store ++
        [⟨.orderSubmitIntent (serializeOrder ghost.order), ghost.ids.order, ghost.ts⟩] ++
        [⟨.orderAccepted ghost.brokerOrderId, ghost.ids.order, ghost.ts⟩]
      bus := s.bus }
  have ht : s.bookGhost ghost = t.handleFill ghost.ids.order ghost.fill ghost.ts := rfl
  have ho : t.orders.get? ghost.ids.order = some { ghost.order with
      state := .accepted, brokerOrderId := some ghost.brokerOrderId
      submittedAt := some ghost.ts } := by simp [t]
  have hf : t.fsms.get? ghost.ids.order =
      some (((buildOrderFsm .pending).after .submit).after .accept) := by simp [t]
  have hfull : isFullyFilled ghost.qty (0 + ghost.qty) = true := by
    rw [isFullyFilled, zero_add, sub_self, decide_eq_true_eq]
    norm_num [fillQtyTolerance]
  have hevent : ∀ fill : Fill, fill.qty = ghost.qty →
      Order.fillEvent { ghost.order with
        state := .accepted, brokerOrderId := some ghost.brokerOrderId
        submittedAt := some ghost.ts } fill = .fullFill := by
    intro fill hq
    rw [Order.fillEvent, hq]
    exact if_pos hfull
  rw [ht, bus_handleFill ho hf, hevent _ rfl]
  refine ⟨_, ((handleFill_advances ho hf ghost.fill ghost.ts).orders _).trans (if_pos rfl), ?_, ?_,
    ?_, rfl⟩
  · have hfsm : (((buildOrderFsm .pending).after .submit).after .accept).state = .accepted := rfl
    rw [Order.state_moved hfsm rfl, hevent _ rfl]
    rfl
  · rw [Order.moved]
    split_ifs <;> rfl
  · exact (Order.sameTrade_moved _ _ _).agentId

theorem closedInTime_bookGhost (hs : s.WellFormed) (h : s.AllOrders Order.ClosedInTime)
    (ghost : Ghost) : (s.bookGhost ghost).AllOrders Order.ClosedInTime := by
  obtain ⟨order, ho, hfilled, -⟩ := s.bookGhost_spec ghost
  intro k order' ho'
  by_cases hk : k = ghost.ids.order
  · subst hk
    obtain rfl : order = order' := Option.some.inj (ho.symm.trans ho')
    exact ⟨fun _ => Or.inl hfilled, fun hc => absurd (hfilled.symm.trans hc) (by decide)⟩
  · rw [(bookGhost_of_ne hs.toKeyed hk).1] at ho'
    exact h k order' ho'

/-- A cancellation request leaves a full order as it is: such an order is over. -/
theorem closedInTime_requestCancel (hs : s.WellFormed) (h : s.AllOrders Order.ClosedInTime)
    (k : OrderId) (now : Time) : (s.requestCancel k now).AllOrders Order.ClosedInTime := by
  rcases ho : s.orders.get? k with _ | order
  · rwa [Oms.requestCancel, ho]
  by_cases ht : order.state.Terminal
  · rwa [requestCancel_eq_self ho ht]
  obtain ⟨fsm, hf, hfsm⟩ := hs.exists_fsm ho
  have hold := h k order ho
  rcases hb : order.brokerOrderId with _ | brokerOrderId
  · refine (requestCancel_advances ho hf ht hb now).toMoves.allOrders h ?_
    exact Order.closedInTime_moved hfsm (by rintro ⟨⟩) (fun hfull => Or.inl (hold.terminal hfull))
      fun _ _ => hb
  · exact h.congr (requestCancel_audits ho ht hb now).book

/-- The events a broker delivers in one go come in time, each in the state it finds. -/
def TimelyAll (s : Oms) (events : List BrokerOrderEvent) (now : Time) : Prop :=
  Along (fun s event => s.onBrokerEvent event now) Timely s events

instance (s : Oms) (events : List BrokerOrderEvent) (now : Time) :
    Decidable (s.TimelyAll events now) :=
  inferInstanceAs (Decidable (Along _ _ _ _))

theorem WellFormed.onBrokerEvent (hs : s.WellFormed) (event : BrokerOrderEvent) (now : Time) :
    (s.onBrokerEvent event now).WellFormed := hs.handle (.brokerEvent event now)

theorem closedInTime_onBrokerEvents (hs : s.WellFormed) (h : s.AllOrders Order.ClosedInTime)
    {events : List BrokerOrderEvent} {now : Time} (hevents : s.TimelyAll events now) :
    (s.onBrokerEvents events now).WellFormed ∧
      (s.onBrokerEvents events now).AllOrders Order.ClosedInTime := by
  have hstep : ∀ (s : Oms) event, s.WellFormed ∧ s.AllOrders Order.ClosedInTime → s.Timely event →
      (s.onBrokerEvent event now).WellFormed ∧
        (s.onBrokerEvent event now).AllOrders Order.ClosedInTime := fun s event hs he =>
    ⟨hs.1.onBrokerEvent event now, closedInTime_onBrokerEvent hs.1 hs.2 he now⟩
  exact Along.invariant hstep hevents ⟨hs, h⟩

/-- A submission of an order with something left to fill. -/
theorem closedInTime_submitOrder (hs : s.WellFormed) (h : s.AllOrders Order.ClosedInTime)
    {order : Order} (hb : order.brokerOrderId = none) (call : SubmitCall) (now : Time)
    (hleft : order.state = .pending → ¬isFullyFilled order.qty order.filledQty = true ∧
      (s.persistIntent order now).TimelyAll call.callbacks now) :
    (s.submitOrder order call now).1.AllOrders Order.ClosedInTime := by
  by_cases hp : order.state = .pending
  swap
  · rwa [submitOrder, if_neg hp]
  obtain ⟨hfull, hevents⟩ := hleft hp
  have heq : (s.submitOrder order call now).1 =
      ((s.persistIntent order now).onBrokerEvents call.callbacks now).settleSubmit order.id
        call.outcome now := by
    rw [submitOrder, if_pos hp]
    cases call.outcome <;> rfl
  have hi := persistIntent_introduces s hp now
  have hnew : Order.ClosedInTime { order with state := .submitted } :=
    ⟨fun hc => absurd hc hfull, fun _ => hb⟩
  obtain ⟨hw₂, h₂⟩ :=
    closedInTime_onBrokerEvents (hi.wellFormed hs) (hi.allOrders h hnew) hevents
  rw [heq]
  exact closedInTime_settleSubmit hw₂ h₂ _ _ _

end ClosedInTime

/-! ### Other orders -/

/-- A broker event leaves every other order exactly as it is. -/
theorem get?_orders_onBrokerEvent {s : Oms} (hs : s.Keyed) {event : BrokerOrderEvent} {k : OrderId}
    (hne : k ≠ event.clientOrderId) (now : Time) :
    (s.onBrokerEvent event now).orders.get? k = s.orders.get? k := by
  by_cases hk : event.clientOrderId ∈ s.orders.keys
  swap
  · rw [Oms.onBrokerEvent, if_neg hk]
  obtain ⟨order, ho⟩ := Dict.mem_keys_iff.mp hk
  obtain ⟨fsm, hf⟩ := hs.exists_fsm ho
  have hclosing : ∀ kind update lifecycleEvent ts,
      (s.handleClosing event.clientOrderId kind update lifecycleEvent ts).orders.get? k =
        s.orders.get? k := by
    intro kind update lifecycleEvent ts
    by_cases ht : order.state.Terminal
    · rw [handleClosing_eq_self ho ht]
    · rw [(handleClosing_advances ho hf ht kind update lifecycleEvent ts).orders]
      exact if_neg hne
  rw [Oms.onBrokerEvent, if_pos hk]
  cases event.newState with
  | accepted =>
    dsimp only
    split_ifs
    · rfl
    · by_cases hb : order.brokerOrderId = some event.brokerOrderId
      · rw [recordAccepted_eq_self ho hb]
      · rw [(recordAccepted_advances ho hf hb _).orders]
        exact if_neg hne
  | partiallyFilled | filled =>
    cases event.fill with
    | none => rfl
    | some fill =>
      refine ((handleFill_advances ho hf fill _).orders k).trans ?_
      exact if_neg hne
  | canceled | rejected | expired => exact hclosing _ _ _ _
  | new | unknown => rfl

theorem get?_orders_forceCloseFilled {s : Oms} (hs : s.Keyed) {k k' : OrderId} (hne : k' ≠ k)
    (ts : Time) : (s.forceCloseFilled k ts).orders.get? k' = s.orders.get? k' := by
  rcases ho : s.orders.get? k with _ | order
  · rw [forceCloseFilled, ho]
  by_cases ht : order.state.Terminal
  · rw [forceCloseFilled_eq_self ho ht]
  obtain ⟨fsm, hf⟩ := hs.exists_fsm ho
  rw [(forceCloseFilled_moves ho hf ht ts).orders, if_neg hne]

end Oms

namespace Reconciler

variable {cfg : ReconcilerConfig} {env : ReconcileEnv}

/-! ### A pass -/

section Pass

variable {s : Oms} {order : Order}

/-- Polling an order leaves every other exactly as it is. -/
theorem get?_orders_reconcileOrder (hs : s.Keyed) (hanswers : Answers env) {k : OrderId}
    (hne : k ≠ order.id) : (reconcileOrder env s order).1.orders.get? k = s.orders.get? k := by
  unfold reconcileOrder
  split
  · rfl
  · split
    · rfl
    · rename_i status hstatus
      rcases applyStatus_eq s order status (env.fillId order.id) with heq | heq | ⟨fill, heq⟩
      · rw [heq]
      · rw [heq, Oms.get?_orders_forceCloseFilled hs hne]
      · rw [heq]
        exact Oms.get?_orders_onBrokerEvent hs (hne.trans_eq (hanswers _ _ hstatus).symm) _

/-- **Polling leaves the orders closed in time**: it polls no order that is only submitted. -/
theorem closedInTime_reconcileOrder (hs : s.WellFormed) (h : s.AllOrders Order.ClosedInTime)
    (ho : s.orders.get? order.id = some order) (hanswers : Answers env) :
    (reconcileOrder env s order).1.WellFormed ∧
      (reconcileOrder env s order).1.AllOrders Order.ClosedInTime := by
  unfold reconcileOrder
  rcases hb : order.brokerOrderId with _ | brokerOrderId
  · exact ⟨hs, h⟩
  rcases hstatus : env.getOrder order.id with _ | status
  · exact ⟨hs, h⟩
  have hid : status.clientOrderId = order.id := hanswers _ _ hstatus
  have hsub : order.state ≠ .submitted := fun hc =>
    Option.some_ne_none _ (hb.symm.trans ((h _ _ ho).submitted hc))
  have htimely : ∀ fill, s.Timely (statusEvent status fill) := by
    intro fill order' ho' _ _ _ _
    have ho'' : s.orders.get? status.clientOrderId = some order' := ho'
    rw [hid, ho, Option.some_inj] at ho''
    exact ho'' ▸ hsub
  dsimp only
  rcases applyStatus_eq s order status (env.fillId order.id) with heq | heq | ⟨fill, heq⟩
  · rw [heq]
    exact ⟨hs, h⟩
  · rw [heq]
    exact ⟨hs.handle (.forceCloseFilled order.id status.updatedAt),
      (Oms.closedInTime_forceCloseFilled hs h ho hsub _).1⟩
  · rw [heq]
    exact ⟨hs.onBrokerEvent _ _, Oms.closedInTime_onBrokerEvent hs h (htimely fill) _⟩

/-- An order the broker reports as filled, with nothing missing, is closed when it is polled. -/
theorem exists_terminal_reconcileOrder (hs : s.WellFormed) (h : s.AllOrders Order.ClosedInTime)
    (ho : s.orders.get? order.id = some order) (hopen : order.state.Open)
    (hb : order.brokerOrderId ≠ none) {status : BrokerOrderStatus}
    (hstatus : env.getOrder order.id = some status) (hfilled : status.state = .filled)
    (hall : status.filledQty ≤ order.filledQty) :
    ∃ order', (reconcileOrder env s order).1.orders.get? order.id = some order' ∧
      order'.state.Terminal := by
  obtain ⟨brokerOrderId, hid⟩ := Option.ne_none_iff_exists'.mp hb
  have hreq : statusRequiresUpdate order.state status.state = true := by
    have ht := (OrderState.open_iff_not_terminal _).mp hopen
    simp [statusRequiresUpdate, hfilled, ht]
  have hdelta : ¬0 < status.filledQty - order.filledQty := not_lt.mpr (sub_nonpos.mpr hall)
  have heq : (reconcileOrder env s order).1 = s.forceCloseFilled order.id status.updatedAt := by
    rw [reconcileOrder, hid, hstatus]
    dsimp only
    rw [applyStatus, if_pos hreq]
    dsimp only
    rw [if_neg fun hc => hdelta hc.2, if_pos ⟨Or.inr hfilled, hfilled, not_lt.mp hdelta⟩]
  rw [heq]
  exact (Oms.closedInTime_forceCloseFilled hs h ho (fun hc => hb ((h _ _ ho).submitted hc)) _).2

/-- Polling orders leaves the others exactly as they are. -/
theorem get?_orders_run_reconcileOrder (hs : s.Keyed) (hanswers : Answers env)
    {orders : List Order} {k : OrderId} (hne : ∀ order ∈ orders, order.id ≠ k) :
    (run (fun s order => (reconcileOrder env s order).1) s orders).orders.get? k =
      s.orders.get? k := by
  induction orders generalizing s with
  | nil => rfl
  | cons order orders ih =>
    rw [run_cons, ih (keyed_reconcileOrder env hs order).1 fun other hmem =>
      hne other (List.mem_cons_of_mem _ hmem)]
    exact get?_orders_reconcileOrder hs hanswers (hne order List.mem_cons_self).symm

/-- Polling orders as they stand, one after the other. -/
theorem closedInTime_run_reconcileOrder (hs : s.WellFormed) (h : s.AllOrders Order.ClosedInTime)
    (hanswers : Answers env) {orders : List Order} (hnd : (orders.map (·.id)).Nodup)
    (hcur : ∀ order ∈ orders, s.orders.get? order.id = some order) :
    let s' := run (fun s order => (reconcileOrder env s order).1) s orders
    s'.WellFormed ∧ s'.AllOrders Order.ClosedInTime := by
  induction orders generalizing s with
  | nil => exact ⟨hs, h⟩
  | cons order orders ih =>
    rw [List.map_cons, List.nodup_cons] at hnd
    obtain ⟨hnot, hnd⟩ := hnd
    obtain ⟨hs₁, h₁⟩ :=
      closedInTime_reconcileOrder hs h (hcur order List.mem_cons_self) hanswers
    refine ih hs₁ h₁ hnd fun other hother => ?_
    have hne : other.id ≠ order.id := fun hc => hnot (hc ▸ List.mem_map_of_mem hother)
    rw [get?_orders_reconcileOrder hs.toKeyed hanswers hne]
    exact hcur other (List.mem_cons_of_mem _ hother)

/-- The open orders are listed as they stand, once each. -/
theorem get?_of_mem_listOpenOrders (hs : s.Keyed) :
    (s.listOpenOrders.map (·.id)).Nodup ∧
      ∀ order ∈ s.listOpenOrders, s.orders.get? order.id = some order ∧ order.state.Open := by
  have hget : ∀ order ∈ s.orders.values, s.orders.get? order.id = some order := by
    intro order hmem
    obtain ⟨k, hk⟩ := Dict.mem_values_iff.mp hmem
    rw [hs.id_eq k order hk, hk]
  have hids : (s.orders.values.map (·.id)).Nodup := hs.map_id_values ▸ s.orders.nodup_keys
  refine ⟨hids.sublist (List.filter_sublist.map _), fun order hmem => ?_⟩
  obtain ⟨hmem, hopen⟩ := List.mem_filter.mp hmem
  exact ⟨hget order hmem, of_decide_eq_true hopen⟩

/-- Comparing the positions adds orders that are over. -/
theorem closedInTime_comparePositions (cfg : ReconcilerConfig) (env : ReconcileEnv)
    (hs : s.WellFormed) (h : s.AllOrders Order.ClosedInTime) :
    (comparePositions cfg env s).WellFormed ∧
      (comparePositions cfg env s).AllOrders Order.ClosedInTime := by
  have hsymbol : ∀ expected positions (acc : Oms × List PositionMismatch) sym,
      acc.1.WellFormed ∧ acc.1.AllOrders Order.ClosedInTime →
        (compareSymbol cfg env expected positions acc sym).1.WellFormed ∧
          (compareSymbol cfg env expected positions acc sym).1.AllOrders Order.ClosedInTime := by
    rintro expected positions acc sym ⟨hw, ha⟩
    unfold compareSymbol
    cases checkSymbol cfg expected positions sym with
    | agrees => exact ⟨hw, ha⟩
    | mismatch details => exact ⟨hw, ha⟩
    | orphan qty price => exact ⟨hw.bookGhost _, Oms.closedInTime_bookGhost hw ha _⟩
  unfold comparePositions
  cases env.listPositions with
  | none => exact ⟨hs, h⟩
  | some positions =>
    have hall : ∀ expected positions (acc : Oms × List PositionMismatch) syms,
        acc.1.WellFormed ∧ acc.1.AllOrders Order.ClosedInTime →
          (run (compareSymbol cfg env expected positions) acc syms).1.WellFormed ∧
            (run (compareSymbol cfg env expected positions) acc syms).1.AllOrders
              Order.ClosedInTime := fun expected positions _ syms hacc =>
      run_invariant (hsymbol expected positions) hacc syms
    exact hall _ _ (s, []) _ ⟨hs, h⟩

/-- **A pass leaves the orders closed in time.** -/
theorem closedInTime_reconcileOnce {r : Reconciler} (hs : r.oms.WellFormed)
    (h : r.oms.AllOrders Order.ClosedInTime) (hanswers : Answers env) :
    (reconcileOnce cfg env r).1.oms.WellFormed ∧
      (reconcileOnce cfg env r).1.oms.AllOrders Order.ClosedInTime := by
  obtain ⟨hnd, hcur⟩ := get?_of_mem_listOpenOrders hs.toKeyed
  obtain ⟨hs', h'⟩ := closedInTime_run_reconcileOrder hs h hanswers hnd
    fun order hmem => (hcur order hmem).1
  rw [← fst_reconcileOrders] at hs' h'
  rw [oms_reconcileOnce]
  exact closedInTime_comparePositions cfg env hs' h'

/-- **A pass closes what the broker has filled**, if all of it is recorded and the broker's
identifier is known. -/
theorem notMem_listOpenOrders_reconcileOnce {r : Reconciler} (hs : r.oms.WellFormed)
    (hd : r.oms.Durable) (h : r.oms.AllOrders Order.ClosedInTime) (hanswers : Answers env)
    (hfresh : FreshGhosts env r.oms) {k : OrderId} (ho : r.oms.orders.get? k = some order)
    (hb : order.state.Open → order.brokerOrderId ≠ none) {status : BrokerOrderStatus}
    (hstatus : env.getOrder k = some status) (hfilled : status.state = .filled)
    (hall : status.filledQty ≤ order.filledQty) :
    k ∉ (reconcileOnce cfg env r).1.oms.listOpenOrders.map (·.id) := by
  obtain rfl : order.id = k := hs.id_eq k order ho
  obtain ⟨hnd, hcur⟩ := get?_of_mem_listOpenOrders hs.toKeyed
  -- the order is terminal once the orders have been polled
  have hpolled : ∃ order', (polled env r.oms).orders.get? order.id = some order' ∧
      order'.state.Terminal := by
    rw [polled, fst_reconcileOrders]
    by_cases hopen : order.state.Open
    · obtain ⟨before, after, hsplit, hothers⟩ :=
        exists_split_listOpenOrders hs.toKeyed ho hopen
      rw [hsplit, List.map_append, List.map_cons] at hnd
      rw [hsplit] at hcur
      have hbefore : ∀ other ∈ before, r.oms.orders.get? other.id = some other := fun other hmem =>
        (hcur other (List.mem_append_left _ hmem)).1
      obtain ⟨hs₁, h₁⟩ := closedInTime_run_reconcileOrder hs h hanswers
        (List.nodup_append.mp hnd).1 hbefore
      have ho₁ := (get?_orders_run_reconcileOrder hs.toKeyed hanswers fun other hmem =>
        hothers other (List.mem_append_left _ hmem)).trans ho
      obtain ⟨order', ho', ht⟩ :=
        exists_terminal_reconcileOrder hs₁ h₁ ho₁ hopen (hb hopen) hstatus hfilled hall
      refine ⟨order', ?_, ht⟩
      rw [hsplit, run_append, run_cons]
      -- the orders after it leave it as it is
      have hk₂ := (keyed_reconcileOrder env hs₁.toKeyed order).1
      rw [get?_orders_run_reconcileOrder hk₂ hanswers fun other hmem =>
        hothers other (List.mem_append_right _ hmem)]
      exact ho'
    · refine ⟨order, (get?_orders_run_reconcileOrder hs.toKeyed hanswers
        fun other hmem hc => ?_).trans ho, ?_⟩
      · obtain ⟨hother, hopen'⟩ := hcur other hmem
        rw [hc, ho, Option.some_inj] at hother
        exact hopen (hother ▸ hopen')
      · exact not_not.mp fun hc => hopen ((OrderState.open_iff_not_terminal _).mpr hc)
  obtain ⟨order', ho', ht⟩ := hpolled
  -- and comparing the positions leaves it as it is
  have hev := evolves_polled env hd
  have hkeys : (polled env r.oms).orders.keys = r.oms.orders.keys :=
    (keyed_reconcileOrders env hs.toKeyed _).2
  obtain ⟨he, hkept, -⟩ := adopts_comparePositions cfg hev.durable
    ⟨fun sym => hkeys ▸ hfresh.notMem sym, hfresh.injective⟩
  rw [oms_reconcileOnce]
  intro hmem
  obtain ⟨open', hopen', hid⟩ := List.mem_map.mp hmem
  obtain ⟨hget, hopen⟩ := (get?_of_mem_listOpenOrders he.durable.keyed).2 open' hopen'
  rw [hid, (hkept order.id (Dict.mem_keys_of_get? ho')).1, ho', Option.some_inj] at hget
  exact (OrderState.open_iff_not_terminal _).mp hopen (hget ▸ ht)

end Pass

/-! ### Runs -/

/-- What may happen on a desk: orders are submitted that the broker has not seen, and in a pass the
broker answers about the order it is asked about. -/
def Admits (r : Reconciler) : ReconcilerOp → Prop
  | .pass env => Answers env ∧ FreshGhosts env r.oms
  | .oms (.submitOrder order _ _) => order.brokerOrderId = none
  | .oms _ | .kill _ => True

/-- **The condition under which orders get closed.** An order is submitted with something left to
fill; no completing fill and no forced close finds its order still submitted; and in a pass the
system knows the broker identifier of every open order that the broker reports as filled and has
nothing missing. -/
def Closing (r : Reconciler) : ReconcilerOp → Prop
  | .pass env => ∀ order ∈ r.oms.listOpenOrders, ∀ status ∈ env.getOrder order.id,
      status.state = .filled → status.filledQty ≤ order.filledQty → order.brokerOrderId ≠ none
  | .oms (.submitOrder order call now) => order.state = .pending →
      ¬isFullyFilled order.qty order.filledQty = true ∧
        (r.oms.persistIntent order now).TimelyAll call.callbacks now
  | .oms (.cancelOrder orderId call now) =>
      (r.oms.requestCancel orderId now).TimelyAll call.callbacks now
  | .oms (.forceCloseFilled orderId _) =>
      ∀ order ∈ r.oms.orders.get? orderId, order.state ≠ .submitted
  | .oms (.brokerEvent event _) => r.oms.Timely event
  | .oms (.adoptOrphanPosition ..) | .oms (.bookFeeOffset ..) | .kill _ => True

section Runs

variable {r : Reconciler}

/-- **One step keeps the orders closed in time**, whatever happens on the desk, if it meets the
condition. -/
theorem closedInTime_step (hs : r.oms.WellFormed) (h : r.oms.AllOrders Order.ClosedInTime)
    {op : ReconcilerOp} (hadm : r.Admits op) (hop : r.Closing op) :
    (r.step cfg op).oms.WellFormed ∧ (r.step cfg op).oms.AllOrders Order.ClosedInTime := by
  cases op with
  | pass env => exact closedInTime_reconcileOnce hs h hadm.1
  | kill op => exact ⟨hs, h⟩
  | oms op =>
    refine ⟨Oms.WellFormed.run hs [op], ?_⟩
    change (r.oms.step op).AllOrders Order.ClosedInTime
    cases op with
    | submitOrder order call now => exact Oms.closedInTime_submitOrder hs h hadm call now hop
    | cancelOrder orderId call now =>
      have h₁ := Oms.closedInTime_requestCancel hs h orderId now
      have hs₁ : (r.oms.requestCancel orderId now).WellFormed :=
        hs.handle (.requestCancel orderId now)
      rw [Oms.step, Oms.cancelOrder]
      rcases r.oms.orders.get? orderId with _ | order
      · exact h
      dsimp only
      split_ifs
      · exact h₁
      · exact (Oms.closedInTime_onBrokerEvents hs₁ h₁ hop).2
      · exact (Oms.closedInTime_onBrokerEvents hs₁ h₁ hop).2
    | forceCloseFilled orderId ts => exact Oms.closedInTime_forceClose hs h hop ts
    | adoptOrphanPosition ids symbol qty price agentId ts =>
      exact Oms.closedInTime_bookGhost hs h _
    | bookFeeOffset ids symbol qty price agentId ts => exact Oms.closedInTime_bookGhost hs h _
    | brokerEvent event now => exact Oms.closedInTime_onBrokerEvent hs h hop now

/-- A step leaves a log that can be replayed. -/
theorem durable_step (hd : r.oms.Durable) {op : ReconcilerOp} (hadm : r.Admits op) :
    (r.step cfg op).oms.Durable := by
  cases op with
  | pass env => exact (evolves_reconcileOnce hd hadm.2).durable
  | oms op => exact hd.step op
  | kill op => exact hd

/-- **Filled orders are closed.** In every run of a new desk whose steps meet the condition, every
order with less than the tolerance left to fill is over, in every state reached; and a pass leaves
no order open that the broker reports as filled and has nothing missing. -/
theorem closedOrders_run (cfg : ReconcilerConfig) (timeout : ℤ) {ops : List ReconcilerOp}
    (hadm : Along (step cfg) Admits (new timeout) ops)
    (hops : Along (step cfg) Closing (new timeout) ops) :
    (∀ pre, pre <+: ops → (run (step cfg) (new timeout) pre).oms.AllOrders fun order =>
        isFullyFilled order.qty order.filledQty = true → order.state.Terminal) ∧
      ∀ pre env, pre ++ [.pass env] <+: ops → ∀ k order status,
        (run (step cfg) (new timeout) pre).oms.orders.get? k = some order →
          env.getOrder k = some status → status.state = .filled →
            status.filledQty ≤ order.filledQty →
              k ∉ (run (step cfg) (new timeout) (pre ++ [.pass env])).oms.listOpenOrders.map
                (·.id) := by
  have hstep : ∀ (r : Reconciler) op,
      (r.oms.WellFormed ∧ r.oms.AllOrders Order.ClosedInTime) ∧ r.oms.Durable →
        r.Admits op ∧ r.Closing op →
          ((r.step cfg op).oms.WellFormed ∧ (r.step cfg op).oms.AllOrders Order.ClosedInTime) ∧
            (r.step cfg op).oms.Durable := fun r op hr hop =>
    ⟨closedInTime_step hr.1.1 hr.1.2 hop.1 hop.2, durable_step hr.2 hop.1⟩
  have hnew : ((new timeout).oms.WellFormed ∧ (new timeout).oms.AllOrders Order.ClosedInTime) ∧
      (new timeout).oms.Durable :=
    ⟨⟨Oms.WellFormed.empty, fun _ _ h => absurd h (by simp [new, Oms.empty, Book.empty])⟩,
      Oms.durable_empty⟩
  have hall : ∀ pre, pre <+: ops → _ := fun pre hpre =>
    (hadm.and hops).invariant_reached hstep hnew hpre
  refine ⟨fun pre hpre k order ho => ((hall pre hpre).1.2 k order ho).terminal, ?_⟩
  intro pre env hpre k order status ho hstatus hfilled hrecorded
  obtain ⟨⟨hs, h⟩, hd⟩ := hall pre ((List.prefix_append _ _).trans hpre)
  have hpass := along_concat.mp ((hadm.and hops).of_isPrefix hpre)
  obtain ⟨⟨hanswers, hfresh⟩, hknown⟩ := hpass.2
  rw [run_concat]
  refine notMem_listOpenOrders_reconcileOnce hs hd h hanswers hfresh ho (fun hopen => ?_) hstatus
    hfilled hrecorded
  obtain rfl : order.id = k := hs.id_eq k order ho
  have hmem : order ∈ (run (step cfg) (new timeout) pre).oms.listOpenOrders :=
    List.mem_filter.mpr ⟨Dict.mem_values_of_get? ho, by simpa using hopen⟩
  exact hknown order hmem status hstatus hfilled hrecorded

end Runs

/-! ### A run in which an order is closed, and one in which it is not -/

/-- A fill of all ten shares of the order of `lostSubmission`. -/
def filledEvent : ReconcilerOp :=
  .oms (.brokerEvent (Oms.fillEventFor 7 1 .buy 10 .filled) 2)

/-- A desk on which the submission returns the broker's identifier, and then the fill comes. -/
def heardRun : List ReconcilerOp :=
  [.oms (.submitOrder (Oms.marketOrder 1 .buy 10) ⟨[], .returned "b-1"⟩ 0), filledEvent,
    .pass filledEnv]

/-- A desk on which the submission raises although the broker takes the order. -/
def unheardRun : List ReconcilerOp :=
  [.oms (.submitOrder (Oms.marketOrder 1 .buy 10) ⟨[], .unavailable⟩ 0), filledEvent,
    .pass filledEnv]

theorem admits_heardRun : Along (step {}) Admits (new 120) heardRun :=
  ⟨rfl, trivial, ⟨answers_filledEnv, freshGhosts_filledEnv (by decide +kernel)⟩, trivial⟩

theorem closedOrders_heardRun :
    1 ∉ (run (step {}) (new 120) heardRun).oms.listOpenOrders.map (·.id) := by
  have hops : Along (step {}) Closing (new 120) heardRun := by
    refine ⟨fun _ => by decide +kernel, ?_, ?_, trivial⟩
    · show Oms.Timely _ _
      decide +kernel
    · show ∀ order ∈ _, ∀ status ∈ _, _
      decide +kernel
  obtain ⟨order, ho, hq⟩ : ∃ order,
      (run (step {}) (new 120) (heardRun.take 2)).oms.orders.get? 1 = some order ∧
        10 ≤ order.filledQty := by
    have hsome : (((run (step {}) (new 120) (heardRun.take 2)).oms.orders.get? 1).map
        (·.filledQty)) = some 10 := by
      decide +kernel
    obtain ⟨order, ho, hq⟩ := Option.map_eq_some_iff.mp hsome
    exact ⟨order, ho, hq.ge⟩
  exact (closedOrders_run {} 120 admits_heardRun hops).2 (heardRun.take 2) filledEnv
    List.prefix_rfl 1 order (brokerView .filled 10) ho rfl rfl hq

/-- **A filled order that stays open**: the fill finds its order submitted, the order is left
there with nothing to fill, and no pass looks at it. -/
theorem open_unheardRun :
    Along (step {}) Admits (new 120) unheardRun ∧
      ((run (step {}) (new 120) unheardRun).oms.orders.get? 1).map (fun order =>
        (order.state, order.qty, order.filledQty)) = some (.submitted, 10, 10) ∧
      1 ∈ (run (step {}) (new 120) unheardRun).oms.listOpenOrders.map (·.id) := by
  refine ⟨⟨rfl, trivial, ⟨answers_filledEnv, freshGhosts_filledEnv ?_⟩, trivial⟩, ?_, ?_⟩
  · decide +kernel
  · decide +kernel
  · decide +kernel

end Reconciler

end TradingPlatform
