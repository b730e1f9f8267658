import TradingPlatform.Execution.LifeCycle
import TradingPlatform.Execution.Positions

/-!
# An order's aggregates and its fills

An order carries its filled quantity and its average price along, and every fill rewrites both.
They are the sums over its fills at any time (`TradingPlatform.Order.Sums`): the average is
rebuilt as value over quantity, so all that could go wrong is a division by zero, and positive
fills rule that out.

An order that is filled has less than the tolerance left to fill
(`TradingPlatform.Order.Closed`). A machine reaches that state on a completing fill or on a forced
close. The first is one because nothing is left, the second makes nothing left by rewriting the
quantity of the order, and a fill that comes late can only leave less.
-/

namespace TradingPlatform

namespace Order

/-- **The aggregates are the sums**: the filled quantity is the sum of the fills' quantities, and
the average price, once there is one, times the filled quantity is the sum of their values. -/
structure Sums (order : Order) (fills : List Fill) : Prop where
  filledQty : order.filledQty = (fills.map (·.qty)).sum
  value : (order.filledAvgPrice = none ∧ fills = []) ∨ ∃ avg, order.filledAvgPrice = some avg ∧
    avg * order.filledQty = (fills.map fun fill => fill.price * fill.qty).sum
  nonneg : 0 ≤ order.filledQty

/-- **A filled order is full.** -/
def Closed (order : Order) : Prop :=
  order.state = .filled → isFullyFilled order.qty order.filledQty = true

variable {order order' : Order} {fills : List Fill}

theorem Sums.congr (h : order.Sums fills) (hq : order'.filledQty = order.filledQty)
    (ha : order'.filledAvgPrice = order.filledAvgPrice) : order'.Sums fills := by
  refine ⟨hq.trans h.filledQty, ?_, hq ▸ h.nonneg⟩
  rw [ha, hq]
  exact h.value

/-- An order nothing was filled of. -/
theorem sums_nil (hq : order.filledQty = 0) (ha : order.filledAvgPrice = none) :
    order.Sums [] := ⟨hq, Or.inl ⟨ha, rfl⟩, hq.ge⟩

/-- **A fill keeps the sums**: the average is rebuilt from the value it stood for. The first fill
divides by nothing. -/
theorem Sums.bookFill (h : order.Sums fills) {fill : Fill} (hq : 0 ≤ fill.qty)
    (hfirst : order.filledAvgPrice = none ∨ 0 < fill.qty) (ts : Time) :
    (order.bookFill fill ts).Sums (fills ++ [fill]) := by
  refine ⟨?_, Or.inr ?_, add_nonneg h.nonneg hq⟩
  · change order.filledQty + fill.qty = _
    rw [h.filledQty, List.map_append, List.sum_append]
    simp
  · rw [List.map_append, List.sum_append]
    rcases h.value with ⟨ha, rfl⟩ | ⟨avg, ha, hvalue⟩
    · have hzero : order.filledQty = 0 := h.filledQty
      refine ⟨fill.price, by simp only [Order.bookFill, ha], ?_⟩
      change fill.price * (order.filledQty + fill.qty) = _
      simp [hzero]
    · have hpos : 0 < fill.qty := hfirst.resolve_left fun hc => by simp [ha] at hc
      have hne : order.filledQty + fill.qty ≠ 0 := (add_pos_of_nonneg_of_pos h.nonneg hpos).ne'
      refine ⟨(avg * order.filledQty + fill.price * fill.qty) / (order.filledQty + fill.qty),
        by simp only [Order.bookFill, ha], ?_⟩
      change _ * (order.filledQty + fill.qty) = _
      rw [div_mul_cancel₀ _ hne, hvalue]
      simp

theorem Sums.moved (h : order.Sums fills) (fsm : OrderFsm) (event : OrderEvent) :
    (order.moved fsm event).Sums fills := by
  refine h.congr (order.sameTrade_moved fsm event).filledQty ?_
  rw [Order.moved]
  split_ifs <;> rfl

/-- A machine takes an order to filled by a completing fill and by nothing else. -/
theorem state_moved_eq_filled {fsm : OrderFsm} {event : OrderEvent}
    (h : (order.moved fsm event).state = .filled) : order.state = .filled ∨ event = .fullFill := by
  rw [Order.moved] at h
  split_ifs at h with hc
  · obtain ⟨toState, harc⟩ := Option.isSome_iff_exists.mp hc
    have hafter : (fsm.after event).state = toState := by
      rw [StateMachine.state_after, harc, Option.getD_some]
    rw [show toState = event.target from orderTable_get?_eq_some harc] at hafter
    rw [show (fsm.after event).state = .filled from h] at hafter
    right
    revert hafter
    cases event <;> decide
  · exact Or.inl h

@[simp] theorem qty_moved (order : Order) (fsm : OrderFsm) (event : OrderEvent) :
    (order.moved fsm event).qty = order.qty := by
  rw [Order.moved]
  split_ifs <;> rfl

/-- An order stays full if whatever takes it to filled leaves it full. -/
theorem closed_moved {fsm : OrderFsm} {event : OrderEvent} (h : order.Closed)
    (hfull : event = .fullFill → isFullyFilled order.qty order.filledQty = true) :
    (order.moved fsm event).Closed := by
  intro hst
  rw [qty_moved, (order.sameTrade_moved fsm event).filledQty]
  rcases state_moved_eq_filled hst with hst | hevent
  · exact h hst
  · exact hfull hevent

theorem closed_bookFill (h : order.Closed) {fill : Fill} (hq : 0 ≤ fill.qty) (ts : Time) :
    (order.bookFill fill ts).Closed := by
  intro hst
  have hless := h hst
  rw [isFullyFilled, decide_eq_true_eq] at hless ⊢
  change order.qty - (order.filledQty + fill.qty) < fillQtyTolerance
  linarith

/-- A fill closes an order when it leaves nothing to fill. -/
theorem isFullyFilled_bookFill {fill : Fill} (h : order.fillEvent fill = .fullFill) (ts : Time) :
    isFullyFilled (order.bookFill fill ts).qty (order.bookFill fill ts).filledQty = true := by
  rw [Order.fillEvent] at h
  split_ifs at h with hfull
  exact hfull

end Order

namespace Oms

/-- **The books add up**: every order's aggregates are those of its fills, and a filled order is
full. -/
def Accounted (s : Oms) : Prop :=
  ∀ k order, s.orders.get? k = some order → order.Sums (s.getFills k) ∧ order.Closed

theorem accounted_empty : Oms.empty.Accounted := fun _ _ h =>
  absurd h (by simp [Oms.empty, Book.empty])

section Accounted

variable {s s' : Oms}

theorem Accounted.congr (h : s.Accounted) (hbook : s'.toBook = s.toBook) : s'.Accounted := by
  intro k order ho
  rw [hbook] at ho
  rw [getFills_congr (congrArg (fun b : Book => b.fillsByOrder.get? k) hbook)]
  exact h k order ho

/-- Moving an order that adds up. -/
theorem Moves.accounted {k : OrderId} {old order : Order} {fsm : OrderFsm} {event : OrderEvent}
    {fills : List Fill} (h : s.Moves s' k order fsm event fills) (hs : s.Keyed)
    (ha : s.Accounted) (hold : s.orders.get? k = some old)
    (hsums : order.Sums (s.getFills k ++ fills)) (hclosed : order.Closed)
    (hfull : event = .fullFill → isFullyFilled order.qty order.filledQty = true) :
    s'.Accounted := by
  intro k' order' ho
  rw [h.orders] at ho
  rw [h.getFills hs hold]
  split_ifs at ho with hk
  · cases ho
    rw [if_pos hk, hk]
    exact ⟨hsums.moved fsm event, Order.closed_moved hclosed hfull⟩
  · rw [if_neg hk]
    exact ha k' order' ho

/-- Introducing an order nothing was filled of. -/
theorem Introduces.accounted {order : Order} {ts : Time} (h : s.Introduces s' order ts)
    (ha : s.Accounted) (hq : order.filledQty = 0) (havg : order.filledAvgPrice = none) :
    s'.Accounted := by
  intro k order' ho
  rw [h.orders] at ho
  rw [h.getFills]
  split_ifs at ho with hk
  · cases ho
    rw [if_pos hk]
    exact ⟨Order.sums_nil hq havg, fun hst => OrderState.noConfusion hst⟩
  · rw [if_neg hk]
    exact ha k order' ho

theorem Accounted.recordAccepted (ha : s.Accounted) (hs : s.Keyed) (k : OrderId)
    (brokerOrderId : String) (ts : Time) : (s.recordAccepted k brokerOrderId ts).Accounted := by
  rcases ho : s.orders.get? k with _ | order
  · rwa [Oms.recordAccepted, ho]
  by_cases hb : order.brokerOrderId = some brokerOrderId
  · rwa [recordAccepted_eq_self ho hb]
  obtain ⟨fsm, hf⟩ := hs.exists_fsm ho
  obtain ⟨hsums, hclosed⟩ := ha k order ho
  refine (recordAccepted_advances ho hf hb ts).toMoves.accounted hs ha ho ?_ hclosed (by rintro ⟨⟩)
  rw [List.append_nil]
  exact hsums.congr rfl rfl

theorem Accounted.handleClosing (ha : s.Accounted) (hs : s.Keyed) (k : OrderId) (kind : EventKind)
    {update : Order → Order} {event : OrderEvent} (ts : Time)
    (hsums : ∀ (order : Order) fills, order.Sums fills → (update order).Sums fills)
    (hclosed : ∀ order : Order, order.Closed → (update order).Closed)
    (hevent : event ≠ .fullFill) : (s.handleClosing k kind update event ts).Accounted := by
  rcases ho : s.orders.get? k with _ | order
  · rwa [Oms.handleClosing, ho]
  by_cases ht : order.state.Terminal
  · rwa [handleClosing_eq_self ho ht]
  obtain ⟨fsm, hf⟩ := hs.exists_fsm ho
  refine (handleClosing_advances ho hf ht kind update event ts).toMoves.accounted hs ha ho ?_
    (hclosed order (ha k order ho).2) fun hc => absurd hc hevent
  rw [List.append_nil]
  exact hsums order _ (ha k order ho).1

theorem Accounted.handleCancellation (ha : s.Accounted) (hs : s.Keyed) (k : OrderId) (ts : Time) :
    (s.handleCancellation k ts).Accounted :=
  ha.handleClosing hs k _ ts (fun _ _ h => h) (fun _ h => h) (by rintro ⟨⟩)

theorem Accounted.handleRejection (ha : s.Accounted) (hs : s.Keyed) (k : OrderId)
    (reason : String) (ts : Time) : (s.handleRejection k reason ts).Accounted :=
  ha.handleClosing hs k _ ts (fun _ _ h => h.congr rfl rfl) (fun _ h => h) (by rintro ⟨⟩)

theorem Accounted.handleExpiry (ha : s.Accounted) (hs : s.Keyed) (k : OrderId) (ts : Time) :
    (s.handleExpiry k ts).Accounted :=
  ha.handleClosing hs k _ ts (fun _ _ h => h) (fun _ h => h) (by rintro ⟨⟩)

/-- **A fill keeps the books adding up**, in whichever state its order is. -/
theorem Accounted.handleFill (ha : s.Accounted) (hs : s.Keyed) {k : OrderId} {order : Order}
    (ho : s.orders.get? k = some order) {fill : Fill} (hq : 0 ≤ fill.qty)
    (hfirst : order.filledAvgPrice = none ∨ 0 < fill.qty) (ts : Time) :
    (s.handleFill k fill ts).Accounted := by
  obtain ⟨fsm, hf⟩ := hs.exists_fsm ho
  obtain ⟨hsums, hclosed⟩ := ha k order ho
  have hq' : 0 ≤ (fill.correctedFor order).qty := hq
  refine (handleFill_advances ho hf fill ts).toMoves.accounted hs ha ho ?_ ?_ ?_
  · exact hsums.bookFill hq' hfirst ts
  · exact Order.closed_bookFill hclosed hq' ts
  · exact fun hevent => Order.isFullyFilled_bookFill hevent ts

theorem Accounted.requestCancel (ha : s.Accounted) (hs : s.Keyed) (k : OrderId) (now : Time) :
    (s.requestCancel k now).Accounted := by
  rcases ho : s.orders.get? k with _ | order
  · rwa [Oms.requestCancel, ho]
  by_cases ht : order.state.Terminal
  · rwa [requestCancel_eq_self ho ht]
  obtain ⟨fsm, hf⟩ := hs.exists_fsm ho
  obtain ⟨hsums, hclosed⟩ := ha k order ho
  rcases hb : order.brokerOrderId with _ | brokerOrderId
  · refine (requestCancel_advances ho hf ht hb now).toMoves.accounted hs ha ho ?_ hclosed
      (by rintro ⟨⟩)
    rwa [List.append_nil]
  · exact ha.congr (requestCancel_audits ho ht hb now).book

/-- A forced close makes the order as large as its fills. -/
theorem Accounted.forceCloseFilled (ha : s.Accounted) (hs : s.Keyed) (k : OrderId) (ts : Time) :
    (s.forceCloseFilled k ts).Accounted := by
  rcases ho : s.orders.get? k with _ | order
  · rwa [Oms.forceCloseFilled, ho]
  by_cases ht : order.state.Terminal
  · rwa [forceCloseFilled_eq_self ho ht]
  obtain ⟨fsm, hf⟩ := hs.exists_fsm ho
  have hfull : isFullyFilled order.filledQty order.filledQty = true := by
    rw [isFullyFilled, sub_self, decide_eq_true_eq]
    norm_num [fillQtyTolerance]
  refine (forceCloseFilled_moves ho hf ht ts).accounted hs ha ho ?_ (fun _ => hfull) fun _ => hfull
  rw [List.append_nil]
  exact (ha k order ho).1.congr rfl rfl

/-- A synthetic order is filled by its one fill, which divides by nothing. -/
theorem Accounted.bookGhost (ha : s.Accounted) (hs : s.Keyed) {ghost : Ghost}
    (hq : 0 ≤ ghost.qty) : (s.bookGhost ghost).Accounted := by
  obtain ⟨s₁, s₂, fsm, h₁, -, hf₁, h₂, h₃⟩ := s.bookGhost_steps ghost
  have hk₁ := h₁.keyed hs
  have hk₂ := h₂.keyed hk₁ h₁.get?_self rfl
  have ha₁ : s₁.Accounted := h₁.accounted ha rfl rfl
  have hclear : s₁.getFills ghost.ids.order = [] := by
    rw [h₁.getFills]
    exact if_pos rfl
  have ha₂ : s₂.Accounted := by
    refine h₂.toMoves.accounted hk₁ ha₁ h₁.get?_self ?_ (by rintro ⟨⟩) (by rintro ⟨⟩)
    rw [hclear]
    exact Order.sums_nil rfl rfl
  rw [h₃]
  refine ha₂.handleFill hk₂ ((h₂.orders _).trans (if_pos rfl)) hq (Or.inl ?_) _
  rw [Order.moved]
  split_ifs <;> rfl

end Accounted

end Oms

/-! ### Runs -/

/-- The fill of an event, if it brings one, is of a positive quantity. -/
def BrokerOrderEvent.Positive (event : BrokerOrderEvent) : Prop := ∀ fill ∈ event.fill, 0 < fill.qty

instance (event : BrokerOrderEvent) : Decidable event.Positive :=
  inferInstanceAs (Decidable (∀ fill ∈ event.fill, 0 < fill.qty))

/-- Orders are submitted with nothing filled yet; fills are positive, and synthetic orders not
negative. -/
def OmsOp.Accountable : OmsOp → Prop
  | .submitOrder order call _ =>
    order.filledQty = 0 ∧ order.filledAvgPrice = none ∧ ∀ event ∈ call.callbacks, event.Positive
  | .cancelOrder _ call _ => ∀ event ∈ call.callbacks, event.Positive
  | .forceCloseFilled .. => True
  | .adoptOrphanPosition _ _ qty .. | .bookFeeOffset _ _ qty .. => 0 ≤ qty
  | .brokerEvent event _ => event.Positive

instance : (op : OmsOp) → Decidable op.Accountable
  | .submitOrder .. => inferInstanceAs (Decidable (_ ∧ _ ∧ _))
  | .cancelOrder _ call _ => inferInstanceAs (Decidable (∀ event ∈ call.callbacks, event.Positive))
  | .forceCloseFilled .. => isTrue trivial
  | .adoptOrphanPosition _ _ qty .. | .bookFeeOffset _ _ qty .. =>
    inferInstanceAs (Decidable (0 ≤ qty))
  | .brokerEvent event _ => inferInstanceAs (Decidable event.Positive)

namespace Oms

/-- The same of a handler. -/
def Handler.Accountable : Handler → Prop
  | .persistIntent order _ => order.filledQty = 0 ∧ order.filledAvgPrice = none
  | .bookGhost ghost => 0 ≤ ghost.qty
  | .brokerEvent event _ => event.Positive
  | .settleSubmit .. | .requestCancel .. | .forceCloseFilled .. => True

theorem accountable_of_mem_handlers {s : Oms} {op : OmsOp} (hop : op.Accountable) {h : Handler}
    (hmem : h ∈ s.handlers op) : h.Accountable := by
  cases op with
  | submitOrder order call now =>
    obtain ⟨hq, ha, hevents⟩ := hop
    rw [handlers] at hmem
    split_ifs at hmem
    · simp only [List.mem_cons, List.mem_append, List.mem_map, List.not_mem_nil, or_false] at hmem
      rcases hmem with rfl | ⟨event, hevent, rfl⟩ | rfl
      · exact ⟨hq, ha⟩
      · exact hevents event hevent
      · trivial
    · exact absurd hmem List.not_mem_nil
  | cancelOrder orderId call now =>
    rw [handlers] at hmem
    split at hmem
    · exact absurd hmem List.not_mem_nil
    · split_ifs at hmem
      · obtain rfl := List.mem_singleton.mp hmem
        trivial
      · rcases List.mem_cons.mp hmem with rfl | hmem
        · trivial
        · obtain ⟨event, hevent, rfl⟩ := List.mem_map.mp hmem
          exact hop event hevent
  | forceCloseFilled orderId ts | adoptOrphanPosition ids symbol qty price agentId ts
  | bookFeeOffset ids symbol qty price agentId ts | brokerEvent event now =>
    obtain rfl := List.mem_singleton.mp hmem
    exact hop

theorem Accounted.onBrokerEvent {s : Oms} (ha : s.Accounted) (hs : s.Keyed)
    {event : BrokerOrderEvent} (hpos : event.Positive) (now : Time) :
    (s.onBrokerEvent event now).Accounted := by
  by_cases hk : event.clientOrderId ∈ s.orders.keys
  · obtain ⟨order, ho⟩ := Dict.mem_keys_iff.mp hk
    rw [Oms.onBrokerEvent, if_pos hk]
    cases event.newState with
    | accepted =>
      dsimp only
      split_ifs
      · exact ha
      · exact ha.recordAccepted hs _ _ _
    | partiallyFilled | filled =>
      rcases hfill : event.fill with _ | fill
      · exact ha
      · have hq : 0 < fill.qty := hpos fill hfill
        exact ha.handleFill hs ho hq.le (Or.inr hq) _
    | canceled => exact ha.handleCancellation hs _ _
    | rejected => exact ha.handleRejection hs _ _ _
    | expired => exact ha.handleExpiry hs _ _
    | new | unknown => exact ha
  · rwa [Oms.onBrokerEvent, if_neg hk]

/-- **Every handler keeps the books adding up.** -/
theorem Accounted.handle {s : Oms} (ha : s.Accounted) (hs : s.Keyed) {h : Handler}
    (hh : h.Accountable) : (s.handle h).Accounted := by
  cases h with
  | persistIntent order now =>
    rw [Oms.handle]
    split_ifs with hp
    · exact (persistIntent_introduces s hp now).accounted ha hh.1 hh.2
    · exact ha
  | settleSubmit orderId outcome now =>
    rw [Oms.handle]
    cases outcome with
    | rejected reason => exact ha.handleRejection hs _ _ _
    | unavailable => exact ha
    | returned brokerOrderId =>
      unfold settleSubmit
      dsimp only
      split_ifs
      · exact ha
      · exact ha.recordAccepted hs _ _ _
  | requestCancel orderId now => exact ha.requestCancel hs _ _
  | forceCloseFilled orderId ts => exact ha.forceCloseFilled hs _ _
  | bookGhost ghost => exact ha.bookGhost hs hh
  | brokerEvent event now => exact ha.onBrokerEvent hs hh now

theorem accounted_run {s : Oms} (hs : s.WellFormed) (ha : s.Accounted) {ops : List OmsOp}
    (hops : ∀ op ∈ ops, op.Accountable) : (run step s ops).Accounted := by
  have hstep : ∀ (s : Oms) op, s.WellFormed ∧ s.Accounted → op.Accountable →
      (s.step op).WellFormed ∧ (s.step op).Accounted := by
    rintro s op hs hop
    rw [step_eq_run]
    have hhandlers : Along handle (fun _ h => h.Accountable) s (s.handlers op) :=
      along_iff_forall_mem.mpr fun h hmem => accountable_of_mem_handlers hop hmem
    refine hhandlers.invariant (fun s h (hs : s.WellFormed ∧ s.Accounted) hh => ?_) hs
    exact ⟨hs.1.handle h, hs.2.handle hs.1.toKeyed hh⟩
  have halong : Along step (fun _ op => op.Accountable) s ops := along_iff_forall_mem.mpr hops
  exact (halong.invariant hstep ⟨hs, ha⟩).2

/-- **Fill accounting.** After any run of live operations whose fills are positive, the filled
quantity of every order is the sum over its fills, its average price times that quantity is the
value of its fills, and an order that is filled has less than the tolerance left to fill. -/
theorem fillAccounting_run {ops : List OmsOp} (hops : ∀ op ∈ ops, op.Accountable) (k : OrderId)
    (order : Order) (ho : (run step Oms.empty ops).orders.get? k = some order) :
    order.filledQty = (((run step Oms.empty ops).getFills k).map (·.qty)).sum ∧
      ((run step Oms.empty ops).getFills k ≠ [] → ∃ avg, order.filledAvgPrice = some avg ∧
        avg * order.filledQty =
          (((run step Oms.empty ops).getFills k).map fun fill => fill.price * fill.qty).sum) ∧
      (order.state = .filled → order.qty - order.filledQty < fillQtyTolerance) := by
  obtain ⟨hsums, hclosed⟩ := accounted_run WellFormed.empty accounted_empty hops k order ho
  refine ⟨hsums.filledQty, fun hne => ?_, fun hst => ?_⟩
  · rcases hsums.value with ⟨-, hnil⟩ | havg
    · exact absurd hnil hne
    · exact havg
  · have hfull := hclosed hst
    rwa [isFullyFilled, decide_eq_true_eq] at hfull

/-- Two fills at two prices, the second after the order was cancelled. -/
def twoPricesRun : List OmsOp :=
  [.submitOrder (marketOrder 1 .buy 10) ⟨[], .returned "b-1"⟩ 0,
    .brokerEvent (fillEventFor 7 1 .buy 4 .partiallyFilled) 1,
    .brokerEvent { brokerOrderId := "b-1", clientOrderId := 1, newState := .canceled } 2,
    .brokerEvent
      { fillEventFor 8 1 .buy 12 .filled with
        fill := (fillEventFor 8 1 .buy 12 .filled).fill.map fun fill =>
          { fill with price := 120 } } 3]

theorem filledQty_twoPricesRun :
    ∃ order, (run step Oms.empty twoPricesRun).orders.get? 1 = some order ∧
      order.filledAvgPrice = some 115 ∧
      order.filledQty = (((run step Oms.empty twoPricesRun).getFills 1).map (·.qty)).sum := by
  have hsome : ((run step Oms.empty twoPricesRun).orders.get? 1).map (·.filledAvgPrice) =
      some (some 115) := by
    decide +kernel
  obtain ⟨order, ho, havg⟩ := Option.map_eq_some_iff.mp hsome
  exact ⟨order, ho, havg, (fillAccounting_run (by decide +kernel) 1 order ho).1⟩

end Oms

end TradingPlatform
