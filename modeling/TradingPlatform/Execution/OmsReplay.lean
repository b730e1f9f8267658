import TradingPlatform.Execution.OmsSteps

/-!
# Replaying the log

After a crash a new system reads the log from the start and rebuilds its maps
(`TradingPlatform.Oms.replayLog`). The replay is a second interpreter of the events
the live handlers logged, and it differs from them in one point: it assigns an event's
state to the order without asking whether the machine made the transition.

So the two agree on an event exactly when the event *settles* the order
(`TradingPlatform.OrderState.Settles`): the lifecycle has an arc for it, or the order is
already where it leads. `TradingPlatform.Oms.Replayable` is that condition, handler by
handler, together with what else the log does not carry – an order's aggregates at
submission, which the log has no field for, and a forced close, which writes no event.

`TradingPlatform.Oms.ReplayAgrees` is what a crash must preserve: order by order and
machine by machine, the replayed maps show what the live ones did. A handler keeps it
exactly when it is replayable (`TradingPlatform.Oms.replayAgrees_handle_iff`), so the
runs whose log is the truth are the replayable ones
(`TradingPlatform.Oms.replayAgrees_run_iff`), and every run of operations made of
replayable handlers is one of them.
-/

namespace TradingPlatform

namespace Book

/-- Update an order, trigger its machine, and assign the event's state to the order
whether or not the machine moved. Either lookup fails on an unknown order. -/
def advance (b : Book) (orderId : OrderId) (update : Order → Order) (event : OrderEvent) :
    Option Book :=
  match b.orders.get? orderId, b.fsms.get? orderId with
  | some order, some fsm =>
    some { b with
      orders := b.orders.set orderId { update order with state := event.target }
      fsms := b.fsms.set orderId (fsm.after event) }
  | _, _ => none

/-- Apply one event of the log. -/
def applyLoggedEvent (b : Book) (logged : LoggedEvent) : Option Book :=
  let orderId := logged.orderId
  match logged.kind with
  | .orderSubmitIntent payload =>
    { b with
      orders := b.orders.set orderId (deserializeOrder payload)
      fsms := b.fsms.set orderId (buildOrderFsm .pending)
      -- fills that are there already stay
      fillsByOrder := b.fillsByOrder.set orderId ((b.fillsByOrder.get? orderId).getD [])
      }.advance orderId id .submit
  | .orderAccepted brokerOrderId =>
    { b with brokerIdToOrder := b.brokerIdToOrder.set brokerOrderId orderId }.advance orderId
      (fun order =>
        { order with brokerOrderId := some brokerOrderId, submittedAt := some logged.ts }) .accept
  | .orderRejected reason =>
    b.advance orderId (fun order => { order with rejectionReason := reason }) .reject
  | .fillReceived payload =>
    let fill := deserializeFill payload
    match b.orders.get? orderId with
    | none => none
    | some order =>
      { b with
        fillsByOrder :=
          b.fillsByOrder.set orderId ((b.fillsByOrder.get? orderId).getD [] ++ [fill])
        }.advance orderId (fun order => order.bookFill fill logged.ts) (order.fillEvent fill)
  | .orderCancelled _ => b.advance orderId id .cancel
  | .orderExpired => b.advance orderId id .expire
  -- awaiting the broker's confirmation
  | .orderCancelRequested _ => some b
  -- audit only
  | .reconcileNoop .. | .reconcileRecovered .. | .reconcileAbandoned _ => some b

/-- Apply a log, event by event. -/
def applyLog (b : Book) (log : List LoggedEvent) : Option Book := log.foldlM applyLoggedEvent b

theorem applyLog_concat (b : Book) (log : List LoggedEvent) (logged : LoggedEvent) :
    b.applyLog (log ++ [logged]) = (b.applyLog log).bind (·.applyLoggedEvent logged) := by
  rw [applyLog, List.foldlM_append, applyLog]
  rcases List.foldlM applyLoggedEvent b log with _ | b'
  · rfl
  · simp

/-! ### What an order shows -/

end Book

/-- What the world can see of an order. -/
structure OrderView where
  state : OrderState
  qty : Decimal
  filledQty : Decimal
  filledAvgPrice : Option Decimal
  brokerOrderId : Option String
  rejectionReason : Option String
  deriving DecidableEq

def Order.view (order : Order) : OrderView where
  state := order.state
  qty := order.qty
  filledQty := order.filledQty
  filledAvgPrice := order.filledAvgPrice
  brokerOrderId := order.brokerOrderId
  rejectionReason := order.rejectionReason

/-- Two books show the same: every identifier has the same order, as far as the world
can see, and a machine in the same state. -/
def Book.SameView (b b' : Book) : Prop :=
  ∀ k, (b.orders.get? k).map Order.view = (b'.orders.get? k).map Order.view ∧
    (b.fsms.get? k).map (·.state) = (b'.fsms.get? k).map (·.state)

/-- An order whose aggregates are what the log's decoder puts in their place. -/
def Order.Unfilled (order : Order) : Prop :=
  order.filledQty = 0 ∧ order.filledAvgPrice = none ∧ order.brokerOrderId = none ∧
    order.rejectionReason = none

instance : DecidablePred Order.Unfilled := fun _ => inferInstanceAs (Decidable (_ ∧ _ ∧ _ ∧ _))

namespace Oms

/-- Rebuild the maps from the log. -/
def replayLog (s : Oms) : Option Oms :=
  (s.toBook.applyLog s.store).map fun b => { s with toBook := b }

/-- A new system over an existing log. -/
def reboot (log : List LoggedEvent) : Oms := { Oms.empty with store := log }

/-- **The log is the truth**: a new system that only replays the log shows what the live
one does. -/
def ReplayAgrees (s : Oms) : Prop :=
  ∃ r, (reboot s.store).replayLog = some r ∧ r.SameView s.toBook

theorem replayAgrees_iff {s : Oms} :
    s.ReplayAgrees ↔ ∃ b, Book.empty.applyLog s.store = some b ∧ b.SameView s.toBook := by
  constructor
  · rintro ⟨r, hr, hv⟩
    obtain ⟨b, hb, rfl⟩ := Option.map_eq_some_iff.mp hr
    exact ⟨b, hb, hv⟩
  · rintro ⟨b, hb, hv⟩
    exact ⟨{ reboot s.store with toBook := b }, Option.map_eq_some_iff.mpr ⟨b, hb, rfl⟩, hv⟩

theorem replayAgrees_empty : Oms.empty.ReplayAgrees :=
  replayAgrees_iff.mpr ⟨Book.empty, rfl, fun _ => ⟨rfl, rfl⟩⟩

/-! ### One logged event, in both interpreters -/

/-- What the view of an order is made of. -/
theorem view_eq_iff {o o' : Order} :
    o.view = o'.view ↔ o.state = o'.state ∧ o.qty = o'.qty ∧ o.filledQty = o'.filledQty ∧
      o.filledAvgPrice = o'.filledAvgPrice ∧ o.brokerOrderId = o'.brokerOrderId ∧
      o.rejectionReason = o'.rejectionReason := by
  simp [Order.view]

/-- A fill books alike on two orders that show the same. -/
theorem view_bookFill_congr {o o' : Order} (h : o.view = o'.view) (fill : Fill) (ts : Time) :
    (o.bookFill fill ts).view = (o'.bookFill fill ts).view := by
  obtain ⟨hs, hq, hf, ha, hb, hr⟩ := view_eq_iff.mp h
  exact view_eq_iff.mpr ⟨hs, hq, by simp [Order.bookFill, hf],
    by simp [Order.bookFill, hf, ha], hb, hr⟩

/-- A fill amounts to the same event on two orders that show the same. -/
theorem fillEvent_congr {o o' : Order} (h : o.view = o'.view) (fill : Fill) :
    o.fillEvent fill = o'.fillEvent fill := by
  obtain ⟨-, hq, hf, -⟩ := view_eq_iff.mp h
  simp [Order.fillEvent, hq, hf]

/-- Two orders that show the same still do when both are put in one state. -/
theorem view_withState_iff {o o' : Order} (h : o.view = o'.view) {state state' : OrderState} :
    { o with state := state }.view = { o' with state := state' }.view ↔ state = state' := by
  obtain ⟨-, hq, hf, ha, hb, hr⟩ := view_eq_iff.mp h
  rw [view_eq_iff]
  exact ⟨fun hv => hv.1, fun hst => ⟨hst, hq, hf, ha, hb, hr⟩⟩

/-- **When the two interpreters agree on one event**: both have rewritten the order
alike and driven its machine, and they show the same exactly when the event settles the
order. -/
theorem Moves.sameView_iff {s s' : Oms} {b b' : Book} {k : OrderId} {order ob : Order}
    {fsm fb : OrderFsm} {event : OrderEvent} {fills : List Fill}
    (h : s.Moves s' k order fsm event fills) (hfsm : fsm.state = order.state)
    (hv : b.SameView s.toBook) (hob : b'.orders = b.orders.set k { ob with state := event.target })
    (hview : ob.view = order.view) (hfb : b'.fsms = b.fsms.set k (fb.after event))
    (hstate : fb.state = fsm.state) :
    b'.SameView s'.toBook ↔ fsm.state.Settles event := by
  rw [OrderState.settles_iff]
  constructor
  · intro hv'
    have hk := (hv' k).1
    rw [hob, Dict.get?_set_self, h.orders, if_pos rfl, Order.moved_eq hfsm, Option.map_some,
      Option.map_some, Option.some_inj, view_withState_iff hview] at hk
    exact hk.symm
  · intro hst k'
    rw [hob, hfb, h.orders, h.fsms, Order.moved_eq hfsm, Dict.get?_set, Dict.get?_set]
    by_cases hk : k' = k
    · simp only [if_pos hk, Option.map_some]
      exact ⟨congrArg some ((view_withState_iff hview).mpr hst.symm),
        congrArg some (StateMachine.state_after_congr hstate event)⟩
    · simp only [if_neg hk]
      exact hv k'

/-- The order and the machine a replayed book has for an order of the live system. -/
theorem SameView.exists_entry {s : Oms} {b : Book} (hv : b.SameView s.toBook) {k : OrderId}
    {order : Order} {fsm : OrderFsm} (h : s.orders.get? k = some order)
    (hf : s.fsms.get? k = some fsm) :
    ∃ ob fb, b.orders.get? k = some ob ∧ ob.view = order.view ∧ b.fsms.get? k = some fb ∧
      fb.state = fsm.state := by
  obtain ⟨ho, hm⟩ := hv k
  rw [h, Option.map_some, Option.map_eq_some_iff] at ho
  rw [hf, Option.map_some, Option.map_eq_some_iff] at hm
  obtain ⟨ob, hob, hview⟩ := ho
  obtain ⟨fb, hfb, hstate⟩ := hm
  exact ⟨ob, fb, hob, hview, hfb, hstate⟩

/-- An advance of the live system keeps the log true exactly when its event settles the
order, provided the replay rewrites the order as the live handler did. -/
theorem Advances.replayAgrees_iff {s s' : Oms} {logged : LoggedEvent} {old order : Order}
    {fsm : OrderFsm} {event : OrderEvent} {fills : List Fill}
    (h : s.Advances s' logged order fsm event fills) (hs : s.ReplayAgrees)
    (hold : s.orders.get? logged.orderId = some old)
    (hf : s.fsms.get? logged.orderId = some fsm) (hfsm : fsm.state = order.state)
    (happly : ∀ (b : Book) (ob : Order), b.orders.get? logged.orderId = some ob →
      ob.view = old.view → ∃ (b₀ : Book) (update : Order → Order),
        b₀.orders = b.orders ∧ b₀.fsms = b.fsms ∧ (update ob).view = order.view ∧
        b.applyLoggedEvent logged = b₀.advance logged.orderId update event) :
    s'.ReplayAgrees ↔ fsm.state.Settles event := by
  obtain ⟨b, hb, hv⟩ := Oms.replayAgrees_iff.mp hs
  obtain ⟨ob, fb, hob, hview, hfb, hstate⟩ := SameView.exists_entry hv hold hf
  obtain ⟨b₀, update, ho₀, hf₀, hupdate, happ⟩ := happly b ob hob hview
  let b' : Book := { b₀ with
    orders := b₀.orders.set logged.orderId { update ob with state := event.target }
    fsms := b₀.fsms.set logged.orderId (fb.after event) }
  have hlog : Book.empty.applyLog s'.store = some b' := by
    have hob₀ : b₀.orders.get? logged.orderId = some ob := by rw [ho₀, hob]
    have hfb₀ : b₀.fsms.get? logged.orderId = some fb := by rw [hf₀, hfb]
    rw [h.store, Book.applyLog_concat, hb, Option.bind_some, happ, Book.advance, hob₀, hfb₀]
  have hbo : b'.orders = b.orders.set logged.orderId { update ob with state := event.target } := by
    rw [← ho₀]
  have hbf : b'.fsms = b.fsms.set logged.orderId (fb.after event) := by
    rw [← hf₀]
  rw [Oms.replayAgrees_iff, hlog, ← h.toMoves.sameView_iff hfsm hv hbo hupdate hbf hstate]
  simp

/-! ### The handlers -/

section Handlers

variable {s : Oms} {k : OrderId} {order : Order}

theorem replayAgrees_recordAccepted_iff (hs : s.WellFormed) (hr : s.ReplayAgrees)
    (h : s.orders.get? k = some order) (brokerOrderId : String) (ts : Time) :
    (s.recordAccepted k brokerOrderId ts).ReplayAgrees ↔
      order.brokerOrderId = some brokerOrderId ∨ order.state.Settles .accept := by
  by_cases hb : order.brokerOrderId = some brokerOrderId
  · rw [recordAccepted_eq_self h hb]
    exact iff_of_true hr (Or.inl hb)
  · obtain ⟨fsm, hf, hstate⟩ := hs.exists_fsm h
    rw [(recordAccepted_advances h hf hb ts).replayAgrees_iff hr h hf hstate, hstate]
    · exact (or_iff_right hb).symm
    · intro b ob hob hview
      obtain ⟨hst, hq, hfq, ha, -, hrr⟩ := view_eq_iff.mp hview
      exact ⟨{ b with brokerIdToOrder := b.brokerIdToOrder.set brokerOrderId k }, _, rfl, rfl,
        view_eq_iff.mpr ⟨hst, hq, hfq, ha, rfl, hrr⟩, rfl⟩

theorem replayAgrees_handleFill_iff (hs : s.WellFormed) (hr : s.ReplayAgrees)
    (h : s.orders.get? k = some order) (fill : Fill) (ts : Time) :
    (s.handleFill k fill ts).ReplayAgrees ↔ order.state.Settles (order.fillEvent fill) := by
  obtain ⟨fsm, hf, hstate⟩ := hs.exists_fsm h
  rw [(handleFill_advances h hf fill ts).replayAgrees_iff hr h hf hstate, hstate]
  · rfl
  · intro b ob hob hview
    let fills := (b.fillsByOrder.get? k).getD [] ++ [fill.correctedFor order]
    refine ⟨{ b with fillsByOrder := b.fillsByOrder.set k fills },
      fun order => order.bookFill _ ts, rfl, rfl, view_bookFill_congr hview _ _, ?_⟩
    rw [← fillEvent_congr hview]
    simp only [Book.applyLoggedEvent, hob, deserializeFill_serializeFill]
    rfl

theorem replayAgrees_handleClosing_iff (hs : s.WellFormed) (hr : s.ReplayAgrees)
    (h : s.orders.get? k = some order) {kind : EventKind} {update : Order → Order}
    {event : OrderEvent} (ts : Time) (hupdate : (update order).state = order.state)
    (happly : ∀ b : Book, b.applyLoggedEvent ⟨kind, k, ts⟩ = b.advance k update event)
    (hcongr : ∀ o o' : Order, o.view = o'.view → (update o).view = (update o').view) :
    (s.handleClosing k kind update event ts).ReplayAgrees ↔
      order.state.Terminal ∨ order.state.Settles event := by
  by_cases ht : order.state.Terminal
  · rw [handleClosing_eq_self h ht]
    exact iff_of_true hr (Or.inl ht)
  · obtain ⟨fsm, hf, hstate⟩ := hs.exists_fsm h
    rw [(handleClosing_advances h hf ht kind update event ts).replayAgrees_iff hr h hf
      (hstate.trans hupdate.symm), hstate]
    · exact (or_iff_right ht).symm
    · exact fun b ob hob hview => ⟨b, update, rfl, rfl, hcongr _ _ hview, happly b⟩

theorem replayAgrees_handleRejection_iff (hs : s.WellFormed) (hr : s.ReplayAgrees)
    (h : s.orders.get? k = some order) (reason : String) (ts : Time) :
    (s.handleRejection k reason ts).ReplayAgrees ↔
      order.state.Terminal ∨ order.state.Settles .reject := by
  refine replayAgrees_handleClosing_iff hs hr h ts rfl (fun _ => rfl) fun o o' hv => ?_
  obtain ⟨hst, hq, hfq, ha, hb, -⟩ := view_eq_iff.mp hv
  exact view_eq_iff.mpr ⟨hst, hq, hfq, ha, hb, rfl⟩

/-- A cancellation is an arc from every state an order can be open in. -/
theorem WellFormed.settles_cancel (hs : s.WellFormed) (h : s.orders.get? k = some order)
    (ht : ¬order.state.Terminal) : order.state.Settles .cancel := by
  have hp := hs.ne_pending k order h
  revert ht hp
  cases order.state <;> decide

theorem replayAgrees_requestCancel (hs : s.WellFormed) (hr : s.ReplayAgrees) (now : Time) :
    (s.requestCancel k now).ReplayAgrees := by
  rcases h : s.orders.get? k with _ | order
  · rwa [requestCancel, h]
  · by_cases ht : order.state.Terminal
    · rwa [requestCancel_eq_self h ht]
    · obtain ⟨fsm, hf, hstate⟩ := hs.exists_fsm h
      rcases hb : order.brokerOrderId with _ | brokerOrderId
      · refine ((requestCancel_advances h hf ht hb now).replayAgrees_iff hr h hf hstate ?_).mpr
          (hstate ▸ hs.settles_cancel h ht)
        exact fun b ob hob hview => ⟨b, id, rfl, rfl, hview, rfl⟩
      · have haud := requestCancel_audits h ht hb now
        obtain ⟨b, hlog, hv⟩ := replayAgrees_iff.mp hr
        refine replayAgrees_iff.mpr ⟨b, ?_, ?_⟩
        · rw [haud.store, Book.applyLog_concat, hlog]
          rfl
        · rw [haud.book]
          exact hv

/-- A forced close keeps the log true exactly when it does nothing the world can see. -/
theorem replayAgrees_forceCloseFilled_iff (hs : s.WellFormed) (hr : s.ReplayAgrees)
    (h : s.orders.get? k = some order) (ts : Time) :
    (s.forceCloseFilled k ts).ReplayAgrees ↔
      order.state.Terminal ∨ (order.state = .submitted ∧ order.qty = order.filledQty) := by
  by_cases ht : order.state.Terminal
  · rw [forceCloseFilled_eq_self h ht]
    exact iff_of_true hr (Or.inl ht)
  rw [or_iff_right ht]
  obtain ⟨fsm, hf, hstate⟩ := hs.exists_fsm h
  have hmove := forceCloseFilled_moves h hf ht ts
  have hafter : (fsm.after .fullFill).state = order.state ↔ order.state = .submitted := by
    have hp := hs.ne_pending k order h
    rw [StateMachine.state_after, hstate]
    revert ht hp
    cases order.state <;> decide
  obtain ⟨b, hlog, hv⟩ := replayAgrees_iff.mp hr
  have hview := (hv k).1
  rw [h] at hview
  rw [← hafter, replayAgrees_iff, store_forceCloseFilled, hlog]
  simp only [Option.some.injEq, exists_eq_left']
  constructor
  · intro hv'
    have hk := (hv' k).1
    rw [hmove.orders, if_pos rfl, Order.moved_eq (by exact hstate), hview, Option.map_some,
      Option.map_some, Option.some_inj,
      view_eq_iff] at hk
    exact ⟨hk.1.symm, hk.2.1⟩
  · rintro ⟨hst, hq⟩ k'
    rw [hmove.orders, hmove.fsms, Order.moved_eq (by exact hstate)]
    by_cases hk : k' = k
    · rw [if_pos hk, if_pos hk, hk]
      refine ⟨hview.trans ?_, (hv k).2.trans ?_⟩
      · exact congrArg some (view_eq_iff.mpr ⟨hst.symm, hq, rfl, rfl, rfl, rfl⟩)
      · rw [hf, Option.map_some, Option.map_some, hst, hstate]
    · rw [if_neg hk, if_neg hk]
      exact hv k'

/-- Introducing an order keeps the log true exactly when the order comes without anything
the log does not carry. -/
theorem Introduces.replayAgrees_iff {s' : Oms} {now : Time} (hint : s.Introduces s' order now)
    (hr : s.ReplayAgrees) : s'.ReplayAgrees ↔ order.Unfilled := by
  obtain ⟨b, hlog, hv⟩ := Oms.replayAgrees_iff.mp hr
  let fsm : OrderFsm := (buildOrderFsm .pending).after .submit
  have hfsm : fsm.state = .submitted := by decide
  have happ : b.applyLoggedEvent ⟨.orderSubmitIntent (serializeOrder order), order.id, now⟩ =
      some { b with
        orders := (b.orders.set order.id (deserializeOrder (serializeOrder order))).set order.id
          { deserializeOrder (serializeOrder order) with state := .submitted }
        fsms := (b.fsms.set order.id (buildOrderFsm .pending)).set order.id fsm
        fillsByOrder := b.fillsByOrder.set order.id
          ((b.fillsByOrder.get? order.id).getD []) } := by
    simp only [Book.applyLoggedEvent, Book.advance, Dict.get?_set_self]
    rfl
  rw [Oms.replayAgrees_iff, hint.store, Book.applyLog_concat, hlog, Option.bind_some, happ]
  simp only [Option.some.injEq, exists_eq_left']
  constructor
  · intro hv'
    have hk := (hv' order.id).1
    rw [Dict.get?_set_self, hint.orders, if_pos rfl, Option.map_some, Option.map_some,
      Option.some_inj, view_eq_iff] at hk
    exact ⟨hk.2.2.1.symm, hk.2.2.2.1.symm, hk.2.2.2.2.1.symm, hk.2.2.2.2.2.symm⟩
  · rintro ⟨hfq, ha, hb, hrr⟩ k'
    rw [hint.orders, hint.fsms]
    by_cases hk : k' = order.id
    · rw [if_pos hk, if_pos hk, hk, Dict.get?_set_self, Dict.get?_set_self]
      refine ⟨congrArg some ?_, congrArg some hfsm⟩
      exact view_eq_iff.mpr ⟨rfl, rfl, hfq.symm, ha.symm, hb.symm, hrr.symm⟩
    · rw [if_neg hk, if_neg hk, Dict.get?_set_of_ne _ hk, Dict.get?_set_of_ne _ hk,
        Dict.get?_set_of_ne _ hk, Dict.get?_set_of_ne _ hk]
      exact hv k'

/-- A synthetic order always keeps the log true: it is accepted when it has just been
submitted, and filled in full when it has just been accepted. -/
theorem replayAgrees_bookGhost (hs : s.WellFormed) (hr : s.ReplayAgrees) (ghost : Ghost) :
    (s.bookGhost ghost).ReplayAgrees := by
  obtain ⟨s₁, s₂, fsm, h₁, hfsm, hf₁, h₂, h₃⟩ := s.bookGhost_steps ghost
  have hw₁ := h₁.wellFormed hs
  have ho₁ : s₁.orders.get? ghost.ids.order = some { ghost.order with state := .submitted } := by
    rw [h₁.orders]
    exact if_pos rfl
  have hw₂ := h₂.wellFormed hw₁ ho₁ hf₁ rfl rfl
  have hr₁ : s₁.ReplayAgrees := (h₁.replayAgrees_iff hr).mpr ⟨rfl, rfl, rfl, rfl⟩
  have hr₂ : s₂.ReplayAgrees := by
    refine (h₂.replayAgrees_iff hr₁ ho₁ hf₁ (by exact hfsm) ?_).mpr (by rw [hfsm]; decide)
    intro b ob hob hview
    obtain ⟨hst, hq, hfq, ha, -, hrr⟩ := view_eq_iff.mp hview
    exact ⟨{ b with
        brokerIdToOrder := b.brokerIdToOrder.set ghost.brokerOrderId ghost.ids.order }, _, rfl, rfl,
      view_eq_iff.mpr ⟨hst, hq, hfq, ha, rfl, hrr⟩, rfl⟩
  have ho₂ : s₂.orders.get? ghost.ids.order = some { ghost.order with
      state := (fsm.after .accept).state, brokerOrderId := some ghost.brokerOrderId
      submittedAt := some ghost.ts } := by
    rw [h₂.orders, Order.moved_eq (by exact hfsm)]
    exact if_pos rfl
  have hfull : isFullyFilled ghost.qty (0 + ghost.qty) = true := by
    rw [isFullyFilled, zero_add, sub_self, decide_eq_true_eq]
    norm_num [fillQtyTolerance]
  rw [h₃, replayAgrees_handleFill_iff hw₂ hr₂ ho₂, StateMachine.state_after, hfsm]
  change (OrderState.accepted).Settles
    (if isFullyFilled ghost.qty (0 + ghost.qty) then .fullFill else .partialFill)
  rw [if_pos hfull]
  decide

/-! ### The condition, and the runs that meet it -/

/-- **The exact condition under which a handler keeps the log true.** An event that is
logged must settle the order it is about; a submitted order must come with nothing the
log does not carry; a forced close, which is not logged, must do nothing. -/
def Replayable (s : Oms) : Handler → Prop
  | .persistIntent order _ => order.state = .pending → order.Unfilled
  | .settleSubmit orderId outcome _ =>
    ∀ order ∈ s.orders.get? orderId,
      match outcome with
      | .returned brokerOrderId =>
        brokerOrderId ∈ s.brokerIdToOrder.keys ∨ order.brokerOrderId = some brokerOrderId ∨
          order.state.Settles .accept
      | .rejected _ => order.state.Terminal ∨ order.state.Settles .reject
      | .unavailable => True
  | .requestCancel .. => True
  | .forceCloseFilled orderId _ =>
    ∀ order ∈ s.orders.get? orderId,
      order.state.Terminal ∨ (order.state = .submitted ∧ order.qty = order.filledQty)
  | .bookGhost _ => True
  | .brokerEvent event _ =>
    ∀ order ∈ s.orders.get? event.clientOrderId,
      match event.newState with
      | .accepted =>
        event.clientOrderId ∈ s.brokerIdToOrder.values ∨
          order.brokerOrderId = some event.brokerOrderId ∨ order.state.Settles .accept
      | .partiallyFilled | .filled =>
        ∀ fill ∈ event.fill, order.state.Settles (order.fillEvent fill)
      | .rejected => order.state.Terminal ∨ order.state.Settles .reject
      | .expired => order.state.Terminal ∨ order.state.Settles .expire
      | .canceled | .new | .unknown => True

instance Replayable.decidable (s : Oms) : ∀ h : Handler, Decidable (s.Replayable h)
  | .persistIntent order _ =>
    inferInstanceAs (Decidable (order.state = .pending → order.Unfilled))
  | .settleSubmit orderId (.returned brokerOrderId) _ =>
    inferInstanceAs (Decidable (∀ order ∈ s.orders.get? orderId,
      brokerOrderId ∈ s.brokerIdToOrder.keys ∨ order.brokerOrderId = some brokerOrderId ∨
        order.state.Settles .accept))
  | .settleSubmit orderId (.rejected _) _ =>
    inferInstanceAs (Decidable (∀ order ∈ s.orders.get? orderId,
      order.state.Terminal ∨ order.state.Settles .reject))
  | .settleSubmit orderId .unavailable _ =>
    inferInstanceAs (Decidable (∀ _order ∈ s.orders.get? orderId, True))
  | .requestCancel .. => isTrue trivial
  | .forceCloseFilled orderId _ =>
    inferInstanceAs (Decidable (∀ order ∈ s.orders.get? orderId,
      order.state.Terminal ∨ (order.state = .submitted ∧ order.qty = order.filledQty)))
  | .bookGhost _ => isTrue trivial
  | .brokerEvent ⟨brokerOrderId, orderId, newState, fill, _, _⟩ _ =>
    match newState with
    | .accepted =>
      inferInstanceAs (Decidable (∀ order ∈ s.orders.get? orderId,
        orderId ∈ s.brokerIdToOrder.values ∨ order.brokerOrderId = some brokerOrderId ∨
          order.state.Settles .accept))
    | .partiallyFilled | .filled =>
      inferInstanceAs (Decidable (∀ order ∈ s.orders.get? orderId,
        ∀ f ∈ fill, order.state.Settles (order.fillEvent f)))
    | .rejected =>
      inferInstanceAs (Decidable (∀ order ∈ s.orders.get? orderId,
        order.state.Terminal ∨ order.state.Settles .reject))
    | .expired =>
      inferInstanceAs (Decidable (∀ order ∈ s.orders.get? orderId,
        order.state.Terminal ∨ order.state.Settles .expire))
    | .canceled | .new | .unknown =>
      inferInstanceAs (Decidable (∀ _order ∈ s.orders.get? orderId, True))

theorem replayAgrees_onBrokerEvent_iff (hs : s.WellFormed) (hr : s.ReplayAgrees)
    (event : BrokerOrderEvent) (now : Time) :
    (s.onBrokerEvent event now).ReplayAgrees ↔ s.Replayable (.brokerEvent event now) := by
  rcases h : s.orders.get? event.clientOrderId with _ | order
  · have hk : event.clientOrderId ∉ s.orders.keys := Dict.get?_eq_none_iff.mp h
    rw [onBrokerEvent, if_neg hk]
    exact iff_of_true hr (by simp [Replayable, h])
  have hk : event.clientOrderId ∈ s.orders.keys := Dict.mem_keys_of_get? h
  rw [onBrokerEvent, if_pos hk]
  simp only [Replayable, h, Option.mem_some_iff, forall_eq']
  cases event.newState with
  | accepted =>
    by_cases hv : event.clientOrderId ∈ s.brokerIdToOrder.values
    · exact iff_of_true (by simpa only [if_pos hv] using hr) (Or.inl hv)
    · refine Iff.trans ?_ (or_iff_right hv).symm
      simpa only [if_neg hv] using replayAgrees_recordAccepted_iff hs hr h _ _
  | partiallyFilled | filled =>
    cases event.fill with
    | none => exact iff_of_true hr (by simp)
    | some fill => simpa using replayAgrees_handleFill_iff hs hr h fill _
  | canceled =>
    refine iff_of_true ((replayAgrees_handleClosing_iff hs hr h _ rfl (fun _ => rfl)
      fun o o' hv => hv).mpr ?_) trivial
    by_cases ht : order.state.Terminal
    · exact Or.inl ht
    · exact Or.inr (hs.settles_cancel h ht)
  | rejected => exact replayAgrees_handleRejection_iff hs hr h _ _
  | expired =>
    exact replayAgrees_handleClosing_iff hs hr h _ rfl (fun _ => rfl) fun o o' hv => hv
  | new | unknown => exact iff_of_true hr trivial

theorem replayAgrees_settleSubmit_iff (hs : s.WellFormed) (hr : s.ReplayAgrees)
    (outcome : SubmitOutcome) (now : Time) :
    (s.settleSubmit k outcome now).ReplayAgrees ↔ s.Replayable (.settleSubmit k outcome now) := by
  rcases h : s.orders.get? k with _ | order
  · have hself : s.settleSubmit k outcome now = s := by
      cases outcome <;>
        simp [settleSubmit, handleRejection, handleClosing, recordAccepted, h]
    rw [hself]
    exact iff_of_true hr (by simp [Replayable, h])
  simp only [Replayable, h, Option.mem_some_iff, forall_eq']
  cases outcome with
  | returned brokerOrderId =>
    dsimp only [settleSubmit]
    by_cases hv : brokerOrderId ∈ s.brokerIdToOrder.keys
    · exact iff_of_true (by simpa only [if_pos hv] using hr) (Or.inl hv)
    · refine Iff.trans ?_ (or_iff_right hv).symm
      simpa only [if_neg hv] using replayAgrees_recordAccepted_iff hs hr h _ _
  | rejected reason => exact replayAgrees_handleRejection_iff hs hr h _ _
  | unavailable => exact iff_of_true hr trivial

/-- **A handler keeps the log true exactly when it is replayable.** -/
theorem replayAgrees_handle_iff (hs : s.WellFormed) (hr : s.ReplayAgrees) (h : Handler) :
    (s.handle h).ReplayAgrees ↔ s.Replayable h := by
  cases h with
  | persistIntent order now =>
    by_cases hp : order.state = .pending
    · rw [handle, if_pos hp, (persistIntent_introduces s hp now).replayAgrees_iff hr]
      simp [Replayable, hp]
    · rw [handle, if_neg hp]
      exact iff_of_true hr fun h => absurd h hp
  | settleSubmit orderId outcome now => exact replayAgrees_settleSubmit_iff hs hr outcome now
  | requestCancel orderId now => exact iff_of_true (replayAgrees_requestCancel hs hr now) trivial
  | forceCloseFilled orderId ts =>
    rcases h : s.orders.get? orderId with _ | order
    · rw [handle, forceCloseFilled, h]
      exact iff_of_true hr (by simp [Replayable, h])
    · simpa [handle, Replayable, h] using replayAgrees_forceCloseFilled_iff hs hr h ts
  | bookGhost ghost => exact iff_of_true (replayAgrees_bookGhost hs hr ghost) trivial
  | brokerEvent event now => exact replayAgrees_onBrokerEvent_iff hs hr event now

end Handlers

/-- An operation is replayable when its handlers are, each in the state it finds. -/
def ReplayableOp (s : Oms) (op : OmsOp) : Prop := Along handle Replayable s (s.handlers op)

instance (s : Oms) (op : OmsOp) : Decidable (s.ReplayableOp op) :=
  inferInstanceAs (Decidable (Along handle Replayable s (s.handlers op)))

/-- The handlers a list of operations runs. -/
def trace : Oms → List OmsOp → List Handler
  | _, [] => []
  | s, op :: ops => s.handlers op ++ trace (s.step op) ops

theorem along_trace_iff (s : Oms) (ops : List OmsOp) :
    Along handle Replayable s (s.trace ops) ↔ Along step ReplayableOp s ops := by
  induction ops generalizing s with
  | nil => exact Iff.rfl
  | cons op ops ih =>
    rw [trace, along_append, ← step_eq_run, ih, along_cons]
    exact Iff.rfl

/-- **The exact condition, over runs**: the log is the truth between any two handlers of a
run exactly when every operation of the run is replayable. -/
theorem replayAgrees_trace_iff (ops : List OmsOp) :
    (∀ pre, pre <+: Oms.empty.trace ops → (run handle Oms.empty pre).ReplayAgrees) ↔
      Along step ReplayableOp Oms.empty ops := by
  rw [← along_trace_iff]
  exact forall_reached_iff_along (fun (s : Oms) h (hs : s.WellFormed) => hs.handle h)
    (fun (s : Oms) h (hs : s.WellFormed) hr => replayAgrees_handle_iff hs hr h) WellFormed.empty
    replayAgrees_empty _

/-- **A crash loses nothing of a replayable run.** After every prefix of a run of
replayable operations, a new system that only replays the log shows the same orders and
machines as the live one. -/
theorem replayAgrees_of_replayable {ops : List OmsOp}
    (h : Along step ReplayableOp Oms.empty ops) {pre : List OmsOp} (hpre : pre <+: ops) :
    (run step Oms.empty pre).ReplayAgrees := by
  have hstep : ∀ (s : Oms) op, s.WellFormed ∧ s.ReplayAgrees → s.ReplayableOp op →
      (s.step op).WellFormed ∧ (s.step op).ReplayAgrees := by
    intro s op hs hop
    rw [step_eq_run]
    exact hop.invariant (fun s h (hs : s.WellFormed ∧ s.ReplayAgrees) hh =>
      ⟨hs.1.handle h, (replayAgrees_handle_iff hs.1 hs.2 h).mpr hh⟩) hs
  exact (h.invariant_reached hstep ⟨WellFormed.empty, replayAgrees_empty⟩ hpre).2

/-! ### Two runs -/

/-- A market order as the planner builds it. -/
def marketOrder (orderId : OrderId) (side : OrderSide) (qty : Decimal) : Order where
  id := orderId
  intentId := orderId
  agentId := .sonnet
  symbol := "AAPL"
  side := side
  qty := qty
  orderType := .market
  orderClass := .simple
  timeInForce := .day
  state := .pending
  createdAt := 0

/-- A fill event for such an order. -/
def fillEventFor (fillId : FillId) (orderId : OrderId) (side : OrderSide) (qty : Decimal)
    (newState : BrokerOrderState) : BrokerOrderEvent where
  brokerOrderId := "b-" ++ toString orderId
  clientOrderId := orderId
  newState := newState
  fill := some
    { id := fillId, orderId := orderId, agentId := .sonnet, symbol := "AAPL", side := side,
      qty := qty, price := 100, timestamp := 2 }

/-- Two orders: one is filled in two parts, the other cancelled; then a position the system
missed is adopted and a fee written off. -/
def quietRun : List OmsOp :=
  [.submitOrder (marketOrder 1 .buy 10) ⟨[], .returned "b-1"⟩ 0,
    .brokerEvent (fillEventFor 7 1 .buy 4 .partiallyFilled) 2,
    .submitOrder (marketOrder 2 .sell 3) ⟨[], .returned "b-2"⟩ 3,
    .brokerEvent (fillEventFor 8 1 .buy 6 .filled) 4,
    .brokerEvent { brokerOrderId := "b-2", clientOrderId := 2, newState := .canceled } 5,
    .adoptOrphanPosition ⟨3, 3, 9⟩ "BTCUSD" 2 50 .haiku 6,
    .bookFeeOffset ⟨4, 4, 10⟩ "BTCUSD" 1 50 .haiku 7]

theorem replayAgrees_quietRun : (run step Oms.empty quietRun).ReplayAgrees :=
  replayAgrees_of_replayable (by decide +kernel : Along step ReplayableOp Oms.empty quietRun)
    List.prefix_rfl

/-- A fill that arrives after the cancellation of its order. -/
def lateFillRun : List OmsOp :=
  [.submitOrder (marketOrder 1 .buy 10) ⟨[], .returned "b-1"⟩ 0,
    .brokerEvent { brokerOrderId := "b-1", clientOrderId := 1, newState := .canceled } 1,
    .brokerEvent (fillEventFor 7 1 .buy 4 .partiallyFilled) 2]

/-- **A late fill is lost on the order's state**: the live order stays cancelled, the
replayed one is partially filled. -/
theorem not_replayAgrees_lateFillRun : ¬(run step Oms.empty lateFillRun).ReplayAgrees := by
  intro h
  obtain ⟨b, hb, hv⟩ := replayAgrees_iff.mp h
  have hlog : (Book.empty.applyLog (run step Oms.empty lateFillRun).store).map
      (fun b => (b.orders.get? 1).map (·.state)) = some (some .partiallyFilled) := by
    decide +kernel
  have hlive : ((run step Oms.empty lateFillRun).orders.get? 1).map (·.state) =
      some .cancelled := by
    decide +kernel
  rw [hb, Option.map_some, Option.some_inj] at hlog
  have hstate := congrArg (Option.map OrderView.state) (hv 1).1
  rw [Option.map_map, Option.map_map] at hstate
  exact absurd (hlog.symm.trans (hstate.trans hlive)) (by decide)

end Oms

end TradingPlatform
