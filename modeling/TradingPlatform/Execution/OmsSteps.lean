import TradingPlatform.Execution.Oms
import TradingPlatform.Run

/-!
# What the live handlers do

Every handler that does anything does one of three things to the log and the maps,
possibly several times over:

* it *introduces* an order: logs the intent and puts a submitted order, its machine
  and an empty list of fills under the order's identifier
  (`TradingPlatform.Oms.Introduces`);
* it *advances* an order: logs one event, rewrites some fields of the order, and asks its
  machine for a transition (`TradingPlatform.Oms.Advances`);
* it *audits*: logs an event and touches no map (`TradingPlatform.Oms.Audits`).

The lemmas below say which of these each handler is, and at which arguments. The rest
of the development reasons about handlers through them and does not open a handler
again. Where only fills matter the distinction is coarser: everything but an introduction
and a fill is *quiet* (`TradingPlatform.Oms.Quiet`), and
`TradingPlatform.Oms.handle_cases` sorts the handlers accordingly.

Two invariants are carried along. The maps are always *keyed*
(`TradingPlatform.Oms.Keyed`): every order is under its own identifier and has its machine
and its fills. In the live system they are moreover *well formed*
(`TradingPlatform.Oms.WellFormed`): machine and order are in one state.
-/

namespace TradingPlatform

/-- The order after its machine was asked for a transition: it takes the machine's new
state, if the machine moved. -/
def Order.moved (order : Order) (fsm : OrderFsm) (event : OrderEvent) : Order :=
  if fsm.canTrigger event then { order with state := (fsm.after event).state } else order

/-- An event without an arc leaves the machine as it is. -/
theorem after_of_not_canTrigger {fsm : OrderFsm} {event : OrderEvent}
    (h : ¬fsm.canTrigger event) : fsm.after event = fsm := by
  rw [StateMachine.after, StateMachine.trigger_of_get?_eq_none]
  rwa [StateMachine.canTrigger, Bool.not_eq_true, Option.isSome_eq_false_iff,
    Option.isNone_iff_eq_none] at h

/-- An order in the state of its machine stays in the state of its machine. -/
theorem Order.moved_eq {order : Order} {fsm : OrderFsm} (h : fsm.state = order.state)
    (event : OrderEvent) :
    order.moved fsm event = { order with state := (fsm.after event).state } := by
  rw [Order.moved]
  split_ifs with hc
  · rfl
  · rw [after_of_not_canTrigger hc, h]

@[simp] theorem Order.id_moved (order : Order) (fsm : OrderFsm) (event : OrderEvent) :
    (order.moved fsm event).id = order.id := by
  rw [Order.moved]
  split_ifs <;> rfl

@[simp] theorem Order.brokerOrderId_moved (order : Order) (fsm : OrderFsm) (event : OrderEvent) :
    (order.moved fsm event).brokerOrderId = order.brokerOrderId := by
  rw [Order.moved]
  split_ifs <;> rfl

/-- Two versions of an order that trade alike: same identifier, agent, symbol and side, and
as much filled. -/
structure Order.SameTrade (order order' : Order) : Prop where
  id : order.id = order'.id
  agentId : order.agentId = order'.agentId
  symbol : order.symbol = order'.symbol
  side : order.side = order'.side
  filledQty : order.filledQty = order'.filledQty

theorem Order.SameTrade.refl (order : Order) : order.SameTrade order := ⟨rfl, rfl, rfl, rfl, rfl⟩

theorem Order.SameTrade.trans {o₁ o₂ o₃ : Order} (h : o₁.SameTrade o₂) (h' : o₂.SameTrade o₃) :
    o₁.SameTrade o₃ :=
  ⟨h.id.trans h'.id, h.agentId.trans h'.agentId, h.symbol.trans h'.symbol, h.side.trans h'.side,
    h.filledQty.trans h'.filledQty⟩

/-- Orders about one trade correct a fill alike. -/
theorem Order.SameTrade.correctedFor_eq {order order' : Order} (h : order.SameTrade order')
    (fill : Fill) : fill.correctedFor order = fill.correctedFor order' := by
  rw [Fill.correctedFor, h.agentId, h.symbol, Fill.correctedFor]

theorem Order.sameTrade_moved (order : Order) (fsm : OrderFsm) (event : OrderEvent) :
    (order.moved fsm event).SameTrade order := by
  rw [Order.moved]
  split_ifs <;> exact ⟨rfl, rfl, rfl, rfl, rfl⟩

/-- An event of the log that neither introduces an order nor brings a fill. -/
def LoggedEvent.Silent (logged : LoggedEvent) : Prop :=
  match logged.kind with
  | .orderSubmitIntent _ | .fillReceived _ => False
  | _ => True

namespace Oms

/-- **The invariant of the maps**, live or replayed. -/
structure Keyed (s : Oms) : Prop where
  /-- An order has its machine. -/
  fsms_isSome : ∀ k, (s.fsms.get? k).isSome = (s.orders.get? k).isSome
  /-- An order has a list of fills. -/
  fills_isSome : ∀ k, (s.fillsByOrder.get? k).isSome = (s.orders.get? k).isSome
  /-- An order is kept under its own identifier. -/
  id_eq : ∀ k order, s.orders.get? k = some order → order.id = k

/-- **The invariant of the live maps.** -/
structure WellFormed (s : Oms) : Prop extends Keyed s where
  /-- An order and its machine are in one state. -/
  state_eq : ∀ k fsm order, s.fsms.get? k = some fsm → s.orders.get? k = some order →
    fsm.state = order.state
  /-- No order is left pending. -/
  ne_pending : ∀ k order, s.orders.get? k = some order → order.state ≠ .pending

theorem WellFormed.empty : Oms.empty.WellFormed where
  fsms_isSome _ := rfl
  fills_isSome _ := rfl
  id_eq _ _ h := absurd h (by simp [Oms.empty, Book.empty])
  state_eq _ _ _ _ h := absurd h (by simp [Oms.empty, Book.empty])
  ne_pending _ _ h := absurd h (by simp [Oms.empty, Book.empty])

/-- The machine of an order the system knows. -/
theorem Keyed.exists_fsm {s : Oms} (hs : s.Keyed) {k : OrderId} {order : Order}
    (h : s.orders.get? k = some order) : ∃ fsm, s.fsms.get? k = some fsm := by
  have hk := hs.fsms_isSome k
  rw [h, Option.isSome_some] at hk
  exact Option.isSome_iff_exists.mp hk

/-- The fills of an order the system knows. -/
theorem Keyed.exists_fills {s : Oms} (hs : s.Keyed) {k : OrderId} {order : Order}
    (h : s.orders.get? k = some order) : ∃ fills, s.fillsByOrder.get? k = some fills := by
  have hk := hs.fills_isSome k
  rw [h, Option.isSome_some] at hk
  exact Option.isSome_iff_exists.mp hk

/-- In the live system the machine is in the state of the order. -/
theorem WellFormed.exists_fsm {s : Oms} (hs : s.WellFormed) {k : OrderId} {order : Order}
    (h : s.orders.get? k = some order) :
    ∃ fsm, s.fsms.get? k = some fsm ∧ fsm.state = order.state := by
  obtain ⟨fsm, hf⟩ := hs.toKeyed.exists_fsm h
  exact ⟨fsm, hf, hs.state_eq k fsm order hf h⟩

/-! ### The three steps -/

/-- `s'` is `s` with an order introduced. -/
structure Introduces (s s' : Oms) (order : Order) (ts : Time) : Prop where
  store : s'.store = s.store ++ [⟨.orderSubmitIntent (serializeOrder order), order.id, ts⟩]
  orders : ∀ k, s'.orders.get? k =
    if k = order.id then some { order with state := .submitted } else s.orders.get? k
  fsms : ∀ k, (s'.fsms.get? k).map (·.state) =
    if k = order.id then some .submitted else (s.fsms.get? k).map (·.state)
  fills : ∀ k, s'.fillsByOrder.get? k =
    if k = order.id then some [] else s.fillsByOrder.get? k
  keys : s'.orders.keys = (s.orders.set order.id order).keys

/-- The maps of `s'` are those of `s` with the order under `k` replaced by `order`, moved by
its machine `fsm` on a lifecycle event, and some fills added. -/
structure Moves (s s' : Oms) (k : OrderId) (order : Order) (fsm : OrderFsm)
    (event : OrderEvent) (fills : List Fill) : Prop where
  orders : ∀ k', s'.orders.get? k' =
    if k' = k then some (order.moved fsm event) else s.orders.get? k'
  fsms : ∀ k', s'.fsms.get? k' = if k' = k then some (fsm.after event) else s.fsms.get? k'
  fills : ∀ k', s'.fillsByOrder.get? k' =
    if k' = k then (s.fillsByOrder.get? k').map (· ++ fills) else s.fillsByOrder.get? k'
  keys : s'.orders.keys = s.orders.keys

/-- `s'` is `s` with an event logged and the order it is about moved. -/
structure Advances (s s' : Oms) (logged : LoggedEvent) (order : Order) (fsm : OrderFsm)
    (event : OrderEvent) (fills : List Fill) : Prop
    extends Moves s s' logged.orderId order fsm event fills where
  store : s'.store = s.store ++ [logged]

/-- `s'` is `s` with an event logged. -/
structure Audits (s s' : Oms) (logged : LoggedEvent) : Prop where
  store : s'.store = s.store ++ [logged]
  book : s'.toBook = s.toBook

/-- Publishing is no part of an advance. -/
theorem Advances.publish {s s' : Oms} {logged : LoggedEvent} {order : Order} {fsm : OrderFsm}
    {event : OrderEvent} {fills : List Fill} (h : s.Advances s' logged order fsm event fills)
    (published : BusEvent) : s.Advances (s'.publish published) logged order fsm event fills :=
  ⟨⟨h.orders, h.fsms, h.fills, h.keys⟩, h.store⟩

/-- A machine never enters the pending state. -/
theorem state_after_ne_pending {fsm : OrderFsm} (h : fsm.state ≠ .pending) (event : OrderEvent) :
    (fsm.after event).state ≠ .pending := by
  rw [StateMachine.state_after]
  rcases harc : orderTable.get? (fsm.state, event) with _ | toState
  · exact h
  · rw [Option.getD_some, orderTable_get?_eq_some harc]
    cases event <;> decide

/-- The order that was introduced. -/
theorem Introduces.get?_self {s s' : Oms} {order : Order} {ts : Time}
    (h : s.Introduces s' order ts) :
    s'.orders.get? order.id = some { order with state := .submitted } := by
  rw [h.orders, if_pos rfl]

theorem Introduces.keyed {s s' : Oms} {order : Order} {ts : Time}
    (h : s.Introduces s' order ts) (hs : s.Keyed) : s'.Keyed where
  fsms_isSome k := by
    rw [← Option.isSome_map, h.fsms, h.orders]
    split_ifs
    · rfl
    · rw [Option.isSome_map, hs.fsms_isSome]
  fills_isSome k := by
    rw [h.fills, h.orders]
    split_ifs
    · rfl
    · exact hs.fills_isSome k
  id_eq k order' hk := by
    rw [h.orders] at hk
    split_ifs at hk with hkk
    · cases hk
      exact hkk.symm
    · exact hs.id_eq k order' hk

theorem Introduces.wellFormed {s s' : Oms} {order : Order} {ts : Time}
    (h : s.Introduces s' order ts) (hs : s.WellFormed) : s'.WellFormed where
  toKeyed := h.keyed hs.toKeyed
  state_eq k fsm order' hf hk := by
    have hst := h.fsms k
    rw [hf, Option.map_some] at hst
    rw [h.orders] at hk
    split_ifs at hk hst
    · cases hk
      exact Option.some.inj hst
    · obtain ⟨fsm', hf', heq⟩ := Option.map_eq_some_iff.mp hst.symm
      exact heq.symm.trans (hs.state_eq k fsm' order' hf' hk)
  ne_pending k order' hk := by
    rw [h.orders] at hk
    split_ifs at hk
    · cases hk
      exact OrderState.noConfusion
    · exact hs.ne_pending k order' hk

theorem Moves.keyed {s s' : Oms} {k : OrderId} {old order : Order} {fsm : OrderFsm}
    {event : OrderEvent} {fills : List Fill} (h : s.Moves s' k order fsm event fills)
    (hs : s.Keyed) (hold : s.orders.get? k = some old) (hid : order.id = old.id) : s'.Keyed where
  fsms_isSome k' := by
    rw [h.fsms, h.orders]
    split_ifs
    · rfl
    · exact hs.fsms_isSome k'
  fills_isSome k' := by
    rw [h.fills, h.orders]
    split_ifs with hk
    · rw [hk, Option.isSome_map, hs.fills_isSome, hold]
      rfl
    · exact hs.fills_isSome k'
  id_eq k' order' hk := by
    rw [h.orders] at hk
    split_ifs at hk with hkk
    · cases hk
      exact (Order.id_moved _ _ _).trans (hid.trans ((hs.id_eq _ _ hold).trans hkk.symm))
    · exact hs.id_eq k' order' hk

theorem Moves.wellFormed {s s' : Oms} {k : OrderId} {old order : Order} {fsm : OrderFsm}
    {event : OrderEvent} {fills : List Fill} (h : s.Moves s' k order fsm event fills)
    (hs : s.WellFormed) (hold : s.orders.get? k = some old) (hf : s.fsms.get? k = some fsm)
    (hid : order.id = old.id) (hstate : order.state = old.state) : s'.WellFormed := by
  have hfsm : fsm.state = old.state := hs.state_eq k fsm old hf hold
  have hmoved := Order.moved_eq (hfsm.trans hstate.symm) event
  refine ⟨h.keyed hs.toKeyed hold hid, fun k' fsm' order' hf' hk => ?_, fun k' order' hk => ?_⟩
  · rw [h.fsms] at hf'
    rw [h.orders, hmoved] at hk
    split_ifs at hk hf'
    · cases hk
      cases hf'
      rfl
    · exact hs.state_eq k' fsm' order' hf' hk
  · rw [h.orders, hmoved] at hk
    split_ifs at hk
    · cases hk
      exact state_after_ne_pending (hfsm ▸ hs.ne_pending _ _ hold) event
    · exact hs.ne_pending k' order' hk

/-! ### Transitions -/

@[simp] theorem store_transition (s : Oms) (k : OrderId) (event : OrderEvent) (ts : Time) :
    (s.transition k event ts).store = s.store := by
  unfold transition
  split
  · rfl
  · split <;> rfl

@[simp] theorem fillsByOrder_transition (s : Oms) (k : OrderId) (event : OrderEvent) (ts : Time) :
    (s.transition k event ts).fillsByOrder = s.fillsByOrder := by
  unfold transition
  split
  · rfl
  · split <;> rfl

@[simp] theorem keys_orders_transition (s : Oms) (k : OrderId) (event : OrderEvent) (ts : Time) :
    (s.transition k event ts).orders.keys = s.orders.keys := by
  unfold transition
  split
  · rfl
  · split
    · exact Dict.keys_modify _ _ _
    · rfl

section Transition

variable {s : Oms} {k : OrderId} {order : Order} {fsm : OrderFsm}

theorem get?_orders_transition (h : s.orders.get? k = some order) (hf : s.fsms.get? k = some fsm)
    (event : OrderEvent) (ts : Time) (k' : OrderId) :
    (s.transition k event ts).orders.get? k' =
      if k' = k then some (order.moved fsm event) else s.orders.get? k' := by
  rw [transition, hf, Order.moved]
  dsimp only
  split_ifs with hc hk hk
  · rw [hk, Dict.get?_modify, if_pos rfl, h]
    rfl
  · rw [Dict.get?_modify, if_neg hk]
  · rw [hk, h]
  · rfl

theorem get?_fsms_transition (hf : s.fsms.get? k = some fsm) (event : OrderEvent) (ts : Time)
    (k' : OrderId) :
    (s.transition k event ts).fsms.get? k' =
      if k' = k then some (fsm.after event) else s.fsms.get? k' := by
  rw [transition, hf]
  dsimp only
  split_ifs with hc hk hk
  · rw [hk, Dict.get?_set, if_pos rfl]
  · rw [Dict.get?_set, if_neg hk]
  · rw [hk, hf, after_of_not_canTrigger hc]
  · rfl

/-- Adding no fill to a list of fills leaves it as it is. -/
theorem get?_fills_append_nil (d : Dict OrderId (List Fill)) (k k' : OrderId) :
    d.get? k' = if k' = k then (d.get? k').map (· ++ []) else d.get? k' := by
  simp

/-- Rewriting an order and driving its machine moves it. -/
theorem moves_transition {s t : Oms} {k : OrderId} {old order : Order} {fills : List Fill}
    (hold : s.orders.get? k = some old) (hf : s.fsms.get? k = some fsm)
    (hfsms : t.fsms = s.fsms)
    (horders : t.orders = s.orders.set k order)
    (hfills : ∀ k', t.fillsByOrder.get? k' =
      if k' = k then (s.fillsByOrder.get? k').map (· ++ fills) else s.fillsByOrder.get? k')
    (event : OrderEvent) (now : Time) :
    s.Moves (t.transition k event now) k order fsm event fills where
  orders k' := by
    have ho : t.orders.get? k = some order := by rw [horders, Dict.get?_set_self]
    rw [get?_orders_transition ho (by rw [hfsms, hf]), horders, Dict.get?_set]
    split_ifs <;> rfl
  fsms k' := by rw [get?_fsms_transition (by rw [hfsms, hf]), hfsms]
  fills k' := by rw [fillsByOrder_transition, hfills]
  keys := by
    rw [keys_orders_transition, horders, Dict.keys_set_of_mem _ (Dict.mem_keys_of_get? hold)]

/-! ### Which step each handler is -/

theorem recordAccepted_eq_self (h : s.orders.get? k = some order) {brokerOrderId : String}
    (hb : order.brokerOrderId = some brokerOrderId) (ts : Time) :
    s.recordAccepted k brokerOrderId ts = s := by
  rw [recordAccepted, h]
  exact if_pos hb

theorem recordAccepted_advances (h : s.orders.get? k = some order)
    (hf : s.fsms.get? k = some fsm) {brokerOrderId : String}
    (hb : order.brokerOrderId ≠ some brokerOrderId) (ts : Time) :
    s.Advances (s.recordAccepted k brokerOrderId ts) ⟨.orderAccepted brokerOrderId, k, ts⟩
      { order with brokerOrderId := some brokerOrderId, submittedAt := some ts } fsm .accept
      [] := by
  rw [recordAccepted, h]
  dsimp only
  rw [if_neg hb]
  refine ⟨moves_transition h hf ?_ ?_ ?_ _ _, store_transition _ _ _ _⟩
  · rfl
  · rfl
  · exact get?_fills_append_nil _ _

theorem handleFill_advances (h : s.orders.get? k = some order) (hf : s.fsms.get? k = some fsm)
    (fill : Fill) (ts : Time) :
    s.Advances (s.handleFill k fill ts)
      ⟨.fillReceived (serializeFill (fill.correctedFor order)), k, ts⟩
      (order.bookFill (fill.correctedFor order) ts) fsm
      (order.fillEvent (fill.correctedFor order)) [fill.correctedFor order] := by
  rw [handleFill, h]
  refine Advances.publish ?_ _
  refine ⟨moves_transition h hf ?_ ?_ ?_ _ _, store_transition _ _ _ _⟩
  · rfl
  · rfl
  · exact fun k' => Dict.get?_modify _ _ _ _

theorem handleClosing_eq_self (h : s.orders.get? k = some order) (ht : order.state.Terminal)
    (kind : EventKind) (update : Order → Order) (event : OrderEvent) (ts : Time) :
    s.handleClosing k kind update event ts = s := by
  rw [handleClosing, h]
  exact if_pos ht

theorem handleClosing_advances (h : s.orders.get? k = some order)
    (hf : s.fsms.get? k = some fsm) (ht : ¬order.state.Terminal) (kind : EventKind)
    (update : Order → Order) (event : OrderEvent) (ts : Time) :
    s.Advances (s.handleClosing k kind update event ts) ⟨kind, k, ts⟩ (update order) fsm event
      [] := by
  rw [handleClosing, h]
  dsimp only
  rw [if_neg ht]
  refine ⟨moves_transition h hf ?_ ?_ ?_ _ _, store_transition _ _ _ _⟩
  · rfl
  · rfl
  · exact get?_fills_append_nil _ _

end Transition

/-- Persisting an intent introduces the order. -/
theorem persistIntent_introduces (s : Oms) {order : Order} (h : order.state = .pending)
    (now : Time) : s.Introduces (s.persistIntent order now) order now := by
  have hfsm : ((buildOrderFsm .pending).after .submit).state = .submitted := by decide
  let t : Oms := { s with
    orders := s.orders.set order.id order
    fsms := s.fsms.set order.id (buildOrderFsm .pending)
    fillsByOrder := s.fillsByOrder.set order.id []
    store := s.store ++ [⟨.orderSubmitIntent (serializeOrder order), order.id, now⟩] }
  have ht : s.persistIntent order now = (t.transition order.id .submit now).publish _ := rfl
  have ho : t.orders.get? order.id = some order := Dict.get?_set_self _ _ _
  have hf : t.fsms.get? order.id = some (buildOrderFsm .pending) := Dict.get?_set_self _ _ _
  rw [ht]
  refine ⟨store_transition _ _ _ _, fun k => ?_, fun k => ?_, fun k => ?_, ?_⟩
  · refine (get?_orders_transition ho hf .submit now k).trans ?_
    rw [Order.moved_eq h.symm, hfsm]
    exact ite_congr rfl (fun _ => rfl) fun hk => Dict.get?_set_of_ne _ hk _
  · refine (congrArg _ (get?_fsms_transition hf .submit now k)).trans ?_
    by_cases hk : k = order.id
    · rw [if_pos hk, if_pos hk, Option.map_some, hfsm]
    · rw [if_neg hk, if_neg hk]
      exact congrArg _ (Dict.get?_set_of_ne _ hk _)
  · refine (congrArg (fun d => d.get? k) (fillsByOrder_transition t _ _ _)).trans ?_
    exact Dict.get?_set _ _ _ _
  · exact keys_orders_transition t _ _ _

/-- A synthetic order is introduced, accepted and filled. -/
theorem bookGhost_steps (s : Oms) (ghost : Ghost) :
    ∃ s₁ s₂ fsm, s.Introduces s₁ ghost.order ghost.ts ∧ fsm.state = .submitted ∧
      s₁.fsms.get? ghost.ids.order = some fsm ∧
      s₁.Advances s₂ ⟨.orderAccepted ghost.brokerOrderId, ghost.ids.order, ghost.ts⟩
        { ghost.order with
          state := .submitted, brokerOrderId := some ghost.brokerOrderId
          submittedAt := some ghost.ts } fsm .accept [] ∧
      s.bookGhost ghost = s₂.handleFill ghost.ids.order ghost.fill ghost.ts := by
  let fsm : OrderFsm := (buildOrderFsm .pending).after .submit
  have hfsm : fsm.state = .submitted := by decide
  have hfsm' : (fsm.after .accept).state = .accepted := by decide
  let s₁ : Oms := { s with
    orders := (s.orders.set ghost.ids.order ghost.order).modify ghost.ids.order fun order =>
      { order with state := .submitted }
    fsms := (s.fsms.set ghost.ids.order (buildOrderFsm .pending)).modify ghost.ids.order
      fun fsm => fsm.after .submit
    fillsByOrder := s.fillsByOrder.set ghost.ids.order []
    store := s.store ++
      [⟨.orderSubmitIntent (serializeOrder ghost.order), ghost.ids.order, ghost.ts⟩] }
  let s₂ : Oms := { s₁ with
    brokerIdToOrder := s.brokerIdToOrder.set ghost.brokerOrderId ghost.ids.order
    orders := (s₁.orders.modify ghost.ids.order fun order =>
      { order with
        brokerOrderId := some ghost.brokerOrderId
        submittedAt := some ghost.ts }).modify ghost.ids.order fun order =>
      { order with state := .accepted }
    fsms := s₁.fsms.modify ghost.ids.order fun fsm => fsm.after .accept
    store := s₁.store ++ [⟨.orderAccepted ghost.brokerOrderId, ghost.ids.order, ghost.ts⟩] }
  refine ⟨s₁, s₂, fsm, ?_, hfsm, ?_, ?_, rfl⟩
  · refine ⟨rfl, fun k => ?_, fun k => ?_, fun k => ?_, ?_⟩
    · by_cases hk : k = ghost.ids.order <;> simp [s₁, Ghost.order, hk]
    · by_cases hk : k = ghost.ids.order <;> simp [s₁, Ghost.order, hk, fsm] at hfsm ⊢
      exact hfsm
    · by_cases hk : k = ghost.ids.order <;> simp [s₁, Ghost.order, hk]
    · exact Dict.keys_modify _ _ _
  · simp [s₁, fsm]
  · refine ⟨⟨fun k => ?_, fun k => ?_, fun k => ?_, ?_⟩, rfl⟩
    · rw [Order.moved_eq (by exact hfsm), hfsm']
      by_cases hk : k = ghost.ids.order <;> simp [s₁, s₂, hk]
    · by_cases hk : k = ghost.ids.order <;> simp [s₁, s₂, hk, fsm]
    · exact get?_fills_append_nil _ _ _
    · exact (Dict.keys_modify _ _ _).trans (Dict.keys_modify _ _ _)

/-- What a cancellation request does to an order the broker never accepted. -/
theorem requestCancel_advances {s : Oms} {k : OrderId} {order : Order} {fsm : OrderFsm}
    (h : s.orders.get? k = some order) (hf : s.fsms.get? k = some fsm)
    (ht : ¬order.state.Terminal) (hb : order.brokerOrderId = none) (now : Time) :
    s.Advances (s.requestCancel k now)
      ⟨.orderCancelled (some "cancel before broker accept"), k, now⟩ order fsm .cancel [] := by
  rw [requestCancel, h]
  dsimp only
  rw [if_neg ht, hb]
  refine ⟨⟨?_, ?_, ?_, ?_⟩, store_transition _ _ _ _⟩
  · exact get?_orders_transition (s := s.append _ k now) h hf .cancel now
  · exact get?_fsms_transition (s := s.append _ k now) hf .cancel now
  · intro k'
    refine (congrArg (fun d => d.get? k') (fillsByOrder_transition _ _ _ _)).trans ?_
    exact get?_fills_append_nil _ _ _
  · exact keys_orders_transition _ _ _ _

/-- What it does to an order the broker accepted. -/
theorem requestCancel_audits {s : Oms} {k : OrderId} {order : Order}
    (h : s.orders.get? k = some order) (ht : ¬order.state.Terminal) {brokerOrderId : String}
    (hb : order.brokerOrderId = some brokerOrderId) (now : Time) :
    s.Audits (s.requestCancel k now) ⟨.orderCancelRequested brokerOrderId, k, now⟩ := by
  rw [requestCancel, h]
  dsimp only
  rw [if_neg ht, hb]
  exact ⟨rfl, rfl⟩

theorem requestCancel_eq_self {s : Oms} {k : OrderId} {order : Order}
    (h : s.orders.get? k = some order) (ht : order.state.Terminal) (now : Time) :
    s.requestCancel k now = s := by
  rw [requestCancel, h]
  exact if_pos ht

theorem forceCloseFilled_eq_self {s : Oms} {k : OrderId} {order : Order}
    (h : s.orders.get? k = some order) (ht : order.state.Terminal) (ts : Time) :
    s.forceCloseFilled k ts = s := by
  rw [forceCloseFilled, h]
  exact if_pos ht

/-- **A forced close writes nothing to the log**: it moves the order and that is all. -/
theorem forceCloseFilled_moves {s : Oms} {k : OrderId} {order : Order} {fsm : OrderFsm}
    (h : s.orders.get? k = some order) (hf : s.fsms.get? k = some fsm)
    (ht : ¬order.state.Terminal) (ts : Time) :
    s.Moves (s.forceCloseFilled k ts) k { order with qty := order.filledQty, filledAt := some ts }
      fsm .fullFill [] := by
  rw [forceCloseFilled, h]
  dsimp only
  rw [if_neg ht]
  refine moves_transition h hf ?_ ?_ ?_ _ _
  · rfl
  · rfl
  · exact get?_fills_append_nil _ _

@[simp] theorem store_forceCloseFilled (s : Oms) (k : OrderId) (ts : Time) :
    (s.forceCloseFilled k ts).store = s.store := by
  unfold forceCloseFilled
  split
  · rfl
  · split
    · rfl
    · exact store_transition _ _ _ _

/-! ### Quiet steps -/

/-- **A quiet step** adds no order and no fill, to the maps or to the log: it leaves the
maps alone, or moves one order that goes on trading as before, and what it logs is about
orders the system knows. -/
structure Quiet (s s' : Oms) : Prop where
  store : ∃ logged : List LoggedEvent, s'.store = s.store ++ logged ∧
    ∀ e ∈ logged, e.Silent ∧ e.orderId ∈ s.orders.keys
  maps : s'.toBook = s.toBook ∨ ∃ k old order fsm event,
    s.orders.get? k = some old ∧ s.fsms.get? k = some fsm ∧ order.SameTrade old ∧
      order.state = old.state ∧ s.Moves s' k order fsm event []

theorem Quiet.refl (s : Oms) : s.Quiet s := ⟨⟨[], by simp, by simp⟩, Or.inl rfl⟩

theorem Quiet.keyed {s s' : Oms} (h : s.Quiet s') (hs : s.Keyed) : s'.Keyed := by
  rcases h.maps with hbook | ⟨k, old, order, fsm, event, hold, -, hsame, -, hmove⟩
  · obtain ⟨book, store, bus⟩ := s'
    subst hbook
    exact ⟨hs.fsms_isSome, hs.fills_isSome, hs.id_eq⟩
  · exact hmove.keyed hs hold hsame.id

theorem Quiet.wellFormed {s s' : Oms} (h : s.Quiet s') (hs : s.WellFormed) : s'.WellFormed := by
  rcases h.maps with hbook | ⟨k, old, order, fsm, event, hold, hf, hsame, hstate, hmove⟩
  · obtain ⟨book, store, bus⟩ := s'
    subst hbook
    exact ⟨⟨hs.fsms_isSome, hs.fills_isSome, hs.id_eq⟩, hs.state_eq, hs.ne_pending⟩
  · exact hmove.wellFormed hs hold hf hsame.id hstate

theorem Quiet.keys {s s' : Oms} (h : s.Quiet s') : s'.orders.keys = s.orders.keys := by
  rcases h.maps with hbook | ⟨k, old, order, fsm, event, -, -, -, -, hmove⟩
  · rw [hbook]
  · exact hmove.keys

/-- An order goes on trading as before through a quiet step. -/
theorem Quiet.exists_order {s s' : Oms} (h : s.Quiet s') {k : OrderId} {order : Order}
    (ho : s.orders.get? k = some order) :
    ∃ order', s'.orders.get? k = some order' ∧ order'.SameTrade order := by
  rcases h.maps with hbook | ⟨k', old, order', fsm, event, hold, -, hsame, -, hmove⟩
  · rw [hbook]
    exact ⟨order, ho, .refl order⟩
  · rw [hmove.orders]
    by_cases hk : k = k'
    · subst hk
      obtain rfl : old = order := Option.some.inj (hold.symm.trans ho)
      exact ⟨_, if_pos rfl, (order'.sameTrade_moved fsm event).trans hsame⟩
    · exact ⟨order, by rw [if_neg hk, ho], .refl order⟩

/-- A fill adds its quantity to its order's. -/
theorem exists_order_handleFill {s : Oms} (hs : s.Keyed) {k : OrderId} {order : Order}
    (ho : s.orders.get? k = some order) (fill : Fill) (ts : Time) :
    ∃ order', (s.handleFill k fill ts).orders.get? k = some order' ∧
      order'.SameTrade { order with filledQty := order.filledQty + fill.qty } := by
  obtain ⟨fsm, hf⟩ := hs.exists_fsm ho
  refine ⟨_, (handleFill_advances ho hf fill ts).orders k |>.trans (if_pos rfl), ?_⟩
  exact (Order.sameTrade_moved _ _ _).trans ⟨rfl, rfl, rfl, rfl, rfl⟩

section Quiet

variable {s : Oms}

/-- A silent event about an order the system knows may be logged quietly. -/
theorem quiet_append {kind : EventKind} {k : OrderId} {ts : Time} (hk : k ∈ s.orders.keys)
    (h : (⟨kind, k, ts⟩ : LoggedEvent).Silent) : s.Quiet (s.append kind k ts) :=
  ⟨⟨[⟨kind, k, ts⟩], rfl, by simpa using ⟨h, hk⟩⟩, Or.inl rfl⟩

/-- An advance on a silent event is quiet. -/
theorem Advances.quiet {s' : Oms} {logged : LoggedEvent} {old order : Order} {fsm : OrderFsm}
    {event : OrderEvent} (h : s.Advances s' logged order fsm event [])
    (hold : s.orders.get? logged.orderId = some old)
    (hf : s.fsms.get? logged.orderId = some fsm) (hsame : order.SameTrade old)
    (hstate : order.state = old.state) (hsilent : logged.Silent) : s.Quiet s' :=
  ⟨⟨[logged], h.store, by simpa using ⟨hsilent, Dict.mem_keys_of_get? hold⟩⟩,
    Or.inr ⟨_, old, order, fsm, event, hold, hf, hsame, hstate, h.toMoves⟩⟩

theorem quiet_recordAccepted (hs : s.Keyed) (k : OrderId) (brokerOrderId : String) (ts : Time) :
    s.Quiet (s.recordAccepted k brokerOrderId ts) := by
  rcases h : s.orders.get? k with _ | order
  · rw [recordAccepted, h]
    exact Quiet.refl s
  · by_cases hb : order.brokerOrderId = some brokerOrderId
    · rw [recordAccepted_eq_self h hb]
      exact Quiet.refl s
    · obtain ⟨fsm, hf⟩ := hs.exists_fsm h
      exact (recordAccepted_advances h hf hb ts).quiet h hf ⟨rfl, rfl, rfl, rfl, rfl⟩ rfl trivial

theorem quiet_handleClosing (hs : s.Keyed) (k : OrderId) {kind : EventKind}
    {update : Order → Order} (event : OrderEvent) (ts : Time)
    (hsame : ∀ order : Order, (update order).SameTrade order)
    (hstate : ∀ order : Order, (update order).state = order.state)
    (hsilent : (⟨kind, k, ts⟩ : LoggedEvent).Silent) :
    s.Quiet (s.handleClosing k kind update event ts) := by
  rcases h : s.orders.get? k with _ | order
  · rw [handleClosing, h]
    exact Quiet.refl s
  · by_cases ht : order.state.Terminal
    · rw [handleClosing_eq_self h ht]
      exact Quiet.refl s
    · obtain ⟨fsm, hf⟩ := hs.exists_fsm h
      exact (handleClosing_advances h hf ht kind update event ts).quiet h hf (hsame _) (hstate _)
        hsilent

theorem quiet_handleCancellation (hs : s.Keyed) (k : OrderId) (ts : Time) :
    s.Quiet (s.handleCancellation k ts) :=
  quiet_handleClosing hs k _ ts (fun _ => ⟨rfl, rfl, rfl, rfl, rfl⟩) (fun _ => rfl) trivial

theorem quiet_handleRejection (hs : s.Keyed) (k : OrderId) (reason : String) (ts : Time) :
    s.Quiet (s.handleRejection k reason ts) :=
  quiet_handleClosing hs k _ ts (fun _ => ⟨rfl, rfl, rfl, rfl, rfl⟩) (fun _ => rfl) trivial

theorem quiet_handleExpiry (hs : s.Keyed) (k : OrderId) (ts : Time) :
    s.Quiet (s.handleExpiry k ts) :=
  quiet_handleClosing hs k _ ts (fun _ => ⟨rfl, rfl, rfl, rfl, rfl⟩) (fun _ => rfl) trivial

theorem quiet_settleSubmit (hs : s.Keyed) (k : OrderId) (outcome : SubmitOutcome) (now : Time) :
    s.Quiet (s.settleSubmit k outcome now) := by
  cases outcome with
  | returned brokerOrderId =>
    dsimp only [settleSubmit]
    split_ifs
    · exact Quiet.refl s
    · exact quiet_recordAccepted hs _ _ _
  | rejected reason => exact quiet_handleRejection hs _ _ _
  | unavailable => exact Quiet.refl s

theorem quiet_requestCancel (hs : s.Keyed) (k : OrderId) (now : Time) :
    s.Quiet (s.requestCancel k now) := by
  rcases h : s.orders.get? k with _ | order
  · rw [requestCancel, h]
    exact Quiet.refl s
  · by_cases ht : order.state.Terminal
    · rw [requestCancel_eq_self h ht]
      exact Quiet.refl s
    · obtain ⟨fsm, hf⟩ := hs.exists_fsm h
      rcases hb : order.brokerOrderId with _ | brokerOrderId
      · exact (requestCancel_advances h hf ht hb now).quiet h hf ⟨rfl, rfl, rfl, rfl, rfl⟩ rfl
          trivial
      · have haud := requestCancel_audits h ht hb now
        refine ⟨⟨_, haud.store, ?_⟩, Or.inl haud.book⟩
        simpa [LoggedEvent.Silent] using Dict.mem_keys_of_get? h

theorem quiet_forceCloseFilled (hs : s.Keyed) (k : OrderId) (ts : Time) :
    s.Quiet (s.forceCloseFilled k ts) := by
  rcases h : s.orders.get? k with _ | order
  · rw [forceCloseFilled, h]
    exact Quiet.refl s
  · by_cases ht : order.state.Terminal
    · rw [forceCloseFilled_eq_self h ht]
      exact Quiet.refl s
    · obtain ⟨fsm, hf⟩ := hs.exists_fsm h
      have hmove := forceCloseFilled_moves h hf ht ts
      refine ⟨⟨[], by simp, by simp⟩, Or.inr ⟨k, order, _, fsm, .fullFill, h, hf, ?_, ?_, hmove⟩⟩
      · exact ⟨rfl, rfl, rfl, rfl, rfl⟩
      · rfl

/-- **A broker event is quiet or brings a fill** to an order the system knows. -/
theorem onBrokerEvent_cases (hs : s.Keyed) (event : BrokerOrderEvent) (now : Time) :
    s.Quiet (s.onBrokerEvent event now) ∨
      ∃ order fill, s.orders.get? event.clientOrderId = some order ∧ event.fill = some fill ∧
        (event.newState = .partiallyFilled ∨ event.newState = .filled) ∧
        s.onBrokerEvent event now =
          s.handleFill event.clientOrderId fill (event.timestamp.getD now) := by
  by_cases hk : event.clientOrderId ∈ s.orders.keys
  · obtain ⟨order, ho⟩ := Dict.mem_keys_iff.mp hk
    rw [onBrokerEvent, if_pos hk]
    cases hst : event.newState with
    | accepted =>
      by_cases hv : event.clientOrderId ∈ s.brokerIdToOrder.values
      · exact Or.inl (by simpa only [if_pos hv] using Quiet.refl s)
      · exact Or.inl (by simpa only [if_neg hv] using quiet_recordAccepted hs _ _ _)
    | partiallyFilled | filled =>
      cases hfill : event.fill with
      | none => exact Or.inl (Quiet.refl s)
      | some fill => exact Or.inr ⟨order, fill, ho, rfl, by simp, rfl⟩
    | canceled => exact Or.inl (quiet_handleCancellation hs _ _)
    | rejected => exact Or.inl (quiet_handleRejection hs _ _ _)
    | expired => exact Or.inl (quiet_handleExpiry hs _ _)
    | new | unknown => exact Or.inl (Quiet.refl s)
  · rw [onBrokerEvent, if_neg hk]
    exact Or.inl (Quiet.refl s)

/-- A broker event adds no order. -/
theorem keys_onBrokerEvent (hs : s.Keyed) (event : BrokerOrderEvent) (now : Time) :
    (s.onBrokerEvent event now).orders.keys = s.orders.keys := by
  rcases onBrokerEvent_cases hs event now with hq | ⟨order, fill, ho, -, -, heq⟩
  · exact hq.keys
  · obtain ⟨fsm, hf⟩ := hs.exists_fsm ho
    rw [heq, (handleFill_advances ho hf fill _).keys]

theorem Keyed.onBrokerEvent (hs : s.Keyed) (event : BrokerOrderEvent) (now : Time) :
    (s.onBrokerEvent event now).Keyed := by
  rcases onBrokerEvent_cases hs event now with hq | ⟨order, fill, ho, -, -, heq⟩
  · exact hq.keyed hs
  · obtain ⟨fsm, hf⟩ := hs.exists_fsm ho
    rw [heq]
    exact (handleFill_advances ho hf fill _).keyed hs ho rfl

/-- What a broker event that brings a fill does. -/
theorem onBrokerEvent_of_fill {event : BrokerOrderEvent} {order : Order} {fill : Fill}
    (h : s.orders.get? event.clientOrderId = some order)
    (hst : event.newState = .partiallyFilled ∨ event.newState = .filled)
    (hfill : event.fill = some fill) {now : Time} :
    s.onBrokerEvent event now =
      s.handleFill event.clientOrderId fill (event.timestamp.getD now) := by
  rw [onBrokerEvent, if_pos (Dict.mem_keys_of_get? h)]
  rcases hst with hst | hst <;> rw [hst, hfill]

/-- A broker event without a fill is quiet. -/
theorem quiet_onBrokerEvent (hs : s.Keyed) {event : BrokerOrderEvent} (h : event.fill = none)
    (now : Time) : s.Quiet (s.onBrokerEvent event now) := by
  rcases onBrokerEvent_cases hs event now with hq | ⟨_, fill, -, hfill, -⟩
  · exact hq
  · rw [h] at hfill
    exact absurd hfill.symm (Option.some_ne_none _)

/-- A broker event leaves the orders it is not about alone. -/
theorem get?_onBrokerEvent_of_ne (hs : s.Keyed) {event : BrokerOrderEvent} {k : OrderId}
    {order : Order} (h : s.orders.get? k = some order) (hne : event.clientOrderId ≠ k)
    (now : Time) :
    ∃ order', (s.onBrokerEvent event now).orders.get? k = some order' ∧
      order'.SameTrade order := by
  rcases onBrokerEvent_cases hs event now with hq | ⟨o, fill, ho, -, -, heq⟩
  · exact hq.exists_order h
  · obtain ⟨fsm, hf⟩ := hs.exists_fsm ho
    rw [heq, (handleFill_advances ho hf fill _).orders]
    exact ⟨order, by rw [if_neg hne.symm, h], .refl order⟩

end Quiet

/-! ### Operations as runs of handlers -/

/-- One handler of the live system, with its arguments: what an operation is made of
when the broker delivers events in the middle of it. -/
inductive Handler
  | persistIntent (order : Order) (now : Time)
  | settleSubmit (orderId : OrderId) (outcome : SubmitOutcome) (now : Time)
  | requestCancel (orderId : OrderId) (now : Time)
  | forceCloseFilled (orderId : OrderId) (ts : Time)
  | bookGhost (ghost : Ghost)
  | brokerEvent (event : BrokerOrderEvent) (now : Time)

def handle (s : Oms) : Handler → Oms
  | .persistIntent order now => if order.state = .pending then s.persistIntent order now else s
  | .settleSubmit orderId outcome now => s.settleSubmit orderId outcome now
  | .requestCancel orderId now => s.requestCancel orderId now
  | .forceCloseFilled orderId ts => s.forceCloseFilled orderId ts
  | .bookGhost ghost => s.bookGhost ghost
  | .brokerEvent event now => s.onBrokerEvent event now

/-- The handlers an operation runs. -/
def handlers (s : Oms) : OmsOp → List Handler
  | .submitOrder order call now =>
    if order.state = .pending then
      .persistIntent order now :: (call.callbacks.map (.brokerEvent · now) ++
        [.settleSubmit order.id call.outcome now])
    else []
  | .cancelOrder orderId call now =>
    match s.orders.get? orderId with
    | none => []
    | some order =>
      if order.state.Terminal ∨ order.brokerOrderId = none then [.requestCancel orderId now]
      else .requestCancel orderId now :: call.callbacks.map (.brokerEvent · now)
  | .forceCloseFilled orderId ts => [.forceCloseFilled orderId ts]
  | .adoptOrphanPosition ids symbol qty price agentId ts =>
    [.bookGhost
      { ids := ids, brokerOrderId := "ghost-" ++ toString ids.order, side := .buy,
        symbol := symbol, qty := qty, price := price, agentId := agentId, ts := ts }]
  | .bookFeeOffset ids symbol qty price agentId ts =>
    [.bookGhost
      { ids := ids, brokerOrderId := "ghost-fee-" ++ toString ids.order, side := .sell,
        symbol := symbol, qty := qty, price := price, agentId := agentId, ts := ts }]
  | .brokerEvent event now => [.brokerEvent event now]

theorem run_brokerEvents (s : Oms) (events : List BrokerOrderEvent) (now : Time) :
    run handle s (events.map (.brokerEvent · now)) = s.onBrokerEvents events now := by
  rw [run, List.foldl_map]
  rfl

/-- A submission of a pending order: the intent, what the broker calls back, and its answer. -/
theorem submitOrder_fst {s : Oms} {order : Order} (h : order.state = .pending)
    {call : SubmitCall} {now : Time} :
    (s.submitOrder order call now).1 =
      ((s.persistIntent order now).onBrokerEvents call.callbacks now).settleSubmit order.id
        call.outcome now := by
  rw [submitOrder, if_pos h]
  cases call.outcome <;> rfl

/-- **An operation is the run of its handlers.** -/
theorem step_eq_run (s : Oms) (op : OmsOp) : s.step op = run handle s (s.handlers op) := by
  cases op with
  | submitOrder order call now =>
    by_cases h : order.state = .pending
    · have hstep : s.step (.submitOrder order call now) =
          ((s.persistIntent order now).onBrokerEvents call.callbacks now).settleSubmit order.id
            call.outcome now := submitOrder_fst h
      rw [hstep, handlers, if_pos h, run_cons, run_append, run_brokerEvents, handle, if_pos h]
      rfl
    · rw [step, submitOrder, if_neg h, handlers, if_neg h]
      rfl
  | cancelOrder orderId call now =>
    rcases h : s.orders.get? orderId with _ | order
    · simp only [step, cancelOrder, handlers, h]
      rfl
    · by_cases hc : order.state.Terminal ∨ order.brokerOrderId = none
      · simp only [step, cancelOrder, handlers, h, if_pos hc]
        rfl
      · simp only [step, cancelOrder, handlers, h, if_neg hc]
        rw [run_cons, run_brokerEvents]
        rfl
  | forceCloseFilled orderId ts => rfl
  | adoptOrphanPosition ids symbol qty price agentId ts => rfl
  | bookFeeOffset ids symbol qty price agentId ts => rfl
  | brokerEvent event now => rfl

/-- **What a handler can be**: quiet, an introduction, a synthetic order, or a fill for an
order the system knows. -/
theorem handle_cases {s : Oms} (hs : s.Keyed) (h : Handler) :
    s.Quiet (s.handle h) ∨
      (∃ order now, h = .persistIntent order now ∧ order.state = .pending ∧
        s.Introduces (s.handle h) order now) ∨
      (∃ ghost, h = .bookGhost ghost ∧ s.handle h = s.bookGhost ghost) ∨
      ∃ event now order fill, h = .brokerEvent event now ∧
        s.orders.get? event.clientOrderId = some order ∧ event.fill = some fill ∧
        (event.newState = .partiallyFilled ∨ event.newState = .filled) ∧
        s.handle h = s.handleFill event.clientOrderId fill (event.timestamp.getD now) := by
  cases h with
  | persistIntent order now =>
    by_cases hp : order.state = .pending
    · rw [handle, if_pos hp]
      exact Or.inr (Or.inl ⟨order, now, rfl, hp, persistIntent_introduces s hp now⟩)
    · rw [handle, if_neg hp]
      exact Or.inl (Quiet.refl s)
  | settleSubmit orderId outcome now => exact Or.inl (quiet_settleSubmit hs _ _ _)
  | requestCancel orderId now => exact Or.inl (quiet_requestCancel hs _ _)
  | forceCloseFilled orderId ts => exact Or.inl (quiet_forceCloseFilled hs _ _)
  | bookGhost ghost => exact Or.inr (Or.inr (Or.inl ⟨ghost, rfl, rfl⟩))
  | brokerEvent event now =>
    rcases onBrokerEvent_cases hs event now with hq | ⟨order, fill, ho, hf, hst, heq⟩
    · exact Or.inl hq
    · exact Or.inr (Or.inr (Or.inr ⟨event, now, order, fill, rfl, ho, hf, hst, heq⟩))

/-! ### The handlers keep the maps well formed -/

section Invariant

variable {s : Oms}

/-- A fill adds no order. -/
theorem keys_handleFill (hs : s.Keyed) (k : OrderId) (fill : Fill) (ts : Time) :
    (s.handleFill k fill ts).orders.keys = s.orders.keys := by
  rcases h : s.orders.get? k with _ | order
  · rw [Oms.handleFill, h]
  · obtain ⟨fsm, hf⟩ := hs.exists_fsm h
    exact (handleFill_advances h hf fill ts).keys

theorem Keyed.handleFill (hs : s.Keyed) (k : OrderId) (fill : Fill) (ts : Time) :
    (s.handleFill k fill ts).Keyed := by
  rcases h : s.orders.get? k with _ | order
  · rwa [Oms.handleFill, h]
  · obtain ⟨fsm, hf⟩ := hs.exists_fsm h
    exact (handleFill_advances h hf fill ts).keyed hs h rfl

theorem WellFormed.handleFill (hs : s.WellFormed) (k : OrderId) (fill : Fill) (ts : Time) :
    (s.handleFill k fill ts).WellFormed := by
  rcases h : s.orders.get? k with _ | order
  · rwa [Oms.handleFill, h]
  · obtain ⟨fsm, hf⟩ := hs.toKeyed.exists_fsm h
    exact (handleFill_advances h hf fill ts).wellFormed hs h hf rfl rfl

theorem Keyed.bookGhost (hs : s.Keyed) (ghost : Ghost) : (s.bookGhost ghost).Keyed := by
  obtain ⟨s₁, s₂, fsm, h₁, -, -, h₂, h₃⟩ := s.bookGhost_steps ghost
  rw [h₃]
  exact (h₂.keyed (h₁.keyed hs) h₁.get?_self rfl).handleFill _ _ _

theorem WellFormed.bookGhost (hs : s.WellFormed) (ghost : Ghost) :
    (s.bookGhost ghost).WellFormed := by
  obtain ⟨s₁, s₂, fsm, h₁, -, hf₁, h₂, h₃⟩ := s.bookGhost_steps ghost
  rw [h₃]
  exact (h₂.wellFormed (h₁.wellFormed hs) h₁.get?_self hf₁ rfl rfl).handleFill _ _ _

theorem Keyed.handle (hs : s.Keyed) (h : Handler) : (s.handle h).Keyed := by
  rcases handle_cases hs h with hq | ⟨order, now, -, -, hi⟩ | ⟨ghost, -, heq⟩ |
    ⟨event, now, order, fill, -, -, -, -, heq⟩
  · exact hq.keyed hs
  · exact hi.keyed hs
  · rw [heq]
    exact hs.bookGhost ghost
  · rw [heq]
    exact hs.handleFill _ _ _

theorem WellFormed.handle (hs : s.WellFormed) (h : Handler) : (s.handle h).WellFormed := by
  rcases handle_cases hs.toKeyed h with hq | ⟨order, now, -, -, hi⟩ | ⟨ghost, -, heq⟩ |
    ⟨event, now, order, fill, -, -, -, -, heq⟩
  · exact hq.wellFormed hs
  · exact hi.wellFormed hs
  · rw [heq]
    exact hs.bookGhost ghost
  · rw [heq]
    exact hs.handleFill _ _ _

/-- **The maps of the live system are well formed in every run.** -/
theorem WellFormed.run (hs : s.WellFormed) (ops : List OmsOp) : (run step s ops).WellFormed := by
  refine run_invariant (fun s op hs => ?_) hs ops
  rw [step_eq_run]
  exact run_invariant (fun s h hs => hs.handle h) hs _

end Invariant

end Oms

end TradingPlatform
