import TradingPlatform.Execution.ClosedOrders
import TradingPlatform.Execution.RecoverAgain

/-!
# The pass over the orders, one order at a time

Polling the broker about an order acts on the order's cell alone, as long as the broker answers
about the order it was asked about. So the pass over the open orders is a function of the cells
(`TradingPlatform.Reconciler.reconcileOrders_spec`), as a recovery is.

A pass has done its work when the next one has nothing to do. That is a question about one order
at a time as well, and `TradingPlatform.Reconciler.passSettles_iff` answers it. An order is polled
for as long as it is open, and each of the closing handlers logs its event before it asks the
machine. A machine without the arc leaves the order open, and the next pass logs the event again.
An order reported as filled is closed in one of two ways, by a fill for the missing quantity or,
when none is missing, by force; a fill that leaves some of the order open is followed by a forced
close in the next pass.
-/

namespace TradingPlatform

/-! ### What polling does to a cell -/

namespace Cell

/-- Act on the broker's status of an open order. -/
def followStatus (k : OrderId) (status : BrokerOrderStatus) (fillId : FillId) (cell : Cell) :
    Effect :=
  match status.state with
  | .partiallyFilled => cell.fillUp k status fillId status.updatedAt
  | .filled =>
    if 0 < status.filledQty - cell.order.filledQty then
      cell.fillUp k status fillId status.updatedAt
    else cell.forceCloseFilled status.updatedAt
  | .canceled => cell.handleClosing k (.orderCancelled none) id .cancel status.updatedAt
  | .rejected => cell.handleRejection k "broker rejected" status.updatedAt
  | .expired => cell.handleClosing k .orderExpired id .expire status.updatedAt
  | .new | .accepted | .unknown => (cell, [])

/-- **What a pass does to one order.** -/
def poll (env : ReconcileEnv) (k : OrderId) (cell : Cell) : Effect :=
  if cell.order.state.Terminal ∨ cell.order.brokerOrderId = none then (cell, [])
  else
    ((env.getOrder k).map fun status => cell.followStatus k status (env.fillId k)).getD (cell, [])

/-- **When following a status settles an order**: the machine has an arc for the end the broker
reports, and the fill that is made up for an order reported as filled fills it. -/
def Follows (cell : Cell) (status : BrokerOrderStatus) : Prop :=
  match status.state with
  | .canceled => cell.fsm.state.Takes .cancel
  | .rejected => cell.fsm.state.Takes .reject
  | .expired => cell.fsm.state.Takes .expire
  | .filled => 0 < status.filledQty - cell.order.filledQty →
      isFullyFilled cell.order.qty status.filledQty ∧
        (cell.fsm.state.Takes .fullFill ∨ cell.order.qty = status.filledQty)
  | .new | .accepted | .partiallyFilled | .unknown => True

instance (cell : Cell) (status : BrokerOrderStatus) : Decidable (cell.Follows status) := by
  obtain ⟨brokerId, clientId, symbol, side, qty, filledQty, price, state, submitted, updated⟩ :=
    status
  cases state with
  | canceled => exact inferInstanceAs (Decidable (cell.fsm.state.Takes .cancel))
  | rejected => exact inferInstanceAs (Decidable (cell.fsm.state.Takes .reject))
  | expired => exact inferInstanceAs (Decidable (cell.fsm.state.Takes .expire))
  | filled =>
    exact inferInstanceAs (Decidable (0 < filledQty - cell.order.filledQty →
      isFullyFilled cell.order.qty filledQty ∧
        (cell.fsm.state.Takes .fullFill ∨ cell.order.qty = filledQty)))
  | new | accepted | partiallyFilled | unknown => exact inferInstanceAs (Decidable True)

/-- An effect that logs nothing and leaves the order of the cell alone. -/
def Effect.Idle (effect : Effect) (cell : Cell) : Prop :=
  effect.2 = [] ∧ effect.1.order = cell.order

section Follow

variable {cell : Cell} {k : OrderId} {status : BrokerOrderStatus} {fillId fillId' : FillId}
  {ts : Time}

theorem idle_refl (cell : Cell) : Effect.Idle (cell, []) cell := ⟨rfl, rfl⟩

theorem canTrigger_iff_takes {fsm : OrderFsm} {event : OrderEvent} :
    fsm.canTrigger event = true ↔ fsm.state.Takes event := Iff.rfl

/-- The state of an order whose machine was driven. -/
theorem state_drive (cell : Cell) (order : Order) (event : OrderEvent) :
    (cell.drive order event).order.state =
      if cell.fsm.state.Takes event then event.target else order.state := by
  have hafter := state_after_takes cell.fsm event
  rw [drive, Order.moved]
  by_cases ht : cell.fsm.state.Takes event
  · rw [if_pos ht] at hafter ⊢
    rw [if_pos (canTrigger_iff_takes.mpr ht), hafter]
  · rw [if_neg ht, if_neg (mt canTrigger_iff_takes.mp ht)]

/-- A refused event leaves the machine where it was, and the order as it was rewritten. -/
theorem drive_of_not_takes {order : Order} {event : OrderEvent}
    (h : ¬cell.fsm.state.Takes event) : cell.drive order event = ⟨order, cell.fsm⟩ := by
  rw [drive, Order.moved, if_neg (mt canTrigger_iff_takes.mp h),
    after_of_not_canTrigger (mt canTrigger_iff_takes.mp h)]

/-- **A closing handler is not repeated exactly if the machine takes its event**: it logs first,
and asks the machine then. -/
theorem closing_settles_iff (hopen : ¬cell.order.state.Terminal) {kind : EventKind}
    {update : Order → Order} {event : OrderEvent} (hevent : event.target.Terminal)
    (hstate : (update cell.order).state = cell.order.state) :
    let closed := (cell.handleClosing k kind update event ts).1
    closed.order.state.Terminal ∨ (closed.handleClosing k kind update event ts).Idle closed ↔
      cell.fsm.state.Takes event := by
  dsimp only
  rw [handleClosing, if_neg hopen]
  dsimp only
  have hmoved := state_drive cell (update cell.order) event
  by_cases ht : cell.fsm.state.Takes event
  · rw [if_pos ht] at hmoved
    exact iff_of_true (Or.inl (hmoved ▸ hevent)) ht
  · rw [if_neg ht, hstate] at hmoved
    refine iff_of_false ?_ ht
    rintro (hterminal | ⟨hlog, -⟩)
    · exact hopen (hmoved ▸ hterminal)
    · rw [handleClosing, if_neg (hmoved ▸ hopen)] at hlog
      exact List.cons_ne_nil _ _ hlog

/-- What a fill that was missing leaves. -/
theorem fillUp_of_missing (hd : 0 < status.filledQty - cell.order.filledQty) :
    (cell.fillUp k status fillId ts).1 = cell.drive
      (cell.order.bookFill (syntheticFill cell.order status fillId ts) ts)
      (if isFullyFilled cell.order.qty status.filledQty then .fullFill else .partialFill) := by
  rw [fillUp, if_pos hd, handleFill, Order.fillEvent,
    show cell.order.filledQty + (syntheticFill cell.order status fillId ts).qty =
      status.filledQty from add_sub_cancel _ _]

theorem not_missing_fillUp :
    ¬0 < status.filledQty - (cell.fillUp k status fillId ts).1.order.filledQty := by
  rw [filledQty_fillUp, not_lt, sub_nonpos]
  exact le_max_right _ _

/-- A forced close is idle once it was refused. -/
theorem forceCloseFilled_settles (hopen : ¬cell.order.state.Terminal) :
    let closed := (cell.forceCloseFilled ts).1
    closed.order.state.Terminal ∨ (closed.forceCloseFilled ts).Idle closed := by
  dsimp only
  rw [forceCloseFilled, if_neg hopen]
  dsimp only
  by_cases ht : cell.fsm.state.Takes .fullFill
  · refine Or.inl ?_
    rw [state_drive, if_pos ht]
    decide
  · refine Or.inr ?_
    rw [drive_of_not_takes ht, forceCloseFilled, if_neg hopen]
    exact ⟨rfl, congrArg Cell.order (@drive_of_not_takes ⟨_, cell.fsm⟩ _ _ ht)⟩

/-- A forced close of an open order leaves the quantity that is filled. -/
theorem qty_forceCloseFilled (hopen : ¬cell.order.state.Terminal) :
    (cell.forceCloseFilled ts).1.order.qty = cell.order.filledQty := by
  rw [forceCloseFilled, if_neg hopen]
  dsimp only [drive, Order.moved]
  split_ifs <;> rfl

/-- A forced close leaves what is filled. -/
theorem filledQty_forceCloseFilled :
    (cell.forceCloseFilled ts).1.order.filledQty = cell.order.filledQty := by
  rw [forceCloseFilled]
  split_ifs
  · rfl
  · exact (Order.sameTrade_moved _ _ _).filledQty

theorem qty_drive_bookFill (fill : Fill) (event : OrderEvent) :
    (cell.drive (cell.order.bookFill fill ts) event).order.qty = cell.order.qty := by
  rw [drive, Order.moved]
  split_ifs <;> rfl

theorem isFullyFilled_self (qty : Decimal) : isFullyFilled qty qty = true := by
  rw [isFullyFilled, sub_self]
  decide +kernel

/-- **When a fill that was missing settles an order reported as filled.** -/
theorem fillUp_settles_iff (hopen : ¬cell.order.state.Terminal)
    (hd : 0 < status.filledQty - cell.order.filledQty) :
    let filled := (cell.fillUp k status fillId ts).1
    filled.order.state.Terminal ∨ (filled.forceCloseFilled ts).Idle filled ↔
      isFullyFilled cell.order.qty status.filledQty ∧
        (cell.fsm.state.Takes .fullFill ∨ cell.order.qty = status.filledQty) := by
  have hfilledQty : (cell.fillUp k status fillId ts).1.order.filledQty = status.filledQty :=
    filledQty_fillUp.trans (max_eq_right (sub_pos.mp hd).le)
  dsimp only
  rw [fillUp_of_missing hd] at hfilledQty ⊢
  set fill := syntheticFill cell.order status fillId ts
  by_cases hfull : isFullyFilled cell.order.qty status.filledQty = true
  · rw [if_pos hfull] at hfilledQty ⊢
    rw [and_iff_right hfull]
    by_cases ht : cell.fsm.state.Takes .fullFill
    · refine iff_of_true (Or.inl ?_) (Or.inl ht)
      rw [state_drive, if_pos ht]
      decide
    -- the order stays open, and the next pass forces it closed
    · rw [drive_of_not_takes ht] at hfilledQty ⊢
      rw [or_iff_right ht, or_iff_right (by exact hopen), forceCloseFilled, if_neg (by exact hopen),
        drive_of_not_takes (by exact ht)]
      have hfilledAt : (cell.order.bookFill fill ts).filledAt = some ts := by
        rw [Order.bookFill, show cell.order.filledQty + fill.qty = status.filledQty from
          hfilledQty]
        exact if_pos hfull
      constructor
      · rintro ⟨-, horder⟩
        exact (congrArg Order.qty horder).symm.trans hfilledQty
      · intro hqty
        refine ⟨rfl, ?_⟩
        change { cell.order.bookFill fill ts with
          qty := (cell.order.bookFill fill ts).filledQty, filledAt := some ts } = _
        rw [← hfilledAt, show (cell.order.bookFill fill ts).filledQty = cell.order.qty from
          hfilledQty.trans hqty.symm]
        rfl
  · rw [if_neg hfull] at hfilledQty ⊢
    refine iff_of_false ?_ fun h => hfull h.1
    have hstate := state_drive cell (cell.order.bookFill fill ts) .partialFill
    have hopen' :
        ¬(cell.drive (cell.order.bookFill fill ts) .partialFill).order.state.Terminal := by
      rw [hstate]
      split_ifs
      · decide
      · exact hopen
    rintro (hterminal | ⟨-, horder⟩)
    · exact hopen' hterminal
    · have hqty := @qty_forceCloseFilled _ ts hopen'
      rw [horder, hfilledQty, qty_drive_bookFill] at hqty
      exact hfull (hqty ▸ isFullyFilled_self _)

theorem followStatus_settles_iff (hopen : ¬cell.order.state.Terminal) :
    let followed := (cell.followStatus k status fillId).1
    followed.order.state.Terminal ∨
        (followed.followStatus k status fillId').Idle followed ↔ cell.Follows status := by
  dsimp only
  unfold followStatus Follows
  cases hst : status.state with
  | new | accepted | unknown => exact iff_of_true (Or.inr (idle_refl cell)) trivial
  | canceled => exact closing_settles_iff hopen (by decide) rfl
  | rejected => exact closing_settles_iff hopen (by decide) rfl
  | expired => exact closing_settles_iff hopen (by decide) rfl
  | partiallyFilled =>
    refine iff_of_true (Or.inr ?_) trivial
    dsimp only
    rw [fillUp, if_neg not_missing_fillUp]
    exact idle_refl _
  | filled =>
    dsimp only
    by_cases hd : 0 < status.filledQty - cell.order.filledQty
    · rw [if_pos hd, if_neg not_missing_fillUp, forall_prop_of_true hd]
      exact fillUp_settles_iff hopen hd
    · rw [if_neg hd]
      refine iff_of_true ?_ fun h => absurd h hd
      rw [filledQty_forceCloseFilled, if_neg hd]
      exact forceCloseFilled_settles hopen

/-- Following a status leaves the broker's identifier of the order. -/
theorem brokerOrderId_followStatus :
    (cell.followStatus k status fillId).1.order.brokerOrderId = cell.order.brokerOrderId := by
  have hdrive : ∀ (order : Order) event, order.brokerOrderId = cell.order.brokerOrderId →
      (cell.drive order event).order.brokerOrderId = cell.order.brokerOrderId :=
    fun order event h => (Order.brokerOrderId_moved _ _ _).trans h
  unfold followStatus
  cases status.state with
  | new | accepted | unknown => rfl
  | canceled | rejected | expired =>
    dsimp only [handleRejection, handleClosing]
    split_ifs
    · rfl
    · exact hdrive _ _ rfl
  | partiallyFilled =>
    dsimp only [fillUp, handleFill]
    split_ifs
    · exact hdrive _ _ rfl
    · rfl
  | filled =>
    dsimp only [fillUp, handleFill, forceCloseFilled]
    split_ifs <;> first | exact hdrive _ _ rfl | rfl

end Follow

section Poll

variable {env env' : ReconcileEnv} {k : OrderId} {cell : Cell}

theorem poll_of_status (hopen : ¬cell.order.state.Terminal) (hid : cell.order.brokerOrderId ≠ none)
    {status : BrokerOrderStatus} (h : env.getOrder k = some status) :
    cell.poll env k = cell.followStatus k status (env.fillId k) := by
  rw [poll, if_neg (not_or.mpr ⟨hopen, hid⟩), h]
  rfl

theorem poll_of_terminal (h : cell.order.state.Terminal) : cell.poll env k = (cell, []) :=
  if_pos (Or.inl h)

/-- **When polling an order twice is polling it once.** -/
theorem poll_settles_iff (hsame : env'.getOrder k = env.getOrder k) :
    ((cell.poll env k).1.poll env' k).Idle (cell.poll env k).1 ↔
      (¬cell.order.state.Terminal → cell.order.brokerOrderId ≠ none →
        ∀ status, env.getOrder k = some status → cell.Follows status) := by
  by_cases hopen : cell.order.state.Terminal
  · rw [poll_of_terminal hopen, poll_of_terminal hopen]
    exact iff_of_true (idle_refl cell) (absurd hopen)
  rw [forall_prop_of_true hopen]
  by_cases hid : cell.order.brokerOrderId = none
  · have hpoll : ∀ env, cell.poll env k = (cell, []) := fun env => if_pos (Or.inr hid)
    rw [hpoll, hpoll]
    exact iff_of_true (idle_refl cell) (absurd hid)
  rw [forall_prop_of_true hid]
  rcases h : env.getOrder k with _ | status
  · have hpoll : ∀ env, env.getOrder k = none → cell.poll env k = (cell, []) := fun env h => by
      rw [poll, h]
      exact ite_self _
    rw [hpoll env h, hpoll env' (hsame.trans h)]
    exact iff_of_true (idle_refl cell) fun status hc => absurd hc.symm (Option.some_ne_none _)
  · simp only [Option.some.injEq, forall_eq']
    rw [poll_of_status hopen hid h]
    refine Iff.trans ?_
      (@followStatus_settles_iff cell k status (env.fillId k) (env'.fillId k) hopen)
    by_cases hterminal : (cell.followStatus k status (env.fillId k)).1.order.state.Terminal
    · rw [poll_of_terminal hterminal]
      exact iff_of_true (idle_refl _) (Or.inl hterminal)
    · rw [poll_of_status hterminal (brokerOrderId_followStatus.trans_ne hid) (hsame.trans h)]
      exact (or_iff_right hterminal).symm

end Poll

end Cell

namespace Reconciler

open Oms

section Pass

variable {env : ReconcileEnv} {s : Oms} {cell : Cell} {status : BrokerOrderStatus}

/-- **Acting on a status acts on the order's cell.** -/
theorem applyStatus_actsOn (hs : s.Paired) (h : s.cell cell.order.id = some cell)
    (hopen : ¬cell.order.state.Terminal) (hid : status.clientOrderId = cell.order.id)
    (fillId : FillId) :
    s.ActsOn (applyStatus s cell.order status fillId).1 cell.order.id
      (cell.followStatus cell.order.id status fillId) := by
  have ho := (Book.cell_eq_some_iff.mp h).1
  have hk : status.clientOrderId ∈ s.orders.keys := hid.symm ▸ Dict.mem_keys_of_get? ho
  have hfilling : 0 < status.filledQty - cell.order.filledQty →
      (status.state = .partiallyFilled ∨ status.state = .filled) →
        s.ActsOn (applyStatus s cell.order status fillId).1 cell.order.id
          (cell.fillUp cell.order.id status fillId status.updatedAt) := by
    intro hd hst
    rw [applyStatus_of_filling ((OrderState.open_iff_not_terminal _).mpr hopen) hst hd,
      Oms.onBrokerEvent_of_fill (by rw [← ho, ← hid]; rfl) hst rfl, Cell.fillUp, if_pos hd]
    change s.ActsOn (s.handleFill status.clientOrderId _ status.updatedAt) _ _
    rw [hid]
    exact handleFill_actsOn hs h rfl _
  unfold Cell.followStatus
  cases hst : status.state with
  | new | accepted | unknown =>
    rw [applyStatus, if_neg (by simp [statusRequiresUpdate, hopen, hst])]
    exact actsOn_refl hs h
  | canceled | rejected | expired =>
    have heq : (applyStatus s cell.order status fillId).1 =
        s.onBrokerEvent (statusEvent status none) status.updatedAt := by
      simp [applyStatus, statusRequiresUpdate, hopen, hst]
    rw [heq, onBrokerEvent, if_pos (by exact hk)]
    simp only [statusEvent, hst, hid]
    exact handleClosing_actsOn hs h trivial
  | partiallyFilled =>
    by_cases hd : 0 < status.filledQty - cell.order.filledQty
    · exact hfilling hd (Or.inl hst)
    · have heq : (applyStatus s cell.order status fillId).1 = s := by
        simp [applyStatus, statusRequiresUpdate, hopen, hst, hd, onBrokerEvent, statusEvent]
      dsimp only
      rw [heq, Cell.fillUp, if_neg hd]
      exact actsOn_refl hs h
  | filled =>
    dsimp only
    split_ifs with hd
    · exact hfilling hd (Or.inr hst)
    · have heq : (applyStatus s cell.order status fillId).1 =
          s.forceCloseFilled cell.order.id status.updatedAt := by
        simp [applyStatus, statusRequiresUpdate, hopen, hst, not_lt.mp hd, hd]
      rw [heq]
      exact forceCloseFilled_actsOn hs h _

/-- **Polling one order acts on its cell.** -/
theorem reconcileOrder_actsOn (hanswers : Answers env) (hs : s.Paired)
    (h : s.cell cell.order.id = some cell) (hopen : ¬cell.order.state.Terminal) :
    s.ActsOn (reconcileOrder env s cell.order).1 cell.order.id
      (cell.poll env cell.order.id) := by
  rw [reconcileOrder, Cell.poll]
  rcases hb : cell.order.brokerOrderId with _ | brokerOrderId
  · rw [if_pos (Or.inr rfl)]
    exact actsOn_refl hs h
  · rw [if_neg (by simpa using hopen)]
    rcases hstatus : env.getOrder cell.order.id with _ | status
    · exact actsOn_refl hs h
    · exact applyStatus_actsOn hs h hopen (hanswers _ _ hstatus) _

/-- **A pass polls every cell by itself.** -/
theorem reconcileOrders_spec (hanswers : Answers env) (hs : s.Keyed) :
    s.ActsOnAll (reconcileOrders env s s.listOpenOrders).1 (fun k => Cell.poll env k)
      (s.listOpenOrders.map (·.id)) := by
  obtain ⟨hnd, hlisted⟩ := get?_of_mem_listOpenOrders hs
  have hcell : ∀ order ∈ s.listOpenOrders, ∃ fsm, s.cell order.id = some ⟨order, fsm⟩ := by
    intro order hmem
    obtain ⟨fsm, hf⟩ := hs.exists_fsm (hlisted order hmem).1
    exact ⟨fsm, Book.cell_eq_some_iff.mpr ⟨(hlisted order hmem).1, hf⟩⟩
  rw [fst_reconcileOrders]
  refine actsOnAll_run hnd ⟨hs.fsms_isSome, hs.fills_isSome⟩ (fun order hmem => ?_)
    fun order hmem s' hs' hsame cell hc => ?_
  · obtain ⟨fsm, hc⟩ := hcell order hmem
    exact Option.isSome_iff_exists.mpr ⟨_, hc⟩
  · obtain ⟨fsm, hc₀⟩ := hcell order hmem
    obtain rfl : cell = ⟨order, fsm⟩ := Option.some.inj (hc.symm.trans (hsame.trans hc₀))
    have hopen := (OrderState.open_iff_not_terminal _).mp (hlisted order hmem).2
    exact @reconcileOrder_actsOn env s' ⟨order, fsm⟩ hanswers hs' hc hopen

/-- **The pass settles**: the next one, with the same answers, logs nothing and leaves every order
as it is. -/
def PassSettles (env env' : ReconcileEnv) (s : Oms) : Prop :=
  let s₁ := (reconcileOrders env s s.listOpenOrders).1
  let s₂ := (reconcileOrders env' s₁ s₁.listOpenOrders).1
  s₂.store = s₁.store ∧ s₂.orders = s₁.orders

/-- An order that is not listed as open is terminal. -/
theorem terminal_of_unlisted (hs : s.Keyed) {k : OrderId} (h : s.cell k = some cell)
    (hk : k ∉ s.listOpenOrders.map (·.id)) : cell.order.state.Terminal := by
  by_contra hopen
  have ho := (Book.cell_eq_some_iff.mp h).1
  refine hk (List.mem_map.mpr ⟨cell.order, ?_, hs.id_eq k _ ho⟩)
  rw [listOpenOrders, List.mem_filter]
  exact ⟨Dict.mem_values_of_get? ho, by simpa using (OrderState.open_iff_not_terminal _).mpr hopen⟩

theorem poll_of_unlisted (hs : s.Keyed) {k : OrderId} (h : s.cell k = some cell)
    (hk : k ∉ s.listOpenOrders.map (·.id)) : cell.poll env k = (cell, []) :=
  Cell.poll_of_terminal (terminal_of_unlisted hs h hk)

theorem cell_reconcileOrders (hanswers : Answers env) (hs : s.Keyed) (k : OrderId) :
    (reconcileOrders env s s.listOpenOrders).1.cell k =
      (s.cell k).map fun cell => (cell.poll env k).1 := by
  rw [(reconcileOrders_spec hanswers hs).cell]
  split_ifs with hk
  · rfl
  · rcases h : s.cell k with _ | cell
    · rfl
    · rw [Option.map_some, poll_of_unlisted hs h hk]

/-- Whether the log grows, and whether the orders change, is a question about the cells. -/
theorem idle_reconcileOrders_iff (hanswers : Answers env) (hs : s.Keyed) :
    (reconcileOrders env s s.listOpenOrders).1.store = s.store ∧
        (reconcileOrders env s s.listOpenOrders).1.orders = s.orders ↔
      ∀ k cell, s.cell k = some cell → (cell.poll env k).Idle cell := by
  have hpaired : s.Paired := ⟨hs.fsms_isSome, hs.fills_isSome⟩
  have hspec := reconcileOrders_spec hanswers hs
  have hstore : (reconcileOrders env s s.listOpenOrders).1.store = s.store ↔
      ∀ k ∈ s.listOpenOrders.map (·.id), effectLog (fun k => Cell.poll env k) s k = [] := by
    rw [hspec.store, List.append_right_eq_self, List.flatMap_eq_nil_iff]
  have horder : ∀ k, (reconcileOrders env s s.listOpenOrders).1.orders.get? k =
      (s.cell k).map fun cell => (cell.poll env k).1.order := fun k => by
    rw [hspec.paired.get?_orders, cell_reconcileOrders hanswers hs, Option.map_map]
    rfl
  constructor
  · rintro ⟨hlog, horders⟩ k cell h
    refine ⟨?_, ?_⟩
    · by_cases hk : k ∈ s.listOpenOrders.map (·.id)
      · have hnil := hstore.mp hlog k hk
        rwa [effectLog, h] at hnil
      · rw [poll_of_unlisted hs h hk]
    · have hk := horder k
      rw [horders, hpaired.get?_orders, h] at hk
      exact (Option.some.inj hk).symm
  · intro hidle
    refine ⟨hstore.mpr fun k _ => ?_, Dict.ext_get? hspec.keys fun k => ?_⟩
    · rw [effectLog]
      rcases h : s.cell k with _ | cell
      · rfl
      · exact (hidle k cell h).1
    · rw [horder, hpaired.get?_orders]
      rcases h : s.cell k with _ | cell
      · rfl
      · exact congrArg some (hidle k cell h).2

/-- **When a pass settles the orders**, in whatever state they are. -/
theorem passSettles_iff {env' : ReconcileEnv} (hanswers : Answers env) (hs : s.Keyed)
    (hsame : env'.getOrder = env.getOrder) :
    PassSettles env env' s ↔
      ∀ k cell, s.cell k = some cell → cell.order.state.Open → cell.order.brokerOrderId ≠ none →
        ∀ status, env.getOrder k = some status → cell.Follows status := by
  have hs₁ := (keyed_reconcileOrders env hs s.listOpenOrders).1
  have hanswers' : Answers env' := fun k status h => hanswers k status (hsame ▸ h)
  refine (idle_reconcileOrders_iff hanswers' hs₁).trans (forall_congr' fun k => ?_)
  rw [cell_reconcileOrders hanswers hs]
  rcases h : s.cell k with _ | cell
  · simp
  · have hopen := OrderState.open_iff_not_terminal cell.order.state
    simp only [Option.map_some, Option.some.injEq, forall_eq', hopen]
    exact Cell.poll_settles_iff (congrFun hsame k)

end Pass

/-- A pass in which the broker says of the order of `partFilledOms` that six shares are filled. -/
def sixFilledOnlyEnv (state : BrokerOrderState) : ReconcileEnv :=
  { sixFilledEnv state with getOrder := fun k => if k = 1 then some (sixFilled state) else none }

theorem answers_sixFilledOnlyEnv (state : BrokerOrderState) : Answers (sixFilledOnlyEnv state) := by
  intro k status h
  simp only [sixFilledOnlyEnv] at h
  split_ifs at h with hk
  cases h
  exact hk.symm

/-- A cancellation of the rest settles. -/
theorem passSettles_canceled :
    PassSettles (sixFilledOnlyEnv .canceled) (sixFilledOnlyEnv .canceled) partFilledOms := by
  refine (passSettles_iff (answers_sixFilledOnlyEnv _) keyed_partFilledOms rfl).mpr ?_
  have hall : ∀ k ∈ partFilledOms.orders.keys, ∀ cell ∈ partFilledOms.cell k,
      cell.Follows (sixFilled .canceled) := by
    decide +kernel
  intro k cell hc _ _ status hstatus
  have hk : k ∈ partFilledOms.orders.keys :=
    Dict.mem_keys_of_get? (Book.cell_eq_some_iff.mp hc).1
  simp only [sixFilledOnlyEnv] at hstatus
  split_ifs at hstatus
  cases hstatus
  exact hall k hk cell hc

/-- **Two passes that do not settle.** An order that is partially filled has no arc to rejected: it
stays open, and every pass logs the rejection again. And an order reported as filled at six shares
of ten stays open after the fill that was missing: the next pass forces it closed. -/
theorem not_passSettles_rejected_filled :
    ¬PassSettles (sixFilledOnlyEnv .rejected) (sixFilledOnlyEnv .rejected) partFilledOms ∧
      ¬PassSettles (sixFilledOnlyEnv .filled) (sixFilledOnlyEnv .filled) partFilledOms := by
  let pass (state : BrokerOrderState) (s : Oms) : Oms :=
    (reconcileOrders (sixFilledOnlyEnv state) s s.listOpenOrders).1
  have hlog : (pass .rejected (pass .rejected partFilledOms)).store.length =
      (pass .rejected partFilledOms).store.length + 1 := by
    decide +kernel
  have horder : ((pass .filled (pass .filled partFilledOms)).orders.get? 1).map (·.state) ≠
      ((pass .filled partFilledOms).orders.get? 1).map (·.state) := by
    decide +kernel
  constructor
  · rintro ⟨hstore, -⟩
    exact absurd (congrArg List.length hstore) (hlog.trans_ne (Nat.succ_ne_self _))
  · rintro ⟨-, horders⟩
    exact horder (congrArg (fun d => (d.get? 1).map (·.state)) horders)

end Reconciler

end TradingPlatform
