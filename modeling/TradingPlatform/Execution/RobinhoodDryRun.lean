import TradingPlatform.Execution.PaperDesk
import TradingPlatform.Execution.ReconcileCells
import TradingPlatform.Execution.Retry
import TradingPlatform.Execution.RobinhoodSubmit

/-!
# A dry run at Robinhood

Without live trading the adapter sends nothing. It gives every order an identifier of its own and,
when the reconciler asks, reports the whole order as filled, at a price it looks up once. Nothing
else fills an order in a dry run, and nothing at all cancels one: the request is noted in the log,
and the adapter does nothing about it. A restart begins with an adapter that knows no order, so it
gives up what was waiting.

So there is little to say about an order in a dry run: it waits, or was filled in full by one fill,
or was given up (`TradingPlatform.Fate`). The abstract run moves these fates only, and after every
run of the system on the adapter the books show exactly them
(`TradingPlatform.DryRunDesk.rehearsal_run`). The log is kept in step with the books, since a
restart reads the one and forgets the other.
-/

namespace TradingPlatform

/-! ### The adapter -/

/-- How asking for a price came out: an exception, or the two prices that are looked at, of which
there may be neither. -/
inductive PriceCall
  | raised
  | returned (lastPrice regularMarketPrice : Option Decimal)
  deriving DecidableEq

/-- The last price that was paid, or else the fallback. A price of zero is none. -/
def fetchLastPrice (call : PriceCall) (fallback : Option Decimal) : Option Decimal :=
  match call with
  | .raised => fallback
  | .returned lastPrice regularMarketPrice =>
    ((lastPrice.filter (· ≠ 0)).or (regularMarketPrice.filter (· ≠ 0))).or fallback

/-- The adapter, with the prices of the orders it filled in a dry run. -/
structure RobinhoodAdapter extends RobinhoodSubmitter where
  dryRunFills : Dict String (Option Decimal)

/-- What one poll draws from outside. -/
structure PollCall where
  price : PriceCall
  tool : ToolCall
  translation : Translation

namespace RobinhoodAdapter

def initial (live hasClient : Bool) : RobinhoodAdapter := ⟨.initial live hasClient, .empty⟩

/-- An identifier that was given in a dry run. -/
def IsDryRunId (brokerOrderId : String) : Prop := "DRYRUN-".toList <+: brokerOrderId.toList

instance (brokerOrderId : String) : Decidable (IsDryRunId brokerOrderId) :=
  inferInstanceAs (Decidable (_ <+: _))

/-- Submit an order, with nobody else at work. -/
def submitOrder (rb : RobinhoodAdapter) (order : Order) (uuid : String) (call : PlaceCall) :
    Except BrokerError String × RobinhoodAdapter :=
  let (reply, submitter) := rb.toRobinhoodSubmitter.submitOrder order uuid call
  (reply, { rb with toRobinhoodSubmitter := submitter })

/-- Cancel an order. In a dry run there is nothing to do. -/
def cancelOrder (rb : RobinhoodAdapter) (brokerOrderId : String) (call : ToolCall) :
    Except BrokerError Unit :=
  if ¬rb.live ∨ ¬rb.hasClient ∨ IsDryRunId brokerOrderId then .ok ()
  else
    match call with
    | .raised => .error .unavailable
    | .returned _ => .ok ()

/-- The status of an order that is filled. -/
def filledStatus (brokerOrderId : String) (order : Order) (price : Option Decimal) (now : Time) :
    BrokerOrderStatus where
  brokerOrderId := brokerOrderId
  clientOrderId := order.id
  symbol := order.symbol
  side := order.side
  qty := order.qty
  filledQty := order.qty
  avgFillPrice := price
  state := .filled
  submittedAt := now
  updatedAt := now
  rejectionReason := none

/-- Report an order as filled. Its price is looked up the first time, and kept. -/
def simulateFill (rb : RobinhoodAdapter) (brokerOrderId : String) (call : PollCall) :
    Option BrokerOrderStatus × RobinhoodAdapter :=
  match rb.dryRunOrders.get? brokerOrderId with
  | none => (none, rb)
  | some order =>
    let (price, rb) :=
      -- that no price was found is kept as well
      match rb.dryRunFills.get? brokerOrderId with
      | some price => (price, rb)
      | none =>
        let price := fetchLastPrice call.price order.limitPrice
        (price, { rb with dryRunFills := rb.dryRunFills.set brokerOrderId price })
    (some (filledStatus brokerOrderId order price call.translation.now), rb)

/-- Poll an order; there is no status if the call raises. -/
def getOrder (rb : RobinhoodAdapter) (brokerOrderId : String) (call : PollCall) :
    Option BrokerOrderStatus × RobinhoodAdapter :=
  if IsDryRunId brokerOrderId then rb.simulateFill brokerOrderId call
  else if ¬rb.live ∨ ¬rb.hasClient then (none, rb)
  else
    match call.tool with
    | .raised => (none, rb)
    | .returned resp =>
      match resp with
      | .obj .. =>
        match dataList resp "orders" with
        | .obj _ o :: _ => (some (RobinhoodBroker.translateOrder call.translation o), rb)
        | _ => (none, rb)
      | _ => (none, rb)

end RobinhoodAdapter

/-! ### The system on the adapter -/

/-- The system, and the adapter it is connected to. -/
structure DryRunDesk where
  oms : Oms
  broker : RobinhoodAdapter

/-- What a pass of the reconciler draws from outside, for each order it polls. -/
structure PollEnv where
  call : OrderId → PollCall
  fillId : OrderId → FillId

/-- What happens to the two. -/
inductive DryRunOp
  | submitOrder (order : Order) (uuid : String) (call : PlaceCall) (now : Time)
  | cancelOrder (orderId : OrderId) (call : ToolCall) (now : Time)
  /-- The reconciler looks at the orders. -/
  | reconcile (env : PollEnv)
  /-- The process is gone, and another one starts from the log. -/
  | restart (lookups : RobinhoodBroker.Lookups)

namespace DryRunDesk

/-- A new system on a new adapter. -/
def start (live hasClient : Bool) : DryRunDesk := ⟨Oms.empty, .initial live hasClient⟩

/-- What the system makes of an answer to a submission. -/
def outcome : Except BrokerError String → SubmitOutcome
  | .ok brokerOrderId => .returned brokerOrderId
  | .error error => error.outcome

/-- The reconciler looks at one order. -/
def pollOrder (env : PollEnv) (d : DryRunDesk) (order : Order) : DryRunDesk :=
  match order.brokerOrderId with
  | none => d
  | some brokerOrderId =>
    match d.broker.getOrder brokerOrderId (env.call order.id) with
    | (none, broker) => ⟨d.oms, broker⟩
    | (some status, broker) =>
      ⟨(Reconciler.applyStatus d.oms order status (env.fillId order.id)).1, broker⟩

def step (d : DryRunDesk) : DryRunOp → DryRunDesk
  | .submitOrder order uuid call now =>
    -- the broker is not called for an order that is not pending
    if order.state = .pending then
      let (reply, broker) := d.broker.submitOrder order uuid call
      ⟨(d.oms.submitOrder order ⟨[], outcome reply⟩ now).1, broker⟩
    else d
  | .cancelOrder orderId call now =>
    match d.oms.cancelTarget? orderId with
    | none => ⟨(d.oms.cancelOrder orderId ⟨[], false⟩ now).1, d.broker⟩
    | some brokerOrderId =>
      let failed := (d.broker.cancelOrder brokerOrderId call).toOption.isNone
      ⟨(d.oms.cancelOrder orderId ⟨[], failed⟩ now).1, d.broker⟩
  | .reconcile env => d.oms.listOpenOrders.foldl (pollOrder env) d
  | .restart lookups =>
    match (Oms.reboot d.oms.store).recover (d.broker.toRobinhoodBroker.recoveryEnv lookups) with
    | none => d
    | some (oms, _) => ⟨oms, .initial d.broker.live d.broker.hasClient⟩

/-- An order is submitted once, with a quantity and with nothing that a broker reported, and gets
an identifier of its own. -/
def Admits (d : DryRunDesk) : DryRunOp → Prop
  | .submitOrder order uuid _ _ =>
    order.id ∉ d.oms.orders.keys ∧ order.Unfilled ∧ 0 < order.qty ∧
      "DRYRUN-" ++ uuid ∉ d.oms.brokerIdToOrder.keys ∧
      "DRYRUN-" ++ uuid ∉ d.broker.dryRunOrders.keys
  | .cancelOrder .. | .reconcile _ | .restart _ => True

instance (d : DryRunDesk) : (op : DryRunOp) → Decidable (d.Admits op)
  | .submitOrder .. => inferInstanceAs (Decidable (_ ∧ _ ∧ _ ∧ _ ∧ _))
  | .cancelOrder .. | .reconcile _ | .restart _ => isTrue trivial

end DryRunDesk

/-! ### What an order comes to -/

/-- What becomes of an order in a dry run. -/
inductive Fate
  | waiting
  | filled (fill : Fill)
  | dropped

def Fate.state : Fate → OrderState
  | .waiting => .accepted
  | .filled _ => .filled
  | .dropped => .rejected

def Fate.fills : Fate → List Fill
  | .filled fill => [fill]
  | .waiting | .dropped => []

/-- An order that was submitted, and what became of it. -/
structure RehearsedOrder where
  order : Order
  brokerOrderId : String
  fate : Fate

namespace RehearsedOrder

/-- The fill of a whole order. Without a price it is a gift. -/
def wholeFill (order : Order) (env : PollEnv) : Fill where
  id := env.fillId order.id
  orderId := order.id
  agentId := order.agentId
  symbol := order.symbol
  side := order.side
  qty := order.qty
  price := (fetchLastPrice (env.call order.id).price order.limitPrice).getD 0
  timestamp := (env.call order.id).translation.now

/-- The status a poll finds of what waits. -/
def report (env : PollEnv) (x : RehearsedOrder) : BrokerOrderStatus :=
  RobinhoodAdapter.filledStatus x.brokerOrderId x.order
    (fetchLastPrice (env.call x.order.id).price x.order.limitPrice)
    (env.call x.order.id).translation.now

/-- A pass fills what waits. -/
def poll (env : PollEnv) (x : RehearsedOrder) : RehearsedOrder :=
  match x.fate with
  | .waiting => { x with fate := .filled (wholeFill x.order env) }
  | .filled _ | .dropped => x

/-- A restart gives up what waits. -/
def giveUp (x : RehearsedOrder) : RehearsedOrder :=
  match x.fate with
  | .waiting => { x with fate := .dropped }
  | .filled _ | .dropped => x

/-- What the books have of it. -/
structure Shows (x : RehearsedOrder) (order : Order) : Prop where
  orderMeta : order.orderMeta = x.order.orderMeta
  qty : order.qty = x.order.qty
  brokerOrderId : order.brokerOrderId = some x.brokerOrderId
  state : order.state = x.fate.state
  filledQty : order.filledQty = (x.fate.fills.map (·.qty)).sum
  filledAvgPrice : order.filledAvgPrice = x.fate.fills.head?.map (·.price)

theorem poll_of_ne {x : RehearsedOrder} (hw : x.fate ≠ .waiting) (env : PollEnv) :
    x.poll env = x := by
  unfold poll
  split
  · next h => exact absurd h hw
  · rfl
  · rfl

theorem fate_giveUp_ne (x : RehearsedOrder) : x.giveUp.fate ≠ .waiting := by
  unfold giveUp
  split
  · exact Fate.noConfusion
  all_goals simp_all

@[simp] theorem order_giveUp (x : RehearsedOrder) : x.giveUp.order = x.order := by
  unfold giveUp
  split <;> rfl

theorem giveUp_of_ne {x : RehearsedOrder} (hw : x.fate ≠ .waiting) : x.giveUp = x := by
  unfold giveUp
  split
  · next h => exact absurd h hw
  · rfl
  · rfl

end RehearsedOrder

/-- The orders of a dry run. -/
abbrev Rehearsal := OrderId → Option RehearsedOrder

namespace Rehearsal

def empty : Rehearsal := fun _ => none

/-- **What happens in a dry run.** -/
def step (r : Rehearsal) : DryRunOp → Rehearsal
  | .submitOrder order uuid _ _ =>
    if order.state = .pending then
      Function.update r order.id (some ⟨order, "DRYRUN-" ++ uuid, .waiting⟩)
    else r
  -- nothing is cancelled
  | .cancelOrder .. => r
  | .reconcile env => fun k => (r k).map (·.poll env)
  | .restart _ => fun k => (r k).map (·.giveUp)

/-- Something happens to some of the orders. -/
def onEach (f : RehearsedOrder → RehearsedOrder) (keys : List OrderId) (r : Rehearsal) :
    Rehearsal := fun k => if k ∈ keys then (r k).map f else r k

theorem onEach_cons (f : RehearsedOrder → RehearsedOrder) {k : OrderId} {keys : List OrderId}
    (hk : k ∉ keys) (r : Rehearsal) :
    onEach f (k :: keys) r = onEach f keys (Function.update r k ((r k).map f)) := by
  funext k'
  rcases eq_or_ne k' k with rfl | hne
  · simp [onEach, hk]
  · simp [onEach, hne]

/-- If nothing would happen to the others, it happens to all. -/
theorem onEach_eq {f : RehearsedOrder → RehearsedOrder} {keys : List OrderId} {r : Rehearsal}
    (hothers : ∀ k, k ∉ keys → ∀ x, r k = some x → f x = x) :
    onEach f keys r = fun k => (r k).map f := by
  funext k
  rw [onEach]
  split_ifs with hk
  · rfl
  · rcases hr : r k with _ | x
    · rfl
    · rw [Option.map_some, hothers k hk x hr]

/-- The fills of an order. -/
def fills (r : Rehearsal) (k : OrderId) : List Fill := ((r k).map (·.fate.fills)).getD []

/-- **The books show what happened**: the orders there are, each as it came to be, with its
fills. -/
def Shown (r : Rehearsal) (s : Oms) : Prop :=
  ∀ k, s.getFills k = r.fills k ∧
    match r k with
    | none => s.orders.get? k = none
    | some x => ∃ order, s.orders.get? k = some order ∧ x.Shows order

end Rehearsal

/-! ### One cell -/

/-- A cell of an order that shows what became of it, with a machine in the state of the order. -/
def Cell.Fits (x : RehearsedOrder) (cell : Cell) : Prop :=
  x.Shows cell.order ∧ cell.fsm.state = cell.order.state

namespace Cell

variable {x x' : RehearsedOrder} {cell : Cell} {event : OrderEvent} {update : Order → Order}

/-- An event the machine takes leads the live order where it leads its replay. -/
theorem drive_eq_advance (update : Order → Order) (ht : cell.fsm.state.Takes event) :
    cell.drive (update cell.order) event = cell.advance update event := by
  rw [drive, advance, Order.moved, if_pos (canTrigger_iff_takes.mpr ht), state_after_takes,
    if_pos ht]

theorem fits_advance (ht : cell.fsm.state.Takes event)
    (hshows : x'.Shows { update cell.order with state := event.target }) :
    (cell.advance update event).Fits x' := by
  refine ⟨hshows, ?_⟩
  rw [Cell.advance, state_after_takes, if_pos ht]

section Waiting

variable (h : cell.Fits x) (hw : x.fate = .waiting)
include h hw

theorem Fits.takes (hevent : OrderState.accepted.Takes event) : cell.fsm.state.Takes event := by
  rw [h.2, h.1.state, hw]
  exact hevent

theorem Fits.filledQty_eq_zero : cell.order.filledQty = 0 := by
  rw [h.1.filledQty, hw]
  rfl

theorem Fits.fillEvent_eq (env : PollEnv) :
    cell.order.fillEvent (RehearsedOrder.wholeFill x.order env) = .fullFill := by
  rw [Order.fillEvent, h.filledQty_eq_zero hw, h.1.qty, zero_add]
  exact if_pos (isFullyFilled_self _)

/-- An order that waits is filled. -/
theorem Fits.fill (env : PollEnv) (ts : Time) :
    (cell.advance (·.bookFill (RehearsedOrder.wholeFill x.order env) ts) .fullFill).Fits
      (x.poll env) := by
  have havg : cell.order.filledAvgPrice = none := by
    rw [h.1.filledAvgPrice, hw]
    rfl
  rw [RehearsedOrder.poll, hw]
  refine fits_advance (h.takes hw rfl) ⟨h.1.orderMeta, h.1.qty, h.1.brokerOrderId, rfl, ?_, ?_⟩
  · change cell.order.filledQty + x.order.qty = ([x.order.qty]).sum
    rw [h.filledQty_eq_zero hw, List.sum_singleton, zero_add]
  · simp only [Order.bookFill, havg]
    rfl

/-- An order that waits is given up. -/
theorem Fits.reject (reason : Option String) :
    (cell.advance (fun order => { order with rejectionReason := reason }) .reject).Fits
      x.giveUp := by
  rw [RehearsedOrder.giveUp, hw]
  refine fits_advance (h.takes hw rfl) ⟨h.1.orderMeta, h.1.qty, h.1.brokerOrderId, rfl, ?_, ?_⟩
  · exact h.filledQty_eq_zero hw
  · exact h.1.filledAvgPrice.trans (by rw [hw]; rfl)

/-- **The poll of an order that waits**: one fill, of all of it. -/
theorem Fits.followStatus_eq (hqty : 0 < x.order.qty) (env : PollEnv) :
    cell.followStatus x.order.id (x.report env) (env.fillId x.order.id) =
      (cell.advance (·.bookFill (RehearsedOrder.wholeFill x.order env) (x.report env).updatedAt)
          .fullFill,
        [⟨.fillReceived (serializeFill (RehearsedOrder.wholeFill x.order env)), x.order.id,
          (x.report env).updatedAt⟩]) := by
  obtain ⟨hagent, hid, hsymbol, hside⟩ := OrderMeta.mk.inj h.1.orderMeta
  have hfill : syntheticFill cell.order (x.report env) (env.fillId x.order.id)
      (x.report env).updatedAt = RehearsedOrder.wholeFill x.order env := by
    simp [syntheticFill, RehearsedOrder.wholeFill, RehearsedOrder.report, hagent, hid, hsymbol,
      hside, h.filledQty_eq_zero hw, RobinhoodAdapter.filledStatus, BrokerOrderStatus.fillPrice]
  have hmissing : 0 < (x.report env).filledQty - cell.order.filledQty := by
    rw [h.filledQty_eq_zero hw, sub_zero]
    exact hqty
  have htakes := h.takes hw (rfl : OrderState.accepted.Takes .fullFill)
  unfold Cell.followStatus
  change (if 0 < (x.report env).filledQty - cell.order.filledQty then _ else _) = _
  rw [if_pos hmissing, fillUp, if_pos hmissing, hfill, Cell.handleFill, h.fillEvent_eq hw]
  exact Prod.ext (drive_eq_advance (·.bookFill _ _) htakes) rfl

/-- Giving it up. -/
theorem Fits.abandon_eq (k : OrderId) (now : Time) :
    cell.abandon k now =
      (cell.advance (fun order =>
          { order with rejectionReason := some "abandoned_during_recovery" }) .reject,
        [⟨.reconcileAbandoned "broker has no record after recovery", k, now⟩,
          ⟨.orderRejected (some "abandoned_during_recovery"), k, now⟩]) := by
  have hopen : ¬cell.order.state.Terminal := by
    rw [h.1.state, hw]
    decide
  rw [abandon, Effect.andThen, handleRejection, handleClosing, if_neg hopen]
  have htakes := h.takes hw (rfl : OrderState.accepted.Takes .reject)
  exact Prod.ext (drive_eq_advance
    (fun order => { order with rejectionReason := some "abandoned_during_recovery" }) htakes) rfl

end Waiting

/-- What does not wait is closed. -/
theorem Fits.terminal (h : cell.Fits x) (hw : x.fate ≠ .waiting) : cell.order.state.Terminal := by
  rw [h.1.state]
  rcases hfate : x.fate with _ | fill | _
  · exact absurd hfate hw
  · exact .inl rfl
  · decide

end Cell

/-! ### The books and the log -/

/-- Events about one order replay on its cell alone. -/
theorem Book.replayCell_of_ne {k k' : OrderId} {log : List LoggedEvent}
    (habout : ∀ e ∈ log, e.orderId = k) (hne : k' ≠ k) (cell : Option Cell) :
    Book.replayCell k' log cell = cell := by
  induction log generalizing cell with
  | nil => rfl
  | cons e log ih =>
    obtain ⟨he, hrest⟩ := List.forall_mem_cons.mp habout
    rw [Book.replayCell, List.foldl_cons, if_neg (he ▸ hne), ← Book.replayCell]
    exact ih hrest _

namespace Rehearsal

/-- What the maps hold of an order. -/
def FitsAt : Option RehearsedOrder → Option Cell → Prop
  | none, cell => cell = none
  | some x, cell => ∃ c, cell = some c ∧ c.Fits x

/-- **Maps that show what happened**, live or replayed. -/
structure Holds (r : Rehearsal) (b : Book) : Prop where
  paired : b.Paired
  cell : ∀ k, FitsAt (r k) (b.cell k)
  fillsOf : ∀ k, b.fillsOf k = r.fills k

/-- **Books that show what happened**, with a log that replays to such books. -/
structure Kept (r : Rehearsal) (s : Oms) : Prop where
  live : r.Holds s.toBook
  logged : ∃ b, Book.empty.applyLog s.store = some b ∧ r.Holds b

section Kept

variable {r : Rehearsal} {b : Book} {s s' : Oms} {k : OrderId} {x x' : RehearsedOrder}

theorem Holds.exists_cell (h : r.Holds b) (hk : r k = some x) :
    ∃ c, b.cell k = some c ∧ c.Fits x := by
  have hcell := h.cell k
  rwa [hk] at hcell

/-- Something has happened to one order. -/
theorem holds_update (hpaired : b.Paired)
    (hothers : ∀ k', k' ≠ k → FitsAt (r k') (b.cell k') ∧ b.fillsOf k' = r.fills k')
    (hself : ∃ c, b.cell k = some c ∧ c.Fits x) (hfills : b.fillsOf k = x.fate.fills) :
    Holds (Function.update r k (some x)) b where
  paired := hpaired
  cell k' := by
    rcases eq_or_ne k' k with rfl | hne
    · rw [Function.update_self]
      exact hself
    · rw [Function.update_of_ne hne]
      exact (hothers k' hne).1
  fillsOf k' := by
    rcases eq_or_ne k' k with rfl | hne
    · rw [fills, Function.update_self]
      exact hfills
    · rw [fills, Function.update_of_ne hne]
      exact (hothers k' hne).2

/-- **An action on the cell of one order**, which leads its replay where it leads the order. -/
theorem Kept.actsOn (h : r.Kept s) (hk : r k = some x) {effect : Cell.Effect}
    (hact : s.ActsOn s' k effect) (hlive : effect.1.Fits x')
    (hlog : ∀ c : Cell, c.Fits x →
      ∃ c', Book.replayCell k effect.2 (some c) = some c' ∧ c'.Fits x')
    (hfills : x'.fate.fills = x.fate.fills ++ loggedFills effect.2 k) :
    Kept (Function.update r k (some x')) s' := by
  have habout : ∀ e ∈ effect.2, e.orderId = k := fun e he => (hact.about e he).1
  have hown : r.fills k = x.fate.fills := by
    rw [fills, hk]
    rfl
  have hnone : ∀ k', k' ≠ k → loggedFills effect.2 k' = [] := fun k' hne =>
    List.flatMap_eq_nil_iff.mpr fun e he =>
      LoggedEvent.fillsFor_of_ne fun hc => hne (hc.symm.trans (habout e he))
  refine ⟨holds_update hact.paired (fun k' hne => ?_) ⟨_, hact.cell_self, hlive⟩ ?_, ?_⟩
  · rw [hact.cell, if_neg hne, hact.fillsOf, hnone k' hne, List.append_nil]
    exact ⟨h.live.cell k', h.live.fillsOf k'⟩
  · rw [hact.fillsOf, h.live.fillsOf, hown, hfills]
  -- the log grows by what the action logs, and the replay goes on from there
  obtain ⟨b, hb, hholds⟩ := h.logged
  obtain ⟨c, hc, hfits⟩ := hholds.exists_cell hk
  obtain ⟨c', hc', hfits'⟩ := hlog c hfits
  obtain ⟨b', hb', -⟩ := hholds.paired.exists_applyLog fun e he =>
    ⟨(hact.about e he).2, by rw [habout e he, hc]; rfl⟩
  obtain ⟨hpaired, hcells, hall⟩ := hholds.paired.applyLog hb'
  refine ⟨b', ?_, holds_update hpaired (fun k' hne => ?_) ⟨c', ?_, hfits'⟩ ?_⟩
  · rw [hact.store, Book.applyLog_append, hb]
    exact hb'
  · rw [hcells, Book.replayCell_of_ne habout hne, hall, hnone k' hne, List.append_nil]
    exact ⟨hholds.cell k', hholds.fillsOf k'⟩
  · rw [hcells, hc, hc']
  · rw [hall, hholds.fillsOf, hown, hfills]

/-! ### A submission -/

/-- Introducing an order leaves the others as they are. -/
theorem fitsAt_introduces {order : Order} {now : Time} (hi : s.Introduces s' order now)
    {k' : OrderId} (hne : k' ≠ order.id) (h : FitsAt (r k') (s.cell k')) :
    FitsAt (r k') (s'.cell k') := by
  have ho : s'.orders.get? k' = s.orders.get? k' := (hi.orders k').trans (if_neg hne)
  have hf : (s'.fsms.get? k').map (·.state) = (s.fsms.get? k').map (·.state) :=
    (hi.fsms k').trans (if_neg hne)
  rcases hr : r k' with _ | x
  · rw [hr] at h
    have hnone : s.cell k' = none := h
    rcases hc' : s'.cell k' with _ | c'
    · rfl
    · obtain ⟨hco, hcf⟩ := Book.cell_eq_some_iff.mp hc'
      rw [hcf, Option.map_some] at hf
      obtain ⟨fsm, hfsm, -⟩ := Option.map_eq_some_iff.mp hf.symm
      have hc : s.cell k' = some ⟨c'.order, fsm⟩ :=
        Book.cell_eq_some_iff.mpr ⟨ho.symm.trans hco, hfsm⟩
      rw [hnone] at hc
      cases hc
  · rw [hr] at h
    obtain ⟨c, hc, hfits⟩ := h
    obtain ⟨hco, hcf⟩ := Book.cell_eq_some_iff.mp hc
    rw [hcf, Option.map_some, Option.map_eq_some_iff] at hf
    obtain ⟨fsm, hfsm, hstate⟩ := hf
    exact ⟨⟨c.order, fsm⟩, Book.cell_eq_some_iff.mpr ⟨ho.trans hco, hfsm⟩, hfits.1,
      hstate.trans hfits.2⟩

/-- An order that has just been introduced is accepted. -/
theorem fits_accepted {order o : Order} {fsm : OrderFsm} (hmeta : o.orderMeta = order.orderMeta)
    (hqty : o.qty = order.qty) (hfilled : o.filledQty = 0) (havg : o.filledAvgPrice = none)
    (hstate : fsm.state = .submitted) (brokerOrderId : String) (ts : Time) :
    (Cell.advance ⟨o, fsm⟩ (fun order =>
      { order with brokerOrderId := some brokerOrderId, submittedAt := some ts }) .accept).Fits
        ⟨order, brokerOrderId, .waiting⟩ :=
  Cell.fits_advance (hstate ▸ rfl) ⟨hmeta, hqty, rfl, rfl, hfilled, havg⟩

/-- The acceptance of an order acts on its cell. -/
theorem recordAccepted_actsOn (hs : s.Paired) {cell : Cell} (hcell : s.cell k = some cell)
    {brokerOrderId : String} (hne : cell.order.brokerOrderId ≠ some brokerOrderId)
    (ht : cell.fsm.state.Takes .accept) (ts : Time) :
    s.ActsOn (s.recordAccepted k brokerOrderId ts) k
      (cell.advance (fun order =>
          { order with brokerOrderId := some brokerOrderId, submittedAt := some ts }) .accept,
        [⟨.orderAccepted brokerOrderId, k, ts⟩]) := by
  obtain ⟨ho, hf⟩ := Book.cell_eq_some_iff.mp hcell
  have hadv := Oms.recordAccepted_advances ho hf hne ts
  rw [← Cell.drive_eq_advance _ ht]
  exact hadv.actsOn hs hcell id rfl

/-- **A submission** that the adapter answers with an identifier. -/
theorem Kept.submitOrder (h : r.Kept s) (hs : s.Keyed) {order : Order}
    (hp : order.state = .pending) (hfresh : r order.id = none) (hunfilled : order.Unfilled)
    {brokerOrderId : String} (hid : brokerOrderId ∉ s.brokerIdToOrder.keys) (now : Time) :
    Kept (Function.update r order.id (some ⟨order, brokerOrderId, .waiting⟩))
      (s.submitOrder order ⟨[], .returned brokerOrderId⟩ now).1 := by
  obtain ⟨hfilled, havg, hbroker, -⟩ := hunfilled
  have hi := Oms.persistIntent_introduces s hp now
  have hids : (s.persistIntent order now).brokerIdToOrder = s.brokerIdToOrder :=
    Oms.brokerIdToOrder_transition _ _ _ _
  have hsubmit : (s.submitOrder order ⟨[], .returned brokerOrderId⟩ now).1 =
      (s.persistIntent order now).recordAccepted order.id brokerOrderId now := by
    rw [Oms.submitOrder_fst hp]
    exact if_neg (hids ▸ hid)
  rw [hsubmit]
  generalize s.persistIntent order now = s₁ at hi
  have hs₁ := hi.keyed hs
  have hpaired₁ : s₁.Paired := ⟨hs₁.fsms_isSome, hs₁.fills_isSome⟩
  have hnone : r.fills order.id = [] := by
    rw [fills, hfresh]
    rfl
  have hothers : ∀ k', k' ≠ order.id → FitsAt (r k') (s₁.cell k') ∧ s₁.fillsOf k' = r.fills k' :=
    fun k' hne => ⟨fitsAt_introduces hi hne (h.live.cell k'),
      ((hi.getFills k').trans (if_neg hne)).trans (h.live.fillsOf k')⟩
  -- the live order is accepted
  obtain ⟨fsm, hf⟩ := hs₁.exists_fsm hi.get?_self
  have hfsm : fsm.state = .submitted := by
    have hstate := hi.fsms order.id
    rw [hf, if_pos rfl] at hstate
    exact Option.some.inj hstate
  have hc₁ : s₁.cell order.id = some ⟨{ order with state := .submitted }, fsm⟩ :=
    Book.cell_eq_some_iff.mpr ⟨hi.get?_self, hf⟩
  have htakes : fsm.state.Takes .accept := hfsm ▸ rfl
  have hne : ({ order with state := OrderState.submitted } : Order).brokerOrderId ≠
      some brokerOrderId := by
    rw [hbroker]
    exact (Option.some_ne_none _).symm
  have hact := recordAccepted_actsOn hpaired₁ hc₁ hne htakes now
  generalize s₁.recordAccepted order.id brokerOrderId now = s₂ at hact
  have hnofill : ∀ k', loggedFills [⟨.orderAccepted brokerOrderId, order.id, now⟩] k' = [] :=
    fun k' => rfl
  refine ⟨holds_update hact.paired (fun k' hne => ?_) ⟨_, hact.cell_self, ?_⟩ ?_, ?_⟩
  · rw [hact.cell, if_neg hne, hact.fillsOf, hnofill, List.append_nil]
    exact hothers k' hne
  · exact fits_accepted rfl rfl hfilled havg hfsm brokerOrderId now
  · rw [hact.fillsOf, hnofill, List.append_nil]
    exact (hi.getFills order.id).trans (if_pos rfl)
  -- and so is the replayed one
  obtain ⟨b, hb, hholds⟩ := h.logged
  obtain ⟨b₁, hb₁, hr₁⟩ := @Book.Paired.exists_replays b hholds.paired
    ⟨.orderSubmitIntent (serializeOrder order), order.id, now⟩ trivial
  have hc₁ : b₁.cell order.id =
      some (Cell.advance ⟨deserializeOrder (serializeOrder order), buildOrderFsm .pending⟩ id
        .submit) := (hr₁.cell order.id).trans (if_pos rfl)
  obtain ⟨b₂, hb₂, hr₂⟩ := @Book.Paired.exists_replays b₁ hr₁.paired
    ⟨.orderAccepted brokerOrderId, order.id, now⟩ (by rw [hc₁]; rfl)
  have hc₂ := (hr₂.cell order.id).trans (if_pos rfl)
  rw [hc₁] at hc₂
  have hfills : ∀ k', b₂.fillsOf k' = b.fillsOf k' := fun k' =>
    (hr₂.fillsOf k').trans ((List.append_nil _).trans ((hr₁.fillsOf k').trans (List.append_nil _)))
  refine ⟨b₂, ?_, holds_update hr₂.paired (fun k' hne => ?_) ⟨_, hc₂, ?_⟩ ?_⟩
  · rw [hact.store, Book.applyLog_concat, hi.store, Book.applyLog_concat, hb, Option.bind_some,
      hb₁]
    exact hb₂
  · rw [hr₂.cell, if_neg hne, hr₁.cell, if_neg hne, hfills]
    exact ⟨hholds.cell k', hholds.fillsOf k'⟩
  · exact @fits_accepted order { deserializeOrder (serializeOrder order) with state := .submitted }
      ((buildOrderFsm .pending).after .submit) rfl rfl rfl rfl (by decide) brokerOrderId now
  · rw [hfills, hholds.fillsOf, hnone]
    rfl

/-! ### A cancellation, a poll, a recovery -/

/-- What the abstract run has of a known order. -/
theorem Kept.exists_rehearsed (h : r.Kept s) {order : Order} (ho : s.orders.get? k = some order) :
    ∃ x c, r k = some x ∧ s.cell k = some c ∧ c.order = order ∧ c.Fits x := by
  have hcell := h.live.cell k
  rw [h.live.paired.get?_orders] at ho
  obtain ⟨c, hc, rfl⟩ := Option.map_eq_some_iff.mp ho
  rcases hr : r k with _ | x
  · rw [hr, hc] at hcell
    cases hcell
  · obtain ⟨c', hc', hfits⟩ := h.live.exists_cell hr
    obtain rfl : c = c' := Option.some.inj (hc.symm.trans hc')
    exact ⟨x, c, rfl, hc, rfl, hfits⟩

theorem Kept.get?_eq_none (h : r.Kept s) (hk : r k = none) : s.orders.get? k = none := by
  have hcell := h.live.cell k
  rw [hk] at hcell
  rw [h.live.paired.get?_orders]
  exact congrArg (Option.map _) hcell

/-- **A cancellation changes nothing**: it is noted in the log. -/
theorem Kept.requestCancel (h : r.Kept s) (k : OrderId) (now : Time) :
    r.Kept (s.requestCancel k now) := by
  rcases ho : s.orders.get? k with _ | order
  · rw [Oms.requestCancel, ho]
    exact h
  obtain ⟨x, c, hr, hc, rfl, hfits⟩ := h.exists_rehearsed ho
  by_cases ht : c.order.state.Terminal
  · rw [Oms.requestCancel_eq_self ho ht]
    exact h
  have hnoted : s.requestCancel k now = s.append (.orderCancelRequested x.brokerOrderId) k now := by
    rw [Oms.requestCancel, ho]
    dsimp only
    rw [if_neg ht, hfits.1.brokerOrderId]
  have hact : s.ActsOn (s.append (.orderCancelRequested x.brokerOrderId) k now) k
      (c, [⟨.orderCancelRequested x.brokerOrderId, k, now⟩]) :=
    Oms.actsOn_append h.live.paired hc trivial
  rw [hnoted, ← Function.update_eq_self k r, hr]
  exact h.actsOn hr hact hfits (fun c' hc' => ⟨c', if_pos rfl, hc'⟩) (List.append_nil _).symm

/-- **A poll fills what waits.** -/
theorem Kept.poll (h : r.Kept s) (hk : r x.order.id = some x) (hw : x.fate = .waiting)
    (hqty : 0 < x.order.qty) {order : Order} (ho : s.orders.get? x.order.id = some order)
    (env : PollEnv) :
    Kept (Function.update r x.order.id (some (x.poll env)))
        (Reconciler.applyStatus s order (x.report env) (env.fillId x.order.id)).1 ∧
      ∀ k', k' ≠ x.order.id →
        (Reconciler.applyStatus s order (x.report env) (env.fillId x.order.id)).1.orders.get? k' =
          s.orders.get? k' := by
  obtain ⟨x', c, hx', hc, rfl, hfits⟩ := h.exists_rehearsed ho
  obtain rfl : x = x' := Option.some.inj (hk.symm.trans hx')
  have hid : c.order.id = x.order.id := (OrderMeta.mk.inj hfits.1.orderMeta).2.1
  have hopen : ¬c.order.state.Terminal := by
    rw [hfits.1.state, hw]
    decide
  have hact : s.ActsOn (Reconciler.applyStatus s c.order (x.report env)
      (env.fillId x.order.id)).1 c.order.id _ :=
    Reconciler.applyStatus_actsOn h.live.paired (hid ▸ hc) hopen hid.symm _
  rw [hid, hfits.followStatus_eq hw hqty] at hact
  refine ⟨h.actsOn hk hact (hfits.fill hw env _) (fun c' hc' => ?_) ?_, fun k' hne => ?_⟩
  · refine ⟨_, (if_pos rfl).trans ?_, hc'.fill hw env (x.report env).updatedAt⟩
    dsimp only [LoggedEvent.onCell, Option.map_some]
    rw [deserializeFill_serializeFill, hc'.fillEvent_eq hw]
  · rw [loggedFills_singleton, LoggedEvent.fillsFor_fillReceived, deserializeFill_serializeFill,
      RehearsedOrder.poll, hw]
    rfl
  · rw [hact.paired.get?_orders, hact.cell, if_neg hne, h.live.paired.get?_orders]

/-- **A recovery gives up what waits.** -/
theorem Kept.reconcileOpenOrder (h : r.Kept s) {env : RecoveryEnv}
    (hnone : ∀ k, env.findOrderByClientId k = none) (k : OrderId) :
    Kept (Function.update r k ((r k).map (·.giveUp))) (s.reconcileOpenOrder env k).1 := by
  rcases hr : r k with _ | x
  · rw [Oms.reconcileOpenOrder, h.get?_eq_none hr, Option.map_none, ← hr, Function.update_eq_self]
    exact h
  obtain ⟨c, hc, hfits⟩ := h.live.exists_cell hr
  have hact := Oms.reconcileOpenOrder_actsOn h.live.paired hc env
  rw [Cell.reconcile, hnone] at hact
  rw [Option.map_some]
  -- what is closed, the recovery leaves alone
  by_cases hw : x.fate = .waiting
  · have hopen : ¬c.order.state.Terminal := by
      rw [hfits.1.state, hw]
      decide
    rw [if_neg hopen, hfits.abandon_eq hw] at hact
    refine h.actsOn hr hact (hfits.reject hw _) (fun c' hc' => ?_) ?_
    · exact ⟨_, (if_pos rfl).trans (congrArg _ (if_pos rfl)), hc'.reject hw _⟩
    · rw [RehearsedOrder.giveUp, hw]
      rfl
  · rw [if_pos (hfits.terminal hw)] at hact
    rw [x.giveUp_of_ne hw]
    exact h.actsOn hr hact hfits (fun c' hc' => ⟨c', rfl, hc'⟩) (List.append_nil _).symm

theorem Kept.run_reconcileOpenOrder (h : r.Kept s) {env : RecoveryEnv}
    (hnone : ∀ k, env.findOrderByClientId k = none) {keys : List OrderId} (hnd : keys.Nodup) :
    Kept (onEach (·.giveUp) keys r) (run (fun s k => (s.reconcileOpenOrder env k).1) s keys) := by
  induction keys generalizing r s with
  | nil => exact h
  | cons k keys ih =>
    obtain ⟨hk, hnd'⟩ := List.nodup_cons.mp hnd
    rw [onEach_cons _ hk, run_cons]
    exact ih (h.reconcileOpenOrder hnone k) hnd'

/-- **A restart** that finds no order at the broker: it succeeds, and gives up what waits. -/
theorem Kept.exists_recover (h : r.Kept s) {env : RecoveryEnv}
    (hnone : ∀ k, env.findOrderByClientId k = none) :
    ∃ recovered, (Oms.reboot s.store).recover env = some recovered ∧
      Kept (fun k => (r k).map (·.giveUp)) recovered.1 := by
  obtain ⟨b, hb, hholds⟩ := h.logged
  have hreplayed : (Oms.reboot s.store).replayLog = some { Oms.reboot s.store with toBook := b } :=
    Option.map_eq_some_iff.mpr ⟨b, hb, rfl⟩
  refine ⟨_, congrArg (Option.map _) hreplayed, ?_⟩
  have hrebooted : r.Kept { Oms.reboot s.store with toBook := b } := ⟨hholds, b, hb, hholds⟩
  have hrun := hrebooted.run_reconcileOpenOrder hnone b.orders.nodup_keys
  rw [← Oms.fst_reconcileOpenOrders] at hrun
  rwa [onEach_eq fun k hk x hr => ?_] at hrun
  obtain ⟨c, hc, -⟩ := hholds.exists_cell hr
  exact absurd (Dict.mem_keys_of_get? (Book.cell_eq_some_iff.mp hc).1) hk

end Kept

end Rehearsal

namespace DryRunDesk

/-! ### The adapter, and the run -/

/-- The adapter is not live, and knows what waits: an order under an identifier of its own, whose
price was not looked up. -/
structure Tracks (r : Rehearsal) (d : DryRunDesk) : Prop where
  kept : r.Kept d.oms
  dry : ¬d.broker.live ∨ ¬d.broker.hasClient
  id_eq : ∀ k x, r k = some x → x.order.id = k
  submitted : ∀ k, (d.broker.submitted.get? k).isSome → (r k).isSome
  waiting : ∀ k x, r k = some x → x.fate = .waiting →
    0 < x.order.qty ∧ RobinhoodAdapter.IsDryRunId x.brokerOrderId ∧
      d.broker.dryRunOrders.get? x.brokerOrderId = some x.order ∧
      d.broker.dryRunFills.get? x.brokerOrderId = none
  cached : ∀ id, (d.broker.dryRunFills.get? id).isSome → (d.broker.dryRunOrders.get? id).isSome

section Tracks

variable {r : Rehearsal} {d : DryRunDesk} {k : OrderId} {x : RehearsedOrder}

theorem tracks_start {live hasClient : Bool} (hdry : ¬live ∨ ¬hasClient) :
    Tracks .empty (start live hasClient) where
  kept := by
    have hempty : Rehearsal.empty.Holds Book.empty :=
      ⟨Book.paired_empty, fun _ => rfl, fun _ => rfl⟩
    exact ⟨hempty, Book.empty, rfl, hempty⟩
  dry := hdry
  id_eq _ _ h := by cases h
  submitted _ h := by cases h
  waiting _ _ h := by cases h
  cached _ h := by cases h

theorem Tracks.keyed (h : Tracks r d) : d.oms.Keyed where
  fsms_isSome := h.kept.live.paired.fsms_isSome
  fills_isSome := h.kept.live.paired.fills_isSome
  id_eq k order ho := by
    obtain ⟨x, c, hr, -, rfl, hfits⟩ := h.kept.exists_rehearsed ho
    exact (OrderMeta.mk.inj hfits.1.orderMeta).2.1.trans (h.id_eq k x hr)

/-- What a submission to the adapter leaves in a dry run. -/
theorem submitOrder_dry {rb : RobinhoodAdapter} (hdry : ¬rb.live ∨ ¬rb.hasClient) {order : Order}
    (hnew : rb.submitted.get? order.id = none) (uuid : String) (call : PlaceCall) :
    rb.submitOrder order uuid call = (.ok ("DRYRUN-" ++ uuid), { rb with
      submitted := (rb.submitted.set order.id RobinhoodSubmitter.INFLIGHT).set order.id
        ("DRYRUN-" ++ uuid)
      dryRunOrders := rb.dryRunOrders.set ("DRYRUN-" ++ uuid) order }) := by
  rw [RobinhoodAdapter.submitOrder, RobinhoodSubmitter.submitOrder, SubmitDesk.claim_of_none hnew]
  exact congrArg (fun answer : Except BrokerError String × RobinhoodSubmitter =>
    (answer.1, { rb with toRobinhoodSubmitter := answer.2 })) (if_pos hdry)

/-- **A submission.** -/
theorem Tracks.submitOrder (h : Tracks r d) {order : Order} {uuid : String} {call : PlaceCall}
    {now : Time} (hop : d.Admits (.submitOrder order uuid call now)) :
    Tracks (r.step (.submitOrder order uuid call now))
      (d.step (.submitOrder order uuid call now)) := by
  rw [Rehearsal.step, step]
  split_ifs with hp
  swap
  · exact h
  obtain ⟨hfresh, hunfilled, hqty, hid, hid'⟩ := hop
  have hnone : r order.id = none := by
    rcases hr : r order.id with _ | x
    · rfl
    · obtain ⟨c, hc, -⟩ := h.kept.live.exists_cell hr
      exact absurd (Dict.mem_keys_of_get? (Book.cell_eq_some_iff.mp hc).1) hfresh
  -- so the adapter has not met it either
  have hnew : d.broker.submitted.get? order.id = none := by
    rw [← Option.not_isSome_iff_eq_none]
    intro hsome
    have := h.submitted _ hsome
    rw [hnone] at this
    cases this
  rw [submitOrder_dry h.dry hnew]
  dsimp only [outcome]
  refine ⟨h.kept.submitOrder h.keyed hp hnone hunfilled hid now, h.dry, fun k x hk => ?_,
    fun k hk => ?_, fun k x hk hw => ?_, fun id hcached => ?_⟩
  · rcases eq_or_ne k order.id with rfl | hne
    · rw [Function.update_self] at hk
      cases hk
      rfl
    · rw [Function.update_of_ne hne] at hk
      exact h.id_eq k x hk
  · rcases eq_or_ne k order.id with rfl | hne
    · rw [Function.update_self]
      rfl
    · rw [Function.update_of_ne hne]
      rw [Dict.get?_set_of_ne _ hne, Dict.get?_set_of_ne _ hne] at hk
      exact h.submitted k hk
  · rcases eq_or_ne k order.id with rfl | hne
    · rw [Function.update_self] at hk
      cases hk
      refine ⟨hqty, ?_, Dict.get?_set_self _ _ _, ?_⟩
      · exact ⟨uuid.toList, (String.toList_append).symm⟩
      · rw [← Option.not_isSome_iff_eq_none]
        exact fun hcached => absurd (h.cached _ hcached) (by simp [Dict.get?_eq_none_iff.mpr hid'])
    · rw [Function.update_of_ne hne] at hk
      obtain ⟨hpos, hdry, horder, hfill⟩ := h.waiting k x hk hw
      refine ⟨hpos, hdry, ?_, hfill⟩
      -- the new identifier is not that of an order that waits
      refine (Dict.get?_set_of_ne _ ?_ _).trans horder
      rintro hc
      exact hid' (hc ▸ Dict.mem_keys_of_get? horder)
  · rw [Dict.get?_set]
    split_ifs
    · rfl
    · exact h.cached id hcached

theorem cancelOrder_fst (s : Oms) (k : OrderId) (failed : Bool) (now : Time) :
    (s.cancelOrder k ⟨[], failed⟩ now).1 = s.requestCancel k now := by
  rw [Oms.cancelOrder]
  rcases ho : s.orders.get? k with _ | order
  · rw [Oms.requestCancel, ho]
  · dsimp only
    split_ifs <;> rfl

/-- **A cancellation**, of which the adapter makes nothing. -/
theorem Tracks.cancelOrder (h : Tracks r d) (k : OrderId) (call : ToolCall) (now : Time) :
    Tracks r (d.step (.cancelOrder k call now)) := by
  have hnoted : Tracks r ⟨d.oms.requestCancel k now, d.broker⟩ :=
    { h with kept := h.kept.requestCancel k now }
  rw [step]
  rcases d.oms.cancelTarget? k with _ | brokerOrderId
  · dsimp only
    rwa [cancelOrder_fst]
  · dsimp only
    rwa [cancelOrder_fst]

/-- What an order that waits is reported as. -/
theorem Tracks.getOrder (h : Tracks r d) (hk : r x.order.id = some x) (hw : x.fate = .waiting)
    (env : PollEnv) :
    d.broker.getOrder x.brokerOrderId (env.call x.order.id) =
      (some (x.report env), { d.broker with
        dryRunFills := d.broker.dryRunFills.set x.brokerOrderId
          (fetchLastPrice (env.call x.order.id).price x.order.limitPrice) }) := by
  obtain ⟨-, hdry, horder, hfill⟩ := h.waiting _ x hk hw
  rw [RobinhoodAdapter.getOrder, if_pos hdry, RobinhoodAdapter.simulateFill, horder]
  dsimp only
  rw [hfill]
  rfl

/-- **The poll of an order that waits.** The others stay what they were. -/
theorem Tracks.pollOrder (h : Tracks r d) (hk : r x.order.id = some x) (hw : x.fate = .waiting)
    {order : Order} (ho : d.oms.orders.get? x.order.id = some order) (env : PollEnv) :
    Tracks (Function.update r x.order.id (some (x.poll env))) (pollOrder env d order) ∧
      ∀ k, k ≠ x.order.id → (pollOrder env d order).oms.orders.get? k = d.oms.orders.get? k := by
  obtain ⟨hpos, hdry, horder, hfill⟩ := h.waiting _ x hk hw
  obtain ⟨x', c, hx', -, rfl, hfits⟩ := h.kept.exists_rehearsed ho
  obtain rfl : x = x' := Option.some.inj (hk.symm.trans hx')
  have hid : c.order.id = x.order.id := (OrderMeta.mk.inj hfits.1.orderMeta).2.1
  obtain ⟨hkept, hothers⟩ := h.kept.poll hk hw hpos ho env
  have hpoll : DryRunDesk.pollOrder env d c.order =
      ⟨(Reconciler.applyStatus d.oms c.order (x.report env) (env.fillId x.order.id)).1,
        { d.broker with
          dryRunFills := d.broker.dryRunFills.set x.brokerOrderId
            (fetchLastPrice (env.call x.order.id).price x.order.limitPrice) }⟩ := by
    rw [DryRunDesk.pollOrder, hfits.1.brokerOrderId]
    dsimp only
    rw [hid, h.getOrder hk hw]
  rw [hpoll]
  refine ⟨⟨hkept, h.dry, fun k y hy => ?_, fun k hsome => ?_, fun k y hy hyw => ?_,
    fun id hcached => ?_⟩, hothers⟩
  · rcases eq_or_ne k x.order.id with rfl | hne
    · rw [Function.update_self] at hy
      cases hy
      rw [RehearsedOrder.poll, hw]
    · rw [Function.update_of_ne hne] at hy
      exact h.id_eq k y hy
  · rcases eq_or_ne k x.order.id with rfl | hne
    · rw [Function.update_self]
      rfl
    · rw [Function.update_of_ne hne]
      exact h.submitted k hsome
  · rcases eq_or_ne k x.order.id with rfl | hne
    · rw [Function.update_self] at hy
      cases hy
      rw [RehearsedOrder.poll, hw] at hyw
      cases hyw
    · rw [Function.update_of_ne hne] at hy
      obtain ⟨hpos', hdry', horder', hfill'⟩ := h.waiting k y hy hyw
      refine ⟨hpos', hdry', horder', (Dict.get?_set_of_ne _ ?_ _).trans hfill'⟩
      -- two orders that wait have different identifiers at the adapter
      intro hc
      rw [hc, horder] at horder'
      exact hne ((h.id_eq k y hy).symm.trans (congrArg Order.id (Option.some.inj horder')).symm)
  · change (Dict.get? (Dict.set _ _ _) id).isSome at hcached
    rw [Dict.get?_set] at hcached
    split_ifs at hcached with hc
    · rw [hc, horder]
      rfl
    · exact h.cached id hcached

theorem Tracks.pollAll (h : Tracks r d) (env : PollEnv) {orders : List Order}
    (hnd : (orders.map (·.id)).Nodup)
    (hlisted : ∀ order ∈ orders, d.oms.orders.get? order.id = some order ∧
      ∃ x, r order.id = some x ∧ x.fate = .waiting) :
    Tracks (r.onEach (·.poll env) (orders.map (·.id)))
      (orders.foldl (DryRunDesk.pollOrder env) d) := by
  induction orders generalizing r d with
  | nil => exact h
  | cons order orders ih =>
    obtain ⟨⟨ho, x, hx, hw⟩, hrest⟩ := List.forall_mem_cons.mp hlisted
    obtain ⟨hk, hnd'⟩ := List.nodup_cons.mp hnd
    have hid := h.id_eq _ x hx
    rw [← hid] at hx ho
    obtain ⟨htracks, hothers⟩ := h.pollOrder hx hw ho env
    rw [List.map_cons, Rehearsal.onEach_cons _ hk, List.foldl_cons]
    change Tracks (Rehearsal.onEach _ _ (Function.update r order.id ((r order.id).map _))) _
    rw [← hid, hx, Option.map_some]
    -- those that come later are as they were when the pass began
    refine ih htracks hnd' fun order' hmem => ?_
    obtain ⟨ho', hw'⟩ := hrest order' hmem
    have hne : order'.id ≠ x.order.id := fun hc =>
      hk (List.mem_map.mpr ⟨order', hmem, hc.trans hid⟩)
    rw [hothers _ hne, Function.update_of_ne hne]
    exact ⟨ho', hw'⟩

/-- **A pass fills all that waits.** -/
theorem Tracks.reconcile (h : Tracks r d) (env : PollEnv) :
    Tracks (r.step (.reconcile env)) (d.step (.reconcile env)) := by
  obtain ⟨hnd, hlisted⟩ := Reconciler.get?_of_mem_listOpenOrders h.keyed
  have hpass := h.pollAll env hnd fun order hmem => by
    obtain ⟨ho, hopen⟩ := hlisted order hmem
    obtain ⟨x, c, hx, -, rfl, hfits⟩ := h.kept.exists_rehearsed ho
    refine ⟨ho, x, hx, by_contra fun hw => ?_⟩
    exact (OrderState.open_iff_not_terminal _).mp hopen (hfits.terminal hw)
  rwa [Rehearsal.onEach_eq fun k hk x hr => ?_] at hpass
  obtain ⟨c, hc, hfits⟩ := h.kept.live.exists_cell hr
  have hclosed := Reconciler.terminal_of_unlisted h.keyed hc hk
  refine x.poll_of_ne (fun hw => ?_) env
  rw [hfits.1.state, hw] at hclosed
  exact absurd hclosed (by decide)

/-- **A restart gives up all that waits**, and the new adapter knows nothing. -/
theorem Tracks.restart (h : Tracks r d) (lookups : RobinhoodBroker.Lookups) :
    Tracks (r.step (.restart lookups)) (d.step (.restart lookups)) := by
  have hnone : ∀ k, (d.broker.toRobinhoodBroker.recoveryEnv lookups).findOrderByClientId k = none :=
    fun k => if_pos h.dry
  obtain ⟨⟨oms, summary⟩, hrecovered, hkept⟩ := h.kept.exists_recover hnone
  rw [step, hrecovered]
  refine ⟨hkept, h.dry, fun k x hk => ?_, fun _ hsome => ?_, fun k x hk hw => ?_,
    fun _ hsome => ?_⟩
  · obtain ⟨y, hy, rfl⟩ := Option.map_eq_some_iff.mp hk
    rw [RehearsedOrder.order_giveUp]
    exact h.id_eq k y hy
  · cases hsome
  · obtain ⟨y, -, rfl⟩ := Option.map_eq_some_iff.mp hk
    exact absurd hw y.fate_giveUp_ne
  · cases hsome

/-- **Every operation does to the two what it does in the abstract run.** -/
theorem Tracks.after (h : Tracks r d) {op : DryRunOp} (hop : d.Admits op) :
    Tracks (r.step op) (d.step op) := by
  cases op with
  | submitOrder order uuid call now => exact h.submitOrder hop
  | cancelOrder k call now => exact h.cancelOrder k call now
  | reconcile env => exact h.reconcile env
  | restart lookups => exact h.restart lookups

theorem Tracks.along (h : Tracks r d) {ops : List DryRunOp} (hops : Along step Admits d ops) :
    Tracks (run Rehearsal.step r ops) (run step d ops) := by
  induction ops generalizing r d with
  | nil => exact h
  | cons op ops ih => exact ih (h.after hops.1) hops.2

/-- **A dry run is what it is said to be.** After every run of the system on the adapter that is
not live – submissions, cancellations, passes of the reconciler and restarts, in any order – the
books have exactly the orders that were submitted. Each of them waits, without a fill, or was filled
by one fill of all of it when it was first polled, or was given up by the restart that came first;
and no cancellation makes a difference. -/
theorem rehearsal_run {live hasClient : Bool} (hdry : ¬live ∨ ¬hasClient) {ops : List DryRunOp}
    (hops : Along step Admits (start live hasClient) ops) :
    (run Rehearsal.step .empty ops).Shown (run step (start live hasClient) ops).oms := by
  have htracks := (tracks_start hdry).along hops
  intro k
  refine ⟨htracks.kept.live.fillsOf k, ?_⟩
  split
  · next hr => exact htracks.kept.get?_eq_none hr
  · next x hr =>
    obtain ⟨c, hc, hfits⟩ := htracks.kept.live.exists_cell hr
    exact ⟨c.order, (Book.cell_eq_some_iff.mp hc).1, hfits.1⟩

/-- What the tools answer when there is no market. -/
def deadTool : PollCall := ⟨.returned (some 0) none, .raised, ⟨2, fun _ => none, 0⟩⟩

/-- An order is cancelled, and filled in the next pass; another is given up by a restart. -/
def rehearsedRun : List DryRunOp :=
  [.submitOrder (Oms.marketOrder 1 .buy 10) "a" .raised 0, .cancelOrder 1 .raised 1,
    .reconcile ⟨fun _ => deadTool, id⟩, .submitOrder (Oms.marketOrder 2 .sell 4) "b" .raised 3,
    .restart ⟨fun _ => .raised, deadTool.translation, id⟩]

/-- The cancelled order was filled, for nothing. -/
theorem rehearsal_rehearsedRun :
    ((run step (start false false) rehearsedRun).oms.getFills 1).map (fun fill =>
        (fill.qty, fill.price)) = [(10, 0)] ∧
      (run Rehearsal.step .empty rehearsedRun).Shown
        (run step (start false false) rehearsedRun).oms :=
  ⟨by decide +kernel, rehearsal_run (by decide) (by decide +kernel)⟩

end Tracks

end DryRunDesk

end TradingPlatform
