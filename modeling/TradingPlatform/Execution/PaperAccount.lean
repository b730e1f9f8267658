import TradingPlatform.Execution.BrokerAccount
import TradingPlatform.Execution.OmsLog

/-!
# The books of the system and the account at the broker

The system books a fill when it hears of it, under the agent and the symbol of its own order; the
simulated broker books it when it makes it, under those of its record. After every run of the two
the fills on the books are the same, one for one (`TradingPlatform.PaperDesk.paperFills_run`): so
the system can tell the broker's cash from its own fills, and each agent's part of it.

What the system hears in a step is a list of events, and the broker delivers the same list. On the
system's side every step adds the fills of that list and nothing else
(`TradingPlatform.Oms.Adds`), since each of them already agrees with its order
(`TradingPlatform.Oms.Told`); on the broker's side it is one of the moves of its account.
-/

namespace TradingPlatform

/-- Lists that have the same sums, whatever is added up over them, are the same up to the
order. -/
theorem perm_of_sum_eq {α : Type*} [DecidableEq α] {l l' : List α}
    (h : ∀ w : α → Decimal, (l.map w).sum = (l'.map w).sum) : l.Perm l' := by
  have hcount : ∀ (a : α) (l : List α),
      (l.map fun x => if x = a then (1 : Decimal) else 0).sum = l.count a := by
    intro a l
    induction l with
    | nil => rfl
    | cons x l ih =>
      rw [List.map_cons, List.sum_cons, ih, List.count_cons]
      by_cases hx : x = a <;> simp [hx, add_comm]
  rw [List.perm_iff_count]
  intro a
  have ha := h fun x => if x = a then 1 else 0
  rw [hcount, hcount] at ha
  exact_mod_cast ha

namespace Oms

/-- All fills on the books, order by order. -/
def fills (s : Oms) : List Fill := s.orders.keys.flatMap s.getFills

theorem total_eq_sum_fills (w : Fill → Decimal) (s : Oms) : s.total w = (s.fills.map w).sum := by
  rw [total, fills, List.map_flatMap, List.flatMap, List.sum_flatten, List.map_map]
  rfl

/-- A fill that the system has nothing to correct about. -/
def Told (s : Oms) (event : BrokerOrderEvent) : Prop :=
  ∀ fill ∈ event.fill, (event.newState = .partiallyFilled ∨ event.newState = .filled) ∧
    ∃ order, s.orders.get? event.clientOrderId = some order ∧
      fill.agentId = order.agentId ∧ fill.symbol = order.symbol

/-- **A step that adds some fills** to the books, and leaves the orders what they are. -/
structure Adds (s s' : Oms) (fills : List Fill) : Prop where
  keyed : s'.Keyed
  keepsOrders : s.KeepsOrders s'
  total : ∀ w, s'.total w = s.total w + (fills.map w).sum

section Adds

variable {s s' s'' : Oms} {fills fills' : List Fill}

theorem Adds.refl (hs : s.Keyed) : s.Adds s [] := ⟨hs, .refl s, fun w => by simp⟩

theorem Adds.trans (h : s.Adds s' fills) (h' : s'.Adds s'' fills') :
    s.Adds s'' (fills ++ fills') where
  keyed := h'.keyed
  keepsOrders := h.keepsOrders.trans h'.keepsOrders
  total w := by rw [h'.total, h.total, List.map_append, List.sum_append, add_assoc]

theorem Quiet.adds (h : s.Quiet s') (hs : s.Keyed) : s.Adds s' [] where
  keyed := h.keyed hs
  keepsOrders := h.keepsOrders
  total w := by simp [h.total w hs]

/-- A quiet step after some fills. -/
theorem Adds.quiet (h : s.Adds s' fills) (hq : s'.Quiet s'') : s.Adds s'' fills := by
  have hadds := h.trans (hq.adds h.keyed)
  rwa [List.append_nil] at hadds

/-- Some fills after a quiet step. -/
theorem Quiet.adds_trans (hq : s.Quiet s') (hs : s.Keyed) (h : s'.Adds s'' fills) :
    s.Adds s'' fills := (hq.adds hs).trans h

theorem Introduces.adds {order : Order} {ts : Time} (h : s.Introduces s' order ts)
    (hs : s.Keyed) (hfresh : order.id ∉ s.orders.keys) : s.Adds s' [] where
  keyed := h.keyed hs
  keepsOrders := h.keepsOrders fun _ hold => absurd (Dict.mem_keys_of_get? hold) hfresh
  total w := by simp [h.total w hfresh]

/-- The agent and the symbol of an order are the same later. -/
theorem KeepsOrders.exists_order (h : s.KeepsOrders s') {k : OrderId} {order : Order}
    (ho : s.orders.get? k = some order) :
    ∃ order', s'.orders.get? k = some order' ∧ order'.agentId = order.agentId ∧
      order'.symbol = order.symbol := by
  have hmeta := h k order.orderMeta (by rw [ho, Option.map_some])
  obtain ⟨order', ho', heq⟩ := Option.map_eq_some_iff.mp hmeta
  obtain ⟨hagent, -, hsymbol, -⟩ := OrderMeta.mk.inj heq
  exact ⟨order', ho', hagent, hsymbol⟩

theorem Told.mono {event : BrokerOrderEvent} (h : s.Told event) (hkeeps : s.KeepsOrders s') :
    s'.Told event := by
  intro fill hfill
  obtain ⟨hstate, order, ho, hagent, hsymbol⟩ := h fill hfill
  obtain ⟨order', ho', hagent', hsymbol'⟩ := hkeeps.exists_order ho
  exact ⟨hstate, order', ho', hagent.trans hagent'.symm, hsymbol.trans hsymbol'.symm⟩

/-- **An event that tells of a fill** adds it to the books as it is. -/
theorem Told.adds {event : BrokerOrderEvent} (h : s.Told event) (hs : s.Keyed) (now : Time) :
    s.Adds (s.onBrokerEvent event now) event.fill.toList := by
  rcases hfill : event.fill with _ | fill
  · exact (quiet_onBrokerEvent hs hfill now).adds hs
  obtain ⟨hstate, order, ho, hagent, hsymbol⟩ := h fill hfill
  have hsame : fill.correctedFor order = fill := by rw [Fill.correctedFor, ← hagent, ← hsymbol]
  rw [onBrokerEvent_of_fill ho hstate hfill]
  refine ⟨hs.handleFill _ _ _, keepsOrders_of_eq (orderMeta_handleFill hs _ _ _), fun w => ?_⟩
  rw [total_handleFill w hs ho, hsame]
  simp

/-- The events of one call, one after the other. -/
theorem adds_onBrokerEvents (hs : s.Keyed) {events : List BrokerOrderEvent}
    (h : ∀ event ∈ events, s.Told event) (now : Time) :
    s.Adds (s.onBrokerEvents events now) (events.filterMap (·.fill)) := by
  induction events generalizing s with
  | nil => exact Adds.refl hs
  | cons event events ih =>
    obtain ⟨hevent, hrest⟩ := List.forall_mem_cons.mp h
    have hadds := hevent.adds hs now
    have hlater := ih hadds.keyed fun e he => (hrest e he).mono hadds.keepsOrders
    have hfills : (event :: events).filterMap (·.fill) =
        event.fill.toList ++ events.filterMap (·.fill) := by
      rcases hfill : event.fill with _ | fill <;> simp [hfill]
    rw [hfills]
    exact hadds.trans hlater

end Adds

end Oms

namespace PaperDesk

/-! ### The broker knows the orders by their agents and symbols -/

/-- A record at the broker of an order of the system. -/
def OfOrder (s : Oms) (record : BrokerOrder) : Prop :=
  ∃ order, s.orders.get? record.status.clientOrderId = some order ∧
    record.agentId = order.agentId ∧ record.status.symbol = order.symbol

/-- All records are. -/
def AllKnown (s : Oms) (b : FakeBroker) : Prop :=
  ∀ brokerOrderId record, b.orders.get? brokerOrderId = some record → OfOrder s record

section Known

variable {s s' : Oms} {b b' : FakeBroker} {record : BrokerOrder}

theorem OfOrder.mono (h : OfOrder s record) (hkeeps : s.KeepsOrders s') : OfOrder s' record := by
  obtain ⟨order, ho, hagent, hsymbol⟩ := h
  obtain ⟨order', ho', hagent', hsymbol'⟩ := hkeeps.exists_order ho
  exact ⟨order', ho', hagent.trans hagent'.symm, hsymbol.trans hsymbol'.symm⟩

theorem AllKnown.mono (h : AllKnown s b) (hkeeps : s.KeepsOrders s') : AllKnown s' b :=
  fun id record hrecord => (h id record hrecord).mono hkeeps

/-- One more record, or one in the place of another. -/
theorem AllKnown.write (h : AllKnown s b) (record : BrokerOrder) (hrecord : OfOrder s record)
    (horders : b'.orders = (b.write record).orders) : AllKnown s b' := by
  intro id r hr
  rw [horders, FakeBroker.write, Dict.get?_set] at hr
  split_ifs at hr with hid
  · cases hr
    exact hrecord
  · exact h id r hr

/-- **A fill of a known order**: the system is told of it. -/
theorem AllKnown.recordFill (h : AllKnown s b) (record : BrokerOrder) (hrecord : OfOrder s record)
    (qty price : Decimal) (fillId : FillId) (now : Time) :
    AllKnown s (b.recordFill record qty price fillId now).1 ∧
      s.Told (b.recordFill record qty price fillId now).2 := by
  refine ⟨?_, fun fill hfill => ⟨?_, ?_⟩⟩
  · refine h.write (FakeBroker.filledRecord record qty price fillId now).1 hrecord ?_
    rw [FakeBroker.recordFill]
    exact FakeBroker.orders_applyFillToAccount _ _ _ _ _
  · by_cases hfull : record.status.qty ≤ record.status.filledQty + qty
    · simp [FakeBroker.recordFill, FakeBroker.filledRecord, hfull]
    · simp [FakeBroker.recordFill, FakeBroker.filledRecord, hfull]
  · obtain rfl := Option.some.inj hfill
    exact hrecord

theorem told_of_fill_eq_none {event : BrokerOrderEvent} (h : event.fill = none) : s.Told event :=
  fun fill hfill => by rw [h] at hfill; cases hfill

/-! ### What the broker's calls leave -/

theorem AllKnown.submitOrder (h : AllKnown s b) {order : Order}
    (hk : ∃ known, s.orders.get? order.id = some known ∧ order.agentId = known.agentId ∧
      order.symbol = known.symbol) (brokerOrderId : String) (fillId : FillId) (now : Time) :
    AllKnown s (b.submitOrder order brokerOrderId fillId now).1 ∧
      ∀ event ∈ (b.submitOrder order brokerOrderId fillId now).2.callbacks, s.Told event := by
  have hkeep : ∀ state reason,
      AllKnown s (b.keep (FakeBroker.newRecord order brokerOrderId state reason now)) :=
    fun state reason =>
      h.write (FakeBroker.newRecord order brokerOrderId state reason now) hk rfl
  rw [FakeBroker.submitOrder]
  rcases b.raiseOnNextSubmit with _ | error
  · rcases b.clientToBroker.get? order.id with _ | existing
    · dsimp only
      split_ifs
      · exact ⟨hkeep _ _, by simp [Oms.Told]⟩
      · rcases b.fillMode.autoFill? order.qty with _ | qty
        · exact ⟨hkeep _ _, by simp [Oms.Told]⟩
        · obtain ⟨hknown, htold⟩ := (hkeep .accepted none).recordFill
            (FakeBroker.newRecord order brokerOrderId .accepted none now) hk qty
            (b.priceFor order.symbol order.limitPrice) fillId now
          refine ⟨hknown, List.forall_mem_cons.mpr ⟨told_of_fill_eq_none rfl, ?_⟩⟩
          exact List.forall_mem_singleton.mpr htold
    · exact ⟨h, by simp⟩
  · exact ⟨h, by simp⟩

theorem AllKnown.cancelOrder (h : AllKnown s b) (brokerOrderId : String) (now : Time) :
    AllKnown s (b.cancelOrder brokerOrderId now).1 ∧
      ∀ event ∈ (b.cancelOrder brokerOrderId now).2.callbacks, event.fill = none := by
  rw [FakeBroker.cancelOrder]
  rcases b.raiseOnNextCancel with _ | error
  · rcases hrecord : b.orders.get? brokerOrderId with _ | record
    · exact ⟨h, by simp⟩
    · dsimp only
      split_ifs
      · exact ⟨h, by simp⟩
      · have hof := h _ _ hrecord
        exact ⟨h.write (FakeBroker.closedRecord record .canceled _ now) hof rfl, by simp⟩
  · exact ⟨h, by simp⟩

/-- What forcing an order may leave: a broker that knows its orders, and events that tell of
fills. -/
def Serves (s : Oms) : Except ForceError (FakeBroker × List BrokerOrderEvent) → Prop
  | .error _ => True
  | .ok (b, events) => AllKnown s b ∧ ∀ event ∈ events, s.Told event

theorem AllKnown.forceFullFill (h : AllKnown s b) (hb : b.Keyed) (k : OrderId)
    (price : Option Decimal) (fillId : FillId) (now : Time) :
    Serves s (b.forceFullFill k price fillId now) := by
  rw [FakeBroker.forceFullFill]
  rcases hr : b.recordOf k with error | record
  · trivial
  · dsimp only
    split_ifs
    · exact ⟨h, by simp⟩
    · have hrecord := h _ _ (get?_of_recordOf hb hr).1
      obtain ⟨hknown, htold⟩ := h.recordFill record hrecord _ _ fillId now
      exact ⟨hknown, List.forall_mem_singleton.mpr htold⟩

theorem AllKnown.forcePartialFill (h : AllKnown s b) (hb : b.Keyed) (k : OrderId) (qty : Decimal)
    (price : Option Decimal) (fillId : FillId) (now : Time) :
    Serves s (b.forcePartialFill k qty price fillId now) := by
  rw [FakeBroker.forcePartialFill]
  rcases hr : b.recordOf k with error | record
  · trivial
  · dsimp only
    split_ifs
    · trivial
    · have hrecord := h _ _ (get?_of_recordOf hb hr).1
      obtain ⟨hknown, htold⟩ := h.recordFill record hrecord _ _ fillId now
      exact ⟨hknown, List.forall_mem_singleton.mpr htold⟩

theorem AllKnown.forceReject (h : AllKnown s b) (hb : b.Keyed) (k : OrderId) (reason : String)
    (now : Time) : Serves s (b.forceReject k reason now) := by
  rw [FakeBroker.forceReject]
  rcases hr : b.recordOf k with error | record
  · trivial
  · have hrecord := h _ _ (get?_of_recordOf hb hr).1
    exact ⟨h.write (FakeBroker.closedRecord record .rejected (some reason) now) hrecord rfl,
      by simp [Oms.Told]⟩

end Known

/-! ### The two sets of books -/

/-- **The two sets of books are one**: what the broker delivered is what its account amounts to,
and what the system has on its books. -/
structure Books (startingCash : Decimal) (s : Oms) (σ : FakeBroker.Session) : Prop where
  keyed : s.Keyed
  keyedBroker : σ.broker.Keyed
  known : AllKnown s σ.broker
  balanced : FakeBroker.Balanced startingCash σ
  total : ∀ w, s.total w = (σ.fills.map w).sum

section Books

variable {startingCash : Decimal} {s s' : Oms} {σ : FakeBroker.Session} {b : FakeBroker}
  {events : List BrokerOrderEvent}

/-- **The two go on together**: the broker by its moves, and the system by the fills they
deliver. -/
theorem Books.advance (h : Books startingCash s σ)
    (hmoves : FakeBroker.Moves σ ⟨b, σ.delivered ++ events⟩)
    (hadds : s.Adds s' (events.filterMap (·.fill))) (hknown : AllKnown s' b) :
    Books startingCash s' ⟨b, σ.delivered ++ events⟩ := by
  have hbroker : ∀ σ', FakeBroker.Moves σ σ' →
      σ'.broker.Keyed ∧ FakeBroker.Balanced startingCash σ' := by
    intro σ' hσ
    induction hσ with
    | refl => exact ⟨h.keyedBroker, h.balanced⟩
    | tail _ hmove ih => exact ⟨hmove.keyed ih.1, ih.2.move hmove⟩
  obtain ⟨hkeyed, hbalanced⟩ := hbroker _ hmoves
  refine ⟨hadds.keyed, hkeyed, hknown, hbalanced, fun w => ?_⟩
  rw [hadds.total, h.total, FakeBroker.Session.fills, FakeBroker.Session.fills,
    List.filterMap_append, List.map_append, List.sum_append]

/-- The system does nothing. -/
theorem Books.knob (h : Books startingCash s σ) (horders : b.orders = σ.broker.orders)
    (hclients : b.clientToBroker = σ.broker.clientToBroker) (hcash : b.cash = σ.broker.cash)
    (hpos : b.positions = σ.broker.positions) : Books startingCash s ⟨b, σ.delivered⟩ := by
  have hmoves := FakeBroker.moves_knob horders hclients hcash hpos
  rw [← List.append_nil σ.delivered] at hmoves ⊢
  refine h.advance hmoves (.refl h.keyed) fun id record hrecord => ?_
  rw [horders] at hrecord
  exact h.known id record hrecord

theorem books_new (fillMode : FillMode) (startingCash : Decimal) :
    Books startingCash Oms.empty (.new fillMode startingCash) where
  keyed := Oms.WellFormed.empty.toKeyed
  keyedBroker := FakeBroker.keyed_new _ _
  known id record hrecord :=
    absurd hrecord (by simp [FakeBroker.Session.new, FakeBroker.new])
  balanced := FakeBroker.balanced_new fillMode startingCash
  total w := rfl

end Books

section Step

variable {startingCash : Decimal} {d : PaperDesk} {delivered : List BrokerOrderEvent}

/-- Some list of delivered events makes the books one. -/
def Balances (startingCash : Decimal) (d : PaperDesk) : Prop :=
  ∃ delivered, Books startingCash d.oms ⟨d.broker, delivered⟩

/-- **A submission.** -/
theorem Books.submitOrder (h : Books startingCash d.oms ⟨d.broker, delivered⟩) {order : Order}
    (hp : order.state = .pending) (hfresh : order.id ∉ d.oms.orders.keys) (hqty : 0 < order.qty)
    {brokerOrderId : String} (hid : brokerOrderId ∉ d.broker.orders.keys) (fillId : FillId)
    (now : Time) :
    Balances startingCash (d.step (.submitOrder order brokerOrderId fillId now)) := by
  have hintro := Oms.persistIntent_introduces d.oms hp now
  have hintent := hintro.adds h.keyed hfresh
  have hknows : ∃ known, (d.oms.persistIntent order now).orders.get? order.id = some known ∧
      order.agentId = known.agentId ∧ order.symbol = known.symbol :=
    ⟨_, hintro.get?_self, rfl, rfl⟩
  obtain ⟨hknown, htold⟩ :=
    (h.known.mono hintent.keepsOrders).submitOrder hknows brokerOrderId fillId now
  -- the intent, what the broker calls back, and its answer
  have hcalls := Oms.adds_onBrokerEvents hintent.keyed htold now
  have hsettled := hcalls.quiet (Oms.quiet_settleSubmit hcalls.keyed order.id
    (d.broker.submitOrder order brokerOrderId fillId now).2.outcome now)
  rw [PaperDesk.step, if_pos hp]
  refine ⟨delivered ++ (d.broker.submitOrder order brokerOrderId fillId now).2.callbacks, ?_⟩
  dsimp only
  rw [Oms.submitOrder_fst hp]
  exact h.advance (FakeBroker.moves_submitOrder hqty hid fillId now) (hintent.trans hsettled)
    (hknown.mono hsettled.keepsOrders)

/-- **A cancellation**, in which nothing is filled. -/
theorem Books.cancelOrder (h : Books startingCash d.oms ⟨d.broker, delivered⟩) (orderId : OrderId)
    (now : Time) : Balances startingCash (d.step (.cancelOrder orderId now)) := by
  have hcancel : ∀ call : CancelCall, (∀ event ∈ call.callbacks, event.fill = none) →
      d.oms.Adds (d.oms.cancelOrder orderId call now).1 (call.callbacks.filterMap (·.fill)) := by
    intro call hfill
    have hq := Oms.quiet_requestCancel h.keyed orderId now
    have hnone : call.callbacks.filterMap (·.fill) = [] := List.filterMap_eq_nil_iff.mpr hfill
    have hcalls := Oms.adds_onBrokerEvents (hq.keyed h.keyed)
      (fun event he => told_of_fill_eq_none (hfill event he)) now
    unfold Oms.cancelOrder
    split
    · exact hnone ▸ .refl h.keyed
    · split_ifs
      · exact hnone ▸ hq.adds h.keyed
      · exact hq.adds_trans h.keyed hcalls
      · exact hq.adds_trans h.keyed hcalls
  rw [PaperDesk.step]
  rcases d.oms.cancelTarget? orderId with _ | brokerOrderId
  · have hnothing := hcancel ⟨[], false⟩ (by simp)
    have hstay : FakeBroker.Moves ⟨d.broker, delivered⟩ ⟨d.broker, delivered ++ []⟩ :=
      FakeBroker.moves_deliver (by simp)
    exact ⟨_, h.advance hstay hnothing (h.known.mono hnothing.keepsOrders)⟩
  · obtain ⟨hknown, hfill⟩ := h.known.cancelOrder brokerOrderId now
    have hadds := hcancel _ hfill
    exact ⟨_, h.advance (FakeBroker.moves_cancelOrder h.keyedBroker brokerOrderId now) hadds
      (hknown.mono hadds.keepsOrders)⟩

/-- **An order is forced.** -/
theorem Books.deliver (h : Books startingCash d.oms ⟨d.broker, delivered⟩)
    {forced : Except ForceError (FakeBroker × List BrokerOrderEvent)}
    (hmoves : FakeBroker.Moves ⟨d.broker, delivered⟩
      (FakeBroker.Session.force ⟨d.broker, delivered⟩ forced))
    (hserves : Serves d.oms forced) (now : Time) :
    Balances startingCash (d.deliver forced now) := by
  rcases forced with error | ⟨b, events⟩
  · exact ⟨delivered, h⟩
  · have hadds := Oms.adds_onBrokerEvents h.keyed hserves.2 now
    exact ⟨_, h.advance hmoves hadds (hserves.1.mono hadds.keepsOrders)⟩

/-- What the run admits: orders of a positive quantity, besides what a desk admits. -/
def AdmitsPositive (d : PaperDesk) (op : PaperOp) : Prop :=
  d.Admits op ∧ match op with
    | .submitOrder order _ _ _ => 0 < order.qty
    | _ => True

instance (d : PaperDesk) : (op : PaperOp) → Decidable (d.AdmitsPositive op)
  | .submitOrder order .. => inferInstanceAs (Decidable (_ ∧ 0 < order.qty))
  | .cancelOrder .. | .forceFullFill .. | .forcePartialFill .. | .forceReject .. | .setFillMode _
  | .setPrice .. | .injectSubmitFailure _ | .injectCancelFailure _ =>
    inferInstanceAs (Decidable (_ ∧ True))

/-- **Every operation keeps the books one.** -/
theorem Balances.step (h : Balances startingCash d) {op : PaperOp} (hop : d.AdmitsPositive op) :
    Balances startingCash (d.step op) := by
  obtain ⟨delivered, hbooks⟩ := h
  have hknob : ∀ b : FakeBroker, b.orders = d.broker.orders →
      b.clientToBroker = d.broker.clientToBroker → b.cash = d.broker.cash →
        b.positions = d.broker.positions → Balances startingCash ⟨d.oms, b⟩ :=
    fun _ horders hclients hcash hpos => ⟨_, hbooks.knob horders hclients hcash hpos⟩
  cases op with
  | submitOrder order brokerOrderId fillId now =>
    obtain ⟨⟨hfresh, -, hid⟩, hqty⟩ := hop
    by_cases hp : order.state = .pending
    · exact hbooks.submitOrder hp hfresh hqty hid fillId now
    · rw [PaperDesk.step, if_neg hp]
      exact ⟨delivered, hbooks⟩
  | cancelOrder orderId now => exact hbooks.cancelOrder orderId now
  | forceFullFill orderId price fillId now =>
    exact hbooks.deliver
      (FakeBroker.moves_forceFullFill hbooks.keyedBroker orderId price fillId now)
      (hbooks.known.forceFullFill hbooks.keyedBroker orderId price fillId now) now
  | forcePartialFill orderId qty price fillId now =>
    exact hbooks.deliver
      (FakeBroker.moves_forcePartialFill hbooks.keyedBroker orderId hop.1 price fillId now)
      (hbooks.known.forcePartialFill hbooks.keyedBroker orderId qty price fillId now) now
  | forceReject orderId reason now =>
    exact hbooks.deliver
      (FakeBroker.moves_forceReject hbooks.keyedBroker orderId reason now)
      (hbooks.known.forceReject hbooks.keyedBroker orderId reason now) now
  | setFillMode mode => exact hknob _ rfl rfl rfl rfl
  | setPrice symbol price => exact hknob _ rfl rfl rfl rfl
  | injectSubmitFailure error => exact hknob _ rfl rfl rfl rfl
  | injectCancelFailure error => exact hknob _ rfl rfl rfl rfl

/-- **The system's own fills tell the broker's cash.** After every run of the system on the
simulated broker the fills on the books of the two are the same, one for one, with the agents that
made them; so the broker's cash is the cash it started with, less what those fills were paid
for. -/
theorem paperFills_run (fillMode : FillMode) (startingCash : Decimal) {ops : List PaperOp}
    (hops : Along step AdmitsPositive (new fillMode startingCash) ops) :
    let d := run step (new fillMode startingCash) ops
    d.oms.fills.Perm d.broker.allFills ∧
      d.broker.getAccount.cash =
        startingCash - (d.oms.fills.map fun fill => fill.signedQty * fill.price).sum := by
  have hstep : ∀ (d : PaperDesk) (op : PaperOp), Balances startingCash d → d.AdmitsPositive op →
      Balances startingCash (d.step op) := fun _ _ h hop => h.step hop
  obtain ⟨delivered, hbooks⟩ := hops.invariant hstep ⟨[], books_new fillMode startingCash⟩
  have hperm := perm_of_sum_eq fun w => (Oms.total_eq_sum_fills w _).symm.trans (hbooks.total w)
  refine ⟨hperm.trans hbooks.balanced.fills.symm, ?_⟩
  refine hbooks.balanced.booked.cash.trans ?_
  rw [Trades.paid, FakeBroker.Session.trades, List.map_map, (hperm.map _).sum_eq]
  rfl

/-- A purchase in two halves, and a sale of more than that. -/
theorem paperFills_flipRun :
    (run step (new .partialThenHold 30000) flipRun).oms.fills.length = 3 ∧
      (run step (new .partialThenHold 30000) flipRun).oms.fills.Perm
        (run step (new .partialThenHold 30000) flipRun).broker.allFills :=
  ⟨by decide +kernel, (paperFills_run _ _ (by decide +kernel)).1⟩

end Step

end PaperDesk

end TradingPlatform
