import TradingPlatform.Execution.AlpacaBroker
import TradingPlatform.Execution.Attribution

/-!
# Three ways for a fill to get into the books

An execution of the broker reaches the order management system as a message of the trade stream.
The reconciler has two more ways of booking what it takes for missing: the difference between what
the broker says of an order and what the order had when it was listed, and a position of which
there was no record when the books were read. Each way draws fill identifiers of its own, so
nobody notices that an execution was booked before.

The message of an execution may be late, and the steps of a pass leave time for the other paths. So
what the reconciler takes for missing may be on its way, or may have been booked meanwhile. As long
as it is neither – what the reconciler books was executed, is not in the books and is not on its
way either – no run records more of a symbol than the broker executed
(`TradingPlatform.FillPaths.countedOnce_run`).
-/

namespace TradingPlatform

/-! ### Executions -/

/-- One execution of the broker. -/
structure Execution where
  orderId : OrderId
  brokerOrderId : String
  symbol : String
  side : OrderSide
  assetClass : AssetClass
  qty : Decimal
  price : Decimal
  /-- Whether it completes the order. -/
  completes : Bool
  timestamp : Time
  deriving DecidableEq

/-- The message of the trade stream about an execution. -/
def Execution.update (e : Execution) : TradeUpdate where
  clientOrderId := some e.orderId
  brokerOrderId := e.brokerOrderId
  event := if e.completes then .fill else .partialFill
  symbol := some e.symbol
  assetClass := some e.assetClass
  price := some e.price
  qty := some e.qty
  timestamp := some e.timestamp

/-- What an execution changes in the account: the fee of a crypto purchase is taken in kind. -/
def Execution.netQty (e : Execution) : Decimal :=
  if e.assetClass = .crypto ∧ e.side = .buy then e.qty * (1 - cryptoTakerFee) else e.qty

/-- How much of a symbol was executed. -/
def executedQty (executions : List Execution) (sym : String) : Decimal :=
  (executions.map fun e => if e.symbol = sym then e.qty else 0).sum

/-- What the broker says was filled of an order. -/
def brokerFilledQty (executions : List Execution) (orderId : OrderId) : Decimal :=
  (executions.map fun e => if e.orderId = orderId then e.netQty else 0).sum

/-- The broker's net position in a symbol. -/
def brokerNetQty (executions : List Execution) (sym : String) : Decimal :=
  (executions.map fun e =>
    if e.symbol = sym then
      match e.side with
      | .buy => e.netQty
      | .sell => -e.netQty
    else 0).sum

/-- The broker's positions, at some prices. -/
def brokerPositions (executions : List Execution) (price : String → Decimal) :
    List BrokerPosition :=
  ((executions.map (·.symbol)).dedup.filter fun sym => brokerNetQty executions sym ≠ 0).map
    fun sym => ⟨sym, brokerNetQty executions sym, price sym, price sym, .equity⟩

/-! ### Passes of the reconciler, step by step -/

/-- Where the reconciler is in a pass, with what it holds. -/
inductive PassPhase
  | idle
  /-- Orders that were listed and are still to be polled. -/
  | polling (orders : List Order)
  /-- The broker's answer about an order, which is not acted on yet. -/
  | answered (order : Order) (status : BrokerOrderStatus) (orders : List Order)
  /-- The positions in the books, which are not compared yet. -/
  | expecting (expected : Dict String Decimal)
  /-- Positions without a record, which are still to be adopted: symbol, quantity and price. -/
  | adopting (orphans : List (String × Decimal × Decimal))

/-- What a step of a pass gets from outside: whether the broker's call raises, what else is in its
answers, and what the step draws. -/
structure PassStep where
  raises : Bool
  /-- The status, but for the client identifier and the filled quantity. -/
  status : BrokerOrderStatus
  price : String → Decimal
  fillId : FillId
  ghostIds : GhostIds
  ts : Time

/-- The positions the reconciler adopts. -/
def orphansOf (cfg : ReconcilerConfig) (expected : Dict String Decimal)
    (positions : List BrokerPosition) : List (String × Decimal × Decimal) :=
  let positions := Reconciler.positionsBySymbol positions
  (Reconciler.allSymbols expected positions).filterMap fun sym =>
    match Reconciler.checkSymbol cfg expected positions sym with
    | .orphan qty price => some (sym, qty, price)
    | _ => none

/-! ### What a step does to the orders' symbols -/

namespace Oms

variable {s s' s'' : Oms} {new : OrderId → Prop}

/-- `s'` has the orders of `s`, for the symbols they were for, and some new ones. -/
structure Extends (s s' : Oms) (new : OrderId → Prop) : Prop where
  keyed : s'.Keyed
  kept : ∀ k order, s.orders.get? k = some order →
    ∃ order', s'.orders.get? k = some order' ∧ order'.symbol = order.symbol
  known : ∀ k order', s'.orders.get? k = some order' →
    new k ∨ ∃ order, s.orders.get? k = some order ∧ order'.symbol = order.symbol

theorem extends_refl (hs : s.Keyed) : s.Extends s new where
  keyed := hs
  kept _ order ho := ⟨order, ho, rfl⟩
  known _ order ho := Or.inr ⟨order, ho, rfl⟩

theorem Extends.trans (h : s.Extends s' new) (h' : s'.Extends s'' new) : s.Extends s'' new where
  keyed := h'.keyed
  kept k order ho := by
    obtain ⟨order', ho', hsym⟩ := h.kept k order ho
    obtain ⟨order'', ho'', hsym'⟩ := h'.kept k order' ho'
    exact ⟨order'', ho'', hsym'.trans hsym⟩
  known k order'' ho'' := by
    rcases h'.known k order'' ho'' with hnew | ⟨order', ho', hsym'⟩
    · exact Or.inl hnew
    · refine (h.known k order' ho').imp_right ?_
      rintro ⟨order, ho, hsym⟩
      exact ⟨order, ho, hsym'.trans hsym⟩

/-- Where no order is new, it is enough that those there are go on for their symbols. -/
theorem extends_of_keys (hs' : s'.Keyed) (hkeys : s'.orders.keys = s.orders.keys)
    (hkept : ∀ k order, s.orders.get? k = some order →
      ∃ order', s'.orders.get? k = some order' ∧ order'.symbol = order.symbol) :
    s.Extends s' new where
  keyed := hs'
  kept := hkept
  known k order' ho' := by
    have hk := Dict.mem_keys_of_get? ho'
    rw [hkeys] at hk
    obtain ⟨order, ho⟩ := Dict.mem_keys_iff.mp hk
    obtain ⟨order'', ho'', hsym⟩ := hkept k order ho
    rw [ho'] at ho''
    cases ho''
    exact Or.inr ⟨order, ho, hsym⟩

theorem Quiet.extends (h : s.Quiet s') (hs : s.Keyed) : s.Extends s' new := by
  refine extends_of_keys (h.keyed hs) h.keys fun k order ho => ?_
  obtain ⟨order', ho', hsame⟩ := h.exists_order ho
  exact ⟨order', ho', hsame.symbol⟩

theorem Introduces.extends {order : Order} {ts : Time} (h : s.Introduces s' order ts)
    (hs : s.Keyed) (hfresh : order.id ∉ s.orders.keys) : s.Extends s' (· = order.id) where
  keyed := h.keyed hs
  kept k old ho := by
    have hk : k ≠ order.id := fun hc => hfresh (hc ▸ Dict.mem_keys_of_get? ho)
    exact ⟨old, by rw [h.orders, if_neg hk, ho], rfl⟩
  known k order' ho' := by
    by_cases hk : k = order.id
    · exact Or.inl hk
    · rw [h.orders, if_neg hk] at ho'
      exact Or.inr ⟨order', ho', rfl⟩

theorem extends_onBrokerEvent (hs : s.Keyed) (event : BrokerOrderEvent) (now : Time) :
    s.Extends (s.onBrokerEvent event now) new := by
  rcases onBrokerEvent_cases hs event now with hq | ⟨order, fill, ho, -, -, heq⟩
  · exact hq.extends hs
  refine extends_of_keys (hs.onBrokerEvent event now) (keys_onBrokerEvent hs event now)
    fun k old hold => ?_
  by_cases hk : event.clientOrderId = k
  · subst hk
    rw [hold] at ho
    cases ho
    obtain ⟨order', ho', hsame⟩ := exists_order_handleFill hs hold fill (event.timestamp.getD now)
    exact ⟨order', by rw [heq, ho'], hsame.symbol⟩
  · obtain ⟨order', ho', hsame⟩ := get?_onBrokerEvent_of_ne hs hold hk now
    exact ⟨order', ho', hsame.symbol⟩

theorem extends_bookGhost (hs : s.Keyed) {ghost : Ghost}
    (hfresh : ghost.ids.order ∉ s.orders.keys) :
    s.Extends (s.bookGhost ghost) (· = ghost.ids.order) where
  keyed := hs.bookGhost ghost
  kept k order ho := by
    have hk : k ≠ ghost.ids.order := fun hc => hfresh (hc ▸ Dict.mem_keys_of_get? ho)
    exact ⟨order, by rw [(bookGhost_of_ne hs hk).1, ho], rfl⟩
  known k order' ho' := by
    by_cases hk : k = ghost.ids.order
    · exact Or.inl hk
    · rw [(bookGhost_of_ne hs hk).1] at ho'
      exact Or.inr ⟨order', ho', rfl⟩

/-- **What a broker event books**: nothing, or its fill, under the symbol of the order it is
about. -/
theorem total_onBrokerEvent (hs : s.Keyed) (event : BrokerOrderEvent) (now : Time) :
    (∀ w, (s.onBrokerEvent event now).total w = s.total w) ∨
      ∃ order fill, s.orders.get? event.clientOrderId = some order ∧ event.fill = some fill ∧
        ∀ w, (s.onBrokerEvent event now).total w = s.total w + w (fill.correctedFor order) := by
  rcases onBrokerEvent_cases hs event now with hq | ⟨order, fill, ho, hfill, -, heq⟩
  · exact Or.inl fun w => hq.total w hs
  · refine Or.inr ⟨order, fill, ho, hfill, fun w => ?_⟩
    rw [heq, total_handleFill w hs ho]

end Oms

/-! ### The paths -/

/-- The order management system with its adapter, the reconciler in the middle of a pass, what the
broker executed, and the messages about it that are on their way. -/
structure FillPaths where
  oms : Oms
  adapter : AlpacaBroker
  phase : PassPhase
  executions : List Execution
  inFlight : List Execution

/-- One step of any of them. -/
inductive FillPathsOp
  | submitOrder (order : Order) (outcome : SubmitOutcome) (now : Time)
  | requestCancel (orderId : OrderId) (now : Time)
  | execute (execution : Execution)
  /-- One of the messages on their way arrives. -/
  | deliver (i : ℕ) (fillId : FillId) (now : Time)
  /-- One of them never arrives. -/
  | lose (i : ℕ)
  /-- A message of the stream that is about no execution. -/
  | notify (event : BrokerOrderEvent) (now : Time)
  | reconcile (step : PassStep)

namespace FillPaths

/-- One step of a pass. -/
def reconcileStep (cfg : ReconcilerConfig) (w : FillPaths) (step : PassStep) : FillPaths :=
  match w.phase with
  | .idle => { w with phase := .polling w.oms.listOpenOrders }
  | .polling [] => { w with phase := .expecting w.oms.computeExpectedPositions }
  | .polling (order :: orders) =>
    { w with
      phase :=
        if order.brokerOrderId = none ∨ step.raises = true then .polling orders
        else
          let status := { step.status with
            clientOrderId := order.id
            filledQty := brokerFilledQty w.executions order.id }
          .answered order status orders }
  | .answered order status orders =>
    { w with
      oms := (Reconciler.applyStatus w.oms order status step.fillId).1
      phase := .polling orders }
  | .expecting expected =>
    { w with
      phase :=
        if step.raises then .idle
        else .adopting (orphansOf cfg expected (brokerPositions w.executions step.price)) }
  | .adopting [] => { w with phase := .idle }
  | .adopting ((sym, qty, price) :: orphans) =>
    { w with
      oms := w.oms.adoptOrphanPosition step.ghostIds sym qty price cfg.orphanAgentId step.ts
      phase := .adopting orphans }

def step (cfg : ReconcilerConfig) (w : FillPaths) : FillPathsOp → FillPaths
  | .submitOrder order outcome now =>
    { w with
      oms := (w.oms.submitOrder order ⟨[], outcome⟩ now).1
      adapter := w.adapter.submitOrder order }
  | .requestCancel orderId now => { w with oms := w.oms.requestCancel orderId now }
  | .execute execution =>
    { w with
      executions := w.executions ++ [execution]
      inFlight := w.inFlight ++ [execution] }
  | .deliver i fillId now =>
    match w.inFlight[i]? with
    | none => w
    | some execution =>
      let inFlight := w.inFlight.eraseIdx i
      match w.adapter.tradeUpdateToEvent execution.update fillId now with
      | none => { w with inFlight := inFlight }
      | some event => { w with inFlight := inFlight, oms := w.oms.onBrokerEvent event now }
  | .lose i => { w with inFlight := w.inFlight.eraseIdx i }
  | .notify event now => { w with oms := w.oms.onBrokerEvent event now }
  | .reconcile step => w.reconcileStep cfg step

/-- Nothing has happened yet. -/
def start : FillPaths := ⟨.empty, ⟨.empty⟩, .idle, [], []⟩

/-- An identifier is new to the system and to the broker. -/
def Fresh (w : FillPaths) (orderId : OrderId) : Prop :=
  orderId ∉ w.oms.orders.keys ∧ ∀ e ∈ w.executions, e.orderId ≠ orderId

/-- **What can happen**: orders are submitted, and positions adopted, under new identifiers; the
broker executes some quantity of an order, in the order's symbol. -/
def Admissible (w : FillPaths) : FillPathsOp → Prop
  | .submitOrder order _ _ => order.state = .pending ∧ w.Fresh order.id
  | .execute e => 0 ≤ e.qty ∧ ∀ order ∈ w.oms.orders.get? e.orderId, order.symbol = e.symbol
  | .notify event _ => event.fill = none
  | .reconcile step => w.Fresh step.ghostIds.order
  | _ => True

/-- What a fill counts towards a symbol. -/
def countIn (sym : String) (fill : Fill) : Decimal := if fill.symbol = sym then fill.qty else 0

/-- What the books have recorded of a symbol. -/
def recordedQty (w : FillPaths) (sym : String) : Decimal :=
  w.oms.total (countIn sym)

/-- **No fill is counted twice**: no more is recorded of a symbol than was executed. -/
def CountedOnce (w : FillPaths) : Prop := ∀ sym, w.recordedQty sym ≤ executedQty w.executions sym

/-- What a step of a pass is about to book of which symbol: the difference between the broker's
answer and the order as it was listed, or a position. -/
def claims (w : FillPaths) : Option (String × Decimal) :=
  match w.phase with
  | .answered order status _ =>
    if statusRequiresUpdate order.state status.state = true ∧
        (status.state = .partiallyFilled ∨ status.state = .filled) ∧
        0 < status.filledQty - order.filledQty then
      some (order.symbol, status.filledQty - order.filledQty)
    else none
  | .adopting ((sym, qty, _) :: _) => some (sym, qty)
  | _ => none

/-- **The condition**: what the reconciler books was executed, is not in the books, and is not on
its way. -/
def Missing (w : FillPaths) : FillPathsOp → Prop
  | .reconcile _ => ∀ claim ∈ w.claims,
      w.recordedQty claim.1 + executedQty w.inFlight claim.1 + claim.2 ≤
        executedQty w.executions claim.1
  | _ => True

/-! ### The invariant -/

variable {w : FillPaths}

/-- The orders the reconciler holds. -/
def heldOrders : PassPhase → List Order
  | .polling orders => orders
  | .answered order _ orders => order :: orders
  | _ => []

/-- **The invariant**: what is in the books and what is on its way was executed; and whoever holds
an order or a message knows its symbol. -/
structure Inv (w : FillPaths) : Prop where
  keyed : w.oms.Keyed
  room : ∀ sym, w.oms.total (countIn sym) + executedQty w.inFlight sym ≤
    executedQty w.executions sym
  qty_nonneg : ∀ e ∈ w.executions, 0 ≤ e.qty
  inFlight : ∀ e ∈ w.inFlight, e ∈ w.executions
  symbols : ∀ e ∈ w.executions, ∀ order, w.oms.orders.get? e.orderId = some order →
    order.symbol = e.symbol
  held : ∀ order ∈ heldOrders w.phase, ∃ known,
    w.oms.orders.get? order.id = some known ∧ known.symbol = order.symbol
  answers : ∀ order status orders, w.phase = .answered order status orders →
    status.clientOrderId = order.id

theorem executedQty_nonneg {executions : List Execution} (h : ∀ e ∈ executions, 0 ≤ e.qty)
    (sym : String) : 0 ≤ executedQty executions sym := by
  refine List.sum_nonneg fun q hq => ?_
  obtain ⟨e, he, rfl⟩ := List.mem_map.mp hq
  split_ifs
  · exact h e he
  · exact le_rfl

theorem Inv.countedOnce (h : w.Inv) : w.CountedOnce := by
  intro sym
  have hnonneg := executedQty_nonneg (fun e he => h.qty_nonneg e (h.inFlight e he)) sym
  exact (le_add_of_nonneg_right hnonneg).trans (h.room sym)

/-- **What keeps the invariant**: a system with the same orders and new ones the broker does not
know, messages that were on their way before, and room for all of it. -/
theorem Inv.update (h : w.Inv) {oms : Oms} {new : OrderId → Prop} (hext : w.oms.Extends oms new)
    (hnew : ∀ k, new k → ∀ e ∈ w.executions, e.orderId ≠ k) {inFlight : List Execution}
    (hin : ∀ e ∈ inFlight, e ∈ w.inFlight)
    (hroom : ∀ sym, oms.total (countIn sym) + executedQty inFlight sym ≤
      executedQty w.executions sym)
    {phase : PassPhase} (hheld : ∀ order ∈ heldOrders phase, ∃ known,
      w.oms.orders.get? order.id = some known ∧ known.symbol = order.symbol)
    (hanswers : ∀ order status orders, phase = .answered order status orders →
      status.clientOrderId = order.id) (adapter : AlpacaBroker) :
    Inv ⟨oms, adapter, phase, w.executions, inFlight⟩ where
  keyed := hext.keyed
  room := hroom
  qty_nonneg := h.qty_nonneg
  inFlight e he := h.inFlight e (hin e he)
  symbols e he order ho := by
    rcases hext.known e.orderId order ho with hk | ⟨old, hold, hsym⟩
    · exact absurd rfl (hnew e.orderId hk e he)
    · exact hsym.trans (h.symbols e he old hold)
  held order horder := by
    obtain ⟨known, hknown, hsym⟩ := hheld order horder
    obtain ⟨known', hknown', hsym'⟩ := hext.kept order.id known hknown
    exact ⟨known', hknown', hsym'.trans hsym⟩
  answers := hanswers

/-- No order is new where none was added. -/
theorem notNew : ∀ k : OrderId, (fun _ : OrderId => False) k →
    ∀ e ∈ w.executions, e.orderId ≠ k :=
  fun _ h => h.elim

/-- A step of the system that books nothing keeps the invariant. -/
theorem Inv.quiet (h : w.Inv) {oms : Oms} (hq : w.oms.Quiet oms) :
    Inv { w with oms := oms } := by
  refine h.update (hq.extends h.keyed) notNew (fun _ he => he) (fun sym => ?_) h.held h.answers _
  rw [hq.total _ h.keyed]
  exact h.room sym

/-- What one of the messages counts for is no longer on its way. -/
theorem executedQty_eraseIdx {executions : List Execution} {i : ℕ} {e : Execution}
    (h : executions[i]? = some e) (sym : String) :
    executedQty (executions.eraseIdx i) sym + (if e.symbol = sym then e.qty else 0) =
      executedQty executions sym := by
  obtain ⟨hi, rfl⟩ := List.getElem?_eq_some_iff.mp h
  have hperm := (List.getElem_cons_eraseIdx_perm hi).map fun e : Execution =>
    if e.symbol = sym then e.qty else 0
  rw [executedQty, executedQty, ← hperm.sum_eq, List.map_cons, List.sum_cons, add_comm]

/-- A message that never arrives leaves more room. -/
theorem Inv.lose (h : w.Inv) (i : ℕ) : Inv { w with inFlight := w.inFlight.eraseIdx i } := by
  refine h.update (Oms.extends_refl h.keyed) notNew (fun _ he => List.mem_of_mem_eraseIdx he)
    (fun sym => ?_) h.held h.answers _
  rcases hi : w.inFlight[i]? with _ | e
  · rw [List.eraseIdx_of_length_le (List.getElem?_eq_none_iff.mp hi)]
    exact h.room sym
  · have herase := executedQty_eraseIdx hi sym
    have hnonneg : 0 ≤ if e.symbol = sym then e.qty else 0 := by
      split_ifs
      · exact h.qty_nonneg e (h.inFlight e (List.mem_of_getElem? hi))
      · exact le_rfl
    have hroom := h.room sym
    linarith

/-! ### Messages -/

/-- The event of a message is about the order of the execution, and its fill is for no more. -/
theorem fill_of_update {adapter : AlpacaBroker} {e : Execution} (hqty : 0 ≤ e.qty)
    {fillId : FillId} {now : Time} {event : BrokerOrderEvent}
    (h : adapter.tradeUpdateToEvent e.update fillId now = some event) :
    event.clientOrderId = e.orderId ∧ ∀ fill, event.fill = some fill → fill.qty ≤ e.qty := by
  have hsome : some _ = some event := h
  obtain rfl := Option.some.inj hsome
  refine ⟨rfl, fun fill hfill => ?_⟩
  obtain ⟨⟨price, qty⟩, hexec, rfl⟩ := Option.map_eq_some_iff.mp hfill
  -- the execution of the update is the one there was
  have hq : qty = e.qty := by
    by_cases hevent : e.update.event = .fill ∨ e.update.event = .partialFill
    · rw [AlpacaBroker.execution?, if_pos hevent] at hexec
      rcases hprice : truthy e.update.price with _ | price'
      · rw [hprice] at hexec
        cases hexec
      rcases htruthy : truthy e.update.qty with _ | qty'
      · rw [hprice, htruthy] at hexec
        cases hexec
      rw [hprice, htruthy, Option.some.injEq, Prod.mk.injEq] at hexec
      rw [← hexec.2]
      obtain ⟨hsome, -⟩ := Option.filter_eq_some_iff.mp htruthy
      exact (Option.some.inj hsome).symm
    · rw [AlpacaBroker.execution?, if_neg hevent] at hexec
      cases hexec
  subst hq
  dsimp only [AlpacaBroker.fillOf]
  split_ifs
  · refine mul_le_of_le_one_right hqty ?_
    norm_num [cryptoTakerFee]
  · exact le_rfl

/-- **A message that arrives** takes what it books from what is on its way. -/
theorem Inv.deliver (h : w.Inv) (cfg : ReconcilerConfig) (i : ℕ) (fillId : FillId) (now : Time) :
    (w.step cfg (.deliver i fillId now)).Inv := by
  dsimp only [step]
  rcases hi : w.inFlight[i]? with _ | e
  · exact h
  dsimp only
  rcases hevent : w.adapter.tradeUpdateToEvent e.update fillId now with _ | event
  · exact h.lose i
  dsimp only
  have he : e ∈ w.executions := h.inFlight e (List.mem_of_getElem? hi)
  have hqty := h.qty_nonneg e he
  obtain ⟨horder, hfill⟩ := fill_of_update hqty hevent
  refine h.update (Oms.extends_onBrokerEvent h.keyed event now) notNew
    (fun _ he => List.mem_of_mem_eraseIdx he) (fun sym => ?_) h.held h.answers _
  have hroom := h.room sym
  have herase := executedQty_eraseIdx hi sym
  rcases Oms.total_onBrokerEvent h.keyed event now with hsame | ⟨order, fill, ho, hsome, hbooks⟩
  · have hnonneg : 0 ≤ if e.symbol = sym then e.qty else 0 := by
      split_ifs
      · exact hqty
      · exact le_rfl
    rw [hsame]
    linarith
  · rw [horder] at ho
    have hsym : order.symbol = e.symbol := h.symbols e he order ho
    have hle : countIn sym (fill.correctedFor order) ≤ if e.symbol = sym then e.qty else 0 := by
      change (if order.symbol = sym then fill.qty else 0) ≤ _
      rw [hsym]
      split_ifs
      · exact hfill fill hsome
      · exact le_rfl
    rw [hbooks]
    linarith

/-- An execution is on its way at first. -/
theorem Inv.execute (h : w.Inv) (cfg : ReconcilerConfig) {e : Execution}
    (ha : w.Admissible (.execute e)) : (w.step cfg (.execute e)).Inv := by
  have happend : ∀ (executions : List Execution) (sym : String),
      executedQty (executions ++ [e]) sym =
        executedQty executions sym + if e.symbol = sym then e.qty else 0 := by
    intro executions sym
    simp [executedQty]
  refine ⟨h.keyed, fun sym => ?_, ?_, ?_, ?_, h.held, h.answers⟩
  · dsimp only [step]
    rw [happend, happend, ← add_assoc]
    exact add_le_add_left (h.room sym) _
  · intro e' he'
    rcases List.mem_append.mp he' with hold | hnew
    · exact h.qty_nonneg e' hold
    · rw [List.mem_singleton.mp hnew]
      exact ha.1
  · intro e' he'
    rcases List.mem_append.mp he' with hold | hnew
    · exact List.mem_append_left _ (h.inFlight e' hold)
    · exact List.mem_append_right _ hnew
  · intro e' he' order ho
    rcases List.mem_append.mp he' with hold | hnew
    · exact h.symbols e' hold order ho
    · rw [List.mem_singleton.mp hnew] at ho ⊢
      exact ha.2 order ho

/-- A submission books nothing. -/
theorem Inv.submitOrder (h : w.Inv) (cfg : ReconcilerConfig) {order : Order}
    {outcome : SubmitOutcome} {now : Time} (ha : w.Admissible (.submitOrder order outcome now)) :
    (w.step cfg (.submitOrder order outcome now)).Inv := by
  obtain ⟨hpending, hfresh, hnew⟩ := ha
  have hintro := Oms.persistIntent_introduces w.oms hpending now
  have hquiet := Oms.quiet_settleSubmit (hintro.keyed h.keyed) order.id outcome now
  have hsubmit : (w.oms.submitOrder order ⟨[], outcome⟩ now).1 =
      (w.oms.persistIntent order now).settleSubmit order.id outcome now :=
    Oms.submitOrder_fst hpending
  dsimp only [step]
  rw [hsubmit]
  refine h.update ((hintro.extends h.keyed hfresh).trans (hquiet.extends (hintro.keyed h.keyed)))
    ?_ (fun _ he => he) (fun sym => ?_) h.held h.answers _
  · rintro k rfl
    exact hnew
  · rw [hquiet.total _ (hintro.keyed h.keyed), hintro.total _ hfresh]
    exact h.room sym

/-! ### Passes -/

/-- **What acting on an answer books**: the difference to the order as it was listed, or nothing. -/
theorem applyStatus_cases {s : Oms} (hs : s.Keyed) (order : Order) (status : BrokerOrderStatus)
    (fillId : FillId) :
    s.Quiet (Reconciler.applyStatus s order status fillId).1 ∨
      (statusRequiresUpdate order.state status.state = true ∧
        (status.state = .partiallyFilled ∨ status.state = .filled) ∧
        0 < status.filledQty - order.filledQty) ∧
      (Reconciler.applyStatus s order status fillId).1 =
        s.onBrokerEvent (Reconciler.statusEvent status
          (some (syntheticFill order status fillId status.updatedAt))) status.updatedAt := by
  unfold Reconciler.applyStatus
  dsimp only
  by_cases hreq : statusRequiresUpdate order.state status.state = true
  · rw [if_pos hreq]
    by_cases hdelta : (status.state = .partiallyFilled ∨ status.state = .filled) ∧
        0 < status.filledQty - order.filledQty
    · rw [if_pos hdelta]
      exact Or.inr ⟨⟨hreq, hdelta⟩, rfl⟩
    · rw [if_neg hdelta]
      split_ifs
      · exact Or.inl (Oms.quiet_forceCloseFilled hs _ _)
      · exact Or.inl (Oms.quiet_onBrokerEvent hs rfl _)
  · rw [if_neg hreq]
    exact Or.inl (Oms.Quiet.refl s)

/-- Acting on an answer. -/
theorem Inv.answered (h : w.Inv) (cfg : ReconcilerConfig) {order : Order}
    {status : BrokerOrderStatus} {orders : List Order}
    (hphase : w.phase = .answered order status orders) {pass : PassStep}
    (hmissing : w.Missing (.reconcile pass)) : (w.step cfg (.reconcile pass)).Inv := by
  have hid := h.answers order status orders hphase
  have hheld : ∀ order' ∈ heldOrders (.polling orders), ∃ known,
      w.oms.orders.get? order'.id = some known ∧ known.symbol = order'.symbol := by
    intro order' horder'
    refine h.held order' ?_
    rw [hphase]
    exact List.mem_cons_of_mem _ horder'
  have hstep : w.step cfg (.reconcile pass) =
      { w with
        oms := (Reconciler.applyStatus w.oms order status pass.fillId).1
        phase := .polling orders } := by
    dsimp only [step, reconcileStep]
    rw [hphase]
  rw [hstep]
  rcases applyStatus_cases h.keyed order status pass.fillId with hq | ⟨hdelta, heq⟩
  · refine h.update (hq.extends h.keyed) notNew (fun _ he => he) (fun sym => ?_) hheld
      (fun _ _ _ hc => PassPhase.noConfusion hc) _
    rw [hq.total _ h.keyed]
    exact h.room sym
  -- the difference is booked under the symbol the order was listed with
  have hclaim : (order.symbol, status.filledQty - order.filledQty) ∈ w.claims := by
    rw [claims, hphase]
    exact if_pos hdelta
  have hfits := hmissing _ hclaim
  rw [heq]
  refine h.update (Oms.extends_onBrokerEvent h.keyed _ _) notNew (fun _ he => he) (fun sym => ?_)
    hheld (fun _ _ _ hc => PassPhase.noConfusion hc) _
  have hroom := h.room sym
  rcases Oms.total_onBrokerEvent h.keyed (Reconciler.statusEvent status
    (some (syntheticFill order status pass.fillId status.updatedAt))) status.updatedAt with
    hsame | ⟨known, fill, ho, hfill, hbooks⟩
  · rw [hsame]
    exact hroom
  · obtain ⟨known', hknown', hsym⟩ := h.held order (by rw [hphase]; exact List.mem_cons_self)
    change w.oms.orders.get? status.clientOrderId = some known at ho
    rw [hid, hknown', Option.some.injEq] at ho
    subst ho
    obtain rfl : syntheticFill order status pass.fillId status.updatedAt = fill :=
      Option.some.inj hfill
    rw [hbooks]
    change w.oms.total _ + (if known'.symbol = sym then status.filledQty - order.filledQty else 0) +
      _ ≤ _
    rw [hsym]
    split_ifs with hk
    · rw [← hk]
      rw [recordedQty] at hfits
      linarith
    · rw [add_zero]
      exact hroom

/-- Adopting a position. -/
theorem Inv.adopting (h : w.Inv) (cfg : ReconcilerConfig) {sym : String} {qty price : Decimal}
    {orphans : List (String × Decimal × Decimal)}
    (hphase : w.phase = .adopting ((sym, qty, price) :: orphans)) {pass : PassStep}
    (ha : w.Admissible (.reconcile pass)) (hmissing : w.Missing (.reconcile pass)) :
    (w.step cfg (.reconcile pass)).Inv := by
  obtain ⟨hfresh, hnew⟩ := ha
  have hstep : w.step cfg (.reconcile pass) =
      { w with
        oms := w.oms.adoptOrphanPosition pass.ghostIds sym qty price cfg.orphanAgentId pass.ts
        phase := .adopting orphans } := by
    dsimp only [step, reconcileStep]
    rw [hphase]
  have hclaim : (sym, qty) ∈ w.claims := by
    rw [claims, hphase]
    rfl
  have hfits := hmissing _ hclaim
  rw [hstep, Oms.adoptOrphanPosition]
  refine h.update (Oms.extends_bookGhost h.keyed hfresh) ?_ (fun _ he => he) (fun sym' => ?_)
    (fun _ hc => absurd hc List.not_mem_nil) (fun _ _ _ hc => PassPhase.noConfusion hc) _
  · rintro k rfl
    exact hnew
  · have hroom := h.room sym'
    rw [Oms.total_bookGhost _ h.keyed hfresh]
    change w.oms.total _ + (if sym = sym' then qty else 0) + _ ≤ _
    split_ifs with hk
    · rw [← hk]
      rw [recordedQty] at hfits
      linarith
    · rw [add_zero]
      exact hroom

/-- A step of a pass that books nothing. -/
theorem Inv.withPhase (h : w.Inv) {phase : PassPhase} (hheld : ∀ order ∈ heldOrders phase, ∃ known,
      w.oms.orders.get? order.id = some known ∧ known.symbol = order.symbol)
    (hanswers : ∀ order status orders, phase = .answered order status orders →
      status.clientOrderId = order.id) : Inv { w with phase := phase } :=
  ⟨h.keyed, h.room, h.qty_nonneg, h.inFlight, h.symbols, hheld, hanswers⟩

theorem Inv.withEmptyPhase (h : w.Inv) {phase : PassPhase} (hempty : heldOrders phase = [])
    (hanswers : ∀ order status orders, phase ≠ .answered order status orders) :
    Inv { w with phase := phase } :=
  h.withPhase (fun _ hc => absurd (hempty ▸ hc) List.not_mem_nil)
    fun order status orders hc => absurd hc (hanswers order status orders)

theorem Inv.reconcile (h : w.Inv) (cfg : ReconcilerConfig) {pass : PassStep}
    (ha : w.Admissible (.reconcile pass)) (hmissing : w.Missing (.reconcile pass)) :
    (w.step cfg (.reconcile pass)).Inv := by
  have hheld := h.held
  rcases hphase : w.phase with _ | ⟨_ | ⟨order, orders⟩⟩ | ⟨order, status, orders⟩ | expected |
    ⟨_ | ⟨⟨sym, qty, price⟩, orphans⟩⟩
  · -- the orders are listed
    dsimp only [step, reconcileStep]
    rw [hphase]
    refine h.withPhase (fun order horder => ?_) fun _ _ _ hc => PassPhase.noConfusion hc
    obtain ⟨k, hk⟩ := Dict.mem_values_iff.mp (List.mem_filter.mp horder).1
    exact ⟨order, by rw [h.keyed.id_eq k order hk]; exact hk, rfl⟩
  · dsimp only [step, reconcileStep]
    rw [hphase]
    exact h.withEmptyPhase rfl fun _ _ _ hc => PassPhase.noConfusion hc
  · dsimp only [step, reconcileStep]
    rw [hphase] at hheld ⊢
    dsimp only
    split_ifs
    · exact h.withPhase (fun order' horder' => hheld order' (List.mem_cons_of_mem _ horder'))
        fun _ _ _ hc => PassPhase.noConfusion hc
    · refine h.withPhase (fun order' horder' => hheld order' horder') ?_
      rintro order' status' orders' hc
      cases hc
      rfl
  · exact h.answered cfg hphase hmissing
  · dsimp only [step, reconcileStep]
    rw [hphase]
    dsimp only
    split_ifs
    · exact h.withEmptyPhase rfl fun _ _ _ hc => PassPhase.noConfusion hc
    · exact h.withEmptyPhase rfl fun _ _ _ hc => PassPhase.noConfusion hc
  · dsimp only [step, reconcileStep]
    rw [hphase]
    exact h.withEmptyPhase rfl fun _ _ _ hc => PassPhase.noConfusion hc
  · exact h.adopting cfg hphase ha hmissing

theorem Inv.step (h : w.Inv) (cfg : ReconcilerConfig) {op : FillPathsOp} (ha : w.Admissible op)
    (hmissing : w.Missing op) : (w.step cfg op).Inv := by
  cases op with
  | submitOrder order outcome now => exact h.submitOrder cfg ha
  | requestCancel orderId now => exact h.quiet (Oms.quiet_requestCancel h.keyed orderId now)
  | execute execution => exact h.execute cfg ha
  | deliver i fillId now => exact h.deliver cfg i fillId now
  | lose i => exact h.lose i
  | notify event now => exact h.quiet (Oms.quiet_onBrokerEvent h.keyed ha now)
  | reconcile pass => exact h.reconcile cfg ha hmissing

theorem inv_start : start.Inv where
  keyed := Oms.WellFormed.empty.toKeyed
  room _ := (add_zero _).le
  qty_nonneg _ h := absurd h List.not_mem_nil
  inFlight _ h := absurd h List.not_mem_nil
  symbols _ h := absurd h List.not_mem_nil
  held _ h := absurd h List.not_mem_nil
  answers _ _ _ h := PassPhase.noConfusion h

/-- **When no fill is counted twice**: in every run in which the reconciler books only what is
missing, at every moment. -/
theorem countedOnce_run (cfg : ReconcilerConfig) {ops : List FillPathsOp}
    (hadm : Along (step cfg) Admissible start ops) (hmissing : Along (step cfg) Missing start ops)
    {pre : List FillPathsOp} (hpre : pre <+: ops) : (run (step cfg) start pre).CountedOnce := by
  have hinv : (run (step cfg) start pre).Inv :=
    (hadm.and hmissing).invariant_reached (fun w op hw hop => hw.step cfg hop.1 hop.2) inv_start
      hpre
  exact hinv.countedOnce

/-! ### A run that counts once, and three that count twice -/

instance (w : FillPaths) : ∀ op, Decidable (w.Admissible op)
  | .submitOrder _ _ _ => inferInstanceAs (Decidable (_ ∧ _ ∧ _))
  | .execute e => inferInstanceAs (Decidable
      (_ ∧ ∀ order ∈ w.oms.orders.get? e.orderId, order.symbol = e.symbol))
  | .notify _ _ => inferInstanceAs (Decidable (_ = _))
  | .reconcile _ => inferInstanceAs (Decidable (_ ∧ _))
  | .requestCancel _ _ | .deliver _ _ _ | .lose _ => inferInstanceAs (Decidable True)

instance (w : FillPaths) : ∀ op, Decidable (w.Missing op)
  | .reconcile _ => inferInstanceAs (Decidable (∀ claim ∈ w.claims,
      w.recordedQty claim.1 + executedQty w.inFlight claim.1 + claim.2 ≤
        executedQty w.executions claim.1))
  | .submitOrder _ _ _ | .requestCancel _ _ | .execute _ | .deliver _ _ _ | .lose _
  | .notify _ _ => inferInstanceAs (Decidable True)

/-- The broker executes some shares of the first order. -/
def executeShares (qty : Decimal) (completes : Bool) : FillPathsOp :=
  .execute
    { orderId := 1, brokerOrderId := "b-1", symbol := "AAPL", side := .buy, assetClass := .equity,
      qty := qty, price := 100, completes := completes, timestamp := 0 }

/-- A step of a pass, in which the broker says that an order is filled, or its call raises. -/
def passStep (raises : Bool) (fillId : FillId) : FillPathsOp :=
  .reconcile
    { raises := raises
      status :=
        { brokerOrderId := "b-1", clientOrderId := 1, symbol := "AAPL", side := .buy, qty := 10,
          filledQty := 0, avgFillPrice := some 100, state := .filled, submittedAt := 0,
          updatedAt := 0 }
      price := fun _ => 100, fillId := fillId, ghostIds := ⟨9, 9, fillId⟩, ts := 0 }

/-- The first order is submitted. -/
def submitTen : FillPathsOp := .submitOrder (Oms.marketOrder 1 .buy 10) (.returned "b-1") 0

/-- Four shares arrive, the message about the rest is lost, and the reconciler books it. -/
def lostMessageRun : List FillPathsOp :=
  [submitTen, executeShares 4 false, .deliver 0 2 0, executeShares 6 true, .lose 0,
    passStep false 3, passStep false 4, passStep false 5]

theorem countedOnce_lostMessageRun : (run (step {}) start lostMessageRun).CountedOnce :=
  countedOnce_run {} (by decide +kernel) (by decide +kernel) List.prefix_rfl

/-- The message arrives after the reconciler has booked the fill. -/
def lateMessageRun : List FillPathsOp :=
  [submitTen, executeShares 10 true, passStep false 2, passStep false 3, passStep false 4,
    .deliver 0 5 0]

/-- The message arrives after the reconciler has listed the order. -/
def staleListingRun : List FillPathsOp :=
  [submitTen, passStep false 2, executeShares 10 true, .deliver 0 3 0, passStep false 4,
    passStep false 5]

/-- The order cannot be polled, the position is adopted, and then the message arrives. -/
def adoptedRun : List FillPathsOp :=
  [submitTen, executeShares 10 true, passStep false 2, passStep true 3, passStep false 4,
    passStep false 5, passStep false 6, .deliver 0 7 0]

/-- **Ten shares are counted twice**, in three ways. -/
theorem not_countedOnce_lateMessageRun :
    (Along (step {}) Admissible start lateMessageRun ∧
        ¬(run (step {}) start lateMessageRun).CountedOnce) ∧
      (Along (step {}) Admissible start staleListingRun ∧
        ¬(run (step {}) start staleListingRun).CountedOnce) ∧
      Along (step {}) Admissible start adoptedRun ∧
        ¬(run (step {}) start adoptedRun).CountedOnce := by
  refine ⟨⟨by decide +kernel, fun h => ?_⟩, ⟨by decide +kernel, fun h => ?_⟩, by decide +kernel,
    fun h => ?_⟩
  · exact absurd (h "AAPL") (by decide +kernel)
  · exact absurd (h "AAPL") (by decide +kernel)
  · exact absurd (h "AAPL") (by decide +kernel)

end FillPaths

end TradingPlatform
