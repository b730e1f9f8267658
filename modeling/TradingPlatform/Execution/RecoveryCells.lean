import TradingPlatform.Execution.OmsCells

/-!
# Recovery, one order at a time

A recovery looks at the orders one after the other, and what it does to an order depends on
that order's cell and on the broker's answer alone. This file writes it as a function of the
cell: the cell it leaves and the events it logs (`TradingPlatform.Cell.reconcile`). The handlers
of the live system act on one cell each (`TradingPlatform.Oms.ActsOn`), so a recovery of all
orders reconciles all cells at once
(`TradingPlatform.Oms.reconcileOpenOrders_spec`).

What the recovery logs is what the next replay sees. The replayed cell has the same machine and
the same order, but for the order's state: the live handlers leave it alone when the machine
refuses an event, and the replay does not ask. `TradingPlatform.Cell.Tracks` is this relation
between a live cell and its replay.
-/

namespace TradingPlatform

/-! ### What the handlers do to a cell -/

namespace Cell

/-- What an action leaves of a cell, and what it logs. -/
abbrev Effect := Cell × List LoggedEvent

/-- One action after another. -/
def Effect.andThen (effect : Effect) (action : Cell → Effect) : Effect :=
  ((action effect.1).1, effect.2 ++ (action effect.1).2)

/-- Rewrite the order and ask its machine for a transition. -/
def drive (cell : Cell) (order : Order) (event : OrderEvent) : Cell where
  order := order.moved cell.fsm event
  fsm := cell.fsm.after event

/-- Record the broker's identifier, if the order has none. -/
def acknowledge (k : OrderId) (broker : BrokerOrderStatus) (ts : Time) (cell : Cell) : Effect :=
  if cell.order.brokerOrderId = none then
    (cell.drive
      { cell.order with brokerOrderId := some broker.brokerOrderId, submittedAt := some ts }
      .accept, [⟨.orderAccepted broker.brokerOrderId, k, ts⟩])
  else (cell, [])

/-- Record a fill. -/
def handleFill (k : OrderId) (fill : Fill) (ts : Time) (cell : Cell) : Effect :=
  (cell.drive (cell.order.bookFill fill ts) (cell.order.fillEvent fill),
    [⟨.fillReceived (serializeFill fill), k, ts⟩])

/-- Record a fill for the quantity that is missing, if any is. -/
def fillUp (k : OrderId) (broker : BrokerOrderStatus) (fillId : FillId) (ts : Time)
    (cell : Cell) : Effect :=
  if 0 < broker.filledQty - cell.order.filledQty then
    cell.handleFill k (syntheticFill cell.order broker fillId ts) ts
  else (cell, [])

/-- Close an order that is not terminal. -/
def handleClosing (k : OrderId) (kind : EventKind) (update : Order → Order) (event : OrderEvent)
    (ts : Time) (cell : Cell) : Effect :=
  if cell.order.state.Terminal then (cell, [])
  else (cell.drive (update cell.order) event, [⟨kind, k, ts⟩])

def handleRejection (k : OrderId) (reason : String) (ts : Time) (cell : Cell) : Effect :=
  cell.handleClosing k (.orderRejected (some reason))
    (fun order => { order with rejectionReason := some reason }) .reject ts

def forceCloseFilled (ts : Time) (cell : Cell) : Effect :=
  if cell.order.state.Terminal then (cell, [])
  else (cell.drive { cell.order with qty := cell.order.filledQty, filledAt := some ts } .fullFill,
    [])

/-- Follow the broker to a terminal state. -/
def catchUpTerminal (k : OrderId) (broker : BrokerOrderStatus) (ts : Time) (cell : Cell) :
    Effect :=
  match broker.state with
  | .canceled => cell.handleClosing k (.orderCancelled none) id .cancel ts
  | .rejected =>
    cell.handleRejection k (orDefault broker.rejectionReason "broker rejected (recovered)") ts
  | .expired => cell.handleClosing k .orderExpired id .expire ts
  | .filled => cell.forceCloseFilled ts
  | .new | .accepted | .partiallyFilled | .unknown => (cell, [])

/-- Whether following the broker there counts as progress. -/
def terminalAdvances (cell : Cell) (broker : BrokerOrderStatus) : Bool :=
  match broker.state with
  | .canceled | .rejected | .expired => true
  | .filled => ¬cell.order.state.Terminal
  | .new | .accepted | .partiallyFilled | .unknown => false

/-- Apply the broker's progress, and note whether there was any. -/
def catchUp (k : OrderId) (broker : BrokerOrderStatus) (fillId : FillId) (ts : Time)
    (cell : Cell) : Effect :=
  let filled := (cell.acknowledge k broker ts).andThen (fillUp k broker fillId ts)
  let deltaQty := broker.filledQty - cell.order.filledQty
  let advanced : Bool :=
    cell.order.brokerOrderId = none ∨ 0 < deltaQty ∨ filled.1.terminalAdvances broker
  let closed := filled.andThen (catchUpTerminal k broker ts)
  (closed.1, closed.2 ++
    [⟨if advanced then .reconcileRecovered broker.state (some deltaQty)
      else .reconcileNoop broker.state (some deltaQty), k, ts⟩])

/-- Give up an order the broker has no record of. -/
def abandon (k : OrderId) (now : Time) (cell : Cell) : Effect :=
  Effect.andThen (cell, [⟨.reconcileAbandoned "broker has no record after recovery", k, now⟩])
    (handleRejection k "abandoned_during_recovery" now)

/-- **What a recovery does to one order.** -/
def reconcile (env : RecoveryEnv) (k : OrderId) (cell : Cell) : Effect :=
  if cell.order.state.Terminal then (cell, [])
  else
    match env.findOrderByClientId k with
    | none => cell.abandon k env.now
    | some broker =>
      if brokerStateMatches cell.order broker then
        (cell, [⟨.reconcileNoop broker.state none, k, env.now⟩])
      else cell.catchUp k broker (env.fillId k) env.now

end Cell

namespace Oms

/-- **Acting on one cell**: the order's cell is replaced, events about the order are logged, the
fills among them are added, and nothing else changes. -/
structure ActsOn (s s' : Oms) (k : OrderId) (effect : Cell.Effect) : Prop where
  store : s'.store = s.store ++ effect.2
  about : ∀ e ∈ effect.2, e.orderId = k ∧ ¬e.IsIntent
  cell : ∀ k', s'.cell k' = if k' = k then some effect.1 else s.cell k'
  fillsOf : ∀ k', s'.fillsOf k' = s.fillsOf k' ++ loggedFills effect.2 k'
  fills_isSome : ∀ k', (s'.fillsByOrder.get? k').isSome = (s.fillsByOrder.get? k').isSome
  keys : s'.orders.keys = s.orders.keys
  paired : s'.Paired

section ActsOn

variable {s s' : Oms} {k : OrderId} {cell : Cell}

theorem actsOn_refl (hs : s.Paired) (h : s.cell k = some cell) : s.ActsOn s k (cell, []) where
  store := (List.append_nil _).symm
  about e he := absurd he List.not_mem_nil
  cell k' := by
    split_ifs with hk
    · rw [hk, h]
    · rfl
  fillsOf k' := (List.append_nil _).symm
  fills_isSome _ := rfl
  keys := rfl
  paired := hs

theorem ActsOn.cell_self {effect : Cell.Effect} (h : s.ActsOn s' k effect) :
    s'.cell k = some effect.1 :=
  (h.cell k).trans (if_pos rfl)

theorem ActsOn.andThen {effect : Cell.Effect} {action : Cell → Cell.Effect} {s'' : Oms}
    (h : s.ActsOn s' k effect) (h' : s'.ActsOn s'' k (action effect.1)) :
    s.ActsOn s'' k (effect.andThen action) where
  store := by rw [h'.store, h.store, List.append_assoc]; rfl
  about e he := (List.mem_append.mp he).elim (h.about e) (h'.about e)
  cell k' := by
    rw [h'.cell, h.cell]
    split_ifs <;> rfl
  fillsOf k' := by
    rw [h'.fillsOf, h.fillsOf, List.append_assoc, ← loggedFills_append]
    rfl
  fills_isSome k' := (h'.fills_isSome k').trans (h.fills_isSome k')
  keys := h'.keys.trans h.keys
  paired := h'.paired

/-- Logging more about the order. -/
theorem ActsOn.log {effect : Cell.Effect} {log : List LoggedEvent} {s'' : Oms}
    (h : s.ActsOn s' k effect) (h' : s'.ActsOn s'' k (effect.1, log)) :
    s.ActsOn s'' k (effect.1, effect.2 ++ log) :=
  (h.andThen h' : s.ActsOn s'' k (effect.andThen fun cell => (cell, log)))

/-- Moving an order acts on its cell. -/
theorem Moves.actsOn (hs : s.Paired) (h : s.cell k = some cell) {order : Order}
    {event : OrderEvent} {fills : List Fill} (hm : s.Moves s' k order cell.fsm event fills)
    {log : List LoggedEvent} (hstore : s'.store = s.store ++ log)
    (habout : ∀ e ∈ log, e.orderId = k ∧ ¬e.IsIntent) (hfills : fills = loggedFills log k) :
    s.ActsOn s' k (cell.drive order event, log) := by
  have hother : ∀ k', k' ≠ k → loggedFills log k' = [] := fun k' hk =>
    List.flatMap_eq_nil_iff.mpr fun e he =>
      LoggedEvent.fillsFor_of_ne fun hc => hk (hc.symm.trans (habout e he).1)
  have hsome : ∀ k', (s'.fillsByOrder.get? k').isSome = (s.fillsByOrder.get? k').isSome := by
    intro k'
    rw [hm.fills]
    split_ifs
    · rw [Option.isSome_map]
    · rfl
  refine ⟨hstore, habout, fun k' => ?_, fun k' => ?_, hsome, hm.keys, fun k' => ?_, fun k' => ?_⟩
  · rw [Book.cell, hm.orders, hm.fsms]
    split_ifs <;> rfl
  · rw [Book.fillsOf, hm.fills]
    by_cases hk : k' = k
    · have hf := hs.fills_isSome k'
      rw [hk, (Book.cell_eq_some_iff.mp h).1] at hf
      obtain ⟨old, hold⟩ := Option.isSome_iff_exists.mp hf
      rw [if_pos hk, hk, Book.fillsOf, hold, ← hfills]
      rfl
    · rw [if_neg hk, hother k' hk, List.append_nil]
      rfl
  · rw [hm.fsms, hm.orders]
    split_ifs
    · rfl
    · exact hs.fsms_isSome k'
  · rw [hsome, hm.orders]
    split_ifs with hk
    · rw [hk, hs.fills_isSome, (Book.cell_eq_some_iff.mp h).1]
      rfl
    · exact hs.fills_isSome k'

/-- Advancing an order acts on its cell. -/
theorem Advances.actsOn (hs : s.Paired) {logged : LoggedEvent}
    (h : s.cell logged.orderId = some cell) {order : Order} {event : OrderEvent}
    {fills : List Fill} (hadv : s.Advances s' logged order cell.fsm event fills)
    (hi : ¬logged.IsIntent) (hfills : fills = logged.fillsFor logged.orderId) :
    s.ActsOn s' logged.orderId (cell.drive order event, [logged]) := by
  refine hadv.toMoves.actsOn hs h hadv.store (fun e he => ?_) ?_
  · rw [List.mem_singleton.mp he]
    exact ⟨rfl, hi⟩
  · rw [loggedFills_singleton, hfills]

/-- Logging a silent event about an order acts on its cell. -/
theorem actsOn_append (hs : s.Paired) (h : s.cell k = some cell) {kind : EventKind} {ts : Time}
    (hsilent : (⟨kind, k, ts⟩ : LoggedEvent).Silent) :
    s.ActsOn (s.append kind k ts) k (cell, [⟨kind, k, ts⟩]) where
  store := rfl
  about e he := by
    rw [List.mem_singleton.mp he]
    exact ⟨rfl, hsilent.not_isIntent⟩
  cell k' := (actsOn_refl hs h).cell k'
  fillsOf k' := by
    rw [loggedFills_singleton, hsilent.fillsFor, List.append_nil]
    rfl
  fills_isSome _ := rfl
  keys := rfl
  paired := hs

theorem handleFill_actsOn (hs : s.Paired) (h : s.cell k = some cell) {fill : Fill}
    (hfill : fill.correctedFor cell.order = fill) (ts : Time) :
    s.ActsOn (s.handleFill k fill ts) k (cell.handleFill k fill ts) := by
  obtain ⟨ho, hf⟩ := Book.cell_eq_some_iff.mp h
  have hadv := handleFill_advances ho hf fill ts
  rw [hfill] at hadv
  refine hadv.actsOn hs h id ?_
  rw [LoggedEvent.fillsFor_fillReceived, deserializeFill_serializeFill]

theorem handleClosing_actsOn (hs : s.Paired) (h : s.cell k = some cell) {kind : EventKind}
    {update : Order → Order} {event : OrderEvent} {ts : Time}
    (hsilent : (⟨kind, k, ts⟩ : LoggedEvent).Silent) :
    s.ActsOn (s.handleClosing k kind update event ts) k
      (cell.handleClosing k kind update event ts) := by
  obtain ⟨ho, hf⟩ := Book.cell_eq_some_iff.mp h
  rw [Cell.handleClosing]
  split_ifs with ht
  · rw [handleClosing_eq_self ho ht]
    exact actsOn_refl hs h
  · have hadv := handleClosing_advances ho hf ht kind update event ts
    exact hadv.actsOn hs h hsilent.not_isIntent (hsilent.fillsFor _).symm

theorem forceCloseFilled_actsOn (hs : s.Paired) (h : s.cell k = some cell) (ts : Time) :
    s.ActsOn (s.forceCloseFilled k ts) k (cell.forceCloseFilled ts) := by
  obtain ⟨ho, hf⟩ := Book.cell_eq_some_iff.mp h
  rw [Cell.forceCloseFilled]
  split_ifs with ht
  · rw [forceCloseFilled_eq_self ho ht]
    exact actsOn_refl hs h
  · refine (forceCloseFilled_moves ho hf ht ts).actsOn hs h ?_ (fun e he => ?_) rfl
    · rw [store_forceCloseFilled, List.append_nil]
    · exact absurd he List.not_mem_nil

theorem acknowledge_actsOn (hs : s.Paired) (h : s.cell k = some cell)
    (broker : BrokerOrderStatus) (ts : Time) :
    s.ActsOn (if cell.order.brokerOrderId = none
      then s.recordAccepted k broker.brokerOrderId ts else s) k
      (cell.acknowledge k broker ts) := by
  obtain ⟨ho, hf⟩ := Book.cell_eq_some_iff.mp h
  rw [Cell.acknowledge]
  split_ifs with hb
  · have hne : cell.order.brokerOrderId ≠ some broker.brokerOrderId :=
      hb ▸ (Option.some_ne_none _).symm
    have hadv := recordAccepted_advances ho hf hne ts
    exact hadv.actsOn hs h id rfl
  · exact actsOn_refl hs h

theorem catchUpTerminal_actsOn (hs : s.Paired) (h : s.cell k = some cell)
    (broker : BrokerOrderStatus) (ts : Time) :
    s.ActsOn (s.catchUpTerminal k broker ts) k (cell.catchUpTerminal k broker ts) := by
  unfold Oms.catchUpTerminal Cell.catchUpTerminal
  cases broker.state with
  | canceled => exact handleClosing_actsOn hs h trivial
  | rejected => exact handleClosing_actsOn hs h trivial
  | expired => exact handleClosing_actsOn hs h trivial
  | filled => exact forceCloseFilled_actsOn hs h ts
  | new | accepted | partiallyFilled | unknown => exact actsOn_refl hs h

theorem catchUpFromBroker_actsOn (hs : s.Paired) (h : s.cell k = some cell)
    (broker : BrokerOrderStatus) (fillId : FillId) (ts : Time) :
    s.ActsOn (s.catchUpFromBroker k broker fillId ts) k (cell.catchUp k broker fillId ts) := by
  have h₁ := acknowledge_actsOn hs h broker ts
  have hsame : (cell.acknowledge k broker ts).1.order.SameTrade cell.order := by
    rw [Cell.acknowledge]
    split_ifs
    · exact (Order.sameTrade_moved _ _ _).trans ⟨rfl, rfl, rfl, rfl, rfl⟩
    · exact .refl _
  set s₁ := if cell.order.brokerOrderId = none
    then s.recordAccepted k broker.brokerOrderId ts else s with hs₁
  have h₂ : s₁.ActsOn (if 0 < broker.filledQty - cell.order.filledQty
      then s₁.handleFill k (syntheticFill cell.order broker fillId ts) ts else s₁) k
      ((cell.acknowledge k broker ts).1.fillUp k broker fillId ts) := by
    have hfill : syntheticFill (cell.acknowledge k broker ts).1.order broker fillId ts =
        syntheticFill cell.order broker fillId ts := by
      simp only [syntheticFill, hsame.id, hsame.agentId, hsame.symbol, hsame.side,
        hsame.filledQty]
    rw [Cell.fillUp, hsame.filledQty, hfill]
    split_ifs
    · refine handleFill_actsOn h₁.paired h₁.cell_self ?_ ts
      simp only [Fill.correctedFor, syntheticFill, hsame.agentId, hsame.symbol]
    · exact actsOn_refl h₁.paired h₁.cell_self
  set s₂ := if 0 < broker.filledQty - cell.order.filledQty
    then s₁.handleFill k (syntheticFill cell.order broker fillId ts) ts else s₁ with hs₂
  have h₁₂ := h₁.andThen h₂
  have h₃ := h₁₂.andThen (catchUpTerminal_actsOn h₁₂.paired h₁₂.cell_self broker ts)
  have hadv : s₂.terminalAdvances k broker =
      ((cell.acknowledge k broker ts).andThen
        (Cell.fillUp k broker fillId ts)).1.terminalAdvances broker := by
    rw [Oms.terminalAdvances, Cell.terminalAdvances, (Book.cell_eq_some_iff.mp h₁₂.cell_self).1]
    rfl
  rw [Oms.catchUpFromBroker, (Book.cell_eq_some_iff.mp h).1, Cell.catchUp]
  dsimp only
  rw [← hs₁, ← hs₂, hadv]
  exact h₃.log (actsOn_append h₃.paired h₃.cell_self (by split_ifs <;> trivial))

/-- **Recovery of one order acts on its cell.** -/
theorem reconcileOpenOrder_actsOn (hs : s.Paired) (h : s.cell k = some cell)
    (env : RecoveryEnv) : s.ActsOn (s.reconcileOpenOrder env k).1 k (cell.reconcile env k) := by
  have ho := (Book.cell_eq_some_iff.mp h).1
  unfold Oms.reconcileOpenOrder Cell.reconcile
  rw [ho]
  dsimp only
  split_ifs with ht
  · exact actsOn_refl hs h
  · rcases env.findOrderByClientId k with _ | broker
    · let kind : EventKind := .reconcileAbandoned "broker has no record after recovery"
      have h₁ : s.ActsOn (s.append kind k env.now) k (cell, [⟨kind, k, env.now⟩]) :=
        actsOn_append hs h trivial
      exact h₁.andThen (handleClosing_actsOn h₁.paired h₁.cell_self trivial)
    · dsimp only
      split_ifs
      · exact actsOn_append hs h trivial
      · exact catchUpFromBroker_actsOn hs h broker _ _

end ActsOn

/-! ### Acting on several cells -/

/-- What acting on an order logs. -/
def effectLog (effect : OrderId → Cell → Cell.Effect) (s : Oms) (k : OrderId) :
    List LoggedEvent :=
  ((s.cell k).map fun cell => (effect k cell).2).getD []

/-- **Acting on several cells**, each by itself. -/
structure ActsOnAll (s s' : Oms) (effect : OrderId → Cell → Cell.Effect)
    (keys : List OrderId) : Prop where
  store : s'.store = s.store ++ keys.flatMap (effectLog effect s)
  cell : ∀ k, s'.cell k =
    if k ∈ keys then (s.cell k).map fun cell => (effect k cell).1 else s.cell k
  fillsOf : ∀ k, s'.fillsOf k =
    if k ∈ keys then s.fillsOf k ++ loggedFills (effectLog effect s k) k else s.fillsOf k
  fills_isSome : ∀ k, (s'.fillsByOrder.get? k).isSome = (s.fillsByOrder.get? k).isSome
  keys : s'.orders.keys = s.orders.keys
  paired : s'.Paired

/-- Acting on one cell, and then on others. -/
theorem ActsOn.andThenAll {s s₁ s' : Oms} {effect : OrderId → Cell → Cell.Effect} {k : OrderId}
    {cell : Cell} {keys : List OrderId} (hcell : s.cell k = some cell) (hk : k ∉ keys)
    (hact : s.ActsOn s₁ k (effect k cell)) (hrest : s₁.ActsOnAll s' effect keys) :
    s.ActsOnAll s' effect (k :: keys) := by
  have hother : ∀ k', k' ≠ k → s₁.cell k' = s.cell k' := fun k' hne =>
    (hact.cell k').trans (if_neg hne)
  have hnofill : ∀ k', k' ≠ k → loggedFills (effect k cell).2 k' = [] := fun k' hne =>
    List.flatMap_eq_nil_iff.mpr fun e he =>
      LoggedEvent.fillsFor_of_ne fun hc => hne (hc.symm.trans (hact.about e he).1)
  have hlog : keys.flatMap (effectLog effect s₁) = keys.flatMap (effectLog effect s) := by
    refine List.flatMap_congr fun k' hk' => ?_
    rw [effectLog, hother k' fun hc => hk (hc ▸ hk'), effectLog]
  have hself : effectLog effect s k = (effect k cell).2 := by
    rw [effectLog, hcell]
    rfl
  refine ⟨?_, fun k' => ?_, fun k' => ?_, fun k' => ?_, hrest.keys.trans hact.keys, hrest.paired⟩
  · rw [hrest.store, hact.store, hlog, List.flatMap_cons, hself, List.append_assoc]
  · rw [hrest.cell]
    by_cases hkk : k' = k
    · subst hkk
      rw [if_neg hk, hact.cell_self, if_pos List.mem_cons_self, hcell]
      rfl
    · rw [hother k' hkk]
      simp only [List.mem_cons, hkk, false_or]
  · rw [hrest.fillsOf, hact.fillsOf]
    by_cases hkk : k' = k
    · subst hkk
      rw [if_neg hk, if_pos List.mem_cons_self, hself]
    · rw [hnofill k' hkk, List.append_nil]
      simp only [List.mem_cons, hkk, false_or, effectLog, hother k' hkk]
  · exact (hrest.fills_isSome k').trans (hact.fills_isSome k')

/-- **One action on each of several orders** acts on all their cells, if each acts on its cell as
long as no other has changed it. -/
theorem actsOnAll_run {ι : Type} {key : ι → OrderId} {act : Oms → ι → Oms}
    {effect : OrderId → Cell → Cell.Effect} {items : List ι} (hnd : (items.map key).Nodup) {s : Oms}
    (hs : s.Paired) (hkeys : ∀ item ∈ items, (s.cell (key item)).isSome)
    (hact : ∀ item ∈ items, ∀ s' : Oms, s'.Paired → s'.cell (key item) = s.cell (key item) →
      ∀ cell, s'.cell (key item) = some cell →
        s'.ActsOn (act s' item) (key item) (effect (key item) cell)) :
    s.ActsOnAll (run act s items) effect (items.map key) := by
  induction items generalizing s with
  | nil =>
    exact ⟨(List.append_nil _).symm, fun _ => rfl, fun _ => rfl, fun _ => rfl, rfl, hs⟩
  | cons item items ih =>
    obtain ⟨hk, hnd'⟩ := List.nodup_cons.mp hnd
    obtain ⟨cell, hcell⟩ := Option.isSome_iff_exists.mp (hkeys item List.mem_cons_self)
    have hfirst := hact item List.mem_cons_self s hs rfl cell hcell
    have hother : ∀ item' ∈ items, (act s item).cell (key item') = s.cell (key item') :=
      fun item' hmem => (hfirst.cell _).trans <| if_neg fun hc => hk <|
        List.mem_map.mpr ⟨item', hmem, hc⟩
    refine hfirst.andThenAll hcell hk ?_
    rw [run_cons]
    refine ih hnd' hfirst.paired (fun item' hmem => ?_) fun item' hmem s' hs' hsame => ?_
    · rw [hother item' hmem]
      exact hkeys item' (List.mem_cons_of_mem _ hmem)
    · exact hact item' (List.mem_cons_of_mem _ hmem) s' hs' (hsame.trans (hother item' hmem))

/-! ### Recovery of all orders -/

/-- What the recovery of one order logs. -/
def reconcileLog (env : RecoveryEnv) (s : Oms) (k : OrderId) : List LoggedEvent :=
  ((s.cell k).map fun cell => (cell.reconcile env k).2).getD []

/-- Maps and a log in which the listed orders were reconciled. -/
structure Reconciled (env : RecoveryEnv) (s s' : Oms) (keys : List OrderId) : Prop where
  store : s'.store = s.store ++ keys.flatMap (reconcileLog env s)
  cell : ∀ k, s'.cell k =
    if k ∈ keys then (s.cell k).map fun cell => (cell.reconcile env k).1 else s.cell k
  fillsOf : ∀ k, s'.fillsOf k =
    if k ∈ keys then s.fillsOf k ++ loggedFills (reconcileLog env s k) k else s.fillsOf k
  fills_isSome : ∀ k, (s'.fillsByOrder.get? k).isSome = (s.fillsByOrder.get? k).isSome
  keys : s'.orders.keys = s.orders.keys
  paired : s'.Paired

theorem reconciled_run (env : RecoveryEnv) {keys : List OrderId} (hnd : keys.Nodup) {s : Oms}
    (hs : s.Paired) (hkeys : ∀ k ∈ keys, (s.cell k).isSome) :
    Reconciled env s (run (fun s k => (reconcileOpenOrder env s k).1) s keys) keys := by
  have h := @actsOnAll_run OrderId id (fun s k => (reconcileOpenOrder env s k).1)
    (fun k => Cell.reconcile env k) keys (by rwa [List.map_id]) s hs hkeys
    fun k _ s' hs' _ cell hcell => reconcileOpenOrder_actsOn hs' hcell env
  rw [List.map_id] at h
  exact ⟨h.store, h.cell, h.fillsOf, h.fills_isSome, h.keys, h.paired⟩

/-- **A recovery reconciles every cell by itself.** -/
theorem reconcileOpenOrders_spec (env : RecoveryEnv) {s : Oms} (hs : s.Paired) :
    let s' := (s.reconcileOpenOrders env).1
    s'.store = s.store ++ s.orders.keys.flatMap (reconcileLog env s) ∧
      (∀ k, s'.cell k = (s.cell k).map fun cell => (cell.reconcile env k).1) ∧
      (∀ k, s'.fillsOf k = s.fillsOf k ++ loggedFills (reconcileLog env s k) k) ∧
      (∀ k, (s'.fillsByOrder.get? k).isSome = (s.fillsByOrder.get? k).isSome) ∧
      s'.orders.keys = s.orders.keys ∧ s'.Paired := by
  have hmem : ∀ k, k ∈ s.orders.keys ↔ (s.cell k).isSome := fun k => by
    rw [← Option.isSome_map (f := fun cell : Cell => cell.order), ← hs.get?_orders]
    exact Dict.mem_keys_iff.trans Option.isSome_iff_exists.symm
  have h := reconciled_run env s.orders.nodup_keys hs fun k hk => (hmem k).mp hk
  rw [← fst_reconcileOpenOrders] at h
  refine ⟨h.store, fun k => ?_, fun k => ?_, h.fills_isSome, h.keys, h.paired⟩
  · rw [h.cell]
    split_ifs with hk
    · rfl
    · rw [hmem, Bool.not_eq_true, Option.isSome_eq_false_iff, Option.isNone_iff_eq_none] at hk
      rw [hk, Option.map_none]
  · rw [h.fillsOf]
    split_ifs with hk
    · rfl
    · rw [hmem, Bool.not_eq_true, Option.isSome_eq_false_iff, Option.isNone_iff_eq_none] at hk
      rw [reconcileLog, hk]
      exact (List.append_nil _).symm

/-- What a recovery logs about an order is about that order. -/
theorem about_reconcileLog (env : RecoveryEnv) {s : Oms} (hs : s.Paired) (k : OrderId) :
    ∀ e ∈ reconcileLog env s k, e.orderId = k ∧ ¬e.IsIntent := by
  rcases h : s.cell k with _ | cell
  · rw [reconcileLog, h]
    exact fun e he => absurd he List.not_mem_nil
  · rw [reconcileLog, h]
    exact (reconcileOpenOrder_actsOn hs h env).about

end Oms

/-- A log made of one piece for each order acts on a cell as the piece for its order. -/
theorem replayCell_flatMap {log : OrderId → List LoggedEvent}
    (habout : ∀ k, ∀ e ∈ log k, e.orderId = k) {keys : List OrderId} (hnd : keys.Nodup)
    (k : OrderId) (cell : Option Cell) :
    Book.replayCell k (keys.flatMap log) cell =
      if k ∈ keys then Book.replayCell k (log k) cell else cell := by
  have hother : ∀ k', k' ≠ k → ∀ cell, Book.replayCell k (log k') cell = cell := by
    intro k' hne cell
    have := habout k'
    generalize log k' = l at this
    induction l with
    | nil => rfl
    | cons e l ih =>
      rw [Book.replayCell, List.foldl_cons, if_neg, ← Book.replayCell]
      · exact ih fun e' he' => this e' (List.mem_cons_of_mem _ he')
      · exact fun hc => hne ((this e List.mem_cons_self).symm.trans hc.symm)
  induction keys generalizing cell with
  | nil => rfl
  | cons k' keys ih =>
    obtain ⟨hk', hnd'⟩ := List.nodup_cons.mp hnd
    rw [List.flatMap_cons, Book.replayCell_append, ih hnd']
    by_cases hkk : k' = k
    · subst hkk
      rw [if_neg hk', if_pos List.mem_cons_self]
    · rw [hother k' hkk]
      simp only [List.mem_cons, Ne.symm hkk, false_or]

end TradingPlatform
