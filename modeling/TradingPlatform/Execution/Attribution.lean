import TradingPlatform.Execution.OmsLog
import TradingPlatform.Execution.ReconcilePass

/-!
# Whose execution is it

A broker may take an order and yet let the submission fail: the system keeps the order, with no
broker identifier, and hears no more of it if the broker streams nothing. What the broker then
executes can reach the books on two ways. A pass of the reconciler polls the orders it lists as
open, and books what is missing on the order (`TradingPlatform.Reconciler.polled_order`); then
it compares the positions, and books what is missing in a symbol on a synthetic order, under
the orphan agent (`TradingPlatform.Reconciler.compareSymbols_spec`).

The first way is only taken for an order with a broker identifier. So the execution stays with
its order exactly when something told the system that identifier before the pass, a restart
say, and the order is still open, and the broker reports it in one of the two filling states
(`TradingPlatform.Reconciler.attributed_iff`).
-/

namespace TradingPlatform

namespace Oms

variable {s : Oms}

/-! ### What the operations leave of the orders -/

theorem evolves_onBrokerEvent (hs : s.Durable) (event : BrokerOrderEvent) (now : Time) :
    s.Evolves (s.onBrokerEvent event now) := by
  rcases onBrokerEvent_cases hs.keyed event now with hq | ⟨order, fill, -, -, -, heq⟩
  · exact hq.evolves hs
  · rw [heq]
    exact evolves_handleFill hs _ _ _

theorem evolves_onBrokerEvents (hs : s.Durable) (events : List BrokerOrderEvent) (now : Time) :
    s.Evolves (s.onBrokerEvents events now) :=
  run_invariant (fun _ event h => h.trans (evolves_onBrokerEvent h.durable event now))
    hs.evolves_refl events

/-- An identifier names one order: a submission under an identifier that is known is one of the
same order, and a synthetic order has an identifier of its own. -/
def Identifies (s : Oms) : OmsOp → Prop
  | .submitOrder order _ _ => ∀ old ∈ s.orders.get? order.id, old.orderMeta = order.orderMeta
  | .adoptOrphanPosition ids .. | .bookFeeOffset ids .. => ids.order ∉ s.orders.keys
  | .cancelOrder .. | .forceCloseFilled .. | .brokerEvent .. => True

instance (s : Oms) : (op : OmsOp) → Decidable (s.Identifies op)
  | .submitOrder order _ _ =>
    inferInstanceAs (Decidable (∀ old ∈ s.orders.get? order.id, old.orderMeta = order.orderMeta))
  | .adoptOrphanPosition ids .. | .bookFeeOffset ids .. =>
    inferInstanceAs (Decidable (ids.order ∉ s.orders.keys))
  | .cancelOrder .. | .forceCloseFilled .. | .brokerEvent .. => isTrue trivial

theorem evolves_bookGhost_of_fresh (hs : s.Durable) {ghost : Ghost}
    (hfresh : ghost.ids.order ∉ s.orders.keys) : s.Evolves (s.bookGhost ghost) := by
  refine evolves_bookGhost hs fun old hold => ?_
  exact absurd (Dict.mem_keys_of_get? hold) hfresh

/-- A submission keeps the order it is about. -/
theorem evolves_submitOrder (hs : s.Durable) {order : Order} (hp : order.state = .pending)
    (hid : ∀ old ∈ s.orders.get? order.id, old.orderMeta = order.orderMeta) (call : SubmitCall)
    (now : Time) :
    s.Evolves (s.submitOrder order call now).1 ∧
      (((s.submitOrder order call now).1.orders.get? order.id).map Order.orderMeta =
        some order.orderMeta) := by
  have hi := persistIntent_introduces s hp now
  have h₁ := hi.evolves hs hid
  have h₂ := evolves_onBrokerEvents h₁.durable call.callbacks now
  have h₃ := (quiet_settleSubmit h₂.durable.keyed order.id call.outcome now).evolves h₂.durable
  have heq : (s.submitOrder order call now).1 =
      ((s.persistIntent order now).onBrokerEvents call.callbacks now).settleSubmit order.id
        call.outcome now := by
    rw [submitOrder, if_pos hp]
    cases call.outcome <;> rfl
  rw [heq]
  refine ⟨h₁.trans (h₂.trans h₃), (h₂.trans h₃).keepsOrders _ _ ?_⟩
  rw [hi.get?_self]
  rfl

theorem evolves_step (hs : s.Durable) {op : OmsOp} (hop : s.Identifies op) :
    s.Evolves (s.step op) := by
  cases op with
  | submitOrder order call now =>
    by_cases hp : order.state = .pending
    · exact (evolves_submitOrder hs hp hop call now).1
    · rw [step, submitOrder, if_neg hp]
      exact hs.evolves_refl
  | cancelOrder orderId call now =>
    have h₁ := (quiet_requestCancel hs.keyed orderId now).evolves hs
    rw [step, cancelOrder]
    rcases s.orders.get? orderId with _ | order
    · exact hs.evolves_refl
    dsimp only
    split_ifs
    · exact h₁
    · exact h₁.trans (evolves_onBrokerEvents h₁.durable _ _)
    · exact h₁.trans (evolves_onBrokerEvents h₁.durable _ _)
  | forceCloseFilled orderId ts => exact (quiet_forceCloseFilled hs.keyed orderId ts).evolves hs
  | adoptOrphanPosition ids symbol qty price agentId ts => exact evolves_bookGhost_of_fresh hs hop
  | bookFeeOffset ids symbol qty price agentId ts => exact evolves_bookGhost_of_fresh hs hop
  | brokerEvent event now => exact evolves_onBrokerEvent hs event now

/-- A synthetic order leaves the others alone. -/
theorem bookGhost_of_ne (hs : s.Keyed) {ghost : Ghost} {k : OrderId} (hk : k ≠ ghost.ids.order) :
    (s.bookGhost ghost).orders.get? k = s.orders.get? k ∧
      (s.bookGhost ghost).getFills k = s.getFills k := by
  obtain ⟨s₁, s₂, fsm, h₁, -, hf₁, h₂, h₃⟩ := s.bookGhost_steps ghost
  have hk₂ := h₂.keyed (h₁.keyed hs) h₁.get?_self rfl
  have ho₂ := (h₂.orders ghost.ids.order).trans (if_pos rfl)
  obtain ⟨fsm', hf'⟩ := hk₂.exists_fsm ho₂
  have h₄ := handleFill_advances ho₂ hf' ghost.fill ghost.ts
  rw [h₃]
  constructor
  · rw [h₄.orders, if_neg hk, h₂.orders, if_neg hk, h₁.orders]
    exact if_neg hk
  · refine getFills_congr ?_
    rw [h₄.fills, if_neg hk, h₂.fills, if_neg hk, h₁.fills]
    exact if_neg hk

/-- A synthetic order is what it was meant to be. -/
theorem orderMeta_bookGhost (hs : s.Keyed) (ghost : Ghost) :
    ((s.bookGhost ghost).orders.get? ghost.ids.order).map Order.orderMeta =
      some ghost.order.orderMeta := by
  obtain ⟨s₁, s₂, fsm, h₁, -, hf₁, h₂, h₃⟩ := s.bookGhost_steps ghost
  have ho₂ := (h₂.orders ghost.ids.order).trans (if_pos rfl)
  rw [h₃, orderMeta_handleFill (h₂.keyed (h₁.keyed hs) h₁.get?_self rfl), ho₂, Option.map_some,
    (Order.sameTrade_moved _ _ _).orderMeta]
  rfl

end Oms

namespace Reconciler

variable {cfg : ReconcilerConfig} {env : ReconcileEnv}

/-! ### The positions of a pass -/

/-- What comparing the positions leaves of the order management system. -/
def comparePositions (cfg : ReconcilerConfig) (env : ReconcileEnv) (s : Oms) : Oms :=
  match env.listPositions with
  | none => s
  | some positions =>
    let expected := s.computeExpectedPositions
    let positions := positionsBySymbol positions
    ((allSymbols expected positions).foldl (compareSymbol cfg env expected positions) (s, [])).1

/-- The orders after a pass has polled them. -/
def polled (env : ReconcileEnv) (s : Oms) : Oms := (reconcileOrders env s s.listOpenOrders).1

/-- **A pass polls the orders, then compares the positions.** -/
theorem oms_reconcileOnce (cfg : ReconcilerConfig) (env : ReconcileEnv) (r : Reconciler) :
    (reconcileOnce cfg env r).1.oms = comparePositions cfg env (polled env r.oms) := by
  have hpositions : ∀ r : Reconciler,
      (reconcilePositions cfg env r).1.oms = comparePositions cfg env r.oms := by
    intro r
    rw [comparePositions]
    cases hfetched : env.listPositions with
    | none => rw [reconcilePositions_of_unfetched cfg env r hfetched]
    | some positions => exact (reconcilePositions_of_fetched cfg env r hfetched).1
  exact (oms_of_pass cfg env r).trans (hpositions _)

/-- **What comparing the positions may do**: it goes on with the orders there are, each with the
fills it has, and adds synthetic orders in symbols it takes for orphaned. -/
structure Adopts (check : String → SymbolCheck) (s s' : Oms) : Prop where
  evolves : s.Evolves s'
  kept : ∀ k ∈ s.orders.keys,
    s'.orders.get? k = s.orders.get? k ∧ s'.getFills k = s.getFills k
  adopted : ∀ k ghost, s'.orders.get? k = some ghost → k ∉ s.orders.keys →
    ∃ qty price, check ghost.symbol = .orphan qty price

theorem adopts_refl {check : String → SymbolCheck} {s : Oms} (hs : s.Durable) :
    Adopts check s s where
  evolves := hs.evolves_refl
  kept _ _ := ⟨rfl, rfl⟩
  adopted _ _ h hk := absurd (Dict.mem_keys_of_get? h) hk

theorem Adopts.trans {check : String → SymbolCheck} {s₁ s₂ s₃ : Oms} (h : Adopts check s₁ s₂)
    (h' : Adopts check s₂ s₃) : Adopts check s₁ s₃ := by
  have hkeys : ∀ k ∈ s₁.orders.keys, k ∈ s₂.orders.keys := by
    intro k hk
    rw [Dict.mem_keys_iff, (h.kept k hk).1]
    exact Dict.mem_keys_iff.mp hk
  refine ⟨h.evolves.trans h'.evolves, fun k hk => ?_, fun k ghost hghost hk => ?_⟩
  · obtain ⟨ho, hf⟩ := h.kept k hk
    obtain ⟨ho', hf'⟩ := h'.kept k (hkeys k hk)
    exact ⟨ho'.trans ho, hf'.trans hf⟩
  · by_cases hk₂ : k ∈ s₂.orders.keys
    · exact h.adopted k ghost ((h'.kept k hk₂).1 ▸ hghost) hk
    · exact h'.adopted k ghost hghost hk₂

/-- A synthetic order is added in a symbol that was taken for orphaned. -/
theorem adopts_bookGhost {check : String → SymbolCheck} {s : Oms} (hs : s.Durable) {ghost : Ghost}
    (hfresh : ghost.ids.order ∉ s.orders.keys) {qty price : Decimal}
    (hcheck : check ghost.symbol = .orphan qty price) : Adopts check s (s.bookGhost ghost) := by
  refine ⟨Oms.evolves_bookGhost_of_fresh hs hfresh, fun k hk => ?_, fun k order ho hk => ?_⟩
  · refine Oms.bookGhost_of_ne hs.keyed ?_
    rintro rfl
    exact hfresh hk
  · obtain rfl : k = ghost.ids.order :=
      ((Oms.keys_bookGhost hs.keyed _ k).mp (Dict.mem_keys_of_get? ho)).resolve_right hk
    have hmeta := Oms.orderMeta_bookGhost hs.keyed ghost
    rw [ho, Option.map_some, Option.some_inj] at hmeta
    have hsymbol : order.symbol = ghost.symbol := congrArg OrderMeta.symbol hmeta
    exact ⟨qty, price, hsymbol ▸ hcheck⟩

variable {expected : Dict String Decimal} {positions : Dict String BrokerPosition}

theorem adopts_compareSymbol {s : Oms} (hs : s.Durable) {sym : String}
    (hfresh : (env.ghostIds sym).order ∉ s.orders.keys) (ms : List PositionMismatch) :
    Adopts (checkSymbol cfg expected positions) s
      (compareSymbol cfg env expected positions (s, ms) sym).1 := by
  unfold compareSymbol
  generalize hcheck : checkSymbol cfg expected positions sym = check
  cases check with
  | agrees => exact adopts_refl hs
  | orphan qty price =>
    dsimp only
    rw [Oms.adoptOrphanPosition]
    exact adopts_bookGhost hs hfresh hcheck
  | mismatch details => exact adopts_refl hs

theorem adopts_compareSymbols
    (hinj : ∀ sym sym', (env.ghostIds sym).order = (env.ghostIds sym').order → sym = sym')
    {syms : List String} (hnd : syms.Nodup) {s : Oms} (hs : s.Durable)
    (hfresh : ∀ sym ∈ syms, (env.ghostIds sym).order ∉ s.orders.keys)
    (ms : List PositionMismatch) :
    Adopts (checkSymbol cfg expected positions) s
      (syms.foldl (compareSymbol cfg env expected positions) (s, ms)).1 := by
  induction syms generalizing s ms with
  | nil => exact adopts_refl hs
  | cons sym syms ih =>
    obtain ⟨hnot, hnd'⟩ := List.nodup_cons.mp hnd
    have hsym := hfresh sym List.mem_cons_self
    have h : Adopts (checkSymbol cfg expected positions) s
        (compareSymbol cfg env expected positions (s, ms) sym).1 := adopts_compareSymbol hs hsym ms
    obtain ⟨-, hkeys, -⟩ := netQty_compareSymbol cfg env expected positions hs.keyed hsym ms
    refine h.trans (ih hnd' h.evolves.durable (fun sym' hmem hc => ?_) _)
    rcases hkeys _ hc with heq | hc
    · exact hnot (hinj _ _ heq ▸ hmem)
    · exact hfresh sym' (List.mem_cons_of_mem _ hmem) hc

/-- The check of the symbols in a pass. -/
def checkAgainst (cfg : ReconcilerConfig) (s : Oms) (positions : List BrokerPosition) :
    String → SymbolCheck :=
  checkSymbol cfg s.computeExpectedPositions (positionsBySymbol positions)

theorem adopts_comparePositions (cfg : ReconcilerConfig) {s : Oms} (hs : s.Durable)
    (hfresh : FreshGhosts env s) :
    s.Evolves (comparePositions cfg env s) ∧
      (∀ k ∈ s.orders.keys, (comparePositions cfg env s).orders.get? k = s.orders.get? k ∧
        (comparePositions cfg env s).getFills k = s.getFills k) ∧
      ∀ k ghost, (comparePositions cfg env s).orders.get? k = some ghost → k ∉ s.orders.keys →
        ∃ positions qty price, env.listPositions = some positions ∧
          checkAgainst cfg s positions ghost.symbol = .orphan qty price := by
  rw [comparePositions]
  cases env.listPositions with
  | none =>
    exact ⟨hs.evolves_refl, fun _ _ => ⟨rfl, rfl⟩, fun k ghost h hk =>
      absurd (Dict.mem_keys_of_get? h) hk⟩
  | some positions =>
    obtain ⟨he, hkept, hadopted⟩ : Adopts (checkAgainst cfg s positions) s _ :=
      adopts_compareSymbols hfresh.injective
        (nodup_allSymbols s.computeExpectedPositions (positionsBySymbol positions)) hs
        (fun sym _ => hfresh.notMem sym) []
    refine ⟨he, hkept, fun k ghost h hk => ?_⟩
    obtain ⟨qty, price, hcheck⟩ := hadopted k ghost h hk
    exact ⟨positions, qty, price, rfl, hcheck⟩

/-! ### The orders of a pass -/

/-- The broker answers about the order it is asked about. -/
def Answers (env : ReconcileEnv) : Prop :=
  ∀ k status, env.getOrder k = some status → status.clientOrderId = k

/-- The broker reports executions: of part of the order, or of all of it. -/
def Filling (status : BrokerOrderStatus) : Prop :=
  status.state = .partiallyFilled ∨ status.state = .filled

instance (status : BrokerOrderStatus) : Decidable (Filling status) :=
  inferInstanceAs (Decidable (_ ∨ _))

/-- **An order nobody touched**: it trades on as before, with the fills it had. -/
structure Untouched (k : OrderId) (order : Order) (s s' : Oms) : Prop where
  keyed : s'.Keyed
  order : ∃ order', s'.orders.get? k = some order' ∧ order'.SameTrade order
  fills : s'.getFills k = s.getFills k

section Polling

variable {s s' : Oms} {k : OrderId} {order : Order}

theorem untouched_of_quiet (hs : s.Keyed) (h : s.orders.get? k = some order) (hq : s.Quiet s') :
    Untouched k order s s' :=
  ⟨hq.keyed hs, hq.exists_order h, hq.getFills hs k⟩

/-- Polling an order leaves the others untouched. -/
theorem untouched_reconcileOrder (hs : s.Keyed) (h : s.orders.get? k = some order)
    (hanswers : Answers env) {other : Order} (hne : other.id ≠ k) :
    Untouched k order s (reconcileOrder env s other).1 := by
  have hrefl : Untouched k order s s := untouched_of_quiet hs h (Oms.Quiet.refl s)
  unfold reconcileOrder
  split
  · exact hrefl
  · split
    · exact hrefl
    · rename_i status hstatus
      rcases applyStatus_eq s other status (env.fillId other.id) with heq | heq | ⟨fill, heq⟩
      · rw [heq]
        exact hrefl
      · rw [heq]
        exact untouched_of_quiet hs h (Oms.quiet_forceCloseFilled hs _ _)
      · rw [heq]
        have hid : status.clientOrderId ≠ k := (hanswers _ _ hstatus).trans_ne hne
        rcases Oms.onBrokerEvent_cases hs (statusEvent status fill) status.updatedAt with
          hq | ⟨o, f, ho, -, -, hfill⟩
        · exact untouched_of_quiet hs h hq
        · refine ⟨hs.onBrokerEvent _ _, Oms.get?_onBrokerEvent_of_ne hs h hid _, ?_⟩
          rw [hfill, Oms.getFills_handleFill hs ho]
          exact if_neg (Ne.symm hid)

/-- Polling orders leaves the others untouched. -/
theorem untouched_run_reconcileOrder (hs : s.Keyed) (h : s.orders.get? k = some order)
    (hanswers : Answers env) {others : List Order} (hne : ∀ other ∈ others, other.id ≠ k) :
    Untouched k order s (run (fun s other => (reconcileOrder env s other).1) s others) := by
  induction others generalizing s order with
  | nil => exact untouched_of_quiet hs h (Oms.Quiet.refl s)
  | cons other others ih =>
    obtain ⟨hk, ⟨order₁, h₁, hsame₁⟩, hf₁⟩ :=
      untouched_reconcileOrder hs h hanswers (hne other List.mem_cons_self)
    obtain ⟨hk', ⟨order', h', hsame'⟩, hf'⟩ :=
      ih hk h₁ fun o ho => hne o (List.mem_cons_of_mem _ ho)
    exact ⟨hk', ⟨order', h', hsame'.trans hsame₁⟩, hf'.trans hf₁⟩

/-- The open orders are listed once each. -/
theorem exists_split_listOpenOrders (hs : s.Keyed) (h : s.orders.get? k = some order)
    (hopen : order.state.Open) :
    ∃ before after, s.listOpenOrders = before ++ order :: after ∧
      (∀ other ∈ before ++ after, other.id ≠ k) := by
  have hmem : order ∈ s.listOpenOrders := by
    rw [Oms.listOpenOrders, List.mem_filter]
    exact ⟨Dict.mem_values_of_get? h, by simpa using hopen⟩
  have hids : (s.orders.values.map (·.id)).Nodup := hs.map_id_values ▸ s.orders.nodup_keys
  obtain ⟨before, after, hsplit⟩ := List.append_of_mem hmem
  have hnd : (s.listOpenOrders.map (·.id)).Nodup := hids.sublist (List.filter_sublist.map _)
  rw [hsplit, List.map_append, List.map_cons, List.nodup_middle, ← List.map_append] at hnd
  refine ⟨before, after, hsplit, fun other hother hc => ?_⟩
  refine (List.nodup_cons.mp hnd).1 ?_
  rw [hs.id_eq k order h, ← hc]
  exact List.mem_map_of_mem hother

/-- **An order a pass can catch up**: it is open, the system knows its broker identifier, and
the broker reports it in a filling state. -/
def Pollable (order : Order) (status : BrokerOrderStatus) : Prop :=
  order.state.Open ∧ order.brokerOrderId ≠ none ∧ Filling status

instance (order : Order) (status : BrokerOrderStatus) : Decidable (Pollable order status) :=
  inferInstanceAs (Decidable (_ ∧ _ ∧ _))

/-- What a pass does for an order the broker has executed more of: if it can catch it up, it books
what is missing, in one fill of the order; if it cannot, nothing. -/
structure CatchesUp (k : OrderId) (order : Order) (status : BrokerOrderStatus) (fillId : FillId)
    (s s' : Oms) : Prop where
  keyed : s'.Keyed
  filledQty : ∃ order', s'.orders.get? k = some order' ∧ order'.agentId = order.agentId ∧
    order'.filledQty = if Pollable order status then status.filledQty else order.filledQty
  fills : s'.getFills k = s.getFills k ++
    if Pollable order status then [syntheticFill order status fillId status.updatedAt] else []

variable {status : BrokerOrderStatus} {fillId : FillId}

theorem Untouched.catchesUp (h : Untouched k order s s') (hnot : ¬Pollable order status) :
    CatchesUp k order status fillId s s' := by
  obtain ⟨order', ho, hsame⟩ := h.order
  refine ⟨h.keyed, ⟨order', ho, hsame.agentId, ?_⟩, ?_⟩
  · rw [if_neg hnot, hsame.filledQty]
  · rw [if_neg hnot, List.append_nil, h.fills]

/-- Polling an open order without a broker identifier, or one that is not in a filling state,
brings it nothing. -/
theorem quiet_reconcileOrder (hs : s.Keyed) (hopen : order.state.Open)
    (hstatus : env.getOrder order.id = some status) (hnot : ¬Pollable order status) :
    s.Quiet (reconcileOrder env s order).1 := by
  unfold reconcileOrder
  rcases hb : order.brokerOrderId with _ | brokerOrderId
  · exact Oms.Quiet.refl s
  · rw [hstatus]
    have hfilling : ¬(status.state = .partiallyFilled ∨ status.state = .filled) := fun hc =>
      hnot ⟨hopen, hb ▸ Option.some_ne_none _, hc⟩
    unfold applyStatus
    dsimp only
    split_ifs with _ hc
    · exact absurd hc.1 hfilling
    · exact Oms.quiet_forceCloseFilled hs _ _
    · exact Oms.quiet_onBrokerEvent hs rfl _
    · exact Oms.Quiet.refl s

/-- Polling an open order, as it stood when the orders were listed. -/
theorem catchesUp_reconcileOrder (hs : s.Keyed) (hopen : order.state.Open) {current : Order}
    (h : s.orders.get? order.id = some current) (hsame : current.SameTrade order)
    (hanswers : Answers env) (hstatus : env.getOrder order.id = some status)
    (hmissing : order.filledQty < status.filledQty) :
    CatchesUp order.id order status (env.fillId order.id) s (reconcileOrder env s order).1 := by
  by_cases hcond : Pollable order status
  swap
  · have hq := quiet_reconcileOrder hs hopen hstatus hcond
    obtain ⟨order', ho, hsame'⟩ := hq.exists_order h
    exact Untouched.catchesUp ⟨hq.keyed hs, ⟨order', ho, hsame'.trans hsame⟩, hq.getFills hs _⟩
      hcond
  obtain ⟨-, hid, hfilling⟩ := id hcond
  obtain ⟨brokerOrderId, hb⟩ := Option.ne_none_iff_exists'.mp hid
  let fill := syntheticFill order status (env.fillId order.id) status.updatedAt
  have heq : (reconcileOrder env s order).1 = s.handleFill order.id fill status.updatedAt := by
    have hclient : status.clientOrderId = order.id := hanswers _ _ hstatus
    have hget : s.orders.get? (statusEvent status (some fill)).clientOrderId = some current :=
      (congrArg s.orders.get? hclient).trans h
    rw [reconcileOrder, hb, hstatus]
    dsimp only
    rw [applyStatus_of_filling hopen hfilling (sub_pos.mpr hmissing),
      Oms.onBrokerEvent_of_fill hget hfilling rfl]
    exact congrArg (s.handleFill · fill status.updatedAt) hclient
  have hcorrected : fill.correctedFor current = fill := hsame.correctedFor_eq fill
  obtain ⟨order', ho, hsame'⟩ := Oms.exists_order_handleFill hs h fill status.updatedAt
  rw [heq]
  refine ⟨hs.handleFill _ _ _, ⟨order', ho, hsame'.agentId.trans hsame.agentId, ?_⟩, ?_⟩
  · rw [if_pos hcond, hsame'.filledQty]
    change current.filledQty + (status.filledQty - order.filledQty) = status.filledQty
    rw [hsame.filledQty, add_sub_cancel]
  · rw [if_pos hcond, Oms.getFills_handleFill hs h, if_pos rfl, hcorrected]

/-- **What a pass records of an order the broker has executed more of.** -/
theorem catchesUp_polled (hs : s.Keyed) (h : s.orders.get? k = some order)
    (hanswers : Answers env) (hstatus : env.getOrder k = some status)
    (hmissing : order.filledQty < status.filledQty) :
    CatchesUp k order status (env.fillId k) s (polled env s) := by
  obtain rfl : order.id = k := hs.id_eq k order h
  rw [polled, fst_reconcileOrders]
  by_cases hopen : order.state.Open
  swap
  · refine (untouched_run_reconcileOrder hs h hanswers fun other hother hc => ?_).catchesUp
      fun hc => hopen hc.1
    obtain ⟨hmem, hst⟩ := List.mem_filter.mp hother
    obtain ⟨k', hk'⟩ := Dict.mem_values_iff.mp hmem
    obtain rfl : k' = order.id := (hs.id_eq k' other hk').symm.trans hc
    obtain rfl : order = other := Option.some.inj (h.symm.trans hk')
    exact hopen (of_decide_eq_true hst)
  -- the orders before it, the order itself, and the orders after it
  obtain ⟨before, after, hsplit, hothers⟩ := exists_split_listOpenOrders hs h hopen
  rw [hsplit, run_append, run_cons]
  obtain ⟨hk₁, ⟨order₁, ho₁, hsame₁⟩, hf₁⟩ := untouched_run_reconcileOrder hs h hanswers
    fun other hother => hothers other (List.mem_append_left _ hother)
  obtain ⟨hk₂, ⟨order₂, ho₂, hagent₂, hq₂⟩, hf₂⟩ :=
    catchesUp_reconcileOrder hk₁ hopen ho₁ hsame₁ hanswers hstatus hmissing
  obtain ⟨hk₃, ⟨order₃, ho₃, hsame₃⟩, hf₃⟩ := untouched_run_reconcileOrder hk₂ ho₂ hanswers
    fun other hother => hothers other (List.mem_append_right _ hother)
  refine ⟨hk₃, ⟨order₃, ho₃, hsame₃.agentId.trans hagent₂, hsame₃.filledQty.trans hq₂⟩, ?_⟩
  rw [hf₃, hf₂, hf₁]

end Polling

/-! ### Runs of a desk whose broker is only polled -/

theorem evolves_reconcileOrder {s : Oms} (hs : s.Durable) (order : Order) :
    s.Evolves (reconcileOrder env s order).1 := by
  unfold reconcileOrder
  split
  · exact hs.evolves_refl
  · split
    · exact hs.evolves_refl
    · rename_i status _
      rcases applyStatus_eq s order status (env.fillId order.id) with heq | heq | ⟨fill, heq⟩
      · rw [heq]
        exact hs.evolves_refl
      · rw [heq]
        exact (Oms.quiet_forceCloseFilled hs.keyed _ _).evolves hs
      · rw [heq]
        exact Oms.evolves_onBrokerEvent hs _ _

theorem evolves_polled (env : ReconcileEnv) {s : Oms} (hs : s.Durable) :
    s.Evolves (polled env s) := by
  rw [polled, fst_reconcileOrders]
  exact run_invariant (fun _ order h => h.trans (evolves_reconcileOrder h.durable order))
    hs.evolves_refl _

/-- A pass keeps the orders there are. -/
theorem evolves_reconcileOnce {r : Reconciler} (hs : r.oms.Durable)
    (hfresh : FreshGhosts env r.oms) : r.oms.Evolves (reconcileOnce cfg env r).1.oms := by
  have hpolled := evolves_polled env hs
  have hkeys : (polled env r.oms).orders.keys = r.oms.orders.keys :=
    (keyed_reconcileOrders env hs.keyed _).2
  rw [oms_reconcileOnce]
  exact hpolled.trans (adopts_comparePositions cfg hpolled.durable
    ⟨fun sym => hkeys ▸ hfresh.notMem sym, hfresh.injective⟩).1

end Reconciler

/-- What happens on a desk: an operation of the reconciler or of the components it works on, or
a restart of the process. -/
inductive DeskEvent
  | reconciler (op : ReconcilerOp)
  | restart (env : RecoveryEnv)

namespace Reconciler

/-- A new process rebuilds its orders from the log and asks the broker about them. Nothing else
outlives the old one. -/
def restart (r : Reconciler) (env : RecoveryEnv) : Reconciler :=
  { new r.kill.heartbeatTimeoutSecs with
    oms := match (Oms.reboot r.oms.store).recover env with
      | some (oms, _) => oms
      -- a log that cannot be replayed keeps the system down
      | none => Oms.reboot r.oms.store }

def happens (cfg : ReconcilerConfig) (r : Reconciler) : DeskEvent → Reconciler
  | .reconciler op => r.step cfg op
  | .restart env => r.restart env

/-- Identifiers name one order each, and those that are drawn are new. -/
def Admissible (r : Reconciler) : DeskEvent → Prop
  | .reconciler (.pass env) => FreshGhosts env r.oms
  | .reconciler (.oms op) => r.oms.Identifies op
  | .reconciler (.kill _) | .restart _ => True

section Runs

variable {cfg : ReconcilerConfig} {env : ReconcileEnv} {r : Reconciler}

theorem evolves_happens (hs : r.oms.Durable) {event : DeskEvent} (hadm : r.Admissible event) :
    r.oms.Evolves (r.happens cfg event).oms := by
  rcases event with (env | op | op) | env
  · exact evolves_reconcileOnce hs hadm
  · exact Oms.evolves_step hs hadm
  · exact hs.evolves_refl
  · obtain ⟨recovered, hrecover, he⟩ := hs.exists_recover env
    rw [happens, restart, hrecover]
    exact he

/-- **No order is forgotten in a run.** -/
theorem evolves_run {events : List DeskEvent} (hs : r.oms.Durable)
    (hadm : Along (happens cfg) Admissible r events) :
    r.oms.Evolves (run (happens cfg) r events).oms := by
  have hstep : ∀ (r' : Reconciler) event, r.oms.Evolves r'.oms → r'.Admissible event →
      r.oms.Evolves (r'.happens cfg event).oms := fun r' event h hevent =>
    h.trans (evolves_happens h.durable hevent)
  exact hadm.invariant hstep hs.evolves_refl

/-- **The broker's position is accounted for** by the books and what they are missing of one
order. -/
def AccountsFor (env : ReconcileEnv) (s : Oms) (order : Order) (status : BrokerOrderStatus) :
    Prop :=
  ∀ positions current, env.listPositions = some positions →
    s.orders.get? order.id = some current →
    brokerQty (positionsBySymbol positions) order.symbol =
      s.netQty order.symbol + (syntheticFill { order with filledQty := current.filledQty } status 0
        0).signedQty

/-- **The execution stays with the order that caused it**: after the pass the order has all the
broker executed, the missing part in one more fill under the order's agent; and if the broker's
position is accounted for by the books and this order, there is no new order in its symbol. -/
structure Attributed (cfg : ReconcilerConfig) (env : ReconcileEnv) (r : Reconciler) (order : Order)
    (status : BrokerOrderStatus) : Prop where
  filledQty : ∃ order', (reconcileOnce cfg env r).1.oms.orders.get? order.id = some order' ∧
    order'.agentId = order.agentId ∧ order'.filledQty = status.filledQty
  fill : ∃ fill, (reconcileOnce cfg env r).1.oms.getFills order.id =
    r.oms.getFills order.id ++ [fill] ∧ fill.agentId = order.agentId
  noGhost : AccountsFor env (polled env r.oms) order status →
    ∀ k ghost, (reconcileOnce cfg env r).1.oms.orders.get? k = some ghost →
      k ∉ r.oms.orders.keys → ghost.symbol ≠ order.symbol

/-- A pass attributes an execution to its order exactly when it can catch up the order. -/
theorem attributed_iff_pollable (hs : r.oms.Durable) (hfresh : FreshGhosts env r.oms)
    (hanswers : Answers env) {order current : Order}
    (h : r.oms.orders.get? order.id = some current) (hmeta : current.orderMeta = order.orderMeta)
    {status : BrokerOrderStatus} (hstatus : env.getOrder order.id = some status)
    (hmissing : current.filledQty < status.filledQty) :
    Attributed cfg env r order status ↔ Pollable current status := by
  obtain ⟨hagent, -, hsymbol, hside⟩ := OrderMeta.mk.inj hmeta
  have hpolled := evolves_polled env hs
  have hkeys : (polled env r.oms).orders.keys = r.oms.orders.keys :=
    (keyed_reconcileOrders env hs.keyed _).2
  obtain ⟨-, hkept, hadopted⟩ := adopts_comparePositions cfg hpolled.durable
    ⟨fun sym => hkeys ▸ hfresh.notMem sym, hfresh.injective⟩
  obtain ⟨-, ⟨order', ho', hagent', hqty⟩, hfills⟩ :=
    catchesUp_polled hs.keyed h hanswers hstatus hmissing
  obtain ⟨hsame, hsameFills⟩ := hkept order.id (hkeys ▸ Dict.mem_keys_of_get? h)
  rw [← oms_reconcileOnce] at hsame hsameFills
  constructor
  · intro hattributed
    obtain ⟨order'', ho'', -, hq⟩ := hattributed.filledQty
    rw [hsame, ho', Option.some_inj] at ho''
    subst ho''
    by_contra hnot
    rw [hqty, if_neg hnot] at hq
    exact absurd hq hmissing.ne
  · intro hcond
    rw [if_pos hcond] at hqty hfills
    refine ⟨⟨order', hsame.trans ho', hagent'.trans hagent, hqty⟩,
      ⟨_, hsameFills.trans hfills, hagent⟩, fun haccounts k ghost hghost hk hsym => ?_⟩
    rw [oms_reconcileOnce] at hghost
    obtain ⟨positions, qty, price, hpositions, hcheck⟩ := hadopted k ghost hghost (hkeys ▸ hk)
    -- nothing is missing any more, so the broker's position is the one on the books
    have hbroker : brokerQty (positionsBySymbol positions) order.symbol =
        ourQty (polled env r.oms).computeExpectedPositions order.symbol := by
      rw [haccounts positions order' hpositions ho', Oms.ourQty_computeExpectedPositions
        hpolled.durable.keyed, hqty]
      cases order.side <;> simp [syntheticFill, Fill.signedQty]
    rw [checkAgainst, hsym, checkSymbol] at hcheck
    split_ifs at hcheck with _ horphan
    rw [hbroker, horphan.1] at horphan
    exact lt_irrefl 0 horphan.2

/-- **When an execution stays with the order that caused it.** Take any run in which the
submission of an order raised although the broker had taken the order, and the next pass. If the
broker has executed more of the order than is recorded, the execution stays with the order exactly
when the system has learnt the broker's identifier of the order by then, the order is open, and
the broker reports it in a filling state. -/
theorem attributed_iff (timeout : ℤ) {before after : List DeskEvent} {order : Order} {now : Time}
    (hpending : order.state = .pending) {status : BrokerOrderStatus}
    (hadm : Along (happens cfg) Admissible (new timeout)
      (before ++ .reconciler (.oms (.submitOrder order ⟨[], .unavailable⟩ now)) ::
        after ++ [.reconciler (.pass env)]))
    (hanswers : Answers env) (hstatus : env.getOrder order.id = some status) :
    let r := run (happens cfg) (new timeout)
      (before ++ .reconciler (.oms (.submitOrder order ⟨[], .unavailable⟩ now)) :: after)
    ∃ current, r.oms.orders.get? order.id = some current ∧
      (current.filledQty < status.filledQty →
        (Attributed cfg env r order status ↔ Pollable current status)) := by
  intro r
  obtain ⟨hadm, hfresh⟩ := along_concat.mp hadm
  obtain ⟨hbefore, hsubmit, hafter⟩ := along_append.mp hadm
  have h₁ := evolves_run Oms.durable_empty hbefore
  obtain ⟨h₂, hknown⟩ := Oms.evolves_submitOrder h₁.durable hpending hsubmit ⟨[], .unavailable⟩ now
  have h₃ := evolves_run (r := happens cfg (run (happens cfg) (new timeout) before)
    (.reconciler (.oms (.submitOrder order ⟨[], .unavailable⟩ now)))) h₂.durable hafter
  have hr : r = run (happens cfg) (happens cfg (run (happens cfg) (new timeout) before)
      (.reconciler (.oms (.submitOrder order ⟨[], .unavailable⟩ now)))) after :=
    (run_append _ _).trans (run_cons _ _)
  rw [← hr] at h₃
  obtain ⟨current, hcurrent, hmeta⟩ := Option.map_eq_some_iff.mp (h₃.keepsOrders _ _ hknown)
  exact ⟨current, hcurrent, attributed_iff_pollable h₃.durable hfresh hanswers hcurrent hmeta
    hstatus⟩

end Runs

/-! ### An execution that stays, and one that is lost -/

/-- An order whose submission raises although the broker takes it. -/
def lostSubmission : DeskEvent :=
  .reconciler (.oms (.submitOrder (Oms.marketOrder 1 .buy 10) ⟨[], .unavailable⟩ 0))

/-- The broker's view of that order. -/
def brokerView (state : BrokerOrderState) (filledQty : Decimal) : BrokerOrderStatus where
  brokerOrderId := "b-1"
  clientOrderId := 1
  symbol := "AAPL"
  side := .buy
  qty := 10
  filledQty := filledQty
  avgFillPrice := some 100
  state := state
  submittedAt := 0
  updatedAt := 3

/-- A pass once the order is filled, in which every call succeeds. -/
def filledEnv : ReconcileEnv where
  getOrder k := if k = 1 then some (brokerView .filled 10) else none
  listPositions := some [orphanPosition]
  fillId _ := 8
  -- two is past the one order of the run
  ghostIds sym := ⟨Encodable.encode (sym.toList.map Char.toNat) + 2, 0, 0⟩
  ts := 3

theorem answers_filledEnv : Answers filledEnv := by
  intro k status h
  rw [filledEnv] at h
  dsimp only at h
  split_ifs at h with hk
  rw [← Option.some.inj h, hk]
  rfl

theorem freshGhosts_filledEnv {s : Oms} (hkeys : s.orders.keys = [1]) :
    FreshGhosts filledEnv s := by
  constructor
  · intro sym hmem
    rw [hkeys, List.mem_singleton] at hmem
    exact absurd hmem (by simp [filledEnv])
  · intro sym sym' h
    have hchar : Function.Injective Char.toNat := fun c c' hc => Char.toNat_inj.mp hc
    have hmap := Encodable.encode_injective (Nat.add_right_cancel h)
    exact String.toList_injective (List.map_injective_iff.mpr hchar hmap)

/-- The process is restarted before the order is filled, and learns the broker's identifier. -/
def learns : DeskEvent :=
  .restart ⟨fun k => if k = 1 then some (brokerView .accepted 0) else none, fun _ => 7, 2⟩

/-- **The execution stays with its order** if the process was restarted in time. -/
theorem attributed_restartedRun :
    Attributed {} filledEnv (run (happens {}) (new 120) [lostSubmission, learns])
      (Oms.marketOrder 1 .buy 10) (brokerView .filled 10) := by
  have hadm : Along (happens {}) Admissible (new 120)
      ([] ++ lostSubmission :: [learns] ++ [.reconciler (.pass filledEnv)]) := by
    have hid : Oms.empty.Identifies
        (.submitOrder (Oms.marketOrder 1 .buy 10) ⟨[], .unavailable⟩ 0) := by
      decide +kernel
    refine ⟨hid, trivial, freshGhosts_filledEnv ?_, trivial⟩
    decide +kernel
  obtain ⟨current, hcurrent, hiff⟩ := attributed_iff 120 rfl hadm answers_filledEnv rfl
  have hall : (((run (happens {}) (new 120) [lostSubmission, learns]).oms.orders.get? 1).all
      fun order => order.filledQty < 10 ∧ Pollable order (brokerView .filled 10)) = true := by
    decide +kernel
  have hcurrent' : (run (happens {}) (new 120) [lostSubmission, learns]).oms.orders.get? 1 =
      some current := hcurrent
  rw [hcurrent'] at hall
  obtain ⟨hmissing, hpollable⟩ := of_decide_eq_true hall
  exact (hiff hmissing).mpr hpollable

/-- **The execution is lost to its order**: without the restart the pass leaves the order with
nothing filled, and books its ten shares on a synthetic order of another agent. -/
theorem not_attributed_lostReplyRun :
    ¬Attributed {} filledEnv (run (happens {}) (new 120) [lostSubmission])
        (Oms.marketOrder 1 .buy 10) (brokerView .filled 10) ∧
      ((run (happens {}) (new 120) [lostSubmission,
        .reconciler (.pass filledEnv)]).oms.orders.values.map fun order =>
          (order.agentId, order.symbol, order.filledQty)) =
        [(.sonnet, "AAPL", 0), (.haiku, "AAPL", 10)] := by
  have hzero : ((reconcileOnce {} filledEnv (run (happens {}) (new 120)
      [lostSubmission])).1.oms.orders.get? 1).map (·.filledQty) = some 0 := by
    decide +kernel
  constructor
  · rintro ⟨⟨order, ho, -, hq⟩, -, -⟩
    have ho' : (reconcileOnce {} filledEnv (run (happens {}) (new 120)
      [lostSubmission])).1.oms.orders.get? 1 = some order := ho
    rw [ho', Option.map_some, Option.some_inj, hq] at hzero
    exact absurd hzero (by decide)
  · decide +kernel

end Reconciler

end TradingPlatform
