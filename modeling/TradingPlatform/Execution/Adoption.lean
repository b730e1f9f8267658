import TradingPlatform.Execution.FillReplay
import TradingPlatform.Execution.ReconcilePass
import TradingPlatform.Execution.RecoveryCells

/-!
# Adopting a position once

A pass of the reconciler that finds a position at the broker, and no fill on our books, writes a
synthetic order with one fill that explains it. That takes three events of the log, and the
process can die after any of them; the recovery of the next process gives up an order without its
fill, because the broker has never heard of it, and the next pass decides again.

`TradingPlatform.AdoptionRun` is a run of passes, crashes and restarts over one log.
`TradingPlatform.AdoptionRun.AdoptsOnce` says that the fills recorded of some symbols never exceed
what the broker holds, and equal it once a pass has run to its end.
`TradingPlatform.AdoptionRun.adoptsOnce_run` proves it of all runs in which the broker reports no
fill of these symbols that the log lacks. Where it does, the position was adopted and is then
counted a second time (`TradingPlatform.AdoptionRun.not_adoptsOnce_lateReportRun`).
-/

namespace TradingPlatform

/-! ### The fills of a log -/

/-- The fills of a symbol in a log. -/
def fillsIn (sym : String) (log : List LoggedEvent) : List Fill :=
  (fillsLogged log).filter fun fill => fill.symbol = sym

/-- The quantity recorded for a symbol. -/
def recordedQty (sym : String) (log : List LoggedEvent) : Decimal :=
  ((fillsIn sym log).map (·.qty)).sum

theorem fillsIn_append (sym : String) (log log' : List LoggedEvent) :
    fillsIn sym (log ++ log') = fillsIn sym log ++ fillsIn sym log' := by
  rw [fillsIn, fillsLogged_append, List.filter_append]
  rfl

theorem fillsIn_of_isPrefix {log log' : List LoggedEvent} (h : log <+: log') (sym : String) :
    fillsIn sym log <+: fillsIn sym log' := by
  obtain ⟨rest, rfl⟩ := h
  exact ⟨fillsIn sym rest, (fillsIn_append sym log rest).symm⟩

theorem fillsIn_of_silent {log : List LoggedEvent} (h : ∀ e ∈ log, e.Silent) (sym : String) :
    fillsIn sym log = [] := by
  have hnone : fillsLogged log = [] := by
    rw [fillsLogged, List.filterMap_eq_nil_iff]
    rintro ⟨kind, k, ts⟩ he
    have hsilent := h _ he
    cases kind <;> first | rfl | exact hsilent.elim
  rw [fillsIn, hnone]
  rfl

/-- An intent brings no fill. -/
theorem fillsIn_intent (sym : String) (payload : OrderPayload) (k : OrderId) (ts : Time) :
    fillsIn sym [⟨.orderSubmitIntent payload, k, ts⟩] = [] := rfl

theorem fillsIn_fillReceived (sym : String) (fill : Fill) (k : OrderId) (ts : Time) :
    fillsIn sym [⟨.fillReceived (serializeFill fill), k, ts⟩] =
      if fill.symbol = sym then [fill] else [] := by
  have hfills : fillsLogged [⟨.fillReceived (serializeFill fill), k, ts⟩] = [fill] := rfl
  rw [fillsIn, hfills]
  split_ifs with hsym
  · exact List.filter_cons_of_pos (decide_eq_true hsym)
  · exact List.filter_cons_of_neg (by simpa using hsym)

/-- A log that replays has fills of orders it knows only. -/
theorem Book.mem_keys_of_fill {log : List LoggedEvent} {b : Book}
    (h : Book.empty.applyLog log = some b) {e : LoggedEvent} (he : e ∈ log) {fill : Fill}
    (hfill : e.fill? = some fill) : e.orderId ∈ b.orders.keys := by
  obtain ⟨pre, post, rfl⟩ := List.append_of_mem he
  rw [Book.applyLog_append] at h
  obtain ⟨b₁, h₁, h₂⟩ := Option.bind_eq_some_iff.mp h
  obtain ⟨hp₁, -, -⟩ := Book.paired_empty.applyLog h₁
  obtain ⟨hp, hcell, -⟩ := hp₁.applyLog h₂
  have hknown : (b₁.cell e.orderId).isSome := by
    rw [Book.applyLog, List.foldlM_cons] at h₂
    obtain ⟨b₂, hb₂, -⟩ := Option.bind_eq_some_iff.mp h₂
    have happ := hp₁.applies hb₂
    obtain ⟨kind, k, ts⟩ := e
    cases kind <;> first | exact happ | cases hfill
  have hsome : (b.cell e.orderId).isSome := hcell e.orderId ▸ Book.isSome_replayCell hknown
  rw [Dict.mem_keys_iff, hp.get?_orders]
  obtain ⟨cell, hc⟩ := Option.isSome_iff_exists.mp hsome
  exact ⟨cell.order, by rw [hc]; rfl⟩

/-- The fills of a log, order by order. -/
theorem sum_loggedFills (w : Fill → Decimal) {keys : List OrderId} (hnd : keys.Nodup)
    {log : List LoggedEvent}
    (hlog : ∀ e ∈ log, ∀ fill, e.fill? = some fill → e.orderId ∈ keys) :
    (keys.map fun k => ((loggedFills log k).map w).sum).sum = ((fillsLogged log).map w).sum := by
  induction log with
  | nil => simp [loggedFills, fillsLogged]
  | cons e log ih =>
    have hrest := ih fun e' he' => hlog e' (List.mem_cons_of_mem _ he')
    have hcons : ∀ k, loggedFills (e :: log) k = e.fillsFor k ++ loggedFills log k := fun _ =>
      List.flatMap_cons
    rcases hfill : e.fill? with _ | fill
    · have hnone : ∀ k, e.fillsFor k = [] := by
        obtain ⟨kind, k', ts⟩ := e
        cases kind <;> first | exact fun _ => rfl | cases hfill
      rw [fillsLogged, List.filterMap_cons_none hfill, ← fillsLogged, ← hrest]
      simp only [hcons, hnone, List.nil_append]
    · have hmem := hlog e List.mem_cons_self fill hfill
      have hself : e.fillsFor e.orderId = [fill] := by
        obtain ⟨kind, k', ts⟩ := e
        cases kind <;> cases hfill
        exact LoggedEvent.fillsFor_fillReceived _ _ _
      rw [fillsLogged, List.filterMap_cons_some hfill, ← fillsLogged, List.map_cons, List.sum_cons,
        ← hrest, add_comm]
      refine Dict.sum_map_add_at hnd hmem ?_ fun k hk => ?_
      · rw [hcons, hself, List.map_append, List.sum_append, add_comm]
        simp
      · rw [hcons, LoggedEvent.fillsFor_of_ne hk.symm, List.nil_append]

namespace Oms

/-! ### What a run relies on -/

/-- **The books and the log agree**: the log replays to the fills there are, and every intent in it
is under the identifier of its order. -/
structure Sound (s : Oms) : Prop where
  keyed : s.Keyed
  mirrors : ∃ b, s.Mirrors b
  idAgrees : ∀ e ∈ s.store, e.IdAgrees

section Sound

variable {s s' : Oms}

theorem Sound.restartable (h : s.Sound) : Restartable s.store := by
  obtain ⟨b, hb⟩ := h.mirrors
  exact ⟨⟨b, hb.replays⟩, h.idAgrees⟩

theorem Emits.idAgrees (h : s.Emits s') (hs : ∀ e ∈ s.store, e.IdAgrees) :
    ∀ e ∈ s'.store, e.IdAgrees := by
  obtain ⟨log, -, hstore, -, -, hids⟩ := h
  rw [hstore]
  intro e he
  rcases List.mem_append.mp he with he | he
  · exact hs e he
  · exact hids e he

theorem Emits.isPrefix (h : s.Emits s') : s.store <+: s'.store := by
  obtain ⟨log, -, hstore, -⟩ := h
  exact ⟨log, hstore.symm⟩

theorem Sound.quiet (h : s.Sound) (hq : s.Quiet s') (he : s.Emits s') : s'.Sound := by
  obtain ⟨b, hb⟩ := h.mirrors
  exact ⟨hq.keyed h.keyed, hb.quiet h.keyed hq, he.idAgrees h.idAgrees⟩

theorem Sound.handleFill (h : s.Sound) (k : OrderId) (fill : Fill) (ts : Time) :
    (s.handleFill k fill ts).Sound := by
  obtain ⟨b, hb⟩ := h.mirrors
  exact ⟨h.keyed.handleFill k fill ts, hb.handleFill h.keyed k fill ts,
    ((Emits.refl s).handleFill k fill ts).idAgrees h.idAgrees⟩

theorem Sound.bookGhost (h : s.Sound) {ghost : Ghost} (hfresh : ghost.ids.order ∉ s.orders.keys) :
    (s.bookGhost ghost).Sound := by
  obtain ⟨b, hb⟩ := h.mirrors
  exact ⟨h.keyed.bookGhost ghost, hb.bookGhost h.keyed hfresh,
    (emits_bookGhost s ghost).idAgrees h.idAgrees⟩

/-- **A total over the books is one over the log.** -/
theorem Sound.total_eq (h : s.Sound) (w : Fill → Decimal) :
    s.total w = ((fillsLogged s.store).map w).sum := by
  obtain ⟨b, hb⟩ := h.mirrors
  have hfills : ∀ k, s.getFills k = loggedFills s.store k := fun k =>
    (hb.fills k).symm.trans ((Book.paired_empty.applyLog hb.replays).2.2 k)
  have hmem : ∀ e ∈ s.store, ∀ fill, e.fill? = some fill → e.orderId ∈ s.orders.keys :=
    fun e he fill hfill => hb.keys ▸ Book.mem_keys_of_fill hb.replays he hfill
  rw [← sum_loggedFills w s.orders.nodup_keys hmem, total]
  simp only [hfills]

/-- What the books add up for a symbol is what its fills in the log add up to. -/
theorem Sound.total_in (h : s.Sound) (sym : String) (f : Fill → Decimal) :
    s.total (fun fill => if fill.symbol = sym then f fill else 0) =
      ((fillsIn sym s.store).map f).sum := by
  rw [h.total_eq, TradingPlatform.fillsIn]
  induction fillsLogged s.store with
  | nil => rfl
  | cons fill fills ih =>
    rw [List.map_cons, List.sum_cons, ih, List.filter_cons]
    by_cases hsym : fill.symbol = sym <;> simp [hsym]

/-- What any run under distinct identifiers leads to. -/
theorem sound_run {ops : List OmsOp} (hops : Along step Fresh Oms.empty ops) :
    (run step Oms.empty ops).Sound := by
  obtain ⟨hd, hm⟩ := exists_mirrors_run hops
  have hstep : ∀ (s : Oms) op, (∀ e ∈ s.store, e.IdAgrees) → ∀ e ∈ (s.step op).store, e.IdAgrees :=
    fun s op hs => (emits_step s op).idAgrees hs
  have hnil : ∀ e ∈ Oms.empty.store, e.IdAgrees := fun e he => absurd he List.not_mem_nil
  have hids := run_invariant hstep hnil ops
  exact ⟨hd.keyed, hm, hids⟩

/-- A quiet step logs no fill. -/
theorem Quiet.fillsIn (h : s.Quiet s') (sym : String) :
    fillsIn sym s'.store = fillsIn sym s.store := by
  obtain ⟨log, hstore, hlog⟩ := h.store
  rw [hstore, fillsIn_append, fillsIn_of_silent fun e he => (hlog e he).1, List.append_nil]

/-- A fill is logged under the symbol of its order. -/
theorem fillsIn_handleFill (hs : s.Keyed) {k : OrderId} {order : Order}
    (h : s.orders.get? k = some order) (fill : Fill) (ts : Time) (sym : String) :
    fillsIn sym (s.handleFill k fill ts).store =
      fillsIn sym s.store ++ if order.symbol = sym then [fill.correctedFor order] else [] := by
  obtain ⟨fsm, hf⟩ := hs.exists_fsm h
  rw [(handleFill_advances h hf fill ts).store, fillsIn_append, fillsIn_fillReceived]
  rfl

/-- A synthetic order logs its one fill. -/
theorem fillsIn_bookGhost (hs : s.Keyed) (ghost : Ghost) (sym : String) :
    fillsIn sym (s.bookGhost ghost).store =
      fillsIn sym s.store ++ if ghost.symbol = sym then [ghost.fill] else [] := by
  obtain ⟨s₁, s₂, fsm, h₁, -, hf₁, h₂, h₃⟩ := s.bookGhost_steps ghost
  have hk₁ := h₁.keyed hs
  have hq : s₁.Quiet s₂ := h₂.quiet h₁.get?_self hf₁ ⟨rfl, rfl, rfl, rfl, rfl⟩ rfl trivial
  have ho₂ := (h₂.orders ghost.ids.order).trans (if_pos rfl)
  have hsame := Order.sameTrade_moved { ghost.order with
    state := .submitted, brokerOrderId := some ghost.brokerOrderId
    submittedAt := some ghost.ts } fsm .accept
  have hsym : (Order.moved { ghost.order with
      state := .submitted, brokerOrderId := some ghost.brokerOrderId
      submittedAt := some ghost.ts } fsm .accept).symbol = ghost.symbol := hsame.symbol
  have hcor : ghost.fill.correctedFor (Order.moved { ghost.order with
      state := .submitted, brokerOrderId := some ghost.brokerOrderId
      submittedAt := some ghost.ts } fsm .accept) = ghost.fill := hsame.correctedFor_eq ghost.fill
  rw [h₃, fillsIn_handleFill (hq.keyed hk₁) ho₂, hq.fillsIn, h₁.store, fillsIn_append,
    fillsIn_intent, List.append_nil, hsym, hcor]

end Sound

end Oms

namespace Reconciler

variable (cfg : ReconcilerConfig) (env : ReconcileEnv)

/-! ### Polling the orders -/

/-- **The broker reports a fill that is not recorded**, of an order in a symbol. -/
def ReportsFill (s : Oms) (order : Order) (sym : String) : Prop :=
  order.brokerOrderId ≠ none ∧ ∃ status ∈ env.getOrder order.id,
    (status.state = .partiallyFilled ∨ status.state = .filled) ∧
      order.filledQty < status.filledQty ∧
      ∃ target ∈ s.orders.get? status.clientOrderId, target.symbol = sym

section Polling

variable {s s' : Oms}

/-- **Polling an order is quiet or records a fill the broker reports.** -/
theorem reconcileOrder_cases (hs : s.Keyed) (order : Order) :
    s.Quiet (reconcileOrder env s order).1 ∨
      ∃ status target fill, order.brokerOrderId ≠ none ∧ env.getOrder order.id = some status ∧
        (status.state = .partiallyFilled ∨ status.state = .filled) ∧
        order.filledQty < status.filledQty ∧
        s.orders.get? status.clientOrderId = some target ∧
        (reconcileOrder env s order).1 =
          s.handleFill status.clientOrderId fill status.updatedAt := by
  unfold reconcileOrder
  rcases hb : order.brokerOrderId with _ | brokerOrderId
  · exact Or.inl (.refl s)
  rcases hstatus : env.getOrder order.id with _ | status
  · exact Or.inl (.refl s)
  dsimp only
  unfold applyStatus
  dsimp only
  split_ifs with hreq hfill hstuck
  · obtain ⟨hstate, hlt⟩ := hfill
    rcases Oms.onBrokerEvent_cases hs (statusEvent status (some (syntheticFill order status
        (env.fillId order.id) status.updatedAt))) status.updatedAt with
      hq | ⟨target, fill, htarget, -, -, heq⟩
    · exact Or.inl hq
    · exact Or.inr ⟨status, target, fill, Option.some_ne_none _, rfl, hstate, sub_pos.mp hlt,
        htarget, heq⟩
  · exact Or.inl (Oms.quiet_forceCloseFilled hs _ _)
  · exact Or.inl (Oms.quiet_onBrokerEvent hs rfl _)
  · exact Or.inl (.refl s)

theorem emits_reconcileOrder (s : Oms) (order : Order) :
    s.Emits (reconcileOrder env s order).1 := by
  unfold reconcileOrder
  split
  · exact .refl s
  · split
    · exact .refl s
    · rename_i status _
      rcases applyStatus_eq s order status (env.fillId order.id) with h | h | ⟨fill, h⟩
      · rw [h]
        exact .refl s
      · rw [h]
        exact (Oms.Emits.refl s).forceCloseFilled _ _
      · rw [h]
        exact Oms.emits_onBrokerEvent s _ _

/-- Some orders polled: the books stay sound, and the orders what they are. -/
structure Polled (s s' : Oms) : Prop where
  sound : s'.Sound
  emits : s.Emits s'
  orderMeta : ∀ k, (s'.orders.get? k).map Order.orderMeta = (s.orders.get? k).map Order.orderMeta
  keys : s'.orders.keys = s.orders.keys

theorem Polled.refl (hs : s.Sound) : Polled s s := ⟨hs, .refl s, fun _ => rfl, rfl⟩

theorem Polled.trans {s'' : Oms} (h : Polled s s') (h' : Polled s' s'') : Polled s s'' :=
  ⟨h'.sound, h.emits.trans h'.emits, fun k => (h'.orderMeta k).trans (h.orderMeta k),
    h'.keys.trans h.keys⟩

theorem polled_reconcileOrder (hs : s.Sound) (order : Order) :
    Polled s (reconcileOrder env s order).1 := by
  have hemits := emits_reconcileOrder env s order
  rcases reconcileOrder_cases env hs.keyed order with
    hq | ⟨status, target, fill, -, -, -, -, -, heq⟩
  · exact ⟨hs.quiet hq hemits, hemits, hq.orderMeta, hq.keys⟩
  · rw [heq] at hemits ⊢
    exact ⟨hs.handleFill _ _ _, hemits, Oms.orderMeta_handleFill hs.keyed _ _ _,
      Oms.keys_handleFill hs.keyed _ _ _⟩

/-- What the broker reports is about the same orders after others were polled. -/
theorem reportsFill_congr (h : Polled s s') (order : Order) (sym : String) :
    ReportsFill env s' order sym ↔ ReportsFill env s order sym := by
  have htarget : ∀ k, (∃ target ∈ s'.orders.get? k, target.symbol = sym) ↔
      ∃ target ∈ s.orders.get? k, target.symbol = sym := by
    intro k
    have hmeta := h.orderMeta k
    have hsym : ∀ o : Option Order, (∃ target ∈ o, target.symbol = sym) ↔
        ∃ m ∈ o.map Order.orderMeta, m.symbol = sym := by
      rintro (_ | order)
      · simp
      · simp [Order.orderMeta]
    rw [hsym, hsym, hmeta]
  simp only [ReportsFill, htarget]

/-- A fill is recorded in a symbol only if the broker reports one. -/
theorem fillsIn_reconcileOrder (hs : s.Sound) {order : Order} {sym : String}
    (h : ¬ReportsFill env s order sym) :
    fillsIn sym (reconcileOrder env s order).1.store = fillsIn sym s.store := by
  rcases reconcileOrder_cases env hs.keyed order with
    hq | ⟨status, target, fill, hb, hstatus, hstate, hlt, htarget, heq⟩
  · exact hq.fillsIn sym
  · have hne : target.symbol ≠ sym := fun hc =>
      h ⟨hb, status, hstatus, hstate, hlt, target, htarget, hc⟩
    rw [heq, Oms.fillsIn_handleFill hs.keyed htarget, if_neg hne, List.append_nil]

/-- **Polling all orders** records no fill in a symbol in which the broker reports none. -/
theorem polled_reconcileOrders (hs : s.Sound) (orders : List Order) :
    Polled s (reconcileOrders env s orders).1 ∧
      ∀ sym, (∀ order ∈ orders, ¬ReportsFill env s order sym) →
        fillsIn sym (reconcileOrders env s orders).1.store = fillsIn sym s.store := by
  rw [fst_reconcileOrders]
  induction orders generalizing s with
  | nil => exact ⟨.refl hs, fun _ _ => rfl⟩
  | cons order orders ih =>
    have hpolled := polled_reconcileOrder env hs order
    obtain ⟨hrest, hfills⟩ := ih hpolled.sound
    refine ⟨hpolled.trans hrest, fun sym hnone => ?_⟩
    refine (hfills sym fun o ho => ?_).trans
      (fillsIn_reconcileOrder env hs (hnone order List.mem_cons_self))
    rw [reportsFill_congr env hpolled]
    exact hnone o (List.mem_cons_of_mem _ ho)

end Polling

/-! ### Comparing the positions -/

/-- The synthetic order that explains an orphan. -/
def orphanGhost (sym : String) (qty price : Decimal) : Ghost where
  ids := env.ghostIds sym
  brokerOrderId := "ghost-" ++ toString (env.ghostIds sym).order
  side := .buy
  symbol := sym
  qty := qty
  price := price
  agentId := cfg.orphanAgentId
  ts := env.ts

/-- The fill that comparing a symbol adopts, if any. -/
def adoptedFills (expected : Dict String Decimal) (positions : Dict String BrokerPosition)
    (sym : String) : List Fill :=
  match checkSymbol cfg expected positions sym with
  | .orphan qty price => [(orphanGhost cfg env sym qty price).fill]
  | .agrees | .mismatch _ => []

/-- The fill that a pass adopts in a symbol, if any: none if the positions cannot be fetched. -/
def adoptedIn (expected : Dict String Decimal) (sym : String) : List Fill :=
  match env.listPositions with
  | none => []
  | some positions =>
    if sym ∈ allSymbols expected (positionsBySymbol positions) then
      adoptedFills cfg env expected (positionsBySymbol positions) sym
    else []

section Decision

variable {cfg} {env} {expected : Dict String Decimal} {positions : Dict String BrokerPosition}
  {sym : String}

/-- Adopting an orphan is one purchase of all of it. -/
theorem adoptedFills_of_check (env : ReconcileEnv) {qty price : Decimal}
    (h : checkSymbol cfg expected positions sym = .orphan qty price) :
    ∃ fill, adoptedFills cfg env expected positions sym = [fill] ∧ fill.side = .buy ∧
      fill.qty = qty := by
  refine ⟨(orphanGhost cfg env sym qty price).fill, ?_, rfl, rfl⟩
  unfold adoptedFills
  simp only [h]

/-- A position of which nothing is recorded is adopted as a whole. -/
theorem adoptedFills_of_orphan (env : ReconcileEnv) (hour : ourQty expected sym = 0)
    (hpos : 0 < brokerQty positions sym)
    (hdrift : ¬Within cfg 0 (brokerQty positions sym) (brokerPrice positions sym)) :
    ∃ fill, adoptedFills cfg env expected positions sym = [fill] ∧ fill.side = .buy ∧
      fill.qty = brokerQty positions sym := by
  have hcheck : checkSymbol cfg expected positions sym =
      .orphan (brokerQty positions sym) (brokerPrice positions sym) := by
    unfold checkSymbol
    rw [hour]
    exact (if_neg hdrift).trans (if_pos ⟨rfl, hpos⟩)
  exact adoptedFills_of_check env hcheck

/-- A position of which something is recorded is not. -/
theorem adoptedFills_of_known (hour : ourQty expected sym ≠ 0) :
    adoptedFills cfg env expected positions sym = [] := by
  unfold adoptedFills checkSymbol
  generalize ourQty expected sym = our at hour
  generalize brokerQty positions sym = broker
  generalize brokerPrice positions sym = price
  by_cases hwithin : Within cfg our broker price
  · simp only [if_pos hwithin]
  · have horphan : ¬(our = 0 ∧ 0 < broker) := fun hc => hour hc.1
    simp only [if_neg hwithin, if_neg horphan]

/-- A pass looks at every symbol in which the broker holds something. -/
theorem mem_allSymbols_of_brokerQty (hpos : 0 < brokerQty positions sym) :
    sym ∈ allSymbols expected positions := by
  by_contra hc
  exact hpos.ne' (qty_of_notMem_allSymbols hc).2

end Decision

section Comparing

variable {s : Oms} (expected : Dict String Decimal) (positions : Dict String BrokerPosition)

/-- Comparing one symbol. -/
theorem fillsIn_compareSymbol (hs : s.Sound) {sym : String}
    (hfresh : (env.ghostIds sym).order ∉ s.orders.keys) (ms : List PositionMismatch) :
    let result := compareSymbol cfg env expected positions (s, ms) sym
    result.1.Sound ∧ s.Emits result.1 ∧
      (∀ k ∈ result.1.orders.keys, k = (env.ghostIds sym).order ∨ k ∈ s.orders.keys) ∧
      ∀ sym', fillsIn sym' result.1.store = fillsIn sym' s.store ++
        if sym = sym' then adoptedFills cfg env expected positions sym else [] := by
  dsimp only
  unfold compareSymbol adoptedFills
  cases checkSymbol cfg expected positions sym with
  | agrees | mismatch details =>
    refine ⟨hs, .refl s, fun k hk => Or.inr hk, fun sym' => ?_⟩
    simp
  | orphan qty price =>
    have hghost : s.adoptOrphanPosition (env.ghostIds sym) sym qty price cfg.orphanAgentId env.ts =
        s.bookGhost (orphanGhost cfg env sym qty price) := rfl
    dsimp only
    rw [hghost]
    refine ⟨hs.bookGhost hfresh, Oms.emits_bookGhost s _, fun k hk => ?_, fun sym' => ?_⟩
    · exact (Oms.keys_bookGhost hs.keyed _ k).mp hk
    · exact Oms.fillsIn_bookGhost hs.keyed _ sym'

/-- **Comparing the symbols** adopts a fill in each orphan among them. -/
theorem fillsIn_compareSymbols
    (hinj : ∀ sym sym', (env.ghostIds sym).order = (env.ghostIds sym').order → sym = sym')
    {syms : List String} (hnd : syms.Nodup) (hs : s.Sound)
    (hfresh : ∀ sym ∈ syms, (env.ghostIds sym).order ∉ s.orders.keys)
    (ms : List PositionMismatch) :
    let result := syms.foldl (compareSymbol cfg env expected positions) (s, ms)
    result.1.Sound ∧ s.Emits result.1 ∧
      ∀ sym, fillsIn sym result.1.store = fillsIn sym s.store ++
        if sym ∈ syms then adoptedFills cfg env expected positions sym else [] := by
  induction syms generalizing s ms with
  | nil => exact ⟨hs, .refl s, fun sym => by simp⟩
  | cons sym syms ih =>
    obtain ⟨hnot, hnd'⟩ := List.nodup_cons.mp hnd
    obtain ⟨hs₁, hemits₁, hkeys₁, hfills₁⟩ :=
      fillsIn_compareSymbol cfg env expected positions hs (hfresh sym List.mem_cons_self) ms
    have hfresh₁ : ∀ sym' ∈ syms, (env.ghostIds sym').order ∉
        (compareSymbol cfg env expected positions (s, ms) sym).1.orders.keys := by
      intro sym' hsym' hmem
      rcases hkeys₁ _ hmem with heq | hmem'
      · exact hnot (hinj _ _ heq ▸ hsym')
      · exact hfresh sym' (List.mem_cons_of_mem _ hsym') hmem'
    obtain ⟨hs', hemits, hfills⟩ := ih hnd' hs₁ hfresh₁
      (compareSymbol cfg env expected positions (s, ms) sym).2
    refine ⟨hs', hemits₁.trans hemits, fun sym' => ?_⟩
    rw [List.foldl_cons, hfills, hfills₁]
    by_cases hsym : sym = sym'
    · subst hsym
      simp [hnot]
    · simp [hsym, Ne.symm hsym]

end Comparing

/-- Comparing all positions. -/
theorem fillsIn_reconcilePositions {r : Reconciler} (hs : r.oms.Sound)
    (hfresh : FreshGhosts env r.oms) :
    let r' := (reconcilePositions cfg env r).1
    r'.oms.Sound ∧ r.oms.Emits r'.oms ∧
      ∀ sym, fillsIn sym r'.oms.store = fillsIn sym r.oms.store ++
        adoptedIn cfg env r.oms.computeExpectedPositions sym := by
  dsimp only
  unfold adoptedIn
  rcases hfetched : env.listPositions with _ | positions
  · rw [reconcilePositions_of_unfetched cfg env r hfetched]
    exact ⟨hs, .refl _, fun sym => (List.append_nil _).symm⟩
  · have hnd := nodup_allSymbols r.oms.computeExpectedPositions (positionsBySymbol positions)
    rw [(reconcilePositions_of_fetched cfg env r hfetched).1]
    exact fillsIn_compareSymbols cfg env r.oms.computeExpectedPositions
      (positionsBySymbol positions) hfresh.injective hnd hs (fun sym _ => hfresh.notMem sym) []

/-! ### A pass -/

/-- **What a pass records in a symbol**: what polling the orders records, and then the fill it
adopts, if the broker's positions could be fetched. -/
theorem fillsIn_reconcileOnce {r : Reconciler} (hs : r.oms.Sound) (hfresh : FreshGhosts env r.oms) :
    let polled := (reconcileOrders env r.oms r.oms.listOpenOrders).1
    let r' := (reconcileOnce cfg env r).1
    r'.oms.Sound ∧ r.oms.Emits r'.oms ∧
      ∀ sym, fillsIn sym r'.oms.store = fillsIn sym polled.store ++
        adoptedIn cfg env polled.computeExpectedPositions sym := by
  obtain ⟨hpolled, -⟩ := polled_reconcileOrders env hs r.oms.listOpenOrders
  dsimp only
  rw [oms_of_pass]
  have hfresh₁ : FreshGhosts env (beforePositions cfg env r).oms :=
    ⟨fun sym => hpolled.keys ▸ hfresh.notMem sym, hfresh.injective⟩
  obtain ⟨hs', hemits, hfills⟩ := fillsIn_reconcilePositions cfg env hpolled.sound hfresh₁
  exact ⟨hs', hpolled.emits.trans hemits, hfills⟩

end Reconciler

namespace Oms

/-! ### A recovery -/

/-- **The broker reports a fill that is not recorded**, of an open order in a symbol. -/
def RecoversFill (env : RecoveryEnv) (s : Oms) (sym : String) : Prop :=
  ∃ k, ∃ order ∈ s.orders.get? k, ¬order.state.Terminal ∧ order.symbol = sym ∧
    ∃ status ∈ env.findOrderByClientId k, order.filledQty < status.filledQty

section Recovery

variable {s : Oms} {k : OrderId} (env : RecoveryEnv)

theorem Sound.catchUpFromBroker (hs : s.Sound) (k : OrderId) (broker : BrokerOrderStatus)
    (fillId : FillId) (ts : Time) : (s.catchUpFromBroker k broker fillId ts).Sound := by
  rcases h : s.orders.get? k with _ | order
  · rw [Oms.catchUpFromBroker, h]
    exact hs
  obtain ⟨b, hb⟩ := hs.mirrors
  obtain ⟨s₁, s₂, s₃, h₁, h₂, h₃, h₄⟩ := catchUpFromBroker_steps hs.keyed h broker fillId ts
  obtain ⟨b₁, hb₁⟩ := hb.quiet hs.keyed h₁
  have hk₁ := h₁.keyed hs.keyed
  have hs₂ : s₂.Keyed ∧ ∃ b₂, s₂.Mirrors b₂ := by
    rw [h₂]
    split_ifs
    · exact ⟨hk₁.handleFill _ _ _, hb₁.handleFill hk₁ _ _ _⟩
    · exact ⟨hk₁, b₁, hb₁⟩
  obtain ⟨hk₂, b₂, hb₂⟩ := hs₂
  obtain ⟨b₃, hb₃⟩ := hb₂.quiet hk₂ h₃
  exact ⟨h₄.keyed (h₃.keyed hk₂), hb₃.quiet (h₃.keyed hk₂) h₄,
    (emits_catchUpFromBroker s k broker fillId ts).idAgrees hs.idAgrees⟩

/-- Catching up logs a fill under the symbol of the order, if there is one to catch up with. -/
theorem fillsIn_catchUpFromBroker (hs : s.Keyed) {order : Order} (h : s.orders.get? k = some order)
    {broker : BrokerOrderStatus} (fillId : FillId) (ts : Time) {sym : String}
    (hnone : order.filledQty < broker.filledQty → order.symbol ≠ sym) :
    fillsIn sym (s.catchUpFromBroker k broker fillId ts).store = fillsIn sym s.store := by
  obtain ⟨s₁, s₂, s₃, h₁, h₂, h₃, h₄⟩ := catchUpFromBroker_steps hs h broker fillId ts
  obtain ⟨o₁, ho₁, hsame⟩ := h₁.exists_order h
  have hfill : fillsIn sym s₂.store = fillsIn sym s₁.store := by
    rw [h₂]
    split_ifs with hd
    · have hne : o₁.symbol ≠ sym := hsame.symbol ▸ hnone (sub_pos.mp hd)
      rw [fillsIn_handleFill (h₁.keyed hs) ho₁, if_neg hne, List.append_nil]
    · rfl
  rw [h₄.fillsIn, h₃.fillsIn, hfill, h₁.fillsIn]

/-- **Asking about an order is quiet or catches up with the broker.** -/
theorem reconcileOpenOrder_cases (hs : s.Keyed) (k : OrderId) :
    (∃ s₁, s.Quiet s₁ ∧ s₁.Quiet (reconcileOpenOrder env s k).1) ∨
      ∃ order status, s.orders.get? k = some order ∧ ¬order.state.Terminal ∧
        env.findOrderByClientId k = some status ∧
        (reconcileOpenOrder env s k).1 =
          s.catchUpFromBroker k status (env.fillId k) env.now := by
  unfold Oms.reconcileOpenOrder
  rcases h : s.orders.get? k with _ | order
  · exact Or.inl ⟨s, .refl s, .refl s⟩
  have happend : ∀ kind : EventKind, (⟨kind, k, env.now⟩ : LoggedEvent).Silent →
      s.Quiet (s.append kind k env.now) := fun kind hk =>
    quiet_append (Dict.mem_keys_of_get? h) hk
  dsimp only
  split_ifs with ht
  · exact Or.inl ⟨s, .refl s, .refl s⟩
  · rcases hfind : env.findOrderByClientId k with _ | status
    · have hq := happend (.reconcileAbandoned "broker has no record after recovery") trivial
      exact Or.inl ⟨_, hq, quiet_handleRejection (hq.keyed hs) _ _ _⟩
    · dsimp only
      split_ifs
      · exact Or.inl ⟨s, .refl s, happend _ trivial⟩
      · exact Or.inr ⟨order, status, rfl, ht, rfl, rfl⟩

theorem Sound.reconcileOpenOrder (hs : s.Sound) (k : OrderId) :
    (reconcileOpenOrder env s k).1.Sound := by
  have hids := (emits_reconcileOpenOrder env s k).idAgrees hs.idAgrees
  rcases reconcileOpenOrder_cases env hs.keyed k with
    ⟨s₁, h₁, h₂⟩ | ⟨order, status, -, -, -, heq⟩
  · obtain ⟨b, hb⟩ := hs.mirrors
    obtain ⟨b₁, hb₁⟩ := hb.quiet hs.keyed h₁
    have hk₁ := h₁.keyed hs.keyed
    exact ⟨h₂.keyed hk₁, hb₁.quiet hk₁ h₂, hids⟩
  · rw [heq]
    exact hs.catchUpFromBroker k status _ _

/-- What the recovery of one order logs has no fill in a symbol, unless the broker reports one. -/
theorem fillsIn_reconcileLog (hs : s.Sound) {sym : String} (h : ¬RecoversFill env s sym)
    (k : OrderId) : fillsIn sym (reconcileLog env s k) = [] := by
  have hp : s.Paired := ⟨hs.keyed.fsms_isSome, hs.keyed.fills_isSome⟩
  rcases hcell : s.cell k with _ | cell
  · rw [reconcileLog, hcell]
    rfl
  have hstore := (reconcileOpenOrder_actsOn hp hcell env).store
  have hsame : fillsIn sym (reconcileOpenOrder env s k).1.store = fillsIn sym s.store := by
    rcases reconcileOpenOrder_cases env hs.keyed k with
      ⟨s₁, h₁, h₂⟩ | ⟨order, status, ho, ht, hfind, heq⟩
    · rw [h₂.fillsIn, h₁.fillsIn]
    · rw [heq]
      exact fillsIn_catchUpFromBroker hs.keyed ho _ _ fun hlt hsym =>
        h ⟨k, order, ho, ht, hsym, status, hfind, hlt⟩
  rw [hstore, fillsIn_append, List.append_right_eq_self] at hsame
  rw [reconcileLog, hcell]
  exact hsame

/-- **A recovery** returns, leaves the books sound, and records no fill in a symbol in which the
broker reports none. -/
theorem Restartable.exists_sound_recover {log : List LoggedEvent} (h : Restartable log) :
    ∃ r result, (reboot log).replayLog = some r ∧ (reboot log).recover env = some result ∧
      result.1.Sound ∧ log <+: result.1.store ∧
      ∀ sym, ¬RecoversFill env r sym → fillsIn sym result.1.store = fillsIn sym log := by
  obtain ⟨b, hb⟩ := h.replays
  let r : Oms := { reboot log with toBook := b }
  have hr : (reboot log).replayLog = some r := Option.map_eq_some_iff.mpr ⟨b, hb, rfl⟩
  have hsound : r.Sound := ⟨(h.durable hb).keyed, ⟨b, hb, fun _ => rfl, rfl⟩, h.idAgrees⟩
  have hp : r.Paired := ⟨hsound.keyed.fsms_isSome, hsound.keyed.fills_isSome⟩
  obtain ⟨hstore, -⟩ := reconcileOpenOrders_spec env hp
  refine ⟨r, r.reconcileOpenOrders env, hr, by rw [recover, hr, Option.map_some], ?_,
    ⟨_, hstore.symm⟩, fun sym hnone => ?_⟩
  · rw [fst_reconcileOpenOrders]
    exact run_invariant (fun s k (hs : s.Sound) => hs.reconcileOpenOrder env k) hsound _
  · rw [hstore, fillsIn_append]
    refine (congrArg _ ?_).trans (List.append_nil _)
    induction r.orders.keys with
    | nil => rfl
    | cons k keys ih =>
      rw [List.flatMap_cons, fillsIn_append, fillsIn_reconcileLog env hsound hnone, ih]
      rfl

end Recovery

end Oms

/-! ### Runs -/

/-- The log, the reconciler of the process if one is alive, and whether a pass has run to its
end. -/
structure AdoptionRun where
  log : List LoggedEvent
  process : Option Reconciler
  completed : Bool

/-- A pass, or a restart with its recovery. It may be cut short by a crash after some of the events
it logs. -/
inductive AdoptionOp
  | pass (env : ReconcileEnv) (crash : Option ℕ)
  | restart (env : RecoveryEnv) (crash : Option ℕ)

namespace AdoptionRun

/-- A process that has recorded nothing yet. -/
def start (r : Reconciler) : AdoptionRun := ⟨r.oms.store, some r, false⟩

/-- What is left of an operation that leads to a reconciler: all of it, or the part of the log that
was written before the crash. -/
def proceed (s : AdoptionRun) (crash : Option ℕ) (r : Reconciler) (completes : Bool) :
    AdoptionRun :=
  match crash with
  | none => ⟨r.oms.store, some r, s.completed || completes⟩
  | some n => ⟨r.oms.store.take (s.log.length + n), none, s.completed⟩

variable (cfg : ReconcilerConfig) (heartbeatTimeoutSecs : ℤ) (symbols : Set String)
  (qty : String → Decimal)

def step (s : AdoptionRun) : AdoptionOp → AdoptionRun
  | .pass env crash =>
    match s.process with
    | none => s
    | some r => s.proceed crash (r.reconcileOnce cfg env).1 true
  | .restart env crash =>
    match (Oms.reboot s.log).recover env with
    | none => s
    | some (oms, _) =>
      s.proceed crash { Reconciler.new heartbeatTimeoutSecs with oms := oms } false

/-- **A position is adopted once**: what is recorded of a symbol never exceeds what the broker
holds, and equals it once a pass has run to its end; and the books of the process say the same as
the log. -/
structure AdoptsOnce (s : AdoptionRun) : Prop where
  le : ∀ sym ∈ symbols, recordedQty sym s.log ≤ qty sym
  eq : s.completed = true → ∀ sym ∈ symbols, recordedQty sym s.log = qty sym
  books : ∀ r ∈ s.process, ∀ sym ∈ symbols,
    r.oms.total (fun fill => if fill.symbol = sym then fill.qty else 0) = recordedQty sym s.log

/-- What a run is about: the identifiers drawn are new, and the broker holds the same quantities
throughout, each above the tolerances. -/
def Fits (s : AdoptionRun) : AdoptionOp → Prop
  | .pass env _ => ∀ r ∈ s.process, Reconciler.FreshGhosts env r.oms ∧
    ∀ positions ∈ env.listPositions, ∀ sym ∈ symbols,
      Reconciler.brokerQty (Reconciler.positionsBySymbol positions) sym = qty sym ∧
        ¬Reconciler.Within cfg 0 (qty sym)
          (Reconciler.brokerPrice (Reconciler.positionsBySymbol positions) sym)
  | .restart .. => True

/-- **The condition**: the broker reports no fill of an order in these symbols that is not
recorded, and a pass that runs to its end has the broker's positions. -/
def Settled (s : AdoptionRun) : AdoptionOp → Prop
  | .pass env crash => ∀ r ∈ s.process,
    (∀ sym ∈ symbols, ∀ order ∈ r.oms.listOpenOrders,
      ¬Reconciler.ReportsFill env r.oms order sym) ∧
      (crash = none → env.listPositions ≠ none)
  | .restart env _ => ∀ r, (Oms.reboot s.log).replayLog = some r →
    ∀ sym ∈ symbols, ¬r.RecoversFill env sym

/-- No fill, or one purchase of the whole quantity. -/
def Once (qty : Decimal) (fills : List Fill) : Prop :=
  fills = [] ∨ ∃ fill, fills = [fill] ∧ fill.side = .buy ∧ fill.qty = qty

/-- **The invariant**: the log can be started from and is what the process works on, and it has no
fill of a symbol, or one for the whole quantity; after a pass it has one. -/
structure Inv (s : AdoptionRun) : Prop where
  restartable : Oms.Restartable s.log
  process : ∀ r ∈ s.process, r.oms.Sound ∧ r.oms.store = s.log
  once : ∀ sym ∈ symbols, Once (qty sym) (fillsIn sym s.log)
  done : s.completed = true → ∀ sym ∈ symbols, fillsIn sym s.log ≠ []

/-! ### One operation -/

section Step

variable {cfg} {heartbeatTimeoutSecs} {symbols} {qty} {s : AdoptionRun}

theorem Once.of_isPrefix {q : Decimal} {fills fills' : List Fill} (h : Once q fills')
    (hp : fills <+: fills') : Once q fills := by
  rcases h with rfl | ⟨fill, rfl, hside, hqty⟩
  · exact Or.inl (List.prefix_nil.mp hp)
  · rcases List.prefix_cons_iff.mp hp with rfl | ⟨rest, rfl, hrest⟩
    · exact Or.inl rfl
    · exact Or.inr ⟨fill, by rw [List.prefix_nil.mp hrest], hside, hqty⟩

/-- **A crash leaves the log of an operation cut short**, and the invariant with it. -/
theorem Inv.proceed (h : s.Inv symbols qty) {r : Reconciler} (hr : r.oms.Sound)
    (hlog : s.log <+: r.oms.store)
    (honce : ∀ sym ∈ symbols, Once (qty sym) (fillsIn sym r.oms.store)) (crash : Option ℕ)
    {completes : Bool}
    (hdone : crash = none → completes = true → ∀ sym ∈ symbols, fillsIn sym r.oms.store ≠ []) :
    (s.proceed crash r completes).Inv symbols qty := by
  -- what was recorded before is recorded still
  have hkept : ∀ log, s.log <+: log → s.completed = true → ∀ sym ∈ symbols,
      fillsIn sym log ≠ [] := by
    intro log hpre hcompleted sym hsym hnil
    have hp := fillsIn_of_isPrefix hpre sym
    rw [hnil] at hp
    exact h.done hcompleted sym hsym (List.prefix_nil.mp hp)
  rcases crash with _ | n
  · refine ⟨hr.restartable, ?_, honce, fun hcompleted sym hsym => ?_⟩
    · rintro r' ⟨⟩
      exact ⟨hr, rfl⟩
    · rcases Bool.or_eq_true_iff.mp hcompleted with hc | hc
      · exact hkept _ hlog hc sym hsym
      · exact hdone rfl hc sym hsym
  · have hpre : r.oms.store.take (s.log.length + n) <+: r.oms.store := List.take_prefix _ _
    have hlog' : s.log <+: r.oms.store.take (s.log.length + n) :=
      List.prefix_take_iff.mpr ⟨hlog, Nat.le_add_right _ _⟩
    refine ⟨hr.restartable.of_isPrefix hpre, ?_, fun sym hsym => ?_, hkept _ hlog'⟩
    · rintro r' ⟨⟩
    · exact (honce sym hsym).of_isPrefix (fillsIn_of_isPrefix hpre sym)

/-- What the reconciler computes from what was recorded: nothing, or the whole position. -/
theorem ourQty_of_once {oms : Oms} (hs : oms.Sound) {sym : String} {q : Decimal}
    (h : Once q (fillsIn sym oms.store)) :
    Reconciler.ourQty oms.computeExpectedPositions sym =
      if fillsIn sym oms.store = [] then 0 else q := by
  rw [Oms.ourQty_computeExpectedPositions hs.keyed]
  refine (hs.total_in sym Fill.signedQty).trans ?_
  rcases h with hnil | ⟨fill, hfills, hside, hqty⟩
  · rw [if_pos hnil, hnil]
    rfl
  · rw [hfills, if_neg (List.cons_ne_nil _ _)]
    simp [Fill.signedQty, hside, hqty]

/-- **What a pass leaves of a symbol**: it adopts the position if nothing is recorded and the
broker's positions could be fetched, and leaves it alone if it is. -/
theorem once_adoptedIn {oms : Oms} (hs : oms.Sound) {env : ReconcileEnv} {sym : String}
    (hpos : 0 < qty sym)
    (hbroker : ∀ positions ∈ env.listPositions,
      Reconciler.brokerQty (Reconciler.positionsBySymbol positions) sym = qty sym ∧
        ¬Reconciler.Within cfg 0 (qty sym)
          (Reconciler.brokerPrice (Reconciler.positionsBySymbol positions) sym))
    (honce : Once (qty sym) (fillsIn sym oms.store)) :
    let fills := fillsIn sym oms.store ++
      Reconciler.adoptedIn cfg env oms.computeExpectedPositions sym
    Once (qty sym) fills ∧ (env.listPositions ≠ none → fills ≠ []) := by
  have hour := ourQty_of_once hs honce
  dsimp only
  rw [Reconciler.adoptedIn]
  rcases hpositions : env.listPositions with _ | positions
  · rw [List.append_nil]
    exact ⟨honce, fun hc => absurd rfl hc⟩
  obtain ⟨hqty, hdrift⟩ := hbroker positions hpositions
  rw [← hqty] at hpos hdrift
  dsimp only
  rw [if_pos (Reconciler.mem_allSymbols_of_brokerQty hpos)]
  by_cases hnil : fillsIn sym oms.store = []
  · rw [if_pos hnil] at hour
    obtain ⟨fill, hfills, hside, hfill⟩ :=
      Reconciler.adoptedFills_of_orphan env hour hpos hdrift
    rw [hnil, List.nil_append, hfills]
    exact ⟨Or.inr ⟨fill, rfl, hside, hfill.trans hqty⟩, fun _ => List.cons_ne_nil _ _⟩
  · rw [if_neg hnil, ← hqty] at hour
    rw [Reconciler.adoptedFills_of_known (by rw [hour]; exact hpos.ne'), List.append_nil]
    exact ⟨honce, fun _ => hnil⟩

/-- **The invariant survives every operation.** -/
theorem Inv.step (hpos : ∀ sym ∈ symbols, 0 < qty sym) (h : s.Inv symbols qty) {op : AdoptionOp}
    (hfits : s.Fits cfg symbols qty op) (hsettled : s.Settled symbols op) :
    (s.step cfg heartbeatTimeoutSecs op).Inv symbols qty := by
  cases op with
  | pass env crash =>
    rw [AdoptionRun.step]
    rcases hprocess : s.process with _ | r
    · exact h
    · obtain ⟨hr, hstore⟩ := h.process r hprocess
      obtain ⟨hfresh, hbroker⟩ := hfits r hprocess
      obtain ⟨hreports, hlisted⟩ := hsettled r hprocess
      obtain ⟨hpolled, hfills⟩ := Reconciler.polled_reconcileOrders env hr r.oms.listOpenOrders
      obtain ⟨hr', hemits, hfills'⟩ := Reconciler.fillsIn_reconcileOnce cfg env hr hfresh
      have hsame : ∀ sym ∈ symbols,
          fillsIn sym (Reconciler.reconcileOrders env r.oms r.oms.listOpenOrders).1.store =
            fillsIn sym s.log := fun sym hsym =>
        hstore ▸ hfills sym (hreports sym hsym)
      have hleft := fun sym hsym => once_adoptedIn hpolled.sound (hpos sym hsym)
        (fun positions hp => hbroker positions hp sym hsym) (hsame sym hsym ▸ h.once sym hsym)
      refine h.proceed hr' (hstore ▸ hemits.isPrefix) (fun sym hsym => ?_) crash
        fun hcrash _ sym hsym => ?_
      · rw [hfills']
        exact (hleft sym hsym).1
      · rw [hfills']
        exact (hleft sym hsym).2 (hlisted hcrash)
  | restart env crash =>
    obtain ⟨r, result, hreplay, hrecover, hsound, hlog, hfills⟩ :=
      h.restartable.exists_sound_recover env
    rw [AdoptionRun.step, hrecover]
    refine h.proceed (r := { Reconciler.new heartbeatTimeoutSecs with oms := result.1 }) hsound hlog
      (fun sym hsym => ?_) crash fun _ hc => absurd hc Bool.false_ne_true
    rw [hfills sym (hsettled r hreplay sym hsym)]
    exact h.once sym hsym

end Step

/-! ### Whole runs -/

section Runs

variable {cfg} {heartbeatTimeoutSecs} {symbols} {qty} {s : AdoptionRun}

theorem Inv.adoptsOnce (hpos : ∀ sym ∈ symbols, 0 < qty sym) (h : s.Inv symbols qty) :
    s.AdoptsOnce symbols qty where
  le sym hsym := by
    rcases h.once sym hsym with hnil | ⟨fill, hfills, -, hqty⟩
    · rw [recordedQty, hnil]
      exact (hpos sym hsym).le
    · rw [recordedQty, hfills]
      simp [hqty]
  eq hcompleted sym hsym := by
    rcases h.once sym hsym with hnil | ⟨fill, hfills, -, hqty⟩
    · exact absurd hnil (h.done hcompleted sym hsym)
    · rw [recordedQty, hfills]
      simp [hqty]
  books r hr sym _ := by
    obtain ⟨hsound, hstore⟩ := h.process r hr
    rw [hsound.total_in sym Fill.qty, hstore]
    rfl

theorem inv_start {r : Reconciler} (hr : r.oms.Sound)
    (hnone : ∀ sym ∈ symbols, fillsIn sym r.oms.store = []) : (start r).Inv symbols qty where
  restartable := hr.restartable
  process r' hr' := by
    cases hr'
    exact ⟨hr, rfl⟩
  once sym hsym := Or.inl (hnone sym hsym)
  done hc := absurd hc Bool.false_ne_true

/-- **A position is adopted exactly once**, wherever the process dies and however often it is
restarted, as long as the broker reports no fill of the symbol that is not recorded. -/
theorem adoptsOnce_run (hpos : ∀ sym ∈ symbols, 0 < qty sym) {r : Reconciler} (hr : r.oms.Sound)
    (hnone : ∀ sym ∈ symbols, fillsIn sym r.oms.store = []) {ops : List AdoptionOp}
    (hfits : Along (step cfg heartbeatTimeoutSecs) (Fits cfg symbols qty) (start r) ops)
    (hsettled : Along (step cfg heartbeatTimeoutSecs) (Settled symbols) (start r) ops)
    {pre : List AdoptionOp} (hpre : pre <+: ops) :
    (run (step cfg heartbeatTimeoutSecs) (start r) pre).AdoptsOnce symbols qty := by
  have hstep : ∀ (s : AdoptionRun) op, s.Inv symbols qty →
      s.Fits cfg symbols qty op ∧ s.Settled symbols op →
      (s.step cfg heartbeatTimeoutSecs op).Inv symbols qty :=
    fun s op hs hop => hs.step hpos hop.1 hop.2
  exact ((hfits.and hsettled).invariant_reached hstep (inv_start hr hnone) hpre).adoptsOnce hpos

end Runs

/-! ### Two runs -/

/-- A pass over a broker that holds ten shares and reports at most one order. The identifiers it
draws are those of one residue modulo three. -/
def holdingEnv (n : ℕ) (getOrder : OrderId → Option BrokerOrderStatus) : ReconcileEnv where
  getOrder := getOrder
  listPositions := some [Reconciler.orphanPosition]
  fillId _ := 8
  ghostIds sym := ⟨3 * Encodable.encode (sym.toList.map Char.toNat) + n, 0, n⟩
  ts := 3

theorem freshGhosts_holdingEnv {n : ℕ} (hn : n < 3) {getOrder : OrderId → Option BrokerOrderStatus}
    {oms : Oms} (hkeys : ∀ k ∈ oms.orders.keys, k % 3 ≠ n) :
    Reconciler.FreshGhosts (holdingEnv n getOrder) oms where
  notMem sym hc := hkeys _ hc ((Nat.mul_add_mod 3 _ n).trans (Nat.mod_eq_of_lt hn))
  injective sym sym' h := by
    have hchar : Function.Injective Char.toNat := fun c c' hc => Char.toNat_inj.mp hc
    have heq : Encodable.encode (sym.toList.map Char.toNat) =
        Encodable.encode (sym'.toList.map Char.toNat) :=
      Nat.eq_of_mul_eq_mul_left three_pos (Nat.add_right_cancel h)
    exact String.toList_injective
      (List.map_injective_iff.mpr hchar (Encodable.encode_injective heq))

/-- What such a pass finds at the broker. -/
theorem fits_holdingEnv {s : AdoptionRun} {n : ℕ} (hn : n < 3)
    {getOrder : OrderId → Option BrokerOrderStatus} {crash : Option ℕ}
    (hkeys : ∀ r ∈ s.process, ∀ k ∈ r.oms.orders.keys, k % 3 ≠ n) :
    s.Fits {} {"AAPL"} (fun _ => 10) (.pass (holdingEnv n getOrder) crash) := by
  intro r hr
  refine ⟨freshGhosts_holdingEnv hn (hkeys r hr), ?_⟩
  rintro positions ⟨⟩ sym rfl
  decide +kernel

/-- A broker that has no record of any order. -/
def noRecord : RecoveryEnv := ⟨fun _ => none, id, 0⟩

/-- The process dies before the fill is logged, then in the recovery, and then a pass runs to its
end, twice. -/
def crashingRun : List AdoptionOp :=
  [.pass (holdingEnv 0 fun _ => none) (some 2), .restart noRecord (some 1), .restart noRecord none,
    .pass (holdingEnv 1 fun _ => none) none, .pass (holdingEnv 2 fun _ => none) none]

theorem settled_holdingEnv {s : AdoptionRun} {n : ℕ} {crash : Option ℕ} :
    s.Settled {"AAPL"} (.pass (holdingEnv n fun _ => none) crash) := by
  refine fun r _ => ⟨?_, fun _ => Option.some_ne_none _⟩
  rintro sym - order - ⟨-, status, hstatus, -⟩
  exact absurd hstatus (Option.not_mem_none status)

theorem settled_noRecord {s : AdoptionRun} {crash : Option ℕ} :
    s.Settled {"AAPL"} (.restart noRecord crash) := by
  rintro r - sym - ⟨k, order, -, -, -, status, hstatus, -⟩
  exact Option.not_mem_none status hstatus

/-- Every crash leads to one purchase of ten shares. -/
theorem adoptsOnce_crashingRun :
    (run (step {} 120) (start (Reconciler.new 120)) crashingRun).AdoptsOnce {"AAPL"}
      fun _ => 10 := by
  have hsound : (Reconciler.new 120).oms.Sound :=
    Oms.sound_run (along_nil : Along Oms.step Oms.Fresh Oms.empty [])
  refine adoptsOnce_run (fun _ _ => by norm_num) hsound (fun _ _ => rfl) ?_ ?_ (List.prefix_refl _)
  · refine ⟨fits_holdingEnv (by decide) ?_, trivial, trivial, fits_holdingEnv (by decide) ?_,
      fits_holdingEnv (by decide) ?_, trivial⟩
    · decide +kernel
    · decide +kernel
    · decide +kernel
  · exact ⟨settled_holdingEnv, settled_noRecord, settled_noRecord, settled_holdingEnv,
      settled_holdingEnv, trivial⟩

/-- An order of ten shares that the broker has accepted; the fill has not been heard of. -/
def acceptedOrder : Reconciler :=
  { Reconciler.new 120 with
    oms := run Oms.step Oms.empty
      [.submitOrder (Oms.marketOrder 1 .buy 10) ⟨[], .returned "b-1"⟩ 0] }

/-- The broker's view of it: filled. -/
def tenFilled : BrokerOrderStatus where
  brokerOrderId := "b-1"
  clientOrderId := 1
  symbol := "AAPL"
  side := .buy
  qty := 10
  filledQty := 10
  avgFillPrice := some 100
  state := .filled
  submittedAt := 0
  updatedAt := 3

/-- A pass in which the broker cannot be asked about the order, and one in which it can. -/
def lateReportRun : List AdoptionOp :=
  [.pass (holdingEnv 0 fun _ => none) none,
    .pass (holdingEnv 2 fun k => if k = 1 then some tenFilled else none) none]

/-- **A position that is counted twice**: the first pass adopts the ten shares, the second records
the fill they came from. -/
theorem not_adoptsOnce_lateReportRun :
    acceptedOrder.oms.Sound ∧ fillsIn "AAPL" acceptedOrder.oms.store = [] ∧
      Along (step {} 120) (Fits {} {"AAPL"} fun _ => 10) (start acceptedOrder) lateReportRun ∧
      ¬(run (step {} 120) (start acceptedOrder) lateReportRun).AdoptsOnce {"AAPL"} fun _ => 10 := by
  have hfresh : Along Oms.step Oms.Fresh Oms.empty
      [.submitOrder (Oms.marketOrder 1 .buy 10) ⟨[], .returned "b-1"⟩ 0] := by decide +kernel
  refine ⟨Oms.sound_run hfresh, by decide +kernel,
    ⟨fits_holdingEnv (by decide) ?_, fits_holdingEnv (by decide) ?_, trivial⟩, fun h => ?_⟩
  · decide +kernel
  · decide +kernel
  · exact absurd (h.le "AAPL" rfl) (by decide +kernel)

end AdoptionRun

end TradingPlatform
