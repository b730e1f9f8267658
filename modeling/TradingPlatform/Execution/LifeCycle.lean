import TradingPlatform.Execution.OmsReplay

/-!
# The life cycle as it is published

A subscriber learns of an order's state from the changes of state that are published, one after
the other. Between any two moments the published changes lead the machine of an order, arc by
arc, from the state it was in to the state it is in (`TradingPlatform.Oms.Narrates`), and an
order is told about from its introduction on.

The invariant of a run is this relation itself, between the empty system and the present one.
That a terminal state is final is another instance of it: no arc leaves such a state, so a path
that starts there has no change in it.

An identifier is used for one order here (`TradingPlatform.Oms.Fresh`). Later files reuse the
condition, and the rule that carries an invariant from the handlers to the operations
(`TradingPlatform.Oms.invariant_of_fresh`).
-/

namespace TradingPlatform

/-! ### Paths in a table of arcs -/

namespace StateMachine

variable {σ ε : Type} [DecidableEq σ] [DecidableEq ε] {table : Dict (σ × ε) σ}

/-- Some event leads from the one state to the other. -/
def Arc (table : Dict (σ × ε) σ) (state toState : σ) : Prop :=
  ∃ event, table.get? (state, event) = some toState

/-- **A path**: each change is an arc, and starts where the one before it ended. -/
def Path (table : Dict (σ × ε) σ) : σ → List (σ × σ) → σ → Prop
  | state, [], toState => state = toState
  | state, change :: changes, toState =>
    change.1 = state ∧ Arc table change.1 change.2 ∧ Path table change.2 changes toState

theorem path_singleton {state toState : σ} (h : Arc table state toState) :
    Path table state [(state, toState)] toState := ⟨rfl, h, rfl⟩

theorem Path.append {s₁ s₂ s₃ : σ} {p q : List (σ × σ)} (h : Path table s₁ p s₂)
    (h' : Path table s₂ q s₃) : Path table s₁ (p ++ q) s₃ := by
  induction p generalizing s₁ with
  | nil =>
    obtain rfl : s₁ = s₂ := h
    exact h'
  | cons change p ih =>
    obtain ⟨hstate, harc, hrest⟩ := h
    exact ⟨hstate, harc, ih hrest⟩

/-- Every change of a path is an arc. -/
theorem Path.arc {state toState : σ} {p : List (σ × σ)} (h : Path table state p toState) :
    ∀ change ∈ p, Arc table change.1 change.2 := by
  induction p generalizing state with
  | nil => exact fun _ hmem => absurd hmem List.not_mem_nil
  | cons first p ih =>
    obtain ⟨-, harc, hrest⟩ := h
    intro change hmem
    rcases List.mem_cons.mp hmem with rfl | hmem
    · exact harc
    · exact ih hrest change hmem

/-- Every change of a path starts where the one before it ended. -/
theorem Path.isChain {state toState : σ} {p : List (σ × σ)} (h : Path table state p toState) :
    p.IsChain fun change next => next.1 = change.2 := by
  induction p generalizing state with
  | nil => exact .nil
  | cons first p ih =>
    obtain ⟨-, -, hrest⟩ := h
    cases p with
    | nil => exact .singleton _
    | cons second p => exact .cons_cons hrest.1 (ih hrest)

/-- No path leaves a state without an arc. -/
theorem Path.eq_of_no_arc {state toState : σ} {p : List (σ × σ)}
    (h : Path table state p toState) (hno : ∀ event, table.get? (state, event) = none) :
    toState = state := by
  cases p with
  | nil => exact h.symm
  | cons change p =>
    obtain ⟨hstate, ⟨event, harc⟩, -⟩ := h
    rw [hstate, hno event] at harc
    exact absurd harc.symm (Option.some_ne_none _)

/-- What a machine is asked for is a path: no change if there is no arc, else one. -/
theorem path_after (m : StateMachine table) (event : ε) :
    Path table m.state
      (if m.canTrigger event then [(m.state, (m.after event).state)] else [])
      (m.after event).state := by
  rw [state_after, canTrigger]
  rcases h : table.get? (m.state, event) with _ | toState
  · exact rfl
  · exact path_singleton ⟨event, h⟩

end StateMachine

/-- The change of state an event of the bus tells of an order. -/
def BusEvent.change? (k : OrderId) : BusEvent → Option (OrderState × OrderState)
  | .orderStateChanged orderId oldState newState _ =>
    if orderId = k then some (oldState, newState) else none
  | .orderPlaced _ | .fillReceived _ => none

namespace Oms

/-- The published changes of an order's state, oldest first. -/
def changes (s : Oms) (k : OrderId) : List (OrderState × OrderState) :=
  s.bus.filterMap (·.change? k)

/-- The state of an order's machine. -/
def fsmState? (s : Oms) (k : OrderId) : Option OrderState := (s.fsms.get? k).map (·.state)

/-- Some changes lead a machine from what it was to what it is. A machine that was not there
may have started in any state. -/
def Leads : Option OrderState → List (OrderState × OrderState) → Option OrderState → Prop
  | none, path, none => path = []
  | none, path, some toState => ∃ state, StateMachine.Path orderTable state path toState
  | some state, path, some toState => StateMachine.Path orderTable state path toState
  | some _, _, none => False

theorem leads_refl (state : Option OrderState) : Leads state [] state := by
  cases state with
  | none => exact rfl
  | some state => exact rfl

theorem Leads.append {o₁ o₂ o₃ : Option OrderState} {p q : List (OrderState × OrderState)}
    (h : Leads o₁ p o₂) (h' : Leads o₂ q o₃) : Leads o₁ (p ++ q) o₃ := by
  rcases o₂ with _ | state
  · rcases o₁ with _ | state₁
    · obtain rfl : p = [] := h
      exact h'
    · exact h.elim
  · rcases o₃ with _ | state₃
    · exact h'.elim
    · rcases o₁ with _ | state₁
      · obtain ⟨start, hp⟩ := h
        exact ⟨start, hp.append h'⟩
      · exact StateMachine.Path.append h h'

/-- **What is published tells what happened**: from one state to the other, the changes of each
order's state that were published lead from what its machine was to what it is. -/
structure Narrates (s s' : Oms) : Prop where
  told : ∀ k, ∃ path, s'.changes k = s.changes k ++ path ∧
    Leads (s.fsmState? k) path (s'.fsmState? k)

section Narrates

variable {s s' s'' : Oms}

theorem narrates_of_eq (hbus : s'.bus = s.bus) (hfsm : ∀ k, s'.fsmState? k = s.fsmState? k) :
    s.Narrates s' where
  told k := ⟨[], by rw [changes, hbus, List.append_nil, changes], by
    rw [hfsm]
    exact leads_refl _⟩

theorem Narrates.refl (s : Oms) : s.Narrates s := narrates_of_eq rfl fun _ => rfl

theorem Narrates.trans (h : s.Narrates s') (h' : s'.Narrates s'') : s.Narrates s'' where
  told k := by
    obtain ⟨path, heq, hleads⟩ := h.told k
    obtain ⟨path', heq', hleads'⟩ := h'.told k
    exact ⟨path ++ path', by rw [heq', heq, List.append_assoc], hleads.append hleads'⟩

/-- What neither publishes anything nor drives a machine. -/
theorem Narrates.congr (h : s.Narrates s') (hbus : s''.bus = s'.bus)
    (hfsms : s''.fsms = s'.fsms) : s.Narrates s'' :=
  h.trans (narrates_of_eq hbus fun k => by rw [fsmState?, hfsms, fsmState?])

/-- Publishing something else. -/
theorem Narrates.publish (h : s.Narrates s') {event : BusEvent}
    (hevent : ∀ k, event.change? k = none) : s.Narrates (s'.publish event) := by
  refine h.trans ⟨fun k => ⟨[], ?_, leads_refl _⟩⟩
  rw [List.append_nil, changes, changes, Oms.publish, List.filterMap_append,
    List.filterMap_cons_none (hevent k)]
  exact List.append_nil _

/-- **Driving a machine publishes the change, if there is one.** -/
theorem narrates_transition (s : Oms) (k : OrderId) (event : OrderEvent) (ts : Time) :
    s.Narrates (s.transition k event ts) := by
  unfold transition
  rcases hf : s.fsms.get? k with _ | fsm
  · exact Narrates.refl s
  have hpath := StateMachine.path_after fsm event
  dsimp only
  split_ifs with hc
  · rw [if_pos hc] at hpath
    refine ⟨fun k' => ?_⟩
    by_cases hk : k' = k
    · subst hk
      refine ⟨[(fsm.state, (fsm.after event).state)], ?_, ?_⟩
      · rw [changes, changes, List.filterMap_append]
        exact congrArg _ (List.filterMap_cons_some (if_pos rfl))
      · rw [fsmState?, fsmState?, hf, Dict.get?_set_self]
        exact hpath
    · refine ⟨[], ?_, ?_⟩
      · rw [changes, changes, List.filterMap_append]
        exact congrArg _ (List.filterMap_cons_none (if_neg (Ne.symm hk)))
      · rw [fsmState?, fsmState?, Dict.get?_set_of_ne _ hk]
        exact leads_refl _
  · exact Narrates.refl s

theorem Narrates.transition (h : s.Narrates s') (k : OrderId) (event : OrderEvent) (ts : Time) :
    s.Narrates (s'.transition k event ts) := h.trans (narrates_transition s' k event ts)

/-! ### The handlers -/

theorem Narrates.recordAccepted (h : s.Narrates s') (k : OrderId) (brokerOrderId : String)
    (ts : Time) : s.Narrates (s'.recordAccepted k brokerOrderId ts) := by
  unfold Oms.recordAccepted
  split
  · exact h
  · split_ifs
    · exact h
    · refine (h.congr ?_ ?_).transition k .accept ts
      · rfl
      · rfl

theorem Narrates.handleFill (h : s.Narrates s') (k : OrderId) (fill : Fill) (ts : Time) :
    s.Narrates (s'.handleFill k fill ts) := by
  unfold Oms.handleFill
  split
  · exact h
  · refine Narrates.publish (Narrates.transition (h.congr ?_ ?_) k _ ts) fun _ => rfl
    · rfl
    · rfl

theorem Narrates.handleClosing (h : s.Narrates s') (k : OrderId) (kind : EventKind)
    (update : Order → Order) (event : OrderEvent) (ts : Time) :
    s.Narrates (s'.handleClosing k kind update event ts) := by
  unfold Oms.handleClosing
  split
  · exact h
  · split_ifs
    · exact h
    · refine (h.congr ?_ ?_).transition k event ts
      · rfl
      · rfl

theorem narrates_onBrokerEvent (s : Oms) (event : BrokerOrderEvent) (now : Time) :
    s.Narrates (s.onBrokerEvent event now) := by
  have h := Narrates.refl s
  unfold onBrokerEvent
  dsimp only
  by_cases hk : event.clientOrderId ∈ s.orders.keys
  · rw [if_pos hk]
    cases event.newState with
    | accepted =>
      dsimp only
      split_ifs
      · exact h
      · exact h.recordAccepted _ _ _
    | partiallyFilled | filled =>
      cases event.fill with
      | none => exact h
      | some fill => exact h.handleFill _ _ _
    | canceled | rejected | expired => exact h.handleClosing _ _ _ _ _
    | new | unknown => exact h
  · rw [if_neg hk]
    exact h

theorem narrates_settleSubmit (s : Oms) (k : OrderId) (outcome : SubmitOutcome) (now : Time) :
    s.Narrates (s.settleSubmit k outcome now) := by
  have h := Narrates.refl s
  cases outcome with
  | rejected reason => exact h.handleClosing _ _ _ _ _
  | unavailable => exact h
  | returned brokerOrderId =>
    unfold settleSubmit
    dsimp only
    split_ifs
    · exact h
    · exact h.recordAccepted _ _ _

theorem narrates_requestCancel (s : Oms) (k : OrderId) (now : Time) :
    s.Narrates (s.requestCancel k now) := by
  have h := Narrates.refl s
  unfold requestCancel
  split
  · exact h
  · split_ifs
    · exact h
    · split
      · refine (h.congr ?_ ?_).transition k .cancel now
        · rfl
        · rfl
      · exact h.congr rfl rfl

theorem narrates_forceCloseFilled (s : Oms) (k : OrderId) (ts : Time) :
    s.Narrates (s.forceCloseFilled k ts) := by
  have h := Narrates.refl s
  unfold forceCloseFilled
  split
  · exact h
  · split_ifs
    · exact h
    · refine (h.congr ?_ ?_).transition k .fullFill ts
      · rfl
      · rfl

/-- A machine that starts under a new identifier, in whichever state, untold. -/
theorem narrates_of_started {k : OrderId} (hnew : s.fsms.get? k = none) (hbus : s'.bus = s.bus)
    {fsm : OrderFsm} (hfsms : ∀ k', s'.fsms.get? k' = if k' = k then some fsm else s.fsms.get? k') :
    s.Narrates s' where
  told k' := by
    refine ⟨[], by rw [changes, hbus, List.append_nil, changes], ?_⟩
    rw [fsmState?, fsmState?, hfsms]
    split_ifs with hk
    · rw [hk, hnew]
      exact ⟨fsm.state, rfl⟩
    · exact leads_refl _

theorem narrates_persistIntent (s : Oms) (order : Order) (hnew : s.fsms.get? order.id = none)
    (now : Time) : s.Narrates (s.persistIntent order now) := by
  let t : Oms := { s with
    orders := s.orders.set order.id order
    fsms := s.fsms.set order.id (buildOrderFsm .pending)
    fillsByOrder := s.fillsByOrder.set order.id []
    store := s.store ++ [⟨.orderSubmitIntent (serializeOrder order), order.id, now⟩] }
  have ht : s.Narrates t := narrates_of_started hnew rfl fun k' => Dict.get?_set _ _ _ _
  exact (ht.transition order.id .submit now).publish fun _ => rfl

/-- A synthetic order is told about from its fill on: the machine was driven to accepted without
a word. -/
theorem narrates_bookGhost (s : Oms) (ghost : Ghost) (hnew : s.fsms.get? ghost.ids.order = none) :
    s.Narrates (s.bookGhost ghost) := by
  unfold bookGhost
  refine Narrates.handleFill ?_ _ _ _
  have hfsms : ∀ k', (((s.fsms.set ghost.ids.order (buildOrderFsm .pending)).modify
      ghost.ids.order fun fsm => fsm.after .submit).modify ghost.ids.order fun fsm =>
        fsm.after .accept).get? k' =
      if k' = ghost.ids.order then some (((buildOrderFsm .pending).after .submit).after .accept)
      else s.fsms.get? k' := by
    intro k'
    by_cases hk : k' = ghost.ids.order <;> simp [hk]
  exact narrates_of_started hnew rfl hfsms

end Narrates

/-! ### Identifiers that are used once -/

/-- A handler that introduces an order does so under a new identifier. -/
def FreshHandler (s : Oms) : Handler → Prop
  | .persistIntent order _ => order.id ∉ s.orders.keys
  | .bookGhost ghost => ghost.ids.order ∉ s.orders.keys
  | .settleSubmit .. | .requestCancel .. | .forceCloseFilled .. | .brokerEvent .. => True

/-- **An operation that introduces an order does so under a new identifier.** -/
def Fresh (s : Oms) : OmsOp → Prop
  | .submitOrder order _ _ => order.id ∉ s.orders.keys
  | .adoptOrphanPosition ids .. | .bookFeeOffset ids .. => ids.order ∉ s.orders.keys
  | .cancelOrder .. | .forceCloseFilled .. | .brokerEvent .. => True

instance (s : Oms) : (op : OmsOp) → Decidable (s.Fresh op)
  | .submitOrder order _ _ => inferInstanceAs (Decidable (order.id ∉ s.orders.keys))
  | .adoptOrphanPosition ids .. | .bookFeeOffset ids .. =>
    inferInstanceAs (Decidable (ids.order ∉ s.orders.keys))
  | .cancelOrder .. | .forceCloseFilled .. | .brokerEvent .. => isTrue trivial

/-- Only the first handler of an operation introduces an order. -/
theorem Fresh.along {s : Oms} {op : OmsOp} (h : s.Fresh op) :
    Along handle FreshHandler s (s.handlers op) := by
  have hevents : ∀ (s : Oms) (events : List BrokerOrderEvent) now,
      Along handle FreshHandler s (events.map (.brokerEvent · now)) := by
    intro s events now
    induction events generalizing s with
    | nil => trivial
    | cons event events ih => exact ⟨trivial, ih _⟩
  cases op with
  | submitOrder order call now =>
    rw [handlers]
    split_ifs
    · exact ⟨h, along_append.mpr ⟨hevents _ _ _, trivial, trivial⟩⟩
    · trivial
  | cancelOrder orderId call now =>
    rw [handlers]
    split
    · trivial
    · split_ifs
      · exact ⟨trivial, trivial⟩
      · exact ⟨trivial, hevents _ _ _⟩
  | forceCloseFilled orderId ts => exact ⟨trivial, trivial⟩
  | adoptOrphanPosition ids symbol qty price agentId ts => exact ⟨h, trivial⟩
  | bookFeeOffset ids symbol qty price agentId ts => exact ⟨h, trivial⟩
  | brokerEvent event now => exact ⟨trivial, trivial⟩

/-- **From handlers to runs**: what every handler keeps that introduces orders under new
identifiers only, every run keeps that does. -/
theorem invariant_of_fresh (Inv : Oms → Prop)
    (hhandle : ∀ s h, Inv s → s.FreshHandler h → Inv (s.handle h)) {s : Oms} (hs : Inv s)
    {ops : List OmsOp} (hops : Along step Fresh s ops) : Inv (run step s ops) := by
  refine hops.invariant (fun s op hs hop => ?_) hs
  rw [step_eq_run]
  exact hop.along.invariant hhandle hs

theorem get?_fsms_of_fresh {s : Oms} (hs : s.Keyed) {k : OrderId} (h : k ∉ s.orders.keys) :
    s.fsms.get? k = none := by
  rw [← Option.isNone_iff_eq_none, ← Option.isSome_eq_false_iff, hs.fsms_isSome,
    Dict.get?_eq_none_iff.mpr h]
  rfl

theorem narrates_handle {s : Oms} (hs : s.Keyed) {h : Handler} (hh : s.FreshHandler h) :
    s.Narrates (s.handle h) := by
  cases h with
  | persistIntent order now =>
    rw [handle]
    split_ifs
    · exact narrates_persistIntent s order (get?_fsms_of_fresh hs hh) now
    · exact Narrates.refl s
  | settleSubmit orderId outcome now => exact narrates_settleSubmit _ _ _ _
  | requestCancel orderId now => exact narrates_requestCancel _ _ _
  | forceCloseFilled orderId ts => exact narrates_forceCloseFilled _ _ _
  | bookGhost ghost => exact narrates_bookGhost _ _ (get?_fsms_of_fresh hs hh)
  | brokerEvent event now => exact narrates_onBrokerEvent _ _ _

/-- **A run tells what happened in it.** -/
theorem narrates_run {s : Oms} (hs : s.WellFormed) {ops : List OmsOp}
    (hops : Along step Fresh s ops) : s.Narrates (run step s ops) := by
  refine (invariant_of_fresh (fun s' => s'.WellFormed ∧ s.Narrates s') ?_
    ⟨hs, Narrates.refl s⟩ hops).2
  rintro s' h ⟨hs', hn⟩ hh
  exact ⟨hs'.handle h, hn.trans (narrates_handle hs'.toKeyed hh)⟩

/-- A terminal state is final. -/
theorem Narrates.eq_of_terminal {s s' : Oms} (h : s.Narrates s') {k : OrderId}
    {state : OrderState} (hstate : s.fsmState? k = some state) (ht : state.Terminal) :
    s'.fsmState? k = some state := by
  obtain ⟨path, -, hleads⟩ := h.told k
  rw [hstate] at hleads
  rcases hstate' : s'.fsmState? k with _ | state'
  · rw [hstate'] at hleads
    exact hleads.elim
  · rw [hstate'] at hleads
    exact congrArg some (StateMachine.Path.eq_of_no_arc hleads (orderTable_get?_of_terminal ht))

/-- In the live system the state of an order is the state of its machine. -/
theorem WellFormed.map_state {s : Oms} (hs : s.WellFormed) (k : OrderId) :
    (s.orders.get? k).map (·.state) = s.fsmState? k := by
  rcases ho : s.orders.get? k with _ | order
  · rw [fsmState?, get?_fsms_of_fresh hs.toKeyed (Dict.get?_eq_none_iff.mp ho)]
    rfl
  · obtain ⟨fsm, hf, hstate⟩ := hs.exists_fsm ho
    rw [fsmState?, hf, Option.map_some, Option.map_some, hstate]

/-- **The published life cycle is the machine's.** After any run under distinct identifiers an
order is in the state of its machine; a terminal state stays, whatever comes after; and the
published changes of an order form a chain of arcs. -/
theorem lifeCycle_run {ops : List OmsOp} (hops : Along step Fresh Oms.empty ops) :
    (∀ k, ((run step Oms.empty ops).orders.get? k).map (·.state) =
        (run step Oms.empty ops).fsmState? k) ∧
      (∀ k state, ((run step Oms.empty ops).orders.get? k).map (·.state) = some state →
        state.Terminal → ∀ later, Along step Fresh (run step Oms.empty ops) later →
          ((run step (run step Oms.empty ops) later).orders.get? k).map (·.state) = some state) ∧
      ∀ k, ((run step Oms.empty ops).changes k).IsChain (fun change next => next.1 = change.2) ∧
        ∀ change ∈ (run step Oms.empty ops).changes k,
          StateMachine.Arc orderTable change.1 change.2 := by
  have hs : (run step Oms.empty ops).WellFormed := WellFormed.empty.run ops
  have hpath : ∀ k, ∃ state toState, StateMachine.Path orderTable state
      ((run step Oms.empty ops).changes k) toState := by
    intro k
    obtain ⟨path, heq, hleads⟩ := (narrates_run WellFormed.empty hops).told k
    rw [show Oms.empty.changes k = [] from rfl, List.nil_append] at heq
    rw [heq]
    rcases h : (run step Oms.empty ops).fsmState? k with _ | toState
    · rw [h] at hleads
      obtain rfl : path = [] := hleads
      exact ⟨.pending, .pending, rfl⟩
    · rw [h] at hleads
      obtain ⟨state, hp⟩ := hleads
      exact ⟨state, toState, hp⟩
  refine ⟨hs.map_state, fun k state hstate ht later hlater => ?_, fun k => ?_⟩
  · rw [(hs.run later).map_state]
    rw [hs.map_state] at hstate
    exact (narrates_run hs hlater).eq_of_terminal hstate ht
  · obtain ⟨state, toState, hp⟩ := hpath k
    exact ⟨hp.isChain, hp.arc⟩

/-- The order that was filled in two parts was told about in four changes. -/
theorem isChain_changes_quietRun :
    ((run step Oms.empty quietRun).changes 1).length = 4 ∧
      ((run step Oms.empty quietRun).changes 1).IsChain fun change next => next.1 = change.2 :=
  ⟨by decide +kernel, ((lifeCycle_run (by decide +kernel)).2.2 1).1⟩

end Oms

end TradingPlatform
