import TradingPlatform.Execution.Cancellation

/-!
# Submitting again

A submission that fails with an unavailable broker may be tried again: the broker knows the
order by its identifier and answers with the order it has. In between, or during the calls, the
broker may report that it accepted the order, and executions of it.

A second submission starts the order anew – its state, its machine, and its list of fills – but
not the map from the broker's identifiers, by which an acceptance counts as recorded. So what
the broker reported before the second call is lost, and an acceptance it reported keeps the
second call from recording it: `TradingPlatform.Oms.retried_iff` says that a retry does its work
exactly when nothing was reported before it.
-/

namespace TradingPlatform

/-- The state of an order the broker has accepted, and more. -/
def OrderState.AtLeastAccepted (state : OrderState) : Prop :=
  state = .accepted ∨ state = .partiallyFilled ∨ state = .filled

instance : DecidablePred OrderState.AtLeastAccepted := fun _ =>
  inferInstanceAs (Decidable (_ ∨ _))

namespace BrokerOrderEvent

def IsAcceptance (event : BrokerOrderEvent) : Prop := event.newState = .accepted

instance : DecidablePred IsAcceptance := fun _ => inferInstanceAs (Decidable (_ = _))

/-- The execution an event reports, if it reports one. -/
def execution? (event : BrokerOrderEvent) : Option Fill :=
  match event.newState with
  | .partiallyFilled | .filled => event.fill
  | _ => none

/-- An acceptance of an order under a broker identifier, or an execution of it. -/
def Reports (event : BrokerOrderEvent) (order : Order) (brokerOrderId : String) : Prop :=
  event.clientOrderId = order.id ∧
    (event.IsAcceptance ∧ event.brokerOrderId = brokerOrderId ∨ event.newState = .partiallyFilled ∨
      event.newState = .filled)

instance (event : BrokerOrderEvent) (order : Order) (brokerOrderId : String) :
    Decidable (event.Reports order brokerOrderId) :=
  inferInstanceAs (Decidable (_ ∧ _))

end BrokerOrderEvent

namespace Oms

/-- **What the system holds of an order that is being submitted**: whether an acceptance is
noted in the map of broker identifiers, whether it is noted on the order, and the fills. -/
structure Carries (s : Oms) (order : Order) (brokerOrderId : String) (noted accepted : Prop)
    (fills : List Fill) : Prop where
  wellFormed : s.WellFormed
  id_noted : brokerOrderId ∈ s.brokerIdToOrder.keys ↔ noted
  order_noted : order.id ∈ s.brokerIdToOrder.values ↔ noted
  noted_of_accepted : accepted → noted
  exists_order : ∃ o, s.orders.get? order.id = some o ∧ o.agentId = order.agentId ∧
    o.symbol = order.symbol ∧ (o.brokerOrderId = some brokerOrderId ↔ accepted) ∧
    (o.state = .submitted ∨ o.state.AtLeastAccepted) ∧ (accepted → o.state.AtLeastAccepted)
  getFills : s.getFills order.id = fills

section

variable {s : Oms} {order : Order} {brokerOrderId : String} {noted accepted : Prop}
  {fills : List Fill}

@[simp] theorem brokerIdToOrder_transition (s : Oms) (k : OrderId) (event : OrderEvent)
    (ts : Time) : (s.transition k event ts).brokerIdToOrder = s.brokerIdToOrder := by
  unfold transition
  split
  · rfl
  · split <;> rfl

/-- An acceptance or an execution leaves an order that is being submitted in such a state. -/
theorem atLeastAccepted_moved {o : Order} {fsm : OrderFsm} {event : OrderEvent}
    (hevent : event.target.AtLeastAccepted) :
    (o.state.AtLeastAccepted → (o.moved fsm event).state.AtLeastAccepted) ∧
      (o.state = .submitted ∨ o.state.AtLeastAccepted →
        (o.moved fsm event).state = .submitted ∨ (o.moved fsm event).state.AtLeastAccepted) := by
  rcases state_moved o fsm event with h | h
  · rw [h]
    exact ⟨id, id⟩
  · rw [h]
    exact ⟨fun _ => hevent, fun _ => Or.inr hevent⟩

theorem target_fillEvent (order : Order) (fill : Fill) :
    (order.fillEvent fill).target.AtLeastAccepted := by
  rw [Order.fillEvent]
  split_ifs <;> decide

/-- An execution is added to the fills of the order. -/
theorem Carries.handleFill (h : s.Carries order brokerOrderId noted accepted fills) (fill : Fill)
    (ts : Time) :
    (s.handleFill order.id fill ts).Carries order brokerOrderId noted accepted
      (fills ++ [fill.correctedFor order]) := by
  obtain ⟨o, ho, hagent, hsymbol, hid, hstate, hacc⟩ := h.exists_order
  obtain ⟨fsm, hf⟩ := h.wellFormed.toKeyed.exists_fsm ho
  have hadv := handleFill_advances ho hf fill ts
  have hcorrected : fill.correctedFor o = fill.correctedFor order := by
    rw [Fill.correctedFor, hagent, hsymbol, Fill.correctedFor]
  rw [hcorrected] at hadv
  have hids : (s.handleFill order.id fill ts).brokerIdToOrder = s.brokerIdToOrder := by
    rw [Oms.handleFill, ho]
    exact brokerIdToOrder_transition _ _ _ _
  have hmoved := @atLeastAccepted_moved (o.bookFill (fill.correctedFor order) ts) fsm _
    (target_fillEvent o (fill.correctedFor order))
  have hsame := (o.bookFill (fill.correctedFor order) ts).sameTrade_moved fsm
    (o.fillEvent (fill.correctedFor order))
  refine ⟨h.wellFormed.handleFill _ _ _, hids ▸ h.id_noted, hids ▸ h.order_noted,
    h.noted_of_accepted, ⟨(o.bookFill (fill.correctedFor order) ts).moved fsm
      (o.fillEvent (fill.correctedFor order)), ?_, hsame.agentId.trans hagent,
      hsame.symbol.trans hsymbol, (Order.brokerOrderId_moved _ _ _).symm ▸ hid, hmoved.2 hstate,
      fun ha => hmoved.1 (hacc ha)⟩, ?_⟩
  · exact (hadv.orders _).trans (if_pos rfl)
  · obtain ⟨old, hold⟩ := h.wellFormed.toKeyed.exists_fills ho
    have hfills := h.getFills
    rw [Oms.getFills, hold] at hfills
    have hget := hadv.fills order.id
    rw [if_pos rfl, hold] at hget
    rw [Oms.getFills, hget, ← hfills]
    rfl

/-- An acceptance that is not noted yet is noted. -/
theorem Carries.recordAccepted (h : s.Carries order brokerOrderId noted accepted fills)
    (hnot : ¬noted) (ts : Time) :
    (s.recordAccepted order.id brokerOrderId ts).Carries order brokerOrderId True True fills := by
  obtain ⟨o, ho, hagent, hsymbol, hid, hstate, hacc⟩ := h.exists_order
  obtain ⟨fsm, hf, hfsm⟩ := h.wellFormed.exists_fsm ho
  have hne : o.brokerOrderId ≠ some brokerOrderId := fun hb =>
    hnot (h.noted_of_accepted (hid.mp hb))
  have hadv := recordAccepted_advances ho hf hne ts
  have hids : (s.recordAccepted order.id brokerOrderId ts).brokerIdToOrder =
      s.brokerIdToOrder.set brokerOrderId order.id := by
    rw [Oms.recordAccepted, ho]
    dsimp only
    rw [if_neg hne]
    exact brokerIdToOrder_transition _ _ _ _
  let o' : Order := { o with brokerOrderId := some brokerOrderId, submittedAt := some ts }
  have hacc' : (o'.moved fsm .accept).state.AtLeastAccepted := by
    rw [Order.moved_eq (show fsm.state = o'.state from hfsm)]
    change (fsm.after .accept).state.AtLeastAccepted
    rw [StateMachine.state_after, hfsm]
    rcases hstate with hst | hst | hst | hst <;> rw [hst] <;> decide
  have hsame := o'.sameTrade_moved fsm .accept
  refine ⟨(quiet_recordAccepted h.wellFormed.toKeyed _ _ _).wellFormed h.wellFormed, ?_, ?_,
    fun _ => trivial, ⟨o'.moved fsm .accept, ?_, hsame.agentId.trans hagent,
      hsame.symbol.trans hsymbol, iff_of_true (Order.brokerOrderId_moved _ _ _) trivial,
      Or.inr hacc', fun _ => hacc'⟩, ?_⟩
  · rw [hids]
    exact iff_of_true (Dict.mem_keys_set.mpr (Or.inl rfl)) trivial
  · rw [hids]
    exact iff_of_true (Dict.mem_values_of_get? (Dict.get?_set_self _ _ _)) trivial
  · exact (hadv.orders _).trans (if_pos rfl)
  · have hget := hadv.fills order.id
    rw [if_pos rfl] at hget
    rw [← h.getFills, Oms.getFills, hget, Oms.getFills]
    rcases s.fillsByOrder.get? order.id with _ | old <;> simp

theorem Carries.congr (h : s.Carries order brokerOrderId noted accepted fills)
    {noted' accepted' : Prop} {fills' : List Fill} (hn : noted ↔ noted')
    (ha : accepted ↔ accepted') (hf : fills = fills') :
    s.Carries order brokerOrderId noted' accepted' fills' :=
  hf ▸ propext hn ▸ propext ha ▸ h

/-- **What an event about the order does**: an acceptance is noted unless one is, an execution
is recorded. -/
theorem Carries.onBrokerEvent (h : s.Carries order brokerOrderId noted accepted fills)
    {event : BrokerOrderEvent} (hevent : event.Reports order brokerOrderId) (now : Time) :
    (s.onBrokerEvent event now).Carries order brokerOrderId (noted ∨ event.IsAcceptance)
      (accepted ∨ ¬noted ∧ event.IsAcceptance)
      (fills ++ (event.execution?.map (·.correctedFor order)).toList) := by
  obtain ⟨hclient, hkind⟩ := hevent
  have hk : event.clientOrderId ∈ s.orders.keys := by
    obtain ⟨o, ho, -⟩ := h.exists_order
    exact hclient ▸ Dict.mem_keys_of_get? ho
  rw [Oms.onBrokerEvent, if_pos hk, BrokerOrderEvent.IsAcceptance, BrokerOrderEvent.execution?]
  cases hst : event.newState with
  | accepted =>
    have hid : event.brokerOrderId = brokerOrderId := by
      rcases hkind with ⟨-, hid⟩ | hfill | hfill
      · exact hid
      · exact BrokerOrderState.noConfusion (hst.symm.trans hfill)
      · exact BrokerOrderState.noConfusion (hst.symm.trans hfill)
    dsimp only
    rw [hclient, hid]
    by_cases hn : noted
    · rw [if_pos (h.order_noted.mpr hn)]
      exact h.congr (by simp [hn]) (by simp [hn]) (by simp)
    · rw [if_neg fun hc => hn (h.order_noted.mp hc)]
      exact (h.recordAccepted hn _).congr (by simp) (by simp [hn]) (by simp)
  | partiallyFilled | filled =>
    dsimp only
    rcases event.fill with _ | fill
    · exact h.congr (by simp) (by simp) (by simp)
    · rw [hclient]
      exact (h.handleFill fill _).congr (by simp) (by simp) (by simp)
  | new | canceled | rejected | expired | unknown =>
    rcases hkind with ⟨hacc, -⟩ | hfill | hfill
    · exact BrokerOrderState.noConfusion (hst.symm.trans hacc)
    · exact BrokerOrderState.noConfusion (hst.symm.trans hfill)
    · exact BrokerOrderState.noConfusion (hst.symm.trans hfill)

end

/-- Events the broker delivers, each at its time. -/
def deliver (s : Oms) (events : List (BrokerOrderEvent × Time)) : Oms :=
  run (fun s event => s.onBrokerEvent event.1 event.2) s events

theorem onBrokerEvents_eq_deliver (s : Oms) (events : List BrokerOrderEvent) (now : Time) :
    s.onBrokerEvents events now = s.deliver (events.map (·, now)) := by
  rw [deliver, run, List.foldl_map]
  rfl

/-- The executions some events report, as the system records them. -/
def executions (order : Order) (events : List BrokerOrderEvent) : List Fill :=
  events.filterMap fun event => event.execution?.map (·.correctedFor order)

section

variable {s : Oms} {order : Order} {brokerOrderId : String} {noted accepted : Prop}
  {fills : List Fill}

theorem executions_cons (order : Order) (event : BrokerOrderEvent)
    (events : List BrokerOrderEvent) : executions order (event :: events) =
      (event.execution?.map (·.correctedFor order)).toList ++ executions order events := by
  rw [executions, List.filterMap_cons]
  rcases event.execution? with _ | fill <;> rfl

theorem executions_append (order : Order) (events events' : List BrokerOrderEvent) :
    executions order (events ++ events') = executions order events ++ executions order events' :=
  List.filterMap_append

/-- What a delivery does. -/
theorem Carries.deliver (h : s.Carries order brokerOrderId noted accepted fills)
    {events : List (BrokerOrderEvent × Time)}
    (hevents : ∀ event ∈ events.map Prod.fst, event.Reports order brokerOrderId) :
    (s.deliver events).Carries order brokerOrderId
      (noted ∨ ∃ event ∈ events.map Prod.fst, event.IsAcceptance)
      (accepted ∨ ¬noted ∧ ∃ event ∈ events.map Prod.fst, event.IsAcceptance)
      (fills ++ executions order (events.map Prod.fst)) := by
  induction events generalizing s noted accepted fills with
  | nil => exact h.congr (by simp) (by simp) (by simp [executions])
  | cons event events ih =>
    have hhead := h.onBrokerEvent (hevents event.1 List.mem_cons_self) event.2
    refine (ih hhead fun e he => hevents e (List.mem_cons_of_mem _ he)).congr ?_ ?_ ?_
    · simp only [List.map_cons, List.exists_mem_cons_iff, or_assoc]
    · simp only [List.map_cons, List.exists_mem_cons_iff]
      tauto
    · rw [List.map_cons, executions_cons, List.append_assoc]

/-- **A submission starts the order anew**, except for what is noted. -/
theorem carries_persistIntent (hs : s.WellFormed) (hp : order.state = .pending)
    (hfresh : order.brokerOrderId = none)
    (hnoted : (brokerOrderId ∈ s.brokerIdToOrder.keys ↔ noted) ∧
      (order.id ∈ s.brokerIdToOrder.values ↔ noted)) (now : Time) :
    (s.persistIntent order now).Carries order brokerOrderId noted False [] := by
  have hint := persistIntent_introduces s hp now
  have hids : (s.persistIntent order now).brokerIdToOrder = s.brokerIdToOrder :=
    brokerIdToOrder_transition _ _ _ _
  refine ⟨hint.wellFormed hs, hids ▸ hnoted.1, hids ▸ hnoted.2, False.elim,
    ⟨_, hint.get?_self, rfl, rfl, ?_, Or.inl rfl, False.elim⟩, ?_⟩
  · rw [hfresh]
    exact iff_of_false (by rintro ⟨⟩) id
  · rw [getFills, hint.fills, if_pos rfl]
    rfl

end

/-! ### A retry -/

/-- A submission that fails: what the broker reports during the call, and what it reports until
the next one. -/
structure Attempt where
  callbacks : List BrokerOrderEvent
  now : Time
  later : List (BrokerOrderEvent × Time)

/-- Everything the broker reports from a failed submission to the next one. -/
def Attempt.reports (attempt : Attempt) : List BrokerOrderEvent :=
  attempt.callbacks ++ attempt.later.map Prod.fst

/-- A submission fails, and the broker goes on reporting. -/
def fail (order : Order) (s : Oms) (attempt : Attempt) : Oms :=
  (s.submitOrder order ⟨attempt.callbacks, .unavailable⟩ attempt.now).1.deliver attempt.later

/-- **A retry does its work**: it loses no recorded fill, the order carries the broker's
identifier and is accepted, and the fills are the executions that were reported. -/
structure Retried (before after : Oms) (order : Order) (brokerOrderId : String)
    (reports : List BrokerOrderEvent) : Prop where
  keeps : ∀ fill ∈ before.getFills order.id, fill ∈ after.getFills order.id
  accepted : ∃ o, after.orders.get? order.id = some o ∧ o.brokerOrderId = some brokerOrderId ∧
    o.state.AtLeastAccepted
  complete : after.getFills order.id = executions order reports

section

variable {s : Oms} {order : Order} {brokerOrderId : String} {noted : Prop}

/-- What a submission does to the order, up to the broker's answer. -/
theorem carries_callbacks (hs : s.WellFormed) (hp : order.state = .pending)
    (hfresh : order.brokerOrderId = none)
    (hnoted : (brokerOrderId ∈ s.brokerIdToOrder.keys ↔ noted) ∧
      (order.id ∈ s.brokerIdToOrder.values ↔ noted)) {callbacks : List BrokerOrderEvent}
    (hreports : ∀ event ∈ callbacks, event.Reports order brokerOrderId) (now : Time) :
    ((s.persistIntent order now).onBrokerEvents callbacks now).Carries order brokerOrderId
      (noted ∨ ∃ event ∈ callbacks, event.IsAcceptance)
      (¬noted ∧ ∃ event ∈ callbacks, event.IsAcceptance) (executions order callbacks) := by
  have hfst : (callbacks.map (·, now)).map Prod.fst = callbacks := by simp [Function.comp_def]
  have h := @Carries.deliver _ _ _ _ _ _ (carries_persistIntent hs hp hfresh hnoted now)
    (callbacks.map (·, now)) (by rwa [hfst])
  rw [hfst, ← onBrokerEvents_eq_deliver] at h
  exact h.congr Iff.rfl (by simp) (List.nil_append _)

theorem carries_fail (hs : s.WellFormed) (hp : order.state = .pending)
    (hfresh : order.brokerOrderId = none)
    (hnoted : (brokerOrderId ∈ s.brokerIdToOrder.keys ↔ noted) ∧
      (order.id ∈ s.brokerIdToOrder.values ↔ noted)) {attempt : Attempt}
    (hreports : ∀ event ∈ attempt.reports, event.Reports order brokerOrderId) :
    ∃ accepted, (fail order s attempt).Carries order brokerOrderId
      (noted ∨ ∃ event ∈ attempt.reports, event.IsAcceptance) accepted
      (executions order attempt.reports) := by
  have hsubmit : (s.submitOrder order ⟨attempt.callbacks, .unavailable⟩ attempt.now).1 =
      (s.persistIntent order attempt.now).onBrokerEvents attempt.callbacks attempt.now := by
    rw [submitOrder, if_pos hp]
    rfl
  have h := (carries_callbacks hs hp hfresh hnoted
    (fun event he => hreports event (List.mem_append_left _ he)) attempt.now).deliver
    fun event he => hreports event (List.mem_append_right _ he)
  rw [← hsubmit] at h
  refine ⟨_, h.congr ?_ Iff.rfl (executions_append _ _ _).symm⟩
  simp only [Attempt.reports, List.mem_append, or_and_right, exists_or, or_assoc]

/-- What a number of failed submissions leaves: what was noted in any of them, and the fills of
the last one. -/
theorem carries_run_fail (hs : s.WellFormed) (hp : order.state = .pending)
    (hfresh : order.brokerOrderId = none)
    (hnoted : (brokerOrderId ∈ s.brokerIdToOrder.keys ↔ noted) ∧
      (order.id ∈ s.brokerIdToOrder.values ↔ noted)) {attempts : List Attempt}
    (hne : attempts ≠ [])
    (hreports : ∀ event ∈ attempts.flatMap Attempt.reports, event.Reports order brokerOrderId) :
    ∃ accepted fills, (run (fail order) s attempts).Carries order brokerOrderId
        (noted ∨ ∃ event ∈ attempts.flatMap Attempt.reports, event.IsAcceptance) accepted fills ∧
      ∀ fill ∈ fills, fill ∈ executions order (attempts.flatMap Attempt.reports) := by
  induction attempts generalizing s noted with
  | nil => exact absurd rfl hne
  | cons attempt attempts ih =>
    obtain ⟨accepted, h⟩ := carries_fail hs hp hfresh hnoted fun event he =>
      hreports event (List.mem_flatMap.mpr ⟨attempt, List.mem_cons_self, he⟩)
    rw [run_cons]
    rcases attempts with _ | ⟨next, attempts⟩
    · refine ⟨accepted, _, h.congr ?_ Iff.rfl rfl, ?_⟩ <;>
        simp only [List.flatMap_cons, List.flatMap_nil, List.append_nil, imp_self, implies_true]
    · obtain ⟨accepted', fills, h', hfills⟩ := ih h.wellFormed ⟨h.id_noted, h.order_noted⟩
        (List.cons_ne_nil _ _) fun event he => hreports event (by
          rw [List.flatMap_cons]
          exact List.mem_append_right _ he)
      refine ⟨accepted', fills, h'.congr ?_ Iff.rfl rfl, fun fill hfill => ?_⟩
      · simp only [List.flatMap_cons (x := attempt), List.mem_append, or_and_right, exists_or,
          or_assoc]
      · rw [List.flatMap_cons, executions_append]
        exact List.mem_append_right _ (hfills fill hfill)

theorem executions_eq_nil_iff {events : List BrokerOrderEvent} :
    executions order events = [] ↔ ∀ event ∈ events, event.execution? = none := by
  rw [executions, List.filterMap_eq_nil_iff]
  simp only [Option.map_eq_none_iff]

/-- **A retry does its work exactly when the broker reported nothing before it.** For every
system, order and broker identifier, any number of failed submissions, whatever acceptances and
executions the broker reports during the calls and between them. -/
theorem retried_iff (hs : s.WellFormed) (hp : order.state = .pending)
    (hfresh : order.brokerOrderId = none) (hid : brokerOrderId ∉ s.brokerIdToOrder.keys)
    (horder : order.id ∉ s.brokerIdToOrder.values) {attempts : List Attempt} (hne : attempts ≠ [])
    {callbacks : List BrokerOrderEvent} (hreports : ∀ event ∈
      attempts.flatMap Attempt.reports ++ callbacks, event.Reports order brokerOrderId)
    (now : Time) :
    Retried (run (fail order) s attempts)
        ((run (fail order) s attempts).submitOrder order ⟨callbacks, .returned brokerOrderId⟩
          now).1
        order brokerOrderId (attempts.flatMap Attempt.reports ++ callbacks) ↔
      ∀ event ∈ attempts.flatMap Attempt.reports,
        ¬event.IsAcceptance ∧ event.execution? = none := by
  obtain ⟨accepted, fills, hbefore, hfills⟩ := carries_run_fail hs hp hfresh
    ⟨iff_of_false hid id, iff_of_false horder id⟩ hne
    fun event he => hreports event (List.mem_append_left _ he)
  set before := run (fail order) s attempts
  have hmid := carries_callbacks hbefore.wellFormed hp hfresh
    ⟨hbefore.id_noted, hbefore.order_noted⟩
    (fun event he => hreports event (List.mem_append_right _ he)) now
  have hsubmit : (before.submitOrder order ⟨callbacks, .returned brokerOrderId⟩ now).1 =
      ((before.persistIntent order now).onBrokerEvents callbacks now).settleSubmit order.id
        (.returned brokerOrderId) now := by
    rw [submitOrder, if_pos hp]
  -- the second call records the acceptance unless it was noted before
  obtain ⟨noted', hafter⟩ : ∃ noted', (before.submitOrder order
      ⟨callbacks, .returned brokerOrderId⟩ now).1.Carries order brokerOrderId noted'
        (¬∃ event ∈ attempts.flatMap Attempt.reports, event.IsAcceptance)
        (executions order callbacks) := by
    rw [hsubmit, settleSubmit]
    split_ifs with hkeys
    · have hn := hmid.id_noted.mp hkeys
      refine ⟨_, hmid.congr Iff.rfl ⟨fun h hc => h.1 (Or.inr hc), fun h => ?_⟩ rfl⟩
      have hnot : ¬(False ∨ ∃ event ∈ attempts.flatMap Attempt.reports, event.IsAcceptance) :=
        fun hc => h (hc.resolve_left id)
      exact ⟨hnot, hn.resolve_left hnot⟩
    · have hn := fun hc => hkeys (hmid.id_noted.mpr hc)
      refine ⟨True, (hmid.recordAccepted hn now).congr Iff.rfl (iff_of_true trivial ?_) rfl⟩
      exact fun hc => hn (Or.inl (Or.inr hc))
  obtain ⟨o, ho, -, -, hbroker, -, hstate⟩ := hafter.exists_order
  constructor
  · intro hretried event he
    obtain ⟨o', ho', hbroker', -⟩ := hretried.accepted
    obtain rfl := Option.some.inj (ho.symm.trans ho')
    have hnil := hretried.complete
    rw [hafter.getFills, executions_append] at hnil
    have hnil := executions_eq_nil_iff.mp (List.self_eq_append_left.mp hnil)
    exact ⟨fun hacc => hbroker.mp hbroker' ⟨event, he, hacc⟩, hnil event he⟩
  · intro hsilent
    have hnil : executions order (attempts.flatMap Attempt.reports) = [] :=
      executions_eq_nil_iff.mpr fun event he => (hsilent event he).2
    have hnone : ¬∃ event ∈ attempts.flatMap Attempt.reports, event.IsAcceptance := by
      rintro ⟨event, he, hacc⟩
      exact (hsilent event he).1 hacc
    refine ⟨fun fill hfill => ?_, ⟨o, ho, hbroker.mpr hnone, hstate hnone⟩, ?_⟩
    · rw [hbefore.getFills] at hfill
      have := hfills fill hfill
      rw [hnil] at this
      exact absurd this List.not_mem_nil
    · rw [hafter.getFills, executions_append, hnil, List.nil_append]

end

/-- The broker reports that it accepted the order of the runs below. -/
def acceptanceOf (orderId : OrderId) : BrokerOrderEvent where
  brokerOrderId := "b-" ++ toString orderId
  clientOrderId := orderId
  newState := .accepted

/-- A submission that fails in silence, and a retry during which the broker reports the
acceptance and an execution. -/
theorem retried_silentFailure :
    Retried (run (fail (marketOrder 1 .buy 10)) Oms.empty [⟨[], 0, []⟩])
      ((run (fail (marketOrder 1 .buy 10)) Oms.empty [⟨[], 0, []⟩]).submitOrder
        (marketOrder 1 .buy 10)
        ⟨[acceptanceOf 1, fillEventFor 7 1 .buy 4 .partiallyFilled], .returned "b-1"⟩ 1).1
      (marketOrder 1 .buy 10) "b-1"
      [acceptanceOf 1, fillEventFor 7 1 .buy 4 .partiallyFilled] :=
  (retried_iff WellFormed.empty rfl rfl (by decide) (by decide) (List.cons_ne_nil _ _)
    (by decide) 1).mpr (by decide)

/-- **What is reported between two submissions is lost**: the fill, and the broker's identifier
with it. -/
theorem not_retried_reportedFailure :
    (∀ event ∈ [acceptanceOf 1, fillEventFor 7 1 .buy 4 .partiallyFilled],
        event.Reports (marketOrder 1 .buy 10) "b-1") ∧
      ¬Retried
        (run (fail (marketOrder 1 .buy 10)) Oms.empty [⟨[], 0, [(acceptanceOf 1, 1),
          (fillEventFor 7 1 .buy 4 .partiallyFilled, 2)]⟩])
        ((run (fail (marketOrder 1 .buy 10)) Oms.empty [⟨[], 0, [(acceptanceOf 1, 1),
          (fillEventFor 7 1 .buy 4 .partiallyFilled, 2)]⟩]).submitOrder (marketOrder 1 .buy 10)
            ⟨[], .returned "b-1"⟩ 3).1
        (marketOrder 1 .buy 10) "b-1"
        [acceptanceOf 1, fillEventFor 7 1 .buy 4 .partiallyFilled] := by
  refine ⟨by decide, fun h => ?_⟩
  have hlost : ((run (fail (marketOrder 1 .buy 10)) Oms.empty [⟨[], 0, [(acceptanceOf 1, 1),
      (fillEventFor 7 1 .buy 4 .partiallyFilled, 2)]⟩]).submitOrder (marketOrder 1 .buy 10)
        ⟨[], .returned "b-1"⟩ 3).1.getFills 1 = [] := by
    decide +kernel
  have hcomplete := h.complete
  rw [show (marketOrder 1 .buy 10).id = 1 from rfl, hlost] at hcomplete
  exact absurd hcomplete (by decide)

end Oms

end TradingPlatform
