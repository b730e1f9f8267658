import TradingPlatform.Execution.OmsReplay

/-!
# Cancelled here and cancelled at the broker

There are two ways for an order to be cancelled here. The broker says so, or the order has no
broker identifier yet when its cancellation is asked for: then the broker is not told, on the
assumption that it never accepted the order. But a submission that fails tells nothing about
what the broker got: it may hold the order already, or get it later.

So beside the system there is the broker's side of every order (`TradingPlatform.AtBroker`), and
`TradingPlatform.Venue.cancelledIsDead_run_iff` says when an order that is cancelled here is not
open there, over every run of submissions, cancellations and events.
-/

namespace TradingPlatform

/-! ### What cancels an order here -/

namespace Oms

/-- The order is cancelled here. -/
def IsCancelled (s : Oms) (k : OrderId) : Prop :=
  (s.orders.get? k).map (·.state) = some .cancelled

instance (s : Oms) (k : OrderId) : Decidable (s.IsCancelled k) :=
  inferInstanceAs (Decidable (_ = _))

/-- The order is open here, and the broker's identifier for it is not recorded. -/
def Unacknowledged (s : Oms) (k : OrderId) : Prop :=
  (s.orders.get? k).any fun order => ¬order.state.Terminal ∧ order.brokerOrderId = none

instance (s : Oms) (k : OrderId) : Decidable (s.Unacknowledged k) :=
  inferInstanceAs (Decidable (_ = true))

section

variable {s s' : Oms} {k k' : OrderId}

/-- An event leads an order where it goes, or leaves its state alone. -/
theorem state_moved (order : Order) (fsm : OrderFsm) (event : OrderEvent) :
    (order.moved fsm event).state = order.state ∨
      (order.moved fsm event).state = event.target := by
  rw [Order.moved]
  split_ifs with hc
  · obtain ⟨toState, harc⟩ := Option.isSome_iff_exists.mp hc
    refine Or.inr ?_
    rw [← orderTable_get?_eq_some harc]
    change (fsm.after event).state = _
    rw [StateMachine.state_after, harc]
    rfl
  · exact Or.inl rfl

/-- Moving an order on anything but a cancellation cancels nothing. -/
theorem Moves.isCancelled {order old : Order} {fsm : OrderFsm} {event : OrderEvent}
    {fills : List Fill} (hm : s.Moves s' k order fsm event fills)
    (hold : s.orders.get? k = some old) (hstate : order.state = old.state)
    (hevent : event.target ≠ .cancelled) (h : s'.IsCancelled k') : s.IsCancelled k' := by
  rw [IsCancelled, hm.orders] at h
  split_ifs at h with hk
  · rw [IsCancelled, hk, hold]
    rcases state_moved order fsm event with hmoved | hmoved
    · exact congrArg some (hstate.symm.trans (hmoved.symm.trans (Option.some.inj h)))
    · exact absurd (hmoved.symm.trans (Option.some.inj h)) hevent
  · exact h

/-- Moving an order cancels at most that order. -/
theorem Moves.isCancelled_or {order : Order} {fsm : OrderFsm} {event : OrderEvent}
    {fills : List Fill} (hm : s.Moves s' k order fsm event fills) (h : s'.IsCancelled k') :
    s.IsCancelled k' ∨ k' = k := by
  rw [IsCancelled, hm.orders] at h
  split_ifs at h with hk
  · exact Or.inr hk
  · exact Or.inl h

theorem isCancelled_recordAccepted (hs : s.Keyed) (k : OrderId) (brokerOrderId : String)
    (ts : Time) (h : (s.recordAccepted k brokerOrderId ts).IsCancelled k') :
    s.IsCancelled k' := by
  rcases ho : s.orders.get? k with _ | order
  · rwa [recordAccepted, ho] at h
  obtain ⟨fsm, hf⟩ := hs.exists_fsm ho
  by_cases hb : order.brokerOrderId = some brokerOrderId
  · rwa [recordAccepted_eq_self ho hb] at h
  · exact (recordAccepted_advances ho hf hb ts).isCancelled ho rfl (by decide) h

theorem isCancelled_handleFill (hs : s.Keyed) (k : OrderId) (fill : Fill) (ts : Time)
    (h : (s.handleFill k fill ts).IsCancelled k') : s.IsCancelled k' := by
  rcases ho : s.orders.get? k with _ | order
  · rwa [handleFill, ho] at h
  obtain ⟨fsm, hf⟩ := hs.exists_fsm ho
  refine (handleFill_advances ho hf fill ts).isCancelled ho rfl ?_ h
  rw [Order.fillEvent]
  split_ifs <;> decide

theorem isCancelled_handleClosing (hs : s.Keyed) (k : OrderId) {kind : EventKind}
    {update : Order → Order} {event : OrderEvent} {ts : Time}
    (h : (s.handleClosing k kind update event ts).IsCancelled k')
    (hstate : ∀ order, (update order).state = order.state) :
    s.IsCancelled k' ∨ event.target = .cancelled ∧ k' = k := by
  rcases ho : s.orders.get? k with _ | order
  · rw [handleClosing, ho] at h
    exact Or.inl h
  obtain ⟨fsm, hf⟩ := hs.exists_fsm ho
  by_cases ht : order.state.Terminal
  · rw [handleClosing_eq_self ho ht] at h
    exact Or.inl h
  have hadv := handleClosing_advances ho hf ht kind update event ts
  by_cases hevent : event.target = .cancelled
  · exact (hadv.isCancelled_or h).imp_right fun hk => ⟨hevent, hk⟩
  · exact Or.inl (hadv.isCancelled ho (hstate order) hevent h)

theorem isCancelled_handleRejection (hs : s.Keyed) (k : OrderId) (reason : String) (ts : Time)
    (h : (s.handleRejection k reason ts).IsCancelled k') : s.IsCancelled k' := by
  unfold handleRejection at h
  refine (isCancelled_handleClosing hs k h fun _ => rfl).resolve_right ?_
  exact fun hc => absurd hc.1 (by decide)

/-- **The only event of the broker that cancels an order says so.** -/
theorem isCancelled_onBrokerEvent (hs : s.Keyed) (event : BrokerOrderEvent) (now : Time)
    (h : (s.onBrokerEvent event now).IsCancelled k) :
    s.IsCancelled k ∨ event.newState = .canceled ∧ event.clientOrderId = k := by
  by_cases hk : event.clientOrderId ∈ s.orders.keys
  · rw [onBrokerEvent, if_pos hk] at h
    cases hst : event.newState with
    | accepted =>
      rw [hst] at h
      dsimp only at h
      split_ifs at h
      · exact Or.inl h
      · exact Or.inl (isCancelled_recordAccepted hs _ _ _ h)
    | partiallyFilled | filled =>
      rw [hst] at h
      rcases hfill : event.fill with _ | fill
      · rw [hfill] at h
        exact Or.inl h
      · rw [hfill] at h
        exact Or.inl (isCancelled_handleFill hs _ _ _ h)
    | canceled =>
      rw [hst] at h
      exact (isCancelled_handleClosing hs _ h fun _ => rfl).imp_right fun hk => ⟨rfl, hk.2.symm⟩
    | rejected =>
      rw [hst] at h
      exact Or.inl (isCancelled_handleRejection hs _ _ _ h)
    | expired =>
      rw [hst] at h
      refine Or.inl ((isCancelled_handleClosing hs _ h fun _ => rfl).resolve_right ?_)
      exact fun hc => absurd hc.1 (by decide)
    | new | unknown =>
      rw [hst] at h
      exact Or.inl h
  · rw [onBrokerEvent, if_neg hk] at h
    exact Or.inl h

theorem isCancelled_onBrokerEvents (hs : s.Keyed) (events : List BrokerOrderEvent) (now : Time)
    (h : (s.onBrokerEvents events now).IsCancelled k) :
    s.IsCancelled k ∨ ∃ event ∈ events, event.newState = .canceled ∧ event.clientOrderId = k := by
  induction events generalizing s with
  | nil => exact Or.inl h
  | cons event events ih =>
    rcases ih (hs.onBrokerEvent event now) h with h | ⟨e, he, hc⟩
    · exact (isCancelled_onBrokerEvent hs event now h).imp_right fun hc =>
        ⟨event, List.mem_cons_self, hc⟩
    · exact Or.inr ⟨e, List.mem_cons_of_mem _ he, hc⟩

theorem Keyed.onBrokerEvents (hs : s.Keyed) (events : List BrokerOrderEvent) (now : Time) :
    (s.onBrokerEvents events now).Keyed := by
  induction events generalizing s with
  | nil => exact hs
  | cons event events ih => exact ih (hs.onBrokerEvent event now)

theorem isCancelled_settleSubmit (hs : s.Keyed) (orderId : OrderId) (outcome : SubmitOutcome)
    (now : Time) (h : (s.settleSubmit orderId outcome now).IsCancelled k) : s.IsCancelled k := by
  cases outcome with
  | rejected reason => exact isCancelled_handleRejection hs _ _ _ h
  | unavailable => exact h
  | returned brokerOrderId =>
    rw [settleSubmit] at h
    split_ifs at h
    · exact h
    · exact isCancelled_recordAccepted hs _ _ _ h

/-- **A submission cancels nothing by itself**: the order starts anew, and only what the broker
reports during the call cancels an order. -/
theorem isCancelled_submitOrder (hs : s.Keyed) {order : Order} (hp : order.state = .pending)
    (call : SubmitCall) (now : Time) (h : (s.submitOrder order call now).1.IsCancelled k) :
    (k ≠ order.id ∧ s.IsCancelled k) ∨
      ∃ event ∈ call.callbacks, event.newState = .canceled ∧ event.clientOrderId = k := by
  have hint := persistIntent_introduces s hp now
  have heq : (s.submitOrder order call now).1 =
      ((s.persistIntent order now).onBrokerEvents call.callbacks now).settleSubmit order.id
        call.outcome now := by
    rw [submitOrder, if_pos hp]
    cases call.outcome <;> rfl
  rw [heq] at h
  have hk := hint.keyed hs
  refine (isCancelled_onBrokerEvents hk _ _
    (isCancelled_settleSubmit (hk.onBrokerEvents _ _) _ _ _ h)).imp_left fun h => ?_
  rw [IsCancelled, hint.orders] at h
  split_ifs at h with hid
  · cases Option.some.inj h
  · exact ⟨hid, h⟩

/-- **A cancellation takes effect at once on an unacknowledged order**, and on no other. -/
theorem isCancelled_requestCancel (hs : s.WellFormed) (k : OrderId) (now : Time) :
    (s.Unacknowledged k → (s.requestCancel k now).IsCancelled k) ∧
      ((s.requestCancel k now).IsCancelled k' →
        s.IsCancelled k' ∨ s.Unacknowledged k ∧ k' = k) := by
  rcases ho : s.orders.get? k with _ | order
  · rw [Unacknowledged, requestCancel, ho]
    exact ⟨fun h => absurd h Bool.false_ne_true, Or.inl⟩
  obtain ⟨fsm, hf, hstate⟩ := hs.exists_fsm ho
  have hun : s.Unacknowledged k ↔ ¬order.state.Terminal ∧ order.brokerOrderId = none := by
    rw [Unacknowledged, ho, Option.any_some, decide_eq_true_iff]
  by_cases ht : order.state.Terminal
  · rw [hun, requestCancel_eq_self ho ht]
    exact ⟨fun h => absurd ht h.1, Or.inl⟩
  rcases hb : order.brokerOrderId with _ | brokerOrderId
  · have hadv := requestCancel_advances ho hf ht hb now
    refine ⟨fun _ => ?_, fun h =>
      (hadv.isCancelled_or h).imp_right fun hk => ⟨hun.mpr ⟨ht, hb⟩, hk⟩⟩
    have hne := hs.ne_pending k order ho
    have hcancel : (orderTable.get? (order.state, .cancel)).getD order.state = .cancelled := by
      revert ht hne
      cases order.state <;> decide
    rw [IsCancelled, hadv.orders, if_pos rfl, Option.map_some, Order.moved_eq hstate]
    refine congrArg some ?_
    change (fsm.after .cancel).state = .cancelled
    rw [StateMachine.state_after, hstate, hcancel]
  · have haudit := requestCancel_audits ho ht hb now
    have hsame : ∀ k', (s.requestCancel k now).IsCancelled k' ↔ s.IsCancelled k' := fun k' => by
      rw [IsCancelled, IsCancelled, haudit.book]
    refine ⟨fun h => absurd (hun.mp h).2 (hb ▸ Option.some_ne_none _), fun h => ?_⟩
    exact Or.inl ((hsame k').mp h)

end

end Oms

/-! ### The broker's side -/

/-- How far an order has come at the broker. -/
inductive AtBroker
  /-- The broker never got it. -/
  | absent
  /-- On its way: the broker may get it yet. -/
  | inTransit
  /-- The broker holds it as an open order. -/
  | working
  /-- It can no longer execute. -/
  | closed
  deriving DecidableEq

/-- What becomes of an order that is sent, once more perhaps: the broker takes an identifier it
knows for the order it has. -/
def AtBroker.send (old reached : AtBroker) : AtBroker :=
  match old, reached with
  | .closed, _ => .closed
  | .working, .closed => .closed
  | .working, _ => .working
  | .inTransit, .absent => .inTransit
  | .inTransit, reached => reached
  | .absent, reached => reached

/-- The system and the broker's side of every order. -/
structure Venue where
  oms : Oms
  atBroker : OrderId → AtBroker

inductive VenueOp
  /-- A submission, and how far the order comes by it, whatever the caller is told. -/
  | submitOrder (order : Order) (call : SubmitCall) (reached : AtBroker) (now : Time)
  /-- A cancellation, and whether the broker closes the order while it is asked to. -/
  | cancelOrder (orderId : OrderId) (call : CancelCall) (closes : Bool) (now : Time)
  | brokerEvent (event : BrokerOrderEvent) (now : Time)
  /-- An order on its way reaches the broker. -/
  | arrive (orderId : OrderId)
  /-- The broker is done with an order: it was executed, cancelled or has expired. -/
  | close (orderId : OrderId)

namespace Venue

/-- The broker's side of one order changes. -/
def put (v : Venue) (k : OrderId) (state : AtBroker) : Venue :=
  { v with atBroker := Function.update v.atBroker k state }

def step (v : Venue) : VenueOp → Venue
  | .submitOrder order call reached now =>
    if order.state = .pending then
      { v with oms := (v.oms.submitOrder order call now).1 }.put order.id
        ((v.atBroker order.id).send reached)
    else v
  | .cancelOrder k call closes now =>
    let v' := { v with oms := (v.oms.cancelOrder k call now).1 }
    if closes ∧ ¬v.oms.Unacknowledged k ∧ v.atBroker k = .working then v'.put k .closed else v'
  | .brokerEvent event now => { v with oms := v.oms.onBrokerEvent event now }
  | .arrive k => if v.atBroker k = .inTransit then v.put k .working else v
  | .close k => if v.atBroker k = .working then v.put k .closed else v

/-- Nothing was sent yet. -/
def start : Venue := ⟨Oms.empty, fun _ => .absent⟩

/-- The events the broker delivers in a step. -/
def eventsOf : VenueOp → List BrokerOrderEvent
  | .submitOrder _ call _ _ => call.callbacks
  | .cancelOrder _ call _ _ => call.callbacks
  | .brokerEvent event _ => [event]
  | .arrive _ | .close _ => []

/-- The broker reports an order as cancelled only when it can no longer execute. -/
def Admissible (v : Venue) (op : VenueOp) : Prop :=
  ∀ event ∈ eventsOf op, event.newState = .canceled →
    (v.step op).atBroker event.clientOrderId = .closed

/-- **An order that is cancelled here is not open at the broker.** -/
def CancelledIsDead (v : Venue) : Prop :=
  ∀ k, v.oms.IsCancelled k → v.atBroker k ≠ .working

/-- **The condition on a step**: an order without a recorded identifier is not cancelled while
the broker holds it, and an order that was cancelled does not reach the broker any more. -/
def Safe (v : Venue) : VenueOp → Prop
  | .cancelOrder k _ _ _ => v.oms.Unacknowledged k → v.atBroker k ≠ .working
  | .arrive k => v.atBroker k = .inTransit → ¬v.oms.IsCancelled k
  | .submitOrder .. | .brokerEvent .. | .close _ => True

instance (v : Venue) (op : VenueOp) : Decidable (v.Admissible op) :=
  inferInstanceAs (Decidable (∀ event ∈ eventsOf op, _))

instance (v : Venue) (op : VenueOp) : Decidable (v.Safe op) := by
  cases op <;> unfold Safe <;> infer_instance

/-- **The invariant.** -/
structure Inv (v : Venue) : Prop where
  wellFormed : v.oms.WellFormed
  dead : v.CancelledIsDead

theorem inv_start : start.Inv where
  wellFormed := .empty
  dead k h := absurd h (by simp [start, Oms.IsCancelled, Oms.empty, Book.empty])

section

variable {v : Venue}

theorem put_self (v : Venue) (k : OrderId) (state : AtBroker) :
    (v.put k state).atBroker k = state := by
  simp [put]

theorem put_of_ne (v : Venue) {k k' : OrderId} (h : k' ≠ k) (state : AtBroker) :
    (v.put k state).atBroker k' = v.atBroker k' := by
  simp [put, h]

/-- A step leaves the maps well formed. -/
theorem Inv.wellFormed_step (hv : v.Inv) (op : VenueOp) : (v.step op).oms.WellFormed := by
  have hstep : ∀ op : OmsOp, (v.oms.step op).WellFormed := fun op => hv.wellFormed.run [op]
  cases op with
  | submitOrder order call reached now =>
    rw [step]
    split_ifs
    · exact hstep (.submitOrder order call now)
    · exact hv.wellFormed
  | cancelOrder k call closes now =>
    rw [step]
    split_ifs <;> exact hstep (.cancelOrder k call now)
  | brokerEvent event now => exact hstep (.brokerEvent event now)
  | arrive k =>
    rw [step]
    split_ifs <;> exact hv.wellFormed
  | close k =>
    rw [step]
    split_ifs <;> exact hv.wellFormed

/-- What a cancellation cancels: an unacknowledged order, at once, and what the broker reports
during the call. -/
theorem isCancelled_cancelOrder (hs : v.oms.WellFormed) {k k' : OrderId} (call : CancelCall)
    (now : Time) (h : (v.oms.cancelOrder k call now).1.IsCancelled k') :
    v.oms.IsCancelled k' ∨ v.oms.Unacknowledged k ∧ k' = k ∨
      ∃ event ∈ call.callbacks, event.newState = .canceled ∧ event.clientOrderId = k' := by
  have hrequest := (@Oms.isCancelled_requestCancel v.oms k' hs k now).2
  rw [Oms.cancelOrder] at h
  rcases ho : v.oms.orders.get? k with _ | order
  · rw [ho] at h
    exact Or.inl h
  rw [ho] at h
  dsimp only at h
  by_cases hc : order.state.Terminal ∨ order.brokerOrderId = none
  · rw [if_pos hc] at h
    exact (hrequest h).imp_right Or.inl
  · rw [if_neg hc] at h
    have hkeyed := (Oms.quiet_requestCancel hs.toKeyed k now).keyed hs.toKeyed
    rcases Oms.isCancelled_onBrokerEvents hkeyed _ _ h with h | hevent
    · exact (hrequest h).imp_right Or.inl
    · exact Or.inr (Or.inr hevent)

theorem isCancelled_cancelOrder_of_unacknowledged (hs : v.oms.WellFormed) {k : OrderId}
    (hun : v.oms.Unacknowledged k) (call : CancelCall) (now : Time) :
    (v.oms.cancelOrder k call now).1.IsCancelled k := by
  have hrequest := (@Oms.isCancelled_requestCancel v.oms k hs k now).1 hun
  rw [Oms.Unacknowledged, Option.any_eq_true] at hun
  obtain ⟨order, ho, hun⟩ := hun
  have hun := of_decide_eq_true hun
  rw [Oms.cancelOrder, ho]
  dsimp only
  rw [if_pos (Or.inr hun.2)]
  exact hrequest

/-- **A safe step keeps the invariant.** -/
theorem Inv.step (hv : v.Inv) {op : VenueOp} (hadm : v.Admissible op) (hsafe : v.Safe op) :
    (v.step op).Inv := by
  refine ⟨hv.wellFormed_step op, fun k h => ?_⟩
  have hreported : (∃ event ∈ eventsOf op, event.newState = .canceled ∧ event.clientOrderId = k) →
      (v.step op).atBroker k ≠ .working := by
    rintro ⟨event, he, hst, rfl⟩
    rw [hadm event he hst]
    rintro ⟨⟩
  cases op with
  | submitOrder order call reached now =>
    by_cases hp : order.state = .pending
    · rw [Venue.step, if_pos hp] at h ⊢
      rcases Oms.isCancelled_submitOrder hv.wellFormed.toKeyed hp call now h with ⟨hne, h⟩ | hevent
      · rw [put_of_ne _ hne]
        exact hv.dead k h
      · have := hreported hevent
        rwa [Venue.step, if_pos hp] at this
    · rw [Venue.step, if_neg hp] at h ⊢
      exact hv.dead k h
  | cancelOrder orderId call closes now =>
    have hcancelled : (v.oms.cancelOrder orderId call now).1.IsCancelled k := by
      rw [Venue.step] at h
      split_ifs at h <;> exact h
    have hkeep : v.atBroker k ≠ .working →
        (v.step (.cancelOrder orderId call closes now)).atBroker k ≠ .working := by
      intro hk
      rw [Venue.step]
      split_ifs
      · by_cases hkk : k = orderId
        · rw [hkk, put_self]
          rintro ⟨⟩
        · rw [put_of_ne _ hkk]
          exact hk
      · exact hk
    rcases isCancelled_cancelOrder hv.wellFormed call now hcancelled with h | ⟨hun, rfl⟩ | hevent
    · exact hkeep (hv.dead k h)
    · exact hkeep (hsafe hun)
    · exact hreported hevent
  | brokerEvent event now =>
    rcases Oms.isCancelled_onBrokerEvent hv.wellFormed.toKeyed event now h with h | hevent
    · exact hv.dead k h
    · exact hreported ⟨event, List.mem_singleton.mpr rfl, hevent⟩
  | arrive orderId =>
    rw [Venue.step] at h ⊢
    split_ifs at h ⊢ with harrive
    · by_cases hkk : k = orderId
      · subst hkk
        exact absurd h (hsafe harrive)
      · rw [put_of_ne _ hkk]
        exact hv.dead k h
    · exact hv.dead k h
  | close orderId =>
    rw [Venue.step] at h ⊢
    split_ifs at h ⊢
    · by_cases hkk : k = orderId
      · rw [hkk, put_self]
        rintro ⟨⟩
      · rw [put_of_ne _ hkk]
        exact hv.dead k h
    · exact hv.dead k h

/-- An unsafe step leaves an order that is cancelled here open at the broker. -/
theorem Inv.not_cancelledIsDead (hv : v.Inv) {op : VenueOp} (hnot : ¬v.Safe op) :
    ¬(v.step op).CancelledIsDead := by
  intro hdead
  cases op with
  | cancelOrder k call closes now =>
    obtain ⟨hun, hworking⟩ := Classical.not_imp.mp hnot
    refine hworking ?_
    have hcancelled := isCancelled_cancelOrder_of_unacknowledged hv.wellFormed hun call now
    have hstep : v.step (.cancelOrder k call closes now) =
        { v with oms := (v.oms.cancelOrder k call now).1 } := by
      rw [Venue.step, if_neg fun h => h.2.1 hun]
    rw [hstep] at hdead
    exact hdead k hcancelled
  | arrive k =>
    obtain ⟨harrive, hcancelled⟩ := Classical.not_imp.mp hnot
    rw [Venue.step, if_pos harrive] at hdead
    exact hdead k (not_not.mp hcancelled) (put_self v k .working)
  | submitOrder order call reached now => exact hnot trivial
  | brokerEvent event now => exact hnot trivial
  | close k => exact hnot trivial

/-- **The exact condition.** Over every run of submissions, cancellations and broker events in
which the broker reports only dead orders as cancelled: every order that is cancelled here is
dead at the broker, throughout, exactly when no order without a recorded identifier is cancelled
while the broker holds it, and none that was cancelled reaches the broker afterwards. -/
theorem cancelledIsDead_run_iff {ops : List VenueOp} (hadm : Along step Admissible start ops) :
    (∀ pre, pre <+: ops → (run step start pre).CancelledIsDead) ↔ Along step Safe start ops :=
  forall_reached_iff_along_within (fun _ _ hv hadm hsafe => hv.step hadm hsafe)
    (fun _ hv => hv.dead) (fun _ _ hv _ hnot => hv.not_cancelledIsDead hnot) inv_start hadm

end

/-- An order is accepted and cancelled, the broker confirms; another one never arrives and is
cancelled here. -/
def confirmedRun : List VenueOp :=
  [.submitOrder (Oms.marketOrder 1 .buy 10) ⟨[], .returned "b-1"⟩ .working 0,
    .cancelOrder 1 ⟨[{ brokerOrderId := "b-1", clientOrderId := 1, newState := .canceled }], false⟩
      true 1,
    .submitOrder (Oms.marketOrder 2 .buy 10) ⟨[], .unavailable⟩ .absent 2,
    .cancelOrder 2 ⟨[], false⟩ false 3]

theorem cancelledIsDead_confirmedRun : (run step start confirmedRun).CancelledIsDead :=
  (cancelledIsDead_run_iff (by decide +kernel : Along step Admissible start confirmedRun)).mpr
    (by decide +kernel : Along step Safe start confirmedRun) _ List.prefix_rfl

/-- A submission fails although the broker has the order, and the order is cancelled. -/
def lostReplyRun : List VenueOp :=
  [.submitOrder (Oms.marketOrder 1 .buy 10) ⟨[], .unavailable⟩ .working 0,
    .cancelOrder 1 ⟨[], false⟩ false 1]

/-- **The broker keeps an order that is cancelled here.** -/
theorem not_cancelledIsDead_lostReplyRun :
    Along step Admissible start lostReplyRun ∧
      ¬(run step start lostReplyRun).CancelledIsDead := by
  refine ⟨by decide +kernel, fun h => ?_⟩
  have hcancelled : (run step start lostReplyRun).oms.IsCancelled 1 := by decide +kernel
  have hworking : (run step start lostReplyRun).atBroker 1 = .working := by decide +kernel
  exact h 1 hcancelled hworking

end Venue

end TradingPlatform
