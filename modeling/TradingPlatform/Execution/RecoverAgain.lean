import TradingPlatform.Execution.RecoveryTrack
import TradingPlatform.Execution.OmsLog

/-!
# Recovering again

A recovery is meant to be done once: afterwards the books agree with the broker, and the next
process, which replays the log the recovery left and asks the same broker, has nothing left to
do. This is a question about one order at a time. `TradingPlatform.Oms.converges_iff` answers it
for every log, every set of broker answers and every order: the lifecycle must have an arc for
what the catch-up logs, and the broker must not report an order as filled whose missing quantity
does not fill it – that repair is made in memory and never logged.
-/

namespace TradingPlatform

instance : Fintype OrderState where
  elems := {.pending, .submitted, .accepted, .partiallyFilled, .filled, .cancelled, .rejected,
    .expired}
  complete state := by cases state <;> decide

instance : Fintype BrokerOrderState where
  elems := {.new, .accepted, .partiallyFilled, .filled, .canceled, .rejected, .expired, .unknown}
  complete state := by cases state <;> decide

/-! ### When a recovery repairs an order -/

namespace Cell

/-- The state of the machine once the broker's acceptance is recorded. -/
def acknowledgedState (cell : Cell) : OrderState :=
  if cell.order.brokerOrderId = none then (cell.fsm.after .accept).state else cell.fsm.state

/-- **When catching up with the broker repairs an order for good.** -/
def CatchesUp (cell : Cell) (broker : BrokerOrderStatus) : Prop :=
  if 0 < broker.filledQty - cell.order.filledQty then
    if isFullyFilled cell.order.qty broker.filledQty then cell.acknowledgedState.Takes .fullFill
    else
      match broker.state with
      | .partiallyFilled =>
        (cell.order.brokerOrderId = none ∨
            cell.order.brokerOrderId = some broker.brokerOrderId) ∧
          (cell.acknowledgedState.Takes .partialFill ∨ cell.order.state = .partiallyFilled)
      | .canceled | .expired => cell.acknowledgedState.Takes .partialFill
      | .new | .accepted | .filled | .rejected | .unknown => False
  else
    match broker.state with
    | .new | .accepted => cell.order.brokerOrderId = none ∧ cell.fsm.state.Takes .accept
    | .canceled => cell.acknowledgedState.Takes .cancel
    | .rejected => cell.acknowledgedState.Takes .reject
    | .expired => cell.acknowledgedState.Takes .expire
    | .partiallyFilled | .filled | .unknown => False

instance (cell : Cell) (broker : BrokerOrderStatus) : Decidable (cell.CatchesUp broker) := by
  unfold CatchesUp
  cases broker.state <;> infer_instance

/-- **When a recovery repairs an open order for good**: the broker has no record of it and it
can be rejected, or the broker sees it as we do, or catching up repairs it. -/
def Repairable (cell : Cell) (answer : Option BrokerOrderStatus) : Prop :=
  match answer with
  | none => cell.fsm.state.Takes .reject
  | some broker => brokerStateMatches cell.order broker ∨ cell.CatchesUp broker

instance (cell : Cell) (answer : Option BrokerOrderStatus) :
    Decidable (cell.Repairable answer) := by
  unfold Repairable
  cases answer <;> infer_instance

end Cell

namespace Track

/-- The same condition, on states: the order's and the machine's, whether the order has a broker
identifier and whether it is the broker's, the fill that is missing, the broker's state. -/
def Repairs (state machine : OrderState) (unacknowledged sameId : Bool)
    (fill : Option OrderEvent) (broker : BrokerOrderState) : Prop :=
  let acknowledged := (Track.acknowledge ⟨state, state, machine⟩ unacknowledged).machine
  match fill, broker with
  | some .fullFill, _ => acknowledged.Takes .fullFill
  | some _, .partiallyFilled =>
    (unacknowledged ∨ sameId) ∧ (acknowledged.Takes .partialFill ∨ state = .partiallyFilled)
  | some _, .canceled | some _, .expired => acknowledged.Takes .partialFill
  | some _, _ => False
  | none, .new | none, .accepted => unacknowledged ∧ machine.Takes .accept
  | none, .canceled => acknowledged.Takes .cancel
  | none, .rejected => acknowledged.Takes .reject
  | none, .expired => acknowledged.Takes .expire
  | none, _ => False

instance (state machine : OrderState) (unacknowledged sameId : Bool) (fill : Option OrderEvent)
    (broker : BrokerOrderState) :
    Decidable (Repairs state machine unacknowledged sameId fill broker) := by
  unfold Repairs
  dsimp only
  split <;> infer_instance

/-- What the cells of a replay keep to, on states. -/
def SaneStates (state machine : OrderState) (unacknowledged sameId : Bool) : Prop :=
  state.Open ∧ state ≠ .pending ∧ machine ≠ .pending ∧
    (state = .submitted → machine = .submitted) ∧ (machine = .submitted → unacknowledged = true) ∧
    (state = .accepted → unacknowledged = false) ∧ (unacknowledged = true → sameId = false)

instance (state machine : OrderState) (unacknowledged sameId : Bool) :
    Decidable (SaneStates state machine unacknowledged sameId) :=
  inferInstanceAs (Decidable (_ ∧ _))

/-- An order that following the broker to a terminal state leaves repaired: nothing is forced,
the live order agrees with the broker or is closed, and the replay goes where it went. -/
def LeavesRepaired (t : Track) (sameId : Bool) (broker : BrokerOrderState) : Prop :=
  ¬t.Forces broker ∧
    (sameId = true ∧ brokerStateToLocal broker = (t.catchUpTerminal broker).live ∨
      (t.catchUpTerminal broker).live.Terminal) ∧
    (t.catchUpTerminal broker).live = (t.catchUpTerminal broker).replayed

instance (t : Track) (sameId : Bool) (broker : BrokerOrderState) :
    Decidable (t.LeavesRepaired sameId broker) :=
  inferInstanceAs (Decidable (_ ∧ _))

/-- **The condition is exact, on states.** -/
theorem repairs_iff (state machine : OrderState) (unacknowledged sameId : Bool)
    (fill : Option OrderEvent)
    (hfill : fill = none ∨ fill = some .partialFill ∨ fill = some .fullFill)
    (broker : BrokerOrderState) (hknown : broker ≠ .unknown)
    (hsane : SaneStates state machine unacknowledged sameId)
    (hnot : ¬(sameId = true ∧ fill = none ∧ brokerStateToLocal broker = state)) :
    ((Track.acknowledge ⟨state, state, machine⟩ unacknowledged).fillUp fill).LeavesRepaired
        (unacknowledged || sameId) broker ↔
      Repairs state machine unacknowledged sameId fill broker := by
  revert state machine unacknowledged sameId broker
  rcases hfill with rfl | rfl | rfl <;> decide +kernel

/-- What is forced closed is left behind by the replay: if the replay takes the order to its
end, the machine has no way there. -/
theorem not_takes_fullFill (state machine : OrderState) (unacknowledged : Bool)
    (fill : Option OrderEvent)
    (hfill : fill = none ∨ fill = some .partialFill ∨ fill = some .fullFill)
    (hopen : state.Open) (t : Track)
    (ht : t = (Track.acknowledge ⟨state, state, machine⟩ unacknowledged).fillUp fill)
    (hlive : ¬t.live.Terminal) (hreplayed : t.replayed.Terminal) :
    ¬t.machine.Takes .fullFill := by
  subst ht
  revert state machine unacknowledged
  rcases hfill with rfl | rfl | rfl <;> decide +kernel

end Track

/-! ### One order, looked at twice -/

/-- The events with which a recovery changes an order or reports that it did. -/
def LoggedEvent.Progress (logged : LoggedEvent) : Prop :=
  match logged.kind with
  | .reconcileRecovered .. | .reconcileAbandoned _ | .fillReceived _ | .orderRejected _
  | .orderCancelled _ | .orderExpired => True
  | .orderSubmitIntent _ | .orderAccepted _ | .orderCancelRequested _ | .reconcileNoop .. => False

instance : DecidablePred LoggedEvent.Progress := fun logged => by
  obtain ⟨kind, -, -⟩ := logged
  cases kind <;> first | exact isTrue trivial | exact isFalse id

namespace Cell

/-- **An order is settled by its recovery**: it agrees with the broker or is terminal, and the
next process rebuilds it as it is and leaves it alone. -/
def Settles (env env' : RecoveryEnv) (k : OrderId) (cell : Cell) : Prop :=
  (∀ broker, env.findOrderByClientId k = some broker →
    brokerStateMatches (cell.reconcile env k).1.order broker ∨
      (cell.reconcile env k).1.order.state.Terminal) ∧
    ∃ replayed, Book.replayCell k (cell.reconcile env k).2 (some cell) = some replayed ∧
      (∀ e ∈ (replayed.reconcile env' k).2, ¬e.Progress) ∧
      (replayed.reconcile env' k).1.order = (cell.reconcile env k).1.order

section Settles

variable {env env' : RecoveryEnv} {k : OrderId} {cell : Cell}

/-- An order there is nothing to do about. -/
theorem reconcile_of_agrees (h : cell.order.state.Terminal ∨
      ∃ broker, env.findOrderByClientId k = some broker ∧ brokerStateMatches cell.order broker) :
    (cell.reconcile env k).1 = cell ∧ ∀ e ∈ (cell.reconcile env k).2, ¬e.Progress := by
  rw [reconcile]
  split_ifs with ht
  · exact ⟨rfl, fun e he => absurd he List.not_mem_nil⟩
  · obtain ⟨broker, hfind, hm⟩ := h.resolve_left ht
    rw [hfind]
    dsimp only
    rw [if_pos hm]
    refine ⟨rfl, fun e he => ?_⟩
    rw [List.mem_singleton.mp he]
    exact id

theorem replayCell_of_agrees (h : cell.order.state.Terminal ∨
      ∃ broker, env.findOrderByClientId k = some broker ∧ brokerStateMatches cell.order broker) :
    Book.replayCell k (cell.reconcile env k).2 (some cell) = some cell := by
  rw [reconcile]
  split_ifs with ht
  · rfl
  · obtain ⟨broker, hfind, hm⟩ := h.resolve_left ht
    rw [hfind]
    dsimp only
    rw [if_pos hm]
    exact replayCell_singleton _ _ _ _

/-- An order that knows the broker's identifier and misses no fill: looking at it only follows
the broker to a terminal state. -/
theorem reconcile_of_upToDate {broker : BrokerOrderStatus} (hopen : ¬cell.order.state.Terminal)
    (hfind : env.findOrderByClientId k = some broker)
    (hnot : ¬brokerStateMatches cell.order broker) (hid : cell.order.brokerOrderId ≠ none)
    (hqty : ¬0 < broker.filledQty - cell.order.filledQty) :
    cell.reconcile env k = ((cell.catchUpTerminal k broker env.now).1,
      (cell.catchUpTerminal k broker env.now).2 ++
        [⟨if cell.terminalAdvances broker
          then .reconcileRecovered broker.state (some (broker.filledQty - cell.order.filledQty))
          else .reconcileNoop broker.state (some (broker.filledQty - cell.order.filledQty)), k,
          env.now⟩]) := by
  have hfill : (cell.acknowledge k broker env.now).andThen
      (Cell.fillUp k broker (env.fillId k) env.now) = (cell, []) := by
    rw [Cell.acknowledge, if_neg hid, Effect.andThen, Cell.fillUp, if_neg hqty]
    rfl
  rw [reconcile, if_neg hopen, hfind]
  dsimp only
  rw [if_neg hnot, catchUp, hfill]
  simp only [Effect.andThen, List.nil_append, hid, hqty, false_or, Bool.decide_eq_true]

/-- An order that knows the broker's identifier and has as much filled as the broker says: if
looking at it reports no progress, then it changes nothing, and the broker does not report as
filled what is open here. -/
theorem reconcile_of_noProgress {broker : BrokerOrderStatus}
    (hfind : env.findOrderByClientId k = some broker) (hid : cell.order.brokerOrderId ≠ none)
    (hqty : cell.order.filledQty = broker.filledQty)
    (hquiet : ∀ e ∈ (cell.reconcile env k).2, ¬e.Progress) :
    (cell.reconcile env k).1 = cell ∧ (broker.state = .filled → cell.order.state.Terminal) := by
  by_cases ht : cell.order.state.Terminal
  · exact ⟨(reconcile_of_agrees (Or.inl ht)).1, fun _ => ht⟩
  by_cases hm : brokerStateMatches cell.order broker
  · refine ⟨(reconcile_of_agrees (Or.inr ⟨broker, hfind, hm⟩)).1, fun hst => ?_⟩
    have := hm.2.2
    rw [hst] at this
    exact this ▸ by decide
  have hdelta : ¬0 < broker.filledQty - cell.order.filledQty := by
    rw [hqty, sub_self]
    exact lt_irrefl _
  rw [reconcile_of_upToDate ht hfind hm hid hdelta] at hquiet ⊢
  have hlast := hquiet _ (List.mem_append_right _ (List.mem_singleton.mpr rfl))
  have hadv : cell.terminalAdvances broker = false := by
    by_contra hc
    rw [Bool.not_eq_false] at hc
    rw [if_pos hc] at hlast
    exact hlast trivial
  unfold terminalAdvances at hadv
  unfold catchUpTerminal
  cases hst : broker.state with
  | canceled | rejected | expired => simp [hst] at hadv
  | filled => simp [hst, ht] at hadv
  | new | accepted | partiallyFilled | unknown => exact ⟨rfl, by rintro ⟨⟩⟩

theorem settles_of_agrees (h : cell.order.state.Terminal ∨
      ∃ broker, env.findOrderByClientId k = some broker ∧ brokerStateMatches cell.order broker)
    (hsame : env'.findOrderByClientId k = env.findOrderByClientId k) :
    cell.Settles env env' k := by
  have hcell : (cell.reconcile env k).1 = cell := (reconcile_of_agrees h).1
  obtain ⟨hcell', hquiet'⟩ := @reconcile_of_agrees env' k cell (hsame ▸ h)
  refine ⟨fun broker hfind => ?_, cell, replayCell_of_agrees h, hquiet', by rw [hcell, hcell']⟩
  rw [hcell]
  refine h.symm.imp_left ?_
  rintro ⟨broker', hfind', hm⟩
  exact Option.some.inj (hfind.symm.trans hfind') ▸ hm

/-- Giving up an order is followed by its track. -/
theorem reconcile_tracked_of_unknown (hopen : ¬cell.order.state.Terminal)
    (hfind : env.findOrderByClientId k = none) :
    (cell.reconcile env k).Tracked k cell
      (Track.on ⟨cell.order.state, cell.order.state, cell.fsm.state⟩ .reject) := by
  refine ⟨cell.advance (fun order : Order =>
    { order with rejectionReason := some "abandoned_during_recovery" }) .reject, ?_, ?_⟩
  · rw [reconcile, if_neg hopen, hfind]
    dsimp only
    rw [abandon, Effect.andThen, handleRejection, handleClosing, if_neg hopen,
      Book.replayCell_append, replayCell_singleton]
    exact congrArg (LoggedEvent.onCell _) (replayCell_singleton _ _ _ _)
  · rw [reconcile, if_neg hopen, hfind]
    dsimp only
    rw [abandon, Effect.andThen, handleRejection, handleClosing, if_neg hopen]
    exact (Tracks.refl cell).on (fun order : Order =>
      { order with rejectionReason := some "abandoned_during_recovery" }) (fun _ _ => rfl)
      fun _ => rfl

/-- Giving up an order settles it if its machine can be rejected. -/
theorem settles_iff_of_unknown (hopen : ¬cell.order.state.Terminal)
    (hfind : env.findOrderByClientId k = none) :
    cell.Settles env env' k ↔ cell.fsm.state.Takes .reject := by
  obtain ⟨replayed, hreplay, htracks⟩ := reconcile_tracked_of_unknown hopen hfind
  have hterminal : replayed.order.state.Terminal := by
    rw [htracks.order_eq]
    exact (Track.replayed_on _ _).symm ▸ (by decide : OrderEvent.reject.target.Terminal)
  obtain ⟨hcell', hquiet'⟩ := @reconcile_of_agrees env' k replayed (Or.inl hterminal)
  have hne : cell.order.state ≠ OrderEvent.reject.target := fun hst => hopen (hst ▸ by decide)
  have horder := htracks.order_eq_iff.trans (Track.on_agrees_iff hne)
  rw [Settles, hreplay, hfind]
  constructor
  · rintro ⟨-, r, hr, -, heq⟩
    obtain rfl := Option.some.inj hr
    rw [hcell'] at heq
    exact horder.mp heq
  · intro htakes
    refine ⟨by rintro _ ⟨⟩, replayed, rfl, hquiet', ?_⟩
    rw [hcell']
    exact horder.mpr htakes

theorem missingFill_cases (cell : Cell) (broker : BrokerOrderStatus) :
    cell.missingFill broker = none ∨ cell.missingFill broker = some .partialFill ∨
      cell.missingFill broker = some .fullFill := by
  rw [missingFill]
  split_ifs
  · exact Or.inr (Or.inr rfl)
  · exact Or.inr (Or.inl rfl)
  · exact Or.inl rfl

/-- Following the broker to a terminal state leaves the order's identifier and its fills
alone. -/
theorem catchUpTerminal_order (k : OrderId) (broker : BrokerOrderStatus) (ts : Time)
    (cell : Cell) :
    (cell.catchUpTerminal k broker ts).1.order.brokerOrderId = cell.order.brokerOrderId ∧
      (cell.catchUpTerminal k broker ts).1.order.filledQty = cell.order.filledQty := by
  have hmoved : ∀ (order : Order) (event : OrderEvent),
      (cell.drive order event).order.brokerOrderId = order.brokerOrderId ∧
        (cell.drive order event).order.filledQty = order.filledQty := fun _ _ =>
    ⟨Order.brokerOrderId_moved _ _ _, (Order.sameTrade_moved _ _ _).filledQty⟩
  unfold catchUpTerminal
  cases broker.state with
  | canceled | rejected | expired =>
    dsimp only [handleRejection, handleClosing]
    split_ifs
    · exact ⟨rfl, rfl⟩
    · exact hmoved _ _
  | filled =>
    dsimp only [forceCloseFilled]
    split_ifs
    · exact ⟨rfl, rfl⟩
    · exact hmoved _ _
  | new | accepted | partiallyFilled | unknown => exact ⟨rfl, rfl⟩

/-- A forced close settles nothing: the next process finds the order open again, or closed by a
fill the machine refused. -/
theorem not_settles_of_forces {broker : BrokerOrderStatus}
    (hopen : ¬cell.order.state.Terminal) (hfind : env.findOrderByClientId k = some broker)
    (hfind' : env'.findOrderByClientId k = some broker)
    (hnot : ¬brokerStateMatches cell.order broker)
    (hqty : cell.order.filledQty ≤ broker.filledQty)
    (hforce : (cell.filledTrack broker).Forces broker.state) : ¬cell.Settles env env' k := by
  rintro ⟨-, r, hr, hquiet, heq⟩
  have hrec : cell.reconcile env k = cell.catchUp k broker (env.fillId k) env.now := by
    rw [reconcile, if_neg hopen, hfind]
    exact if_neg hnot
  rw [hrec] at hr heq
  obtain ⟨replayed, hreplay, htracks, hlive⟩ :=
    cell.catchUp_of_forces k broker (env.fillId k) env.now hforce
  obtain rfl := Option.some.inj (hreplay.symm.trans hr)
  obtain ⟨hid, hfilled⟩ := cell.filled_order k broker (env.fillId k) env.now
  rw [max_eq_right hqty] at hfilled
  obtain ⟨hcell', hterminal⟩ := reconcile_of_noProgress hfind'
    (by rw [htracks.order_eq]; exact hid ▸ by split_ifs <;> simp_all)
    (by rw [htracks.order_eq]; exact hfilled) hquiet
  have hdone : (cell.filledTrack broker).replayed.Terminal := by
    have := hterminal hforce.1
    rwa [htracks.order_eq] at this
  have hrefuse : ¬(cell.filledTrack broker).machine.Takes .fullFill :=
    Track.not_takes_fullFill cell.order.state cell.fsm.state (cell.order.brokerOrderId = none)
      (cell.missingFill broker) (missingFill_cases cell broker)
      ((OrderState.open_iff_not_terminal _).mpr hopen) _ rfl hforce.2 hdone
  -- the machine refuses the close as it refused the fill, so the live order stays open
  have hclosed := (@Tracks.on _ _ _ (Tracks.refl (cell.filled k broker (env.fillId k) env.now).1)
    (fun order : Order => { order with qty := order.filledQty, filledAt := some env.now })
    .fullFill (fun _ _ => rfl) fun _ => rfl).live_eq
  rw [Track.on, htracks.machine_eq, if_neg hrefuse] at hclosed
  have hstate := congrArg Order.state heq
  rw [hcell', hlive, hclosed, htracks.order_eq] at hstate
  have hstate' : (cell.filledTrack broker).replayed = (cell.filledTrack broker).live :=
    hstate.trans htracks.live_eq
  exact hforce.2 (hstate' ▸ hdone)

/-- A catch-up settles an order if its track leaves it repaired. -/
theorem settles_iff_of_catchUp {broker : BrokerOrderStatus}
    (hopen : ¬cell.order.state.Terminal) (hfind : env.findOrderByClientId k = some broker)
    (hsame : env'.findOrderByClientId k = env.findOrderByClientId k)
    (hnot : ¬brokerStateMatches cell.order broker)
    (hqty : cell.order.filledQty ≤ broker.filledQty) :
    cell.Settles env env' k ↔
      (cell.filledTrack broker).LeavesRepaired
        (cell.order.brokerOrderId = none ∨ cell.order.brokerOrderId = some broker.brokerOrderId)
        broker.state := by
  have hfind' : env'.findOrderByClientId k = some broker := hsame.trans hfind
  by_cases hforce : (cell.filledTrack broker).Forces broker.state
  · exact iff_of_false (not_settles_of_forces hopen hfind hfind' hnot hqty hforce)
      fun h => h.1 hforce
  have hrec : cell.reconcile env k = cell.catchUp k broker (env.fillId k) env.now := by
    rw [reconcile, if_neg hopen, hfind]
    exact if_neg hnot
  obtain ⟨replayed, hreplay, htracks⟩ :=
    cell.catchUp_tracked k broker (env.fillId k) env.now hforce
  rw [← hrec] at hreplay htracks
  -- the live order carries the broker's identifier and quantity, and so does its replay
  obtain ⟨hid, hfilled⟩ := cell.filled_order k broker (env.fillId k) env.now
  have hkeep := catchUpTerminal_order k broker env.now
    (cell.filled k broker (env.fillId k) env.now).1
  have hfilled' : (cell.reconcile env k).1.order.filledQty = broker.filledQty := by
    rw [hrec]
    exact hkeep.2.trans (hfilled.trans (max_eq_right hqty))
  have hid' : (cell.reconcile env k).1.order.brokerOrderId =
      if cell.order.brokerOrderId = none then some broker.brokerOrderId
        else cell.order.brokerOrderId := by
    rw [hrec]
    exact hkeep.1.trans hid
  have hmatch : brokerStateMatches (cell.reconcile env k).1.order broker ↔
      (cell.order.brokerOrderId = none ∨ cell.order.brokerOrderId = some broker.brokerOrderId) ∧
        brokerStateToLocal broker.state = (cell.catchUpTrack broker).live := by
    rw [brokerStateMatches, hfilled', hid', htracks.live_eq]
    split_ifs with hb
    · simp [hb]
    · simp [hb]
  have horder := htracks.order_eq_iff
  rw [Settles, hreplay, Track.LeavesRepaired, decide_eq_true_iff, ← catchUpTrack, ← hmatch,
    ← htracks.live_eq]
  constructor
  · rintro ⟨hagree, r, hr, hquiet, heq⟩
    obtain rfl := Option.some.inj hr
    refine ⟨hforce, hagree broker hfind, ?_⟩
    obtain ⟨hcell', -⟩ := reconcile_of_noProgress hfind'
      (by rw [htracks.order_eq]; exact hid' ▸ by split_ifs <;> simp_all)
      (by rw [htracks.order_eq]; exact hfilled') hquiet
    rw [hcell'] at heq
    rw [htracks.live_eq]
    exact (horder.mp heq).symm
  · rintro ⟨-, hagree, hstates⟩
    rw [htracks.live_eq] at hstates
    have heq := horder.mpr hstates.symm
    obtain ⟨hcell', hquiet⟩ := @reconcile_of_agrees env' k replayed <| by
      rw [heq]
      exact hagree.symm.imp_right fun hm => ⟨broker, hfind', hm⟩
    refine ⟨fun b hb => ?_, replayed, rfl, hquiet, by rw [hcell', heq]⟩
    exact Option.some.inj (hfind.symm.trans hb) ▸ hagree

theorem machine_acknowledge (cell : Cell) :
    (Track.acknowledge ⟨cell.order.state, cell.order.state, cell.fsm.state⟩
      (cell.order.brokerOrderId = none)).machine = cell.acknowledgedState := by
  rw [Track.acknowledge, acknowledgedState, Track.on, state_after_takes]
  simp only [decide_eq_true_eq]
  split_ifs <;> rfl

/-- The track of a catch-up leaves an order repaired exactly when catching up repairs it. -/
theorem leavesRepaired_iff {broker : BrokerOrderStatus} (hsane : cell.Sane)
    (hopen : ¬cell.order.state.Terminal) (hnot : ¬brokerStateMatches cell.order broker)
    (hknown : broker.state ≠ .unknown) (hqty : cell.order.filledQty ≤ broker.filledQty) :
    (cell.filledTrack broker).LeavesRepaired
        (cell.order.brokerOrderId = none ∨ cell.order.brokerOrderId = some broker.brokerOrderId)
        broker.state ↔ cell.CatchesUp broker := by
  have hiff := Track.repairs_iff cell.order.state cell.fsm.state
    (cell.order.brokerOrderId = none) (cell.order.brokerOrderId = some broker.brokerOrderId)
    (cell.missingFill broker) (missingFill_cases cell broker) broker.state hknown
    ⟨(OrderState.open_iff_not_terminal _).mpr hopen, hsane.ne_pending.1, hsane.ne_pending.2,
      hsane.submitted, fun h => decide_eq_true (hsane.unacknowledged h),
      fun h => decide_eq_false (hsane.accepted h), fun h => by simp_all⟩ fun h => by
      refine hnot ⟨of_decide_eq_true h.1, le_antisymm hqty (sub_nonpos.mp ?_), h.2.2⟩
      by_contra hc
      rw [missingFill, if_pos (not_le.mp hc)] at h
      exact Option.some_ne_none _ h.2.1
  rw [filledTrack, Bool.decide_or]
  refine hiff.trans ?_
  unfold Track.Repairs
  rw [machine_acknowledge, CatchesUp, missingFill]
  dsimp only
  split_ifs <;> cases broker.state <;> simp

/-- **When a recovery settles an order.** -/
theorem settles_iff (hsane : cell.Sane)
    (hsame : env'.findOrderByClientId k = env.findOrderByClientId k)
    (hanswers : ∀ broker, env.findOrderByClientId k = some broker →
      broker.state ≠ .unknown ∧ cell.order.filledQty ≤ broker.filledQty) :
    cell.Settles env env' k ↔
      (cell.order.state.Open → cell.Repairable (env.findOrderByClientId k)) := by
  rw [OrderState.open_iff_not_terminal]
  by_cases hopen : cell.order.state.Terminal
  · exact iff_of_true (settles_of_agrees (Or.inl hopen) hsame) fun h => absurd hopen h
  unfold Repairable
  rcases hfind : env.findOrderByClientId k with _ | broker
  · rw [settles_iff_of_unknown hopen hfind]
    exact ⟨fun h _ => h, fun h => h hopen⟩
  obtain ⟨hknown, hqty⟩ := hanswers broker hfind
  by_cases hm : brokerStateMatches cell.order broker
  · exact iff_of_true (settles_of_agrees (Or.inr ⟨broker, hfind, hm⟩) hsame)
      fun _ => Or.inl hm
  · rw [settles_iff_of_catchUp hopen hfind hsame hm hqty,
      leavesRepaired_iff hsane hopen hm hknown hqty]
    exact ⟨fun h _ => Or.inr h, fun h => (h hopen).resolve_left hm⟩

end Settles

end Cell

/-! ### All orders -/

/-- What the broker answers is never behind the log, and always a state we know. -/
def RecoveryEnv.Plausible (env : RecoveryEnv) (log : List LoggedEvent) : Prop :=
  ∀ k cell broker, Book.replayCell k log none = some cell →
    env.findOrderByClientId k = some broker →
    broker.state ≠ .unknown ∧ 0 ≤ broker.filledQty ∧ cell.order.filledQty ≤ broker.filledQty

namespace Oms

/-- Every order the broker knows is as the broker says, or is terminal. -/
def AgreesWithBroker (s : Oms) (env : RecoveryEnv) : Prop :=
  ∀ k order broker, s.orders.get? k = some order → env.findOrderByClientId k = some broker →
    brokerStateMatches order broker ∨ order.state.Terminal

/-- **Recovery converges**: the orders agree with the broker, and the next process, which starts
from the log this one leaves, makes no progress and ends with the same orders. -/
def Converges (log : List LoggedEvent) (env env' : RecoveryEnv) : Prop :=
  ∃ s summary, (reboot log).recover env = some (s, summary) ∧ s.AgreesWithBroker env ∧
    ∃ s' summary', (reboot s.store).recover env' = some (s', summary') ∧
      (∃ appended, s'.store = s.store ++ appended ∧ ∀ e ∈ appended, ¬e.Progress) ∧
      ∀ k, s'.orders.get? k = s.orders.get? k

section Converges

variable {log : List LoggedEvent} {env env' : RecoveryEnv} {b : Book}

/-- A log that replays gives every order the cell its events make. -/
theorem exists_book_of_replayLog (hlog : ((reboot log).replayLog).isSome) :
    ∃ b, Book.empty.applyLog log = some b ∧ b.Paired ∧
      ∀ k, b.cell k = Book.replayCell k log none := by
  rw [replayLog, Option.isSome_map] at hlog
  obtain ⟨b, hb⟩ := Option.isSome_iff_exists.mp hlog
  obtain ⟨hp, hcells, -⟩ := Book.paired_empty.applyLog hb
  exact ⟨b, hb, hp, hcells⟩

/-- A log that replays is recovered from. -/
theorem recover_reboot (hb : Book.empty.applyLog log = some b) (env : RecoveryEnv) :
    (reboot log).recover env =
      some (({ reboot log with toBook := b } : Oms).reconcileOpenOrders env) := by
  have hr : (reboot log).replayLog = some { reboot log with toBook := b } :=
    Option.map_eq_some_iff.mpr ⟨b, hb, rfl⟩
  rw [recover, hr, Option.map_some]

theorem mem_keys_iff_isSome_cell {s : Oms} (hs : s.Paired) (k : OrderId) :
    k ∈ s.orders.keys ↔ (s.cell k).isSome := by
  rw [← Option.isSome_map (f := fun cell : Cell => cell.order), ← hs.get?_orders]
  exact Dict.mem_keys_iff.trans Option.isSome_iff_exists.symm

theorem mem_keys_of_cell {s : Oms} (hs : s.Paired) {k : OrderId} {cell : Cell}
    (h : s.cell k = some cell) : k ∈ s.orders.keys :=
  (mem_keys_iff_isSome_cell hs k).mpr (h ▸ rfl)

theorem not_mem_keys_of_cell {s : Oms} (hs : s.Paired) {k : OrderId} (h : s.cell k = none) :
    k ∉ s.orders.keys := by
  rw [mem_keys_iff_isSome_cell hs, h]
  exact Bool.false_ne_true

/-- What recovery logs is what it logs for the cells. -/
theorem mem_flatMap_reconcileLog_iff {s : Oms} (hs : s.Paired) {e : LoggedEvent} :
    e ∈ s.orders.keys.flatMap (reconcileLog env s) ↔
      ∃ k cell, s.cell k = some cell ∧ e ∈ (cell.reconcile env k).2 := by
  rw [List.mem_flatMap]
  refine exists_congr fun k => ?_
  rcases hc : s.cell k with _ | cell
  · simp [not_mem_keys_of_cell hs hc]
  · simp [mem_keys_of_cell hs hc, reconcileLog, hc]

/-- **What the next process replays**: every cell as the recovery of its order logged it. -/
theorem exists_replay_again {r : Oms} (hb : Book.empty.applyLog r.store = some r.toBook)
    (env : RecoveryEnv) :
    ∃ b', Book.empty.applyLog (r.reconcileOpenOrders env).1.store = some b' ∧ b'.Paired ∧
      ∀ k, b'.cell k = (r.cell k).bind fun cell =>
        Book.replayCell k (cell.reconcile env k).2 (some cell) := by
  have hp : r.Paired := (Book.paired_empty.applyLog hb).1
  obtain ⟨hstore, -⟩ := reconcileOpenOrders_spec env hp
  have hknown : ∀ e ∈ r.orders.keys.flatMap (reconcileLog env r),
      ¬e.IsIntent ∧ (r.cell e.orderId).isSome := by
    intro e he
    obtain ⟨k, hk, he⟩ := List.mem_flatMap.mp he
    obtain ⟨rfl, hi⟩ := about_reconcileLog env hp k e he
    exact ⟨hi, (mem_keys_iff_isSome_cell hp _).mp hk⟩
  obtain ⟨b', hb', -⟩ := hp.exists_applyLog hknown
  obtain ⟨hp', hcell', -⟩ := hp.applyLog hb'
  refine ⟨b', ?_, hp', fun k => ?_⟩
  · rw [hstore, Book.applyLog_append, hb]
    exact hb'
  · rw [hcell', replayCell_flatMap (fun k e he => (about_reconcileLog env hp k e he).1)
      r.orders.nodup_keys]
    rcases hc : r.cell k with _ | cell
    · rw [if_neg (not_mem_keys_of_cell hp hc)]
      rfl
    · rw [if_pos (mem_keys_of_cell hp hc), reconcileLog, hc]
      rfl

/-- Recovery converges if it settles every order. -/
theorem converges_iff_forall_settles (hb : Book.empty.applyLog log = some b) :
    Converges log env env' ↔ ∀ k cell, b.cell k = some cell → cell.Settles env env' k := by
  let r : Oms := { reboot log with toBook := b }
  have hp : r.Paired := (Book.paired_empty.applyLog hb).1
  obtain ⟨-, hcell, -, -, hkeys, hp₁⟩ := reconcileOpenOrders_spec env hp
  set s := (r.reconcileOpenOrders env).1 with hs
  obtain ⟨b', hb', hp', hcell'⟩ := exists_replay_again (r := r) hb env
  let r' : Oms := { reboot s.store with toBook := b' }
  obtain ⟨hstore₂, hcell₂, -, -, -, hp₂⟩ := reconcileOpenOrders_spec (s := r') env' hp'
  set s' := (r'.reconcileOpenOrders env').1 with hs'
  have hconv : Converges log env env' ↔ s.AgreesWithBroker env ∧
      (∀ e ∈ r'.orders.keys.flatMap (reconcileLog env' r'), ¬e.Progress) ∧
        ∀ k, s'.orders.get? k = s.orders.get? k := by
    constructor
    · rintro ⟨t, _, ht, hagree, t', _, ht', ⟨appended, happ, hquiet⟩, horders⟩
      rw [recover_reboot hb, Option.some.injEq] at ht
      obtain rfl : s = t := congrArg Prod.fst ht
      rw [recover_reboot hb', Option.some.injEq] at ht'
      obtain rfl : s' = t' := congrArg Prod.fst ht'
      have := List.append_cancel_left (hstore₂.symm.trans happ)
      exact ⟨hagree, this ▸ hquiet, horders⟩
    · rintro ⟨hagree, hquiet, horders⟩
      exact ⟨s, _, recover_reboot hb env, hagree, s', _, recover_reboot hb' env',
        ⟨_, hstore₂, hquiet⟩, horders⟩
  rw [hconv]
  constructor
  · rintro ⟨hagree, hquiet, horders⟩ k cell hc
    have hlive : s.cell k = some (cell.reconcile env k).1 := by
      rw [hcell, show r.cell k = some cell from hc, Option.map_some]
    have hlast := horders k
    rw [hp₁.get?_orders, hlive, hp₂.get?_orders, hcell₂] at hlast
    obtain ⟨last, hcell₃, horder⟩ := Option.map_eq_some_iff.mp hlast
    obtain ⟨replayed, hreplayed, rfl⟩ := Option.map_eq_some_iff.mp hcell₃
    have hr' : b'.cell k = some replayed := hreplayed
    refine ⟨fun broker hfind => hagree k _ broker ?_ hfind, replayed, ?_, fun e he => ?_, horder⟩
    · rw [hp₁.get?_orders, hlive, Option.map_some]
    · rw [hcell', show r.cell k = some cell from hc] at hr'
      exact hr'
    · exact hquiet e ((mem_flatMap_reconcileLog_iff (s := r') hp').mpr ⟨k, _, hreplayed, he⟩)
  · intro hsettles
    refine ⟨fun k order broker ho hfind => ?_, fun e he => ?_, fun k => ?_⟩
    · rw [hp₁.get?_orders, hcell, Option.map_map] at ho
      obtain ⟨cell, hc, rfl⟩ := Option.map_eq_some_iff.mp ho
      exact (hsettles k cell hc).1 broker hfind
    · -- the cell of the next process comes from a cell of this one
      obtain ⟨k, replayed, hr', he⟩ := (mem_flatMap_reconcileLog_iff (s := r') hp').mp he
      obtain ⟨cell, hc, hreplayed⟩ := Option.bind_eq_some_iff.mp ((hcell' k).symm.trans hr')
      obtain ⟨-, replayed', hreplayed', hquiet, -⟩ := hsettles k cell hc
      obtain rfl := Option.some.inj (hreplayed'.symm.trans hreplayed)
      exact hquiet e he
    · rw [hp₁.get?_orders, hp₂.get?_orders, hcell, hcell₂, show r'.cell k = _ from hcell' k]
      rcases hc : r.cell k with _ | cell
      · rfl
      · obtain ⟨-, replayed, hreplayed, -, horder⟩ := hsettles k cell hc
        rw [Option.bind_some, hreplayed]
        exact congrArg some horder

/-- **Recovery converges exactly when every open order of the log is repairable**: for every log
that can be replayed and every set of broker answers that is not behind it. -/
theorem converges_iff {log : List LoggedEvent} {env env' : RecoveryEnv}
    (hlog : ((reboot log).replayLog).isSome) (hanswers : env.Plausible log)
    (hsame : env'.findOrderByClientId = env.findOrderByClientId) :
    Converges log env env' ↔
      ∀ k cell, Book.replayCell k log none = some cell → cell.order.state.Open →
        cell.Repairable (env.findOrderByClientId k) := by
  obtain ⟨b, hb, -, hcells⟩ := exists_book_of_replayLog hlog
  rw [converges_iff_forall_settles hb]
  simp only [hcells]
  refine forall₂_congr fun k cell => forall_congr' fun hc => ?_
  exact Cell.settles_iff (Cell.sane_replayCell hc) (congrFun hsame k) fun broker hfind =>
    ⟨(hanswers k cell broker hc hfind).1, (hanswers k cell broker hc hfind).2.2⟩

/-- What the broker says of a market order it knows. -/
def statusOf (order : Order) (filledQty : Decimal) (state : BrokerOrderState) :
    BrokerOrderStatus where
  brokerOrderId := "b-" ++ toString order.id
  clientOrderId := order.id
  symbol := order.symbol
  side := order.side
  qty := order.qty
  filledQty := filledQty
  avgFillPrice := some 100
  state := state
  submittedAt := 0
  updatedAt := 2

/-- The first order was filled while the system was down, the second never reached the broker. -/
def downRun : List OmsOp :=
  [.submitOrder (marketOrder 1 .buy 10) ⟨[], .returned "b-1"⟩ 0,
    .submitOrder (marketOrder 2 .sell 3) ⟨[], .unavailable⟩ 1]

def downEnv : RecoveryEnv where
  findOrderByClientId k :=
    if k = 1 then some (statusOf (marketOrder 1 .buy 10) 10 .filled) else none
  fillId _ := 7
  now := 5

theorem converges_downRun : Converges (run step Oms.empty downRun).store downEnv downEnv := by
  have hcell : ∀ k ∈ (run step Oms.empty downRun).store.map (·.orderId),
      ∀ cell ∈ Book.replayCell k (run step Oms.empty downRun).store none,
        cell.Repairable (downEnv.findOrderByClientId k) := by
    decide +kernel
  have hanswers : ∀ k ∈ (run step Oms.empty downRun).store.map (·.orderId),
      ∀ cell ∈ Book.replayCell k (run step Oms.empty downRun).store none,
        ∀ broker ∈ downEnv.findOrderByClientId k,
          broker.state ≠ .unknown ∧ 0 ≤ broker.filledQty ∧
            cell.order.filledQty ≤ broker.filledQty := by
    decide +kernel
  refine (converges_iff (by decide +kernel) (fun k cell broker hc hb => ?_) rfl).mpr
    fun k cell hc _ => hcell k (Book.mem_of_replayCell hc) cell hc
  exact hanswers k (Book.mem_of_replayCell hc) cell hc broker hb

/-- An order for slightly more than the broker can fill, and a fill of all the broker gives. -/
def driftRun : List OmsOp :=
  [.submitOrder (marketOrder 1 .buy (10 + 1 / 100000000)) ⟨[], .returned "b-1"⟩ 0,
    .brokerEvent (fillEventFor 7 1 .buy 10 .partiallyFilled) 1]

/-- The broker reports the order as filled. -/
def driftEnv : RecoveryEnv where
  findOrderByClientId _ :=
    some (statusOf (marketOrder 1 .buy (10 + 1 / 100000000)) 10 .filled)
  fillId _ := 8
  now := 5

/-- **An order closed by force is closed again on every boot.** -/
theorem not_converges_driftRun :
    ((reboot (run step Oms.empty driftRun).store).replayLog).isSome ∧
      driftEnv.Plausible (run step Oms.empty driftRun).store ∧
      ¬Converges (run step Oms.empty driftRun).store driftEnv driftEnv := by
  have hanswers : ∀ k ∈ (run step Oms.empty driftRun).store.map (·.orderId),
      ∀ cell ∈ Book.replayCell k (run step Oms.empty driftRun).store none,
        ∀ broker ∈ driftEnv.findOrderByClientId k,
          broker.state ≠ .unknown ∧ 0 ≤ broker.filledQty ∧
            cell.order.filledQty ≤ broker.filledQty := by
    decide +kernel
  have hprogress : ((reboot (run step Oms.empty driftRun).store).recover driftEnv).bind
      (fun r => ((reboot r.1.store).recover driftEnv).map fun r' =>
        decide (∃ e ∈ r'.1.store.drop r.1.store.length, e.Progress)) = some true := by
    decide +kernel
  refine ⟨by decide +kernel, fun k cell broker hc hb =>
    hanswers k (Book.mem_of_replayCell hc) cell hc broker hb, ?_⟩
  rintro ⟨s, _, hs, -, s', _, hs', ⟨appended, happ, hquiet⟩, -⟩
  rw [hs, Option.bind_some, hs', Option.map_some, Option.some_inj, happ,
    List.drop_left] at hprogress
  obtain ⟨e, he, hp⟩ := of_decide_eq_true hprogress
  exact hquiet e he hp

end Converges

end Oms

end TradingPlatform
