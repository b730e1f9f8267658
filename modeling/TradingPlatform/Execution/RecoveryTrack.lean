import TradingPlatform.Execution.RecoveryCells

/-!
# What a recovery leaves for the next one

A recovery writes what it does to the log, and the next process replays it. The two need not
end in the same state: the live handlers leave an order's state alone when its machine refuses
an event, and the replay assigns the event's state in any case. Nothing else about an order
depends on its state. So a recovery is followed here on three states only – the live order's,
the replayed order's, and the machine's, which both share (`TradingPlatform.Track`) – and
`TradingPlatform.Cell.catchUp_tracked` says that this loses nothing.

The one step that is not followed is the forced close of an order the broker reports as filled.
It rewrites the live order and logs nothing (`TradingPlatform.Track.Forces`).

What a replay makes of a log is never quite arbitrary. An order that was only submitted has a
machine in that state and no broker identifier, and an accepted one has one
(`TradingPlatform.Cell.Sane`).
-/

namespace TradingPlatform

/-! ### Tracks -/

/-- The state of a live order, of its replay, and of the machine of both. -/
structure Track where
  live : OrderState
  replayed : OrderState
  machine : OrderState
  deriving DecidableEq

/-- The lifecycle has an arc. -/
def OrderState.Takes (state : OrderState) (event : OrderEvent) : Prop :=
  (orderTable.get? (state, event)).isSome

instance (state : OrderState) (event : OrderEvent) : Decidable (state.Takes event) :=
  inferInstanceAs (Decidable (_ = true))

/-- Where an event leads the machine of an order. -/
theorem state_after_takes (fsm : OrderFsm) (event : OrderEvent) :
    (fsm.after event).state = if fsm.state.Takes event then event.target else fsm.state := by
  rw [StateMachine.state_after]
  split_ifs with ht
  · obtain ⟨toState, harc⟩ := Option.isSome_iff_exists.mp ht
    rw [harc]
    exact orderTable_get?_eq_some harc
  · rw [OrderState.Takes, Bool.not_eq_true, Option.isSome_eq_false_iff,
      Option.isNone_iff_eq_none] at ht
    rw [ht]
    rfl

namespace Track

/-- A logged event: the replay goes where it leads, the live order only if there is an arc. -/
def on (t : Track) (event : OrderEvent) : Track :=
  if t.machine.Takes event then ⟨event.target, event.target, event.target⟩
  else { t with replayed := event.target }

/-- The replay of a logged event goes where it leads. -/
theorem replayed_on (t : Track) (event : OrderEvent) : (t.on event).replayed = event.target := by
  rw [on]
  split_ifs <;> rfl

/-- A refused event separates an open order from its replay. -/
theorem on_agrees_iff {t : Track} {event : OrderEvent} (hne : t.live ≠ event.target) :
    (t.on event).replayed = (t.on event).live ↔ t.machine.Takes event := by
  rw [on]
  split_ifs with ht
  · exact iff_of_true rfl ht
  · exact iff_of_false (fun heq => hne heq.symm) ht

/-- The broker's acceptance, if it is news. -/
def acknowledge (t : Track) (unacknowledged : Bool) : Track :=
  if unacknowledged then t.on .accept else t

/-- The fill, if there is one. -/
def fillUp (t : Track) (fill : Option OrderEvent) : Track := (fill.map t.on).getD t

/-- Close an order that is not terminal. -/
def close (t : Track) (event : OrderEvent) : Track := if t.live.Terminal then t else t.on event

/-- Follow the broker to a terminal state, but for a forced close. -/
def catchUpTerminal (t : Track) (state : BrokerOrderState) : Track :=
  match state with
  | .canceled => t.close .cancel
  | .rejected => t.close .reject
  | .expired => t.close .expire
  | .new | .accepted | .partiallyFilled | .filled | .unknown => t

/-- The broker's state calls for a forced close. -/
def Forces (t : Track) (state : BrokerOrderState) : Prop :=
  state = .filled ∧ ¬t.live.Terminal

instance (t : Track) (state : BrokerOrderState) : Decidable (t.Forces state) :=
  inferInstanceAs (Decidable (_ ∧ _))

end Track

/-! ### Cells and their tracks -/

namespace Cell

/-- A live cell and its replay, with their track: they differ in the state of the order. -/
structure Tracks (live replayed : Cell) (t : Track) : Prop where
  live_eq : live.order.state = t.live
  order_eq : replayed.order = { live.order with state := t.replayed }
  fsm_eq : replayed.fsm = live.fsm
  machine_eq : live.fsm.state = t.machine

theorem Tracks.refl (cell : Cell) :
    cell.Tracks cell ⟨cell.order.state, cell.order.state, cell.fsm.state⟩ :=
  ⟨rfl, rfl, rfl, rfl⟩

/-- The replay rebuilds the order if its track says so. -/
theorem Tracks.order_eq_iff {live replayed : Cell} {t : Track} (h : live.Tracks replayed t) :
    replayed.order = live.order ↔ t.replayed = t.live := by
  rw [h.order_eq, ← h.live_eq]
  exact ⟨fun heq => congrArg Order.state heq, fun heq => by rw [heq]⟩

/-- An event whose update of the order does not depend on the order's state. -/
theorem Tracks.on {live replayed : Cell} {t : Track} (h : live.Tracks replayed t)
    (update : Order → Order) {event : OrderEvent}
    (hupdate : ∀ (order : Order) state,
      update { order with state := state } = { update order with state := state })
    (hstate : ∀ order, (update order).state = order.state) :
    (live.drive (update live.order) event).Tracks (replayed.advance update event)
      (t.on event) := by
  have hcan : live.fsm.canTrigger event = true ↔ t.machine.Takes event := by
    rw [StateMachine.canTrigger, h.machine_eq, OrderState.Takes]
  have hafter := state_after_takes live.fsm event
  rw [h.machine_eq] at hafter
  have horder : (replayed.advance update event).order =
      { update live.order with state := event.target } := by
    rw [Cell.advance, h.order_eq, hupdate]
  rw [Track.on]
  refine ⟨?_, ?_, ?_, ?_⟩
  · rw [drive, Order.moved]
    split_ifs with hc ht ht
    · rw [hafter, if_pos ht]
    · exact absurd (hcan.mp hc) ht
    · exact absurd (hcan.mpr ht) hc
    · exact (hstate _).trans h.live_eq
  · rw [horder, drive, Order.moved]
    split_ifs <;> rfl
  · rw [Cell.advance, h.fsm_eq, drive]
  · rw [drive, hafter]
    split_ifs with ht
    · rfl
    · rfl

/-- What an action leaves, what the replay makes of what it logs, and their track. -/
def Effect.Tracked (effect : Effect) (k : OrderId) (replayed : Cell) (t : Track) : Prop :=
  ∃ replayed', Book.replayCell k effect.2 (some replayed) = some replayed' ∧
    effect.1.Tracks replayed' t

theorem Tracks.tracked {live replayed : Cell} {t : Track} (h : live.Tracks replayed t)
    (k : OrderId) : Effect.Tracked (live, []) k replayed t :=
  ⟨replayed, rfl, h⟩

/-- One action after another. -/
theorem Effect.Tracked.andThen {effect : Effect} {k : OrderId} {replayed : Cell} {t t' : Track}
    {action : Cell → Effect} (h : effect.Tracked k replayed t)
    (haction : ∀ replayed', effect.1.Tracks replayed' t →
      (action effect.1).Tracked k replayed' t') :
    (effect.andThen action).Tracked k replayed t' := by
  obtain ⟨c₁, h₁, ht₁⟩ := h
  obtain ⟨c₂, h₂, ht₂⟩ := haction c₁ ht₁
  refine ⟨c₂, ?_, ht₂⟩
  rw [Effect.andThen, Book.replayCell_append, h₁, h₂]

section

variable {live replayed : Cell} {t : Track}

/-- The replay of one event about the order. -/
theorem replayCell_singleton (k : OrderId) (kind : EventKind) (ts : Time) (cell : Option Cell) :
    Book.replayCell k [⟨kind, k, ts⟩] cell = LoggedEvent.onCell ⟨kind, k, ts⟩ cell :=
  if_pos rfl

theorem Tracks.acknowledge (h : live.Tracks replayed t) (k : OrderId)
    (broker : BrokerOrderStatus) (ts : Time) :
    (live.acknowledge k broker ts).Tracked k replayed
      (t.acknowledge (live.order.brokerOrderId = none)) := by
  rw [Cell.acknowledge, Track.acknowledge]
  by_cases hb : live.order.brokerOrderId = none
  · rw [if_pos hb, if_pos (decide_eq_true hb)]
    exact ⟨_, replayCell_singleton _ _ _ _, h.on (fun order =>
      { order with brokerOrderId := some broker.brokerOrderId, submittedAt := some ts })
      (fun _ _ => rfl) fun _ => rfl⟩
  · rw [if_neg hb, if_neg (by simpa using hb)]
    exact h.tracked k

/-- The lifecycle event of the fill that is missing, if one is. -/
def missingFill (cell : Cell) (broker : BrokerOrderStatus) : Option OrderEvent :=
  if 0 < broker.filledQty - cell.order.filledQty then
    some (if isFullyFilled cell.order.qty broker.filledQty then .fullFill else .partialFill)
  else none

theorem Tracks.fillUp (h : live.Tracks replayed t) (k : OrderId) (broker : BrokerOrderStatus)
    (fillId : FillId) (ts : Time) :
    (live.fillUp k broker fillId ts).Tracked k replayed (t.fillUp (live.missingFill broker)) := by
  rw [Cell.fillUp, Track.fillUp, missingFill]
  by_cases hd : 0 < broker.filledQty - live.order.filledQty
  · rw [if_pos hd, if_pos hd]
    let fill := syntheticFill live.order broker fillId ts
    have hevent : ∀ order : Order, order.qty = live.order.qty →
        order.filledQty = live.order.filledQty → order.fillEvent fill =
          if isFullyFilled live.order.qty broker.filledQty then .fullFill else .partialFill := by
      intro order hq hf
      rw [Order.fillEvent, hq, hf, show live.order.filledQty + fill.qty = broker.filledQty from
        add_sub_cancel _ _]
    refine ⟨_, replayCell_singleton _ _ _ _, ?_⟩
    change (live.drive (live.order.bookFill fill ts) (live.order.fillEvent fill)).Tracks
      (replayed.advance (·.bookFill fill ts) (replayed.order.fillEvent fill)) _
    rw [hevent live.order rfl rfl, hevent replayed.order (by rw [h.order_eq]) (by rw [h.order_eq])]
    exact h.on (·.bookFill fill ts) (fun _ _ => rfl) fun _ => rfl
  · rw [if_neg hd, if_neg hd]
    exact h.tracked k

theorem Tracks.handleClosing (h : live.Tracks replayed t) {k : OrderId} {kind : EventKind}
    {update : Order → Order} {event : OrderEvent} {ts : Time}
    (hon : (⟨kind, k, ts⟩ : LoggedEvent).onCell (some replayed) =
      some (replayed.advance update event))
    (hupdate : ∀ (order : Order) state,
      update { order with state := state } = { update order with state := state })
    (hstate : ∀ order, (update order).state = order.state) :
    (live.handleClosing k kind update event ts).Tracked k replayed (t.close event) := by
  rw [Cell.handleClosing, Track.close]
  by_cases ht : live.order.state.Terminal
  · rw [if_pos ht, if_pos (h.live_eq ▸ ht)]
    exact h.tracked k
  · rw [if_neg ht, if_neg (h.live_eq ▸ ht)]
    exact ⟨_, (replayCell_singleton _ _ _ _).trans hon, h.on update hupdate hstate⟩

/-- Following the broker to a terminal state, unless that is a forced close. -/
theorem Tracks.catchUpTerminal (h : live.Tracks replayed t) (k : OrderId)
    {broker : BrokerOrderStatus} (ts : Time) (hforce : ¬t.Forces broker.state) :
    (live.catchUpTerminal k broker ts).Tracked k replayed (t.catchUpTerminal broker.state) := by
  unfold Cell.catchUpTerminal Track.catchUpTerminal
  cases hst : broker.state with
  | canceled => exact h.handleClosing rfl (fun _ _ => rfl) fun _ => rfl
  | rejected => exact h.handleClosing rfl (fun _ _ => rfl) fun _ => rfl
  | expired => exact h.handleClosing rfl (fun _ _ => rfl) fun _ => rfl
  | filled =>
    have ht : live.order.state.Terminal := by
      by_contra hc
      exact hforce ⟨hst, h.live_eq ▸ hc⟩
    rw [Cell.forceCloseFilled, if_pos ht]
    exact h.tracked k
  | new | accepted | partiallyFilled | unknown => exact h.tracked k

end

/-! ### Catching up -/

/-- The track of a catch-up, up to the point where it follows the broker to a terminal
state. -/
def filledTrack (cell : Cell) (broker : BrokerOrderStatus) : Track :=
  (Track.acknowledge ⟨cell.order.state, cell.order.state, cell.fsm.state⟩
    (cell.order.brokerOrderId = none)).fillUp (cell.missingFill broker)

/-- The track of a catch-up without a forced close. -/
def catchUpTrack (cell : Cell) (broker : BrokerOrderStatus) : Track :=
  (cell.filledTrack broker).catchUpTerminal broker.state

/-- The first half of a catch-up: the acceptance and the fill. -/
def filled (cell : Cell) (k : OrderId) (broker : BrokerOrderStatus) (fillId : FillId)
    (ts : Time) : Effect :=
  (cell.acknowledge k broker ts).andThen (Cell.fillUp k broker fillId ts)

/-- After a fill none is missing. -/
theorem filledQty_fillUp {cell : Cell} {k : OrderId} {status : BrokerOrderStatus} {fillId : FillId}
    {ts : Time} :
    (cell.fillUp k status fillId ts).1.order.filledQty =
      max cell.order.filledQty status.filledQty := by
  rw [fillUp]
  split_ifs with hd
  · refine (Order.sameTrade_moved _ _ _).filledQty.trans ?_
    rw [max_eq_right (sub_pos.mp hd).le]
    exact add_sub_cancel _ _
  · exact (max_eq_left (sub_nonpos.mp (not_lt.mp hd))).symm

section CatchUp

variable (cell : Cell) (k : OrderId) (broker : BrokerOrderStatus) (fillId : FillId) (ts : Time)

theorem acknowledge_sameTrade :
    (cell.acknowledge k broker ts).1.order.SameTrade cell.order ∧
      (cell.acknowledge k broker ts).1.order.qty = cell.order.qty := by
  rw [Cell.acknowledge]
  split_ifs
  · refine ⟨(Order.sameTrade_moved _ _ _).trans ⟨rfl, rfl, rfl, rfl, rfl⟩, ?_⟩
    rw [drive, Order.moved]
    split_ifs <;> rfl
  · exact ⟨.refl _, rfl⟩

theorem filled_tracked :
    (cell.filled k broker fillId ts).Tracked k cell (cell.filledTrack broker) := by
  refine ((Tracks.refl cell).acknowledge k broker ts).andThen fun replayed' h => ?_
  have hsame := cell.acknowledge_sameTrade k broker ts
  have hmiss : (cell.acknowledge k broker ts).1.missingFill broker = cell.missingFill broker := by
    rw [missingFill, hsame.1.filledQty, hsame.2, missingFill]
  have := h.fillUp k broker fillId ts
  rwa [hmiss] at this

/-- The record with which a catch-up ends is an audit record: the replay ignores it. -/
theorem replayCell_audit (advanced : Bool) (deltaQty : Decimal) (replayed : Cell) :
    Book.replayCell k [⟨if advanced then .reconcileRecovered broker.state (some deltaQty)
      else .reconcileNoop broker.state (some deltaQty), k, ts⟩] (some replayed) =
        some replayed := by
  rw [replayCell_singleton]
  cases advanced <;> rfl

/-- **A catch-up that forces nothing is followed by its track.** -/
theorem catchUp_tracked (hforce : ¬(cell.filledTrack broker).Forces broker.state) :
    (cell.catchUp k broker fillId ts).Tracked k cell (cell.catchUpTrack broker) := by
  obtain ⟨replayed, hreplay, ht⟩ := (cell.filled_tracked k broker fillId ts).andThen
    fun replayed' h => h.catchUpTerminal k ts hforce
  refine ⟨replayed, ?_, ht⟩
  rw [Cell.catchUp, Book.replayCell_append]
  exact (congrArg _ hreplay).trans (replayCell_audit k broker ts _ _ _)

/-- A forced close: the live cell is rewritten, and the log does not show it. -/
theorem catchUp_of_forces (hforce : (cell.filledTrack broker).Forces broker.state) :
    ∃ replayed, Book.replayCell k (cell.catchUp k broker fillId ts).2 (some cell) =
        some replayed ∧
      (cell.filled k broker fillId ts).1.Tracks replayed (cell.filledTrack broker) ∧
      (cell.catchUp k broker fillId ts).1 =
        ((cell.filled k broker fillId ts).1.drive
          { (cell.filled k broker fillId ts).1.order with
            qty := (cell.filled k broker fillId ts).1.order.filledQty, filledAt := some ts }
          .fullFill) := by
  obtain ⟨replayed, hreplay, ht⟩ := cell.filled_tracked k broker fillId ts
  have hopen : ¬(cell.filled k broker fillId ts).1.order.state.Terminal :=
    ht.live_eq ▸ hforce.2
  have hclose : (cell.filled k broker fillId ts).1.catchUpTerminal k broker ts =
      ((cell.filled k broker fillId ts).1.drive
          { (cell.filled k broker fillId ts).1.order with
            qty := (cell.filled k broker fillId ts).1.order.filledQty, filledAt := some ts }
          .fullFill, []) := by
    rw [Cell.catchUpTerminal, hforce.1]
    exact if_neg hopen
  refine ⟨replayed, ?_, ht, congrArg Prod.fst hclose⟩
  have hlog : (cell.catchUp k broker fillId ts).2 = (cell.filled k broker fillId ts).2 ++ [] ++
      _ := congrArg (fun log => (cell.filled k broker fillId ts).2 ++ log ++ _)
        (congrArg Prod.snd hclose)
  rw [hlog, List.append_nil, Book.replayCell_append, hreplay]
  exact replayCell_audit k broker ts _ _ _

/-- What a catch-up leaves of the order's identifier and quantity. -/
theorem filled_order :
    (cell.filled k broker fillId ts).1.order.brokerOrderId =
        (if cell.order.brokerOrderId = none then some broker.brokerOrderId
          else cell.order.brokerOrderId) ∧
      (cell.filled k broker fillId ts).1.order.filledQty =
        max cell.order.filledQty broker.filledQty := by
  have hsame := cell.acknowledge_sameTrade k broker ts
  have hack : (cell.acknowledge k broker ts).1.order.brokerOrderId =
      if cell.order.brokerOrderId = none then some broker.brokerOrderId
        else cell.order.brokerOrderId := by
    rw [Cell.acknowledge]
    split_ifs
    · exact Order.brokerOrderId_moved _ _ _
    · rfl
  constructor
  · rw [filled, Effect.andThen, Cell.fillUp]
    split_ifs
    · exact (Order.brokerOrderId_moved _ _ _).trans (hack.trans (if_pos ‹_›))
    · exact (Order.brokerOrderId_moved _ _ _).trans (hack.trans (if_neg ‹_›))
    · exact hack.trans (if_pos ‹_›)
    · exact hack.trans (if_neg ‹_›)
  · exact filledQty_fillUp.trans (congrArg (max · broker.filledQty) hsame.1.filledQty)

end CatchUp

/-! ### Cells of a replay -/

/-- What holds of every cell a replay makes. -/
structure Sane (cell : Cell) : Prop where
  /-- An order that was only submitted has a machine that was only submitted. -/
  submitted : cell.order.state = .submitted → cell.fsm.state = .submitted
  /-- Such a machine is waiting for the broker's identifier. -/
  unacknowledged : cell.fsm.state = .submitted → cell.order.brokerOrderId = none
  /-- An accepted order has one. -/
  accepted : cell.order.state = .accepted → cell.order.brokerOrderId ≠ none
  ne_pending : cell.order.state ≠ .pending ∧ cell.fsm.state ≠ .pending

theorem target_eq_submitted {event : OrderEvent} : event.target = .submitted ↔ event = .submit := by
  cases event <;> decide

theorem target_eq_accepted {event : OrderEvent} : event.target = .accepted ↔ event = .accept := by
  cases event <;> decide

theorem target_ne_pending (event : OrderEvent) : event.target ≠ .pending := by
  cases event <;> decide

/-- A machine that is still only submitted has seen no acceptance. -/
theorem ne_accept_of_after {fsm : OrderFsm} {event : OrderEvent} (hsubmit : event ≠ .submit)
    (h : (fsm.after event).state = .submitted) : fsm.state = .submitted ∧ event ≠ .accept := by
  rw [StateMachine.state_after] at h
  revert h hsubmit
  cases fsm.state <;> cases event <;> decide

/-- Advancing a sane cell: only an acceptance touches the broker's identifier. -/
theorem Sane.advance {cell : Cell} (h : cell.Sane) {update : Order → Order} {event : OrderEvent}
    (hsubmit : event ≠ .submit)
    (hid : event ≠ .accept → (update cell.order).brokerOrderId = cell.order.brokerOrderId)
    (haccept : event = .accept → (update cell.order).brokerOrderId ≠ none) :
    (cell.advance update event).Sane where
  submitted hst := absurd (target_eq_submitted.mp hst) hsubmit
  unacknowledged hm := by
    obtain ⟨hfsm, hne⟩ := ne_accept_of_after hsubmit hm
    exact (hid hne).trans (h.unacknowledged hfsm)
  accepted hst := haccept (target_eq_accepted.mp hst)
  ne_pending := ⟨target_ne_pending event, Oms.state_after_ne_pending h.ne_pending.2 event⟩

theorem sane_onCell {logged : LoggedEvent} {cell : Option Cell}
    (h : ∀ c, cell = some c → c.Sane) {cell' : Cell} (h' : logged.onCell cell = some cell') :
    cell'.Sane := by
  obtain ⟨kind, k, ts⟩ := logged
  cases kind with
  | orderSubmitIntent payload =>
    have hfsm : ((buildOrderFsm .pending).after .submit).state = .submitted := by decide
    cases h'
    have hst : OrderEvent.submit.target ≠ .accepted := by decide
    exact ⟨fun _ => hfsm, fun _ => rfl, fun hc => absurd hc hst,
      target_ne_pending .submit, fun hc => absurd (hfsm.symm.trans hc) (by decide)⟩
  | orderAccepted brokerOrderId =>
    obtain ⟨c, hc, rfl⟩ := Option.map_eq_some_iff.mp h'
    exact (h c hc).advance (by decide) (absurd rfl) fun _ => Option.some_ne_none _
  | orderRejected reason =>
    obtain ⟨c, hc, rfl⟩ := Option.map_eq_some_iff.mp h'
    exact (h c hc).advance (by decide) (fun _ => rfl) fun hc => absurd hc (by decide)
  | fillReceived payload =>
    obtain ⟨c, hc, rfl⟩ := Option.map_eq_some_iff.mp h'
    refine (h c hc).advance ?_ (fun _ => rfl) fun hc => absurd hc ?_ <;>
      rw [Order.fillEvent] <;> split_ifs <;> decide
  | orderCancelled reason =>
    obtain ⟨c, hc, rfl⟩ := Option.map_eq_some_iff.mp h'
    exact (h c hc).advance (by decide) (fun _ => rfl) fun hc => absurd hc (by decide)
  | orderExpired =>
    obtain ⟨c, hc, rfl⟩ := Option.map_eq_some_iff.mp h'
    exact (h c hc).advance (by decide) (fun _ => rfl) fun hc => absurd hc (by decide)
  | orderCancelRequested _ | reconcileNoop _ _ | reconcileRecovered _ _ | reconcileAbandoned _ =>
    exact h cell' h'

/-- **Every cell of a replay is sane.** -/
theorem sane_replayCell {k : OrderId} {log : List LoggedEvent} {cell : Cell}
    (h : Book.replayCell k log none = some cell) : cell.Sane := by
  suffices hgen : ∀ start : Option Cell, (∀ c, start = some c → c.Sane) →
      ∀ c, Book.replayCell k log start = some c → c.Sane from
    hgen none (fun _ hc => absurd hc.symm (Option.some_ne_none _)) cell h
  clear h cell
  intro start hstart
  induction log generalizing start with
  | nil => exact hstart
  | cons logged log ih =>
    rw [Book.replayCell, List.foldl_cons, ← Book.replayCell]
    refine ih _ ?_
    split_ifs
    · exact fun c hc => sane_onCell hstart hc
    · exact hstart

end Cell

end TradingPlatform
