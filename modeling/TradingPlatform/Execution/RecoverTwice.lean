import TradingPlatform.Execution.RecoverAgain

/-!
# Recovering twice

A second recovery on the same system replays the log on top of the maps the first one left.
That rebuilds every order from its intent, so the orders come out as a new process would find
them; but the fills of an order are not reset, and the logged ones are appended to those that
are there. `TradingPlatform.Oms.idempotent_iff` says when the second recovery changes nothing:
there is no fill to replay, and every order is repeated
(`TradingPlatform.Cell.Repeatable`) – what the first recovery did to it is in the log, or is done
again in the same way.
-/

namespace TradingPlatform

namespace Cell

/-- **When a second recovery leaves an open order as the first one did.** A forced close is not
logged, but it is made again, at the time of the second recovery. -/
def Repeatable (cell : Cell) (answer : Option BrokerOrderStatus) (sameTime : Bool) : Prop :=
  match answer with
  | none => cell.fsm.state.Takes .reject
  | some broker => brokerStateMatches cell.order broker ∨
    broker.filledQty ≤ cell.order.filledQty ∧
      match broker.state with
      | .canceled => cell.acknowledgedState.Takes .cancel
      | .rejected => cell.acknowledgedState.Takes .reject
      | .expired => cell.acknowledgedState.Takes .expire
      | .filled => sameTime ∧ (cell.acknowledgedState.Takes .fullFill ∨
          (cell.order.brokerOrderId = none → cell.fsm.state.Takes .accept))
      | .new | .accepted | .partiallyFilled | .unknown =>
        cell.order.brokerOrderId = none → cell.fsm.state.Takes .accept

instance (cell : Cell) (answer : Option BrokerOrderStatus) (sameTime : Bool) :
    Decidable (cell.Repeatable answer sameTime) := by
  unfold Repeatable
  rcases answer with _ | ⟨_, _, _, _, _, _, _, state, _, _, _⟩
  · exact inferInstanceAs (Decidable (cell.fsm.state.Takes .reject))
  · dsimp only
    cases state <;> infer_instance

/-- **An order is repeated**: its replay, looked at again, is the order the first look left, and
neither look makes up a fill. -/
def Repeats (env env' : RecoveryEnv) (k : OrderId) (cell : Cell) : Prop :=
  ∃ replayed, Book.replayCell k (cell.reconcile env k).2 (some cell) = some replayed ∧
    (replayed.reconcile env' k).1.order = (cell.reconcile env k).1.order ∧
    loggedFills (cell.reconcile env k).2 k = [] ∧ loggedFills (replayed.reconcile env' k).2 k = []

section

variable {env env' : RecoveryEnv} {k : OrderId} {cell : Cell} {broker : BrokerOrderStatus}

/-! ### The fills a look makes up -/

theorem loggedFills_andThen (effect : Effect) (action : Cell → Effect) (k : OrderId) :
    loggedFills (effect.andThen action).2 k =
      loggedFills effect.2 k ++ loggedFills (action effect.1).2 k :=
  loggedFills_append _ _ _

theorem loggedFills_acknowledge (k : OrderId) (broker : BrokerOrderStatus) (ts : Time)
    (cell : Cell) : loggedFills (cell.acknowledge k broker ts).2 k = [] := by
  rw [acknowledge]
  split_ifs <;> rfl

theorem loggedFills_catchUpTerminal (k : OrderId) (broker : BrokerOrderStatus) (ts : Time)
    (cell : Cell) : loggedFills (cell.catchUpTerminal k broker ts).2 k = [] := by
  unfold catchUpTerminal
  cases broker.state with
  | canceled | rejected | expired =>
    dsimp only [handleRejection, handleClosing]
    split_ifs <;> rfl
  | filled =>
    dsimp only [forceCloseFilled]
    split_ifs <;> rfl
  | new | accepted | partiallyFilled | unknown => rfl

theorem loggedFills_audit (k : OrderId) (advanced : Bool) (broker : BrokerOrderStatus)
    (deltaQty : Decimal) (ts : Time) :
    loggedFills [⟨if advanced then .reconcileRecovered broker.state (some deltaQty)
      else .reconcileNoop broker.state (some deltaQty), k, ts⟩] k = [] := by
  cases advanced <;> rfl

/-- The fill for the quantity that is missing, if any is. -/
theorem loggedFills_fillUp (fillId : FillId) (ts : Time) :
    loggedFills (cell.fillUp k broker fillId ts).2 k =
      if 0 < broker.filledQty - cell.order.filledQty then
        [syntheticFill cell.order broker fillId ts]
      else [] := by
  rw [fillUp]
  split_ifs
  · rw [handleFill, loggedFills_singleton, LoggedEvent.fillsFor_fillReceived,
      deserializeFill_serializeFill]
  · rfl

/-- A catch-up makes up this fill and no other. -/
theorem loggedFills_catchUp (fillId : FillId) (ts : Time) :
    loggedFills (cell.catchUp k broker fillId ts).2 k =
      if 0 < broker.filledQty - cell.order.filledQty then
        [syntheticFill cell.order broker fillId ts]
      else [] := by
  have hsame := (cell.acknowledge_sameTrade k broker ts).1
  have hfill : syntheticFill (cell.acknowledge k broker ts).1.order broker fillId ts =
      syntheticFill cell.order broker fillId ts := by
    simp only [syntheticFill, hsame.id, hsame.agentId, hsame.symbol, hsame.side, hsame.filledQty]
  simp only [catchUp, loggedFills_append, loggedFills_andThen, loggedFills_acknowledge,
    loggedFills_catchUpTerminal, loggedFills_audit, List.nil_append, List.append_nil,
    loggedFills_fillUp, hsame.filledQty, hfill]

/-- A catch-up makes up a fill if one is missing. -/
theorem loggedFills_catchUp_eq_nil_iff (fillId : FillId) (ts : Time) :
    loggedFills (cell.catchUp k broker fillId ts).2 k = [] ↔
      broker.filledQty ≤ cell.order.filledQty := by
  rw [loggedFills_catchUp]
  by_cases hd : 0 < broker.filledQty - cell.order.filledQty
  · rw [if_pos hd]
    exact iff_of_false (List.cons_ne_nil _ _) (not_le.mpr (sub_pos.mp hd))
  · rw [if_neg hd]
    exact iff_of_true rfl (sub_nonpos.mp (not_lt.mp hd))

theorem loggedFills_of_agrees (h : cell.order.state.Terminal ∨
      ∃ broker, env.findOrderByClientId k = some broker ∧ brokerStateMatches cell.order broker) :
    loggedFills (cell.reconcile env k).2 k = [] := by
  rw [reconcile]
  split_ifs with ht
  · rfl
  · obtain ⟨broker, hfind, hm⟩ := h.resolve_left ht
    rw [hfind]
    dsimp only
    rw [if_pos hm]
    rfl

/-! ### When an order is repeated -/

theorem repeats_of_agrees (h : cell.order.state.Terminal ∨
      ∃ broker, env.findOrderByClientId k = some broker ∧ brokerStateMatches cell.order broker)
    (hsame : env'.findOrderByClientId k = env.findOrderByClientId k) :
    cell.Repeats env env' k := by
  refine ⟨cell, replayCell_of_agrees h, ?_, loggedFills_of_agrees h,
    loggedFills_of_agrees (hsame ▸ h)⟩
  rw [(@reconcile_of_agrees env k cell h).1, (@reconcile_of_agrees env' k cell (hsame ▸ h)).1]

theorem repeats_iff_of_unknown (hopen : ¬cell.order.state.Terminal)
    (hfind : env.findOrderByClientId k = none) :
    cell.Repeats env env' k ↔ cell.fsm.state.Takes .reject := by
  obtain ⟨replayed, hreplay, htracks⟩ := reconcile_tracked_of_unknown hopen hfind
  have hterminal : replayed.order.state.Terminal := by
    rw [htracks.order_eq]
    exact (Track.replayed_on _ _).symm ▸ (by decide : OrderEvent.reject.target.Terminal)
  have hcell' := (@reconcile_of_agrees env' k replayed (Or.inl hterminal)).1
  have hne : cell.order.state ≠ OrderEvent.reject.target := fun hst => hopen (hst ▸ by decide)
  have horder := htracks.order_eq_iff.trans (Track.on_agrees_iff hne)
  have hfills : loggedFills (cell.reconcile env k).2 k = [] := by
    rw [reconcile, if_neg hopen, hfind]
    dsimp only
    rw [abandon, loggedFills_andThen, handleRejection, handleClosing, if_neg hopen]
    rfl
  rw [Repeats, hreplay, ← horder]
  constructor
  · rintro ⟨r, hr, heq, -, -⟩
    obtain rfl := Option.some.inj hr
    rwa [hcell'] at heq
  · intro heq
    exact ⟨replayed, rfl, by rw [hcell', heq], hfills, loggedFills_of_agrees (Or.inl hterminal)⟩

/-- The second look at an order that knows the broker's identifier and misses no fill. -/
theorem reconcile_again (hfind : env.findOrderByClientId k = some broker)
    (hid : cell.order.brokerOrderId ≠ none) (hqty : broker.filledQty ≤ cell.order.filledQty) :
    loggedFills (cell.reconcile env k).2 k = [] ∧
      (¬cell.order.state.Terminal → ¬brokerStateMatches cell.order broker →
        (cell.reconcile env k).1 = (cell.catchUpTerminal k broker env.now).1) := by
  by_cases h : cell.order.state.Terminal ∨ brokerStateMatches cell.order broker
  · refine ⟨loggedFills_of_agrees (h.imp_right fun hm => ⟨broker, hfind, hm⟩), fun hopen hm => ?_⟩
    exact absurd h (not_or.mpr ⟨hopen, hm⟩)
  · obtain ⟨hopen, hm⟩ := not_or.mp h
    rw [reconcile_of_upToDate hopen hfind hm hid (not_lt.mpr (sub_nonpos.mpr hqty))]
    refine ⟨?_, fun _ _ => rfl⟩
    rw [loggedFills_append, loggedFills_catchUpTerminal, List.nil_append]
    exact loggedFills_audit _ _ _ _ _

/-- The track of an acceptance. -/
theorem acknowledge_track (hsane : cell.Sane) (hopen : ¬cell.order.state.Terminal) {t : Track}
    (ht : t = Track.acknowledge ⟨cell.order.state, cell.order.state, cell.fsm.state⟩
      (cell.order.brokerOrderId = none)) :
    ¬t.live.Terminal ∧ ¬t.replayed.Terminal ∧
      (t.replayed = t.live ↔ (cell.order.brokerOrderId = none → cell.fsm.state.Takes .accept)) := by
  subst ht
  rw [Track.acknowledge]
  by_cases hid : cell.order.brokerOrderId = none
  · rw [if_pos (decide_eq_true hid)]
    have hne : cell.order.state ≠ OrderEvent.accept.target := fun hst =>
      hsane.accepted (hst.trans (by decide)) hid
    refine ⟨?_, ?_, (Track.on_agrees_iff hne).trans ⟨fun h _ => h, fun h => h hid⟩⟩
    · rw [Track.on]
      split_ifs
      · decide
      · exact hopen
    · rw [Track.replayed_on]
      decide
  · rw [if_neg (by simpa using hid)]
    exact ⟨hopen, hopen, iff_of_true rfl fun h => absurd h hid⟩

/-- A forced close, made twice: on an order, and on the same order in another state, with the
same machine. -/
theorem forceClose_eq_iff {live replayed : Cell} {t : Track} (h : live.Tracks replayed t)
    (ts ts' : Time) :
    (replayed.drive { replayed.order with
        qty := replayed.order.filledQty, filledAt := some ts' } .fullFill).order =
      (live.drive { live.order with qty := live.order.filledQty, filledAt := some ts }
        .fullFill).order ↔
      ts = ts' ∧ (t.machine.Takes .fullFill ∨ t.replayed = t.live) := by
  have hcan : live.fsm.canTrigger .fullFill = true ↔ t.machine.Takes .fullFill := by
    rw [StateMachine.canTrigger, h.machine_eq, OrderState.Takes]
  rw [drive, drive, Order.moved, Order.moved, h.fsm_eq, h.order_eq]
  constructor
  · intro heq
    split_ifs at heq with hc
    · exact ⟨(Option.some.inj (congrArg Order.filledAt heq)).symm, Or.inl (hcan.mp hc)⟩
    · exact ⟨(Option.some.inj (congrArg Order.filledAt heq)).symm,
        Or.inr ((congrArg Order.state heq).trans h.live_eq)⟩
  · rintro ⟨rfl, hor⟩
    split_ifs with hc
    · rfl
    · rw [hor.resolve_left fun htakes => hc (hcan.mpr htakes), ← h.live_eq]

/-- A first look that is followed by its track, and a second one that changes nothing. -/
theorem repeats_iff_of_tracked {t : Track} (htracked : (cell.reconcile env k).Tracked k cell t)
    (hfind' : env'.findOrderByClientId k = some broker)
    (hid : (cell.reconcile env k).1.order.brokerOrderId ≠ none)
    (hqty : broker.filledQty ≤ (cell.reconcile env k).1.order.filledQty)
    (hfills : loggedFills (cell.reconcile env k).2 k = [])
    (hquiet : ¬t.replayed.Terminal → ∀ c : Cell, (c.catchUpTerminal k broker env'.now).1 = c) :
    cell.Repeats env env' k ↔ t.replayed = t.live := by
  obtain ⟨replayed, hreplay, htracks⟩ := htracked
  have hagain := @reconcile_again env' k replayed _ hfind' (by rw [htracks.order_eq]; exact hid)
    (by rw [htracks.order_eq]; exact hqty)
  have hcell' : (replayed.reconcile env' k).1 = replayed := by
    by_cases h : replayed.order.state.Terminal ∨ brokerStateMatches replayed.order broker
    · exact (reconcile_of_agrees (h.imp_right fun hm => ⟨broker, hfind', hm⟩)).1
    · obtain ⟨hopen, hm⟩ := not_or.mp h
      rw [hagain.2 hopen hm]
      refine hquiet (fun hterminal => hopen ?_) replayed
      rw [htracks.order_eq]
      exact hterminal
  rw [Repeats, hreplay, ← htracks.order_eq_iff]
  constructor
  · rintro ⟨r, hr, heq, -, -⟩
    obtain rfl := Option.some.inj hr
    rwa [hcell'] at heq
  · intro heq
    exact ⟨replayed, rfl, by rw [hcell', heq], hfills, hagain.1⟩

/-- A first look that forces a close: the second one forces it again. -/
theorem repeats_iff_of_forces (hopen : ¬cell.order.state.Terminal)
    (hfind : env.findOrderByClientId k = some broker)
    (hfind' : env'.findOrderByClientId k = some broker)
    (hnot : ¬brokerStateMatches cell.order broker)
    (hqty : broker.filledQty ≤ cell.order.filledQty)
    (hforce : (cell.filledTrack broker).Forces broker.state)
    (hstill : ¬(cell.filledTrack broker).replayed.Terminal)
    (hfills : loggedFills (cell.reconcile env k).2 k = []) :
    cell.Repeats env env' k ↔ env.now = env'.now ∧
      ((cell.filledTrack broker).machine.Takes .fullFill ∨
        (cell.filledTrack broker).replayed = (cell.filledTrack broker).live) := by
  obtain ⟨replayed, hreplay, htracks, hclosed⟩ :=
    cell.catchUp_of_forces k broker (env.fillId k) env.now hforce
  have hrec : cell.reconcile env k = cell.catchUp k broker (env.fillId k) env.now := by
    rw [reconcile, if_neg hopen, hfind]
    exact if_neg hnot
  rw [← hrec] at hreplay hclosed
  obtain ⟨hid, hfilled⟩ := cell.filled_order k broker (env.fillId k) env.now
  have hagain := @reconcile_again env' k replayed _ hfind'
    (by rw [htracks.order_eq]; exact hid ▸ by split_ifs <;> simp_all)
    (by rw [htracks.order_eq]; exact hfilled ▸ le_max_of_le_left hqty)
  have hopen' : ¬replayed.order.state.Terminal := by
    rw [htracks.order_eq]
    exact hstill
  have hnot' : ¬brokerStateMatches replayed.order broker := fun hm => by
    have hst := hm.2.2
    rw [hforce.1] at hst
    exact hopen' (hst ▸ by decide)
  have hclosed' : (replayed.catchUpTerminal k broker env'.now).1 = replayed.drive
      { replayed.order with qty := replayed.order.filledQty, filledAt := some env'.now }
      .fullFill := by
    rw [catchUpTerminal, hforce.1]
    exact congrArg Prod.fst (if_neg hopen')
  rw [Repeats, hreplay, ← forceClose_eq_iff htracks, hclosed, ← hclosed', ← hagain.2 hopen' hnot']
  constructor
  · rintro ⟨r, hr, heq, -, -⟩
    obtain rfl := Option.some.inj hr
    exact heq
  · exact fun heq => ⟨replayed, rfl, heq, hfills, hagain.1⟩

theorem repeats_iff_of_catchUp (hsane : cell.Sane) (hopen : ¬cell.order.state.Terminal)
    (hfind : env.findOrderByClientId k = some broker)
    (hsame : env'.findOrderByClientId k = env.findOrderByClientId k)
    (hnot : ¬brokerStateMatches cell.order broker) :
    cell.Repeats env env' k ↔ cell.Repeatable (some broker) (env.now = env'.now) := by
  have hfind' : env'.findOrderByClientId k = some broker := hsame.trans hfind
  have hrec : cell.reconcile env k = cell.catchUp k broker (env.fillId k) env.now := by
    rw [reconcile, if_neg hopen, hfind]
    exact if_neg hnot
  have hfills := @loggedFills_catchUp_eq_nil_iff k cell broker (env.fillId k) env.now
  rw [← hrec] at hfills
  by_cases hqty : broker.filledQty ≤ cell.order.filledQty
  swap
  · refine iff_of_false ?_ fun h => hqty (h.resolve_left hnot).1
    rintro ⟨_, _, _, h, _⟩
    exact hqty (hfills.mp h)
  have hmiss : cell.missingFill broker = none := if_neg (not_lt.mpr (sub_nonpos.mpr hqty))
  have htrack : cell.filledTrack broker = Track.acknowledge
      ⟨cell.order.state, cell.order.state, cell.fsm.state⟩ (cell.order.brokerOrderId = none) := by
    rw [filledTrack, hmiss]
    rfl
  obtain ⟨hlive, hrep, hagree⟩ := acknowledge_track hsane hopen htrack
  have hmachine : (cell.filledTrack broker).machine = cell.acknowledgedState := by
    rw [htrack, machine_acknowledge]
  have hiff : cell.Repeatable (some broker) (env.now = env'.now) ↔ _ :=
    (or_iff_right hnot).trans (and_iff_right hqty)
  rw [hiff]
  by_cases hfilled : broker.state = .filled
  · rw [hfilled, repeats_iff_of_forces hopen hfind hfind' hnot hqty ⟨hfilled, hlive⟩ hrep
      (hfills.mpr hqty), hmachine, hagree]
    simp
  -- nothing is forced, so the first look is followed by its track
  have htracked := cell.catchUp_tracked k broker (env.fillId k) env.now fun h => hfilled h.1
  rw [← hrec] at htracked
  obtain ⟨hid, hq⟩ := cell.filled_order k broker (env.fillId k) env.now
  have hkeep := catchUpTerminal_order k broker env.now
    (cell.filled k broker (env.fillId k) env.now).1
  have hid' : (cell.reconcile env k).1.order.brokerOrderId ≠ none := by
    rw [hrec]
    refine fun hc => ?_
    have := hkeep.1.symm.trans hc
    rw [hid] at this
    split_ifs at this
    exact absurd this ‹_›
  have hq' : broker.filledQty ≤ (cell.reconcile env k).1.order.filledQty := by
    rw [hrec]
    exact (le_max_right _ _).trans (hkeep.2.trans hq).ge
  have hclose : ∀ {event : OrderEvent}, event.target.Terminal →
      ((cell.filledTrack broker).close event).replayed.Terminal ∧
        (((cell.filledTrack broker).close event).replayed =
          ((cell.filledTrack broker).close event).live ↔
            cell.acknowledgedState.Takes event) := by
    intro event hterminal
    rw [Track.close, if_neg hlive, Track.replayed_on, ← hmachine]
    refine ⟨hterminal, ?_⟩
    rw [← Track.on_agrees_iff (t := cell.filledTrack broker)
      fun heq => hlive (heq ▸ hterminal), Track.replayed_on]
  have hrepeats := repeats_iff_of_tracked htracked hfind' hid' hq' (hfills.mpr hqty)
  unfold catchUpTrack Track.catchUpTerminal at hrepeats
  cases hst : broker.state with
  | canceled =>
    rw [hst] at hrepeats
    exact (hrepeats fun h => absurd (hclose (by decide)).1 h).trans (hclose (by decide)).2
  | rejected =>
    rw [hst] at hrepeats
    exact (hrepeats fun h => absurd (hclose (by decide)).1 h).trans (hclose (by decide)).2
  | expired =>
    rw [hst] at hrepeats
    exact (hrepeats fun h => absurd (hclose (by decide)).1 h).trans (hclose (by decide)).2
  | filled => exact absurd hst hfilled
  | new | accepted | partiallyFilled | unknown =>
    rw [hst] at hrepeats
    refine (hrepeats fun _ c => ?_).trans hagree
    unfold catchUpTerminal
    rw [hst]

/-- **When an order is repeated.** -/
theorem repeats_iff (hsane : cell.Sane)
    (hsame : env'.findOrderByClientId k = env.findOrderByClientId k) :
    cell.Repeats env env' k ↔ (cell.order.state.Open →
      cell.Repeatable (env.findOrderByClientId k) (env.now = env'.now)) := by
  rw [OrderState.open_iff_not_terminal]
  by_cases hopen : cell.order.state.Terminal
  · exact iff_of_true (repeats_of_agrees (Or.inl hopen) hsame) fun h => absurd hopen h
  rw [forall_prop_of_true hopen]
  rcases hfind : env.findOrderByClientId k with _ | broker
  · exact repeats_iff_of_unknown hopen hfind
  by_cases hm : brokerStateMatches cell.order broker
  · exact iff_of_true (repeats_of_agrees (Or.inr ⟨broker, hfind, hm⟩) hsame) (Or.inl hm)
  · exact repeats_iff_of_catchUp hsane hopen hfind hsame hm

end

end Cell

/-! ### All orders -/

namespace Oms

/-- **A second recovery on the same system changes nothing**: not the orders, not their fills,
and not the positions they add up to. -/
def Idempotent (log : List LoggedEvent) (env env' : RecoveryEnv) : Prop :=
  ∃ s summary s' summary', (reboot log).recover env = some (s, summary) ∧
    s.recover env' = some (s', summary') ∧ s'.orders = s.orders ∧
    (∀ k, s'.fillsByOrder.get? k = s.fillsByOrder.get? k) ∧
    s'.computeExpectedPositions = s.computeExpectedPositions

section Idempotent

variable {log : List LoggedEvent} {env env' : RecoveryEnv} {b : Book}

/-- The fills of an order in a log made of one piece for each order. -/
theorem loggedFills_flatMap_eq_nil_iff {keys : List OrderId} {pieces : OrderId → List LoggedEvent}
    (habout : ∀ k, ∀ e ∈ pieces k, e.orderId = k) (k : OrderId) :
    loggedFills (keys.flatMap pieces) k = [] ↔ (k ∈ keys → loggedFills (pieces k) k = []) := by
  simp only [loggedFills, List.flatMap_eq_nil_iff, List.mem_flatMap]
  constructor
  · exact fun h hk e he => h e ⟨k, hk, he⟩
  · rintro h e ⟨k', hk', he⟩
    by_cases hk : k' = k
    · exact h (hk ▸ hk') e (hk ▸ he)
    · exact LoggedEvent.fillsFor_of_ne fun hc => hk ((habout k' e he).symm.trans hc)

/-- **What a second replay rebuilds**: every order as a new process would find it, and the
logged fills once more. -/
theorem exists_replay_twice {r : Oms} (hb : Book.empty.applyLog r.store = some r.toBook)
    (env : RecoveryEnv) :
    let s := (r.reconcileOpenOrders env).1
    ∃ b', s.toBook.applyLog s.store = some b' ∧ b'.Paired ∧
      (∀ k, b'.cell k = (r.cell k).bind fun cell =>
        Book.replayCell k (cell.reconcile env k).2 (some cell)) ∧
      (∀ k, b'.fillsOf k = s.fillsOf k ++ loggedFills s.store k) ∧
      b'.orders.keys = s.orders.keys := by
  intro s
  have hp : r.Paired := (Book.paired_empty.applyLog hb).1
  obtain ⟨-, hcell, -, -, -, hp₁⟩ := reconcileOpenOrders_spec env hp
  obtain ⟨b₁, hb₁, -, hcell₁⟩ := exists_replay_again hb env
  have hreplay₁ := (Book.paired_empty.applyLog hb₁).2.1
  obtain ⟨b', hb'⟩ := Book.paired_empty.exists_applyLog_of_le hp₁ (by rintro _ ⟨⟩) hb₁
  obtain ⟨hp', hcell', hfills'⟩ := hp₁.applyLog hb'
  have hknown : ∀ k, (Book.replayCell k s.store none).isSome → (s.cell k).isSome := by
    intro k hk
    rw [← show b₁.cell k = Book.replayCell k s.store none from hreplay₁ k, hcell₁] at hk
    rw [hcell, Option.isSome_map]
    exact Option.isSome_of_isSome_bind hk
  refine ⟨b', hb', hp', fun k => ?_, hfills', (hp₁.keys_applyLog hb' fun e he hi => ?_).1⟩
  · rw [← hcell₁, hcell', show b₁.cell k = Book.replayCell k s.store none from hreplay₁ k]
    rcases hc : s.cell k with _ | cell
    · rfl
    · have hk : (b₁.cell k).isSome := by
        rw [hcell, Option.map_eq_some_iff] at hc
        obtain ⟨c, hc, -⟩ := hc
        rw [hcell₁, hc]
        exact Book.isSome_replayCell rfl
      rw [show b₁.cell k = Book.replayCell k s.store none from hreplay₁ k] at hk
      obtain ⟨c, hc⟩ := Option.isSome_iff_exists.mp hk
      rw [hc]
      exact Book.replayCell_of_some hc _
  · exact (mem_keys_iff_isSome_cell hp₁ _).mpr
      (hknown _ (Book.isSome_replayCell_of_intent he hi none))

/-- What recovery logs for an order has no fill exactly if what it logs for its cell has none. -/
theorem loggedFills_reconcileLog_eq_nil_iff {s : Oms} {k : OrderId} :
    loggedFills (reconcileLog env s k) k = [] ↔
      ∀ cell, s.cell k = some cell → loggedFills (cell.reconcile env k).2 k = [] := by
  rw [reconcileLog]
  rcases s.cell k with _ | cell
  · exact iff_of_true rfl fun _ hc => absurd hc (Option.some_ne_none _).symm
  · simp only [Option.some.injEq, forall_eq', Option.map_some, Option.getD_some]

/-- The log a recovery leaves has no fill of an order exactly if the old one had none and the
recovery found none. -/
theorem loggedFills_reconcileOpenOrders_eq_nil_iff {r : Oms} (hp : r.Paired) (k : OrderId) :
    loggedFills (r.reconcileOpenOrders env).1.store k = [] ↔ loggedFills r.store k = [] ∧
      ∀ cell, r.cell k = some cell → loggedFills (cell.reconcile env k).2 k = [] := by
  rw [(reconcileOpenOrders_spec env hp).1, loggedFills_append, List.append_eq_nil_iff,
    loggedFills_flatMap_eq_nil_iff fun k e he => (about_reconcileLog env hp k e he).1,
    loggedFills_reconcileLog_eq_nil_iff]
  exact and_congr_right fun _ =>
    ⟨fun h cell hc => h (mem_keys_of_cell hp hc) cell hc, fun h _ => h⟩

/-- A second recovery changes nothing if there is no fill to replay and every order is
repeated. -/
theorem idempotent_iff_forall_repeats (hb : Book.empty.applyLog log = some b) :
    Idempotent log env env' ↔ (∀ k, loggedFills log k = []) ∧
      ∀ k cell, b.cell k = some cell → cell.Repeats env env' k := by
  let r : Oms := { reboot log with toBook := b }
  have hp : r.Paired := (Book.paired_empty.applyLog hb).1
  obtain ⟨-, hcell, -, -, -, hp₁⟩ := reconcileOpenOrders_spec env hp
  obtain ⟨b', hb', hp', hcell', hfills', hkeys'⟩ := exists_replay_twice (r := r) hb env
  set s := (r.reconcileOpenOrders env).1 with hs
  let r' : Oms := { s with toBook := b' }
  obtain ⟨-, hcell₂, hfills₂, -, hkeys₂, hp₂⟩ := reconcileOpenOrders_spec (s := r') env' hp'
  set s' := (r'.reconcileOpenOrders env').1 with hs'
  -- the fills stay as they were if neither the log nor the second look has any
  have hfills : (∀ k, s'.fillsByOrder.get? k = s.fillsByOrder.get? k) → ∀ k,
      loggedFills s.store k = [] ∧ loggedFills (reconcileLog env' r' k) k = [] := by
    intro h k
    have hk : s'.fillsOf k = s.fillsOf k := by rw [Book.fillsOf, h k, Book.fillsOf]
    rw [hfills₂, show r'.fillsOf k = _ from hfills' k, List.append_assoc] at hk
    exact List.append_eq_nil_iff.mp (List.append_right_eq_self.mp hk)
  have hlog : ∀ k, loggedFills s.store k = [] ↔ loggedFills log k = [] ∧
      ∀ cell, r.cell k = some cell → loggedFills (cell.reconcile env k).2 k = [] :=
    loggedFills_reconcileOpenOrders_eq_nil_iff hp
  have hsecond : s.recover env' = some (r'.reconcileOpenOrders env') := by
    rw [recover, replayLog, hb']
    rfl
  constructor
  · rintro ⟨t, _, t', _, ht, ht', horders, hget, -⟩
    rw [recover_reboot hb, Option.some.injEq] at ht
    obtain rfl : s = t := congrArg Prod.fst ht
    rw [hsecond, Option.some.injEq] at ht'
    obtain rfl : s' = t' := congrArg Prod.fst ht'
    refine ⟨fun k => ((hlog k).mp (hfills hget k).1).1, fun k cell hc => ?_⟩
    have hrc : r.cell k = some cell := hc
    obtain ⟨replayed, hreplayed⟩ := Option.isSome_iff_exists.mp <|
      @Book.isSome_replayCell k (cell.reconcile env k).2 (some cell) rfl
    have hr' : r'.cell k = some replayed := by
      rw [show r'.cell k = _ from hcell' k, hrc]
      exact hreplayed
    refine ⟨replayed, hreplayed, ?_, ?_, ?_⟩
    · have horder := congrArg (Dict.get? · k) horders
      simp only [hp₂.get?_orders, hp₁.get?_orders, hcell₂, hcell, hr', hrc, Option.map_some,
        Option.some_inj] at horder
      exact horder
    · exact ((hlog k).mp (hfills hget k).1).2 cell hrc
    · exact loggedFills_reconcileLog_eq_nil_iff.mp (hfills hget k).2 replayed hr'
  · rintro ⟨hnofill, hrepeats⟩
    have horders : s'.orders = s.orders := by
      refine Dict.ext_get? (hkeys₂.trans hkeys') fun k => ?_
      rw [hp₂.get?_orders, hp₁.get?_orders, hcell₂, hcell, show r'.cell k = _ from hcell' k]
      rcases hc : r.cell k with _ | cell
      · rfl
      · obtain ⟨replayed, hreplayed, horder, -⟩ := hrepeats k cell hc
        rw [Option.bind_some, hreplayed]
        exact congrArg some horder
    have hfirst : ∀ k, loggedFills s.store k = [] := by
      refine fun k => (hlog k).mpr ⟨hnofill k, fun cell hc => ?_⟩
      obtain ⟨-, -, -, hnil, -⟩ := hrepeats k cell hc
      exact hnil
    have hlast : ∀ k, loggedFills (reconcileLog env' r' k) k = [] := by
      refine fun k => loggedFills_reconcileLog_eq_nil_iff.mpr fun replayed hc => ?_
      obtain ⟨cell, hc, hreplayed⟩ := Option.bind_eq_some_iff.mp ((hcell' k).symm.trans hc)
      obtain ⟨replayed', hreplayed', -, -, hnil⟩ := hrepeats k cell hc
      obtain rfl := Option.some.inj (hreplayed'.symm.trans hreplayed)
      exact hnil
    have hkept : ∀ k, s'.fillsOf k = s.fillsOf k := by
      intro k
      rw [hfills₂, show r'.fillsOf k = _ from hfills' k, hfirst, hlast, List.append_nil,
        List.append_nil]
    refine ⟨s, _, s', _, recover_reboot hb env, hsecond, horders,
      fun k => hp₁.get?_fillsByOrder hp₂ horders (hkept k), ?_⟩
    have hgetFills : s'.getFills = s.getFills := funext hkept
    rw [computeExpectedPositions, computeExpectedPositions, listOrders, listOrders, horders,
      hgetFills]

/-- **When recovering twice is recovering once**: for every log that can be replayed and every
set of broker answers. -/
theorem idempotent_iff {log : List LoggedEvent} {env env' : RecoveryEnv}
    (hlog : ((reboot log).replayLog).isSome)
    (hsame : env'.findOrderByClientId = env.findOrderByClientId) :
    Idempotent log env env' ↔ (∀ k, loggedFills log k = []) ∧
      ∀ k cell, Book.replayCell k log none = some cell → cell.order.state.Open →
        cell.Repeatable (env.findOrderByClientId k) (env.now = env'.now) := by
  obtain ⟨b, hb, -, hcells⟩ := exists_book_of_replayLog hlog
  rw [idempotent_iff_forall_repeats hb]
  simp only [hcells]
  refine and_congr_right fun _ => forall₂_congr fun k cell => forall_congr' fun hc => ?_
  exact Cell.repeats_iff (Cell.sane_replayCell hc) (congrFun hsame k)

/-- The first order of `downRun` was cancelled while the system was down. -/
def canceledEnv (now : Time) : RecoveryEnv where
  findOrderByClientId k :=
    if k = 1 then some (statusOf (marketOrder 1 .buy 10) 0 .canceled) else none
  fillId _ := 7
  now := now

theorem idempotent_downRun :
    Idempotent (run step Oms.empty downRun).store (canceledEnv 5) (canceledEnv 6) := by
  have hcell : ∀ k ∈ (run step Oms.empty downRun).store.map (·.orderId),
      ∀ cell ∈ Book.replayCell k (run step Oms.empty downRun).store none,
        cell.Repeatable ((canceledEnv 5).findOrderByClientId k) false := by
    decide +kernel
  have hnofill : ∀ k ∈ (run step Oms.empty downRun).store.map (·.orderId),
      loggedFills (run step Oms.empty downRun).store k = [] := by
    decide +kernel
  have hlog : ((reboot (run step Oms.empty downRun).store).replayLog).isSome := by
    decide +kernel
  have hsame : (canceledEnv 6).findOrderByClientId = (canceledEnv 5).findOrderByClientId := rfl
  refine (idempotent_iff hlog hsame).mpr ⟨fun k => ?_, fun k cell hc _ => ?_⟩
  · by_cases hk : k ∈ (run step Oms.empty downRun).store.map (·.orderId)
    · exact hnofill k hk
    · exact List.flatMap_eq_nil_iff.mpr fun e he =>
        LoggedEvent.fillsFor_of_ne fun hc => hk (hc ▸ List.mem_map_of_mem he)
  · exact hcell k (Book.mem_of_replayCell hc) cell hc

/-- An order that was filled before the system went down. -/
def filledRun : List OmsOp :=
  [.submitOrder (marketOrder 1 .buy 10) ⟨[], .returned "b-1"⟩ 0,
    .brokerEvent (fillEventFor 7 1 .buy 10 .filled) 1]

def filledEnv : RecoveryEnv where
  findOrderByClientId _ := some (statusOf (marketOrder 1 .buy 10) 10 .filled)
  fillId _ := 8
  now := 5

/-- **A second recovery counts every fill again**: the position of ten becomes one of twenty. -/
theorem not_idempotent_filledRun :
    ((reboot (run step Oms.empty filledRun).store).replayLog).isSome ∧
      ¬Idempotent (run step Oms.empty filledRun).store filledEnv filledEnv := by
  have htwice : ((reboot (run step Oms.empty filledRun).store).recover filledEnv).bind
      (fun r => (r.1.recover filledEnv).map fun r' =>
        (r.1.computeExpectedPositions.get? "AAPL", r'.1.computeExpectedPositions.get? "AAPL")) =
      some (some 10, some 20) := by
    decide +kernel
  refine ⟨by decide +kernel, ?_⟩
  rintro ⟨s, _, s', _, hs, hs', -, -, hpositions⟩
  rw [hs, Option.bind_some, hs', Option.map_some, Option.some_inj, hpositions] at htwice
  have hsame := (Prod.mk.inj htwice).1.symm.trans (Prod.mk.inj htwice).2
  exact absurd (Option.some.inj hsame) (by decide)

end Idempotent

end Oms

end TradingPlatform
