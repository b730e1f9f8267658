import TradingPlatform.Execution.FillAccounting
import TradingPlatform.Execution.FillReplay
import TradingPlatform.Execution.ReconcileCells
import TradingPlatform.Execution.RecoverTwice

/-!
# What a made-up fill costs

The broker executes an order in several pieces, at several prices. When some of them never came as
fills, a recovery or a pass of the reconciler makes up one fill for the quantity that is missing,
at the average price of *all* the pieces. The quantity is right afterwards. The cost is right
exactly when the pieces that came as fills cost, by the share, what all of them do
(`TradingPlatform.AtAverage`); otherwise the difference between the two averages is charged to the
fill that was made up, and from there to the cost basis.

Both ways of catching up need an order whose filled quantity is the sum over its fills. The live
system keeps to that (`TradingPlatform.Oms.fillAccounting_run`). A replay does if every intent
comes before the fills of its order (`TradingPlatform.IntentsFirst`), which it does in the log of
a run that uses an identifier for one order.
-/

namespace TradingPlatform

/-! ### The pieces of an order -/

/-- One piece of an order, as the broker executed it. -/
structure Piece where
  qty : Decimal
  price : Decimal
  deriving DecidableEq

/-- The piece a fill reports. -/
def Fill.piece (fill : Fill) : Piece := ⟨fill.qty, fill.price⟩

def totalQty (pieces : List Piece) : Decimal := (pieces.map (·.qty)).sum

def totalCost (pieces : List Piece) : Decimal :=
  (pieces.map fun e => e.price * e.qty).sum

/-- The broker reports what it executed: how much, and at which price on average. -/
def BrokerOrderStatus.Reports (status : BrokerOrderStatus) (pieces : List Piece) : Prop :=
  status.filledQty = totalQty pieces ∧
    (pieces ≠ [] → status.avgFillPrice = some (totalCost pieces / totalQty pieces))

/-- **Some of the pieces cost what all of them do**, by the share. -/
def AtAverage (delivered pieces : List Piece) : Prop :=
  totalCost delivered * totalQty pieces = totalCost pieces * totalQty delivered

instance (delivered pieces : List Piece) : Decidable (AtAverage delivered pieces) :=
  inferInstanceAs (Decidable (_ = _))

theorem totalQty_append (pieces pieces' : List Piece) :
    totalQty (pieces ++ pieces') = totalQty pieces + totalQty pieces' := by
  rw [totalQty, List.map_append, List.sum_append]
  rfl

theorem totalQty_nonneg {pieces : List Piece} (h : ∀ e ∈ pieces, 0 < e.qty) :
    0 ≤ totalQty pieces := by
  refine List.sum_nonneg fun q hq => ?_
  obtain ⟨e, he, rfl⟩ := List.mem_map.mp hq
  exact (h e he).le

theorem totalQty_pos {pieces : List Piece} (h : ∀ e ∈ pieces, 0 < e.qty)
    (hne : pieces ≠ []) : 0 < totalQty pieces := by
  obtain ⟨e, rest, rfl⟩ := List.exists_cons_of_ne_nil hne
  have hrest := @totalQty_nonneg rest fun e' he' => h e' (List.mem_cons_of_mem _ he')
  have hfirst := h e List.mem_cons_self
  rw [totalQty, List.map_cons, List.sum_cons]
  exact add_pos_of_pos_of_nonneg hfirst hrest

section Status

variable {status : BrokerOrderStatus} {delivered pieces : List Piece}

/-- The quantity reported times the price reported is the cost. -/
theorem BrokerOrderStatus.Reports.cost (h : status.Reports pieces)
    (hpos : ∀ e ∈ pieces, 0 < e.qty) :
    status.filledQty * status.fillPrice = totalCost pieces := by
  rcases eq_or_ne pieces [] with rfl | hne
  · rw [h.1]
    exact zero_mul _
  · rw [h.1, fillPrice, h.2 hne, Option.getD_some,
      mul_div_cancel₀ _ (totalQty_pos hpos hne).ne']

/-- **The cost of catching up**: completing some of the pieces at the price reported gives the
cost of all exactly if they were at the average. -/
theorem cost_completed_iff (h : status.Reports pieces) (hpos : ∀ e ∈ pieces, 0 < e.qty)
    (hdel : delivered <+: pieces) :
    totalCost delivered + (if 0 < status.filledQty - totalQty delivered then
        status.fillPrice * (status.filledQty - totalQty delivered) else 0) =
      status.filledQty * status.fillPrice ↔ AtAverage delivered pieces := by
  obtain ⟨missing, rfl⟩ := hdel
  have hmissing : status.filledQty - totalQty delivered = totalQty missing := by
    rw [h.1, totalQty_append, add_sub_cancel_left]
  have hnonneg : 0 ≤ totalQty missing :=
    totalQty_nonneg fun e he => hpos e (List.mem_append_right _ he)
  have hall : (if 0 < totalQty missing then status.fillPrice * totalQty missing else 0) =
      status.fillPrice * totalQty missing := by
    split_ifs with hd
    · rfl
    · rw [le_antisymm (not_lt.mp hd) hnonneg, mul_zero]
  have hsplit : status.filledQty = totalQty delivered + totalQty missing := by
    rw [h.1, totalQty_append]
  rw [hmissing, hall, AtAverage, ← h.cost hpos, ← h.1]
  rcases eq_or_ne (delivered ++ missing) [] with hnil | hne
  · obtain ⟨rfl, rfl⟩ := List.append_eq_nil_iff.mp hnil
    exact iff_of_true (by rw [hsplit]; simp [totalCost, totalQty]) (by simp [totalCost, totalQty])
  · have hfilled : status.filledQty ≠ 0 := h.1 ▸ (totalQty_pos hpos hne).ne'
    constructor
    · intro hcost
      have hdelivered : totalCost delivered = status.fillPrice * totalQty delivered := by
        rw [hsplit] at hcost
        linarith
      rw [hdelivered]
      ring
    · intro hcost
      have hdelivered : totalCost delivered = status.fillPrice * totalQty delivered := by
        refine mul_right_cancel₀ hfilled (hcost.trans ?_)
        ring
      rw [hdelivered, hsplit]
      ring

end Status

/-! ### Logs in which the fills come after the intent -/

/-- **The intent of an order comes before its fills.** -/
def IntentsFirst (log : List LoggedEvent) : Prop :=
  log.Pairwise fun e e' => e'.IsIntent → e.fillsFor e'.orderId = []

theorem IntentsFirst.append {log log' : List LoggedEvent} (h : IntentsFirst log)
    (hlog' : ∀ e ∈ log', ¬e.IsIntent) : IntentsFirst (log ++ log') := by
  refine List.pairwise_append.mpr ⟨h, ?_, fun _ _ e' he' hi => absurd hi (hlog' e' he')⟩
  exact List.pairwise_of_forall_mem_list fun _ _ e' he' hi => absurd hi (hlog' e' he')

theorem IntentsFirst.concat {log : List LoggedEvent} {intent : LoggedEvent}
    (h : IntentsFirst log) (hnone : loggedFills log intent.orderId = []) :
    IntentsFirst (log ++ [intent]) := by
  refine List.pairwise_append.mpr ⟨h, List.pairwise_singleton _ _, fun e he e' he' _ => ?_⟩
  rw [List.mem_singleton.mp he']
  exact List.flatMap_eq_nil_iff.mp hnone e he

/-- What an event of the log adds to the filled quantity of a known order. -/
theorem LoggedEvent.filledQty_onCell {logged : LoggedEvent} (hi : ¬logged.IsIntent)
    {cell cell' : Cell} (h : logged.onCell (some cell) = some cell') :
    cell'.order.filledQty =
      cell.order.filledQty + ((logged.fillsFor logged.orderId).map (·.qty)).sum := by
  obtain ⟨kind, k, ts⟩ := logged
  cases kind with
  | orderSubmitIntent payload => exact absurd trivial hi
  | fillReceived payload =>
    cases h
    rw [fillsFor_fillReceived, List.map_singleton, List.sum_singleton]
    rfl
  | orderAccepted _ | orderRejected _ | orderCancelled _ | orderExpired | orderCancelRequested _
  | reconcileNoop _ _ | reconcileRecovered _ _ | reconcileAbandoned _ =>
    cases h
    exact (add_zero _).symm

/-- An intent starts its order anew, with nothing filled. -/
theorem LoggedEvent.filledQty_intent {logged : LoggedEvent} (hi : logged.IsIntent)
    {cell : Option Cell} {cell' : Cell} (h : logged.onCell cell = some cell') :
    cell'.order.filledQty = 0 ∧ logged.fillsFor logged.orderId = [] := by
  obtain ⟨kind, k, ts⟩ := logged
  cases kind with
  | orderSubmitIntent payload =>
    cases h
    exact ⟨rfl, rfl⟩
  | _ => exact hi.elim

/-- **A replay counts what it fills**, if every intent comes first. -/
theorem IntentsFirst.filledQty {k : OrderId} {log : List LoggedEvent} (h : IntentsFirst log)
    {cell : Cell} (hcell : Book.replayCell k log none = some cell) :
    cell.order.filledQty = ((loggedFills log k).map (·.qty)).sum := by
  induction log using List.reverseRecOn generalizing cell with
  | nil => exact absurd hcell.symm (Option.some_ne_none _)
  | append_singleton log logged ih =>
    obtain ⟨hlog, -, hlast⟩ := List.pairwise_append.mp h
    rw [Book.replayCell_append] at hcell
    rw [loggedFills_append, loggedFills_singleton]
    by_cases hk : k = logged.orderId
    · subst hk
      have hon : logged.onCell (Book.replayCell logged.orderId log none) = some cell :=
        (if_pos rfl).symm.trans hcell
      by_cases hi : logged.IsIntent
      · obtain ⟨hzero, hnone⟩ := LoggedEvent.filledQty_intent hi hon
        have hbefore : loggedFills log logged.orderId = [] := List.flatMap_eq_nil_iff.mpr
          fun e he => hlast e he logged List.mem_cons_self hi
        rw [hzero, hbefore, hnone]
        rfl
      · rcases hc : Book.replayCell logged.orderId log none with _ | before
        · rw [hc, LoggedEvent.onCell_none hi] at hon
          exact absurd hon.symm (Option.some_ne_none _)
        · rw [hc] at hon
          rw [LoggedEvent.filledQty_onCell hi hon, ih hlog hc, List.map_append, List.sum_append]
    · have hsame : Book.replayCell k log none = some cell := (if_neg hk).symm.trans hcell
      rw [LoggedEvent.fillsFor_of_ne (Ne.symm hk), List.append_nil]
      exact ih hlog hsame

namespace Oms

section IntentsFirst

variable {s s' : Oms}

theorem intentsFirst_handleFill (hs : s.Keyed) (h : IntentsFirst s.store) (k : OrderId)
    (fill : Fill) (ts : Time) : IntentsFirst (s.handleFill k fill ts).store := by
  rcases ho : s.orders.get? k with _ | order
  · rwa [handleFill, ho]
  · obtain ⟨fsm, hf⟩ := hs.exists_fsm ho
    rw [(handleFill_advances ho hf fill ts).store]
    refine h.append fun e he => ?_
    obtain rfl := List.mem_singleton.mp he
    exact id

theorem Quiet.intentsFirst (hq : s.Quiet s') (h : IntentsFirst s.store) :
    IntentsFirst s'.store := by
  obtain ⟨log, hstore, hlog⟩ := hq.store
  rw [hstore]
  exact h.append fun e he => (hlog e he).1.not_isIntent

/-- A new order has no fill in the log yet. -/
theorem Introduces.intentsFirst (hs : s.Durable) (h : IntentsFirst s.store) {order : Order}
    {ts : Time} (hi : s.Introduces s' order ts) (hfresh : order.id ∉ s.orders.keys) :
    IntentsFirst s'.store := by
  obtain ⟨b, hb⟩ := hs.recorded
  rw [hi.store]
  exact h.concat (hb.loggedFills_of_get? (Dict.get?_eq_none_iff.mpr hfresh))

theorem intentsFirst_handle (hs : s.Durable) (h : IntentsFirst s.store) {hd : Handler}
    (hfresh : s.FreshHandler hd) : IntentsFirst (s.handle hd).store := by
  rcases handle_cases hs.keyed hd with hq | ⟨order, now, rfl, -, hi⟩ | ⟨ghost, rfl, heq⟩ |
    ⟨event, now, order, fill, rfl, -, -, -, heq⟩
  · exact hq.intentsFirst h
  · exact hi.intentsFirst hs h hfresh
  · obtain ⟨s₁, s₂, fsm, h₁, -, hf₁, h₂, h₃⟩ := s.bookGhost_steps ghost
    have hq : s₁.Quiet s₂ := h₂.quiet h₁.get?_self hf₁ ⟨rfl, rfl, rfl, rfl, rfl⟩ rfl trivial
    rw [heq, h₃]
    refine intentsFirst_handleFill (hq.keyed (h₁.keyed hs.keyed)) ?_ _ _ _
    exact hq.intentsFirst (h₁.intentsFirst hs h hfresh)
  · rw [heq]
    exact intentsFirst_handleFill hs.keyed h _ _ _

/-- **A run under distinct identifiers logs every intent first.** -/
theorem intentsFirst_run {ops : List OmsOp} (hops : Along step Fresh Oms.empty ops) :
    IntentsFirst (run step Oms.empty ops).store := by
  refine (invariant_of_fresh (fun s => s.Durable ∧ IntentsFirst s.store) ?_
    ⟨durable_empty, List.Pairwise.nil⟩ hops).2
  rintro s h ⟨hd, hi⟩ hh
  exact ⟨hd.handle h, intentsFirst_handle hd hi hh⟩

end IntentsFirst

/-! ### Catching up -/

/-- **The fills of an order cost what the broker reports**: its cumulative quantity times its
average price. -/
def CostsAsReported (s : Oms) (k : OrderId) (status : BrokerOrderStatus) : Prop :=
  ((s.getFills k).map fun fill => fill.price * fill.qty).sum = status.filledQty * status.fillPrice

instance (s : Oms) (k : OrderId) (status : BrokerOrderStatus) :
    Decidable (s.CostsAsReported k status) :=
  inferInstanceAs (Decidable (_ = _))

section CatchUp

variable {s : Oms} {k : OrderId} {status : BrokerOrderStatus} {pieces : List Piece}

/-- The fill for the missing quantity completes the cost if the others are at the average. -/
theorem costsAsReported_iff {recorded : List Fill} {order : Order} {fillId : FillId} {ts : Time}
    (hfills : s.getFills k = recorded ++ if 0 < status.filledQty - order.filledQty then
      [syntheticFill order status fillId ts] else [])
    (hqty : order.filledQty = (recorded.map (·.qty)).sum) (hreports : status.Reports pieces)
    (hpos : ∀ e ∈ pieces, 0 < e.qty)
    (hdelivered : recorded.map Fill.piece <+: pieces) :
    s.CostsAsReported k status ↔ AtAverage (recorded.map Fill.piece) pieces := by
  have hcost : totalCost (recorded.map Fill.piece) =
      (recorded.map fun fill => fill.price * fill.qty).sum := by
    rw [totalCost, List.map_map]
    rfl
  have hrecorded : totalQty (recorded.map Fill.piece) = order.filledQty := by
    rw [hqty, totalQty, List.map_map]
    rfl
  rw [← cost_completed_iff hreports hpos hdelivered, CostsAsReported, hfills, List.map_append,
    List.sum_append, hcost, hrecorded]
  split_ifs
  · rw [List.map_singleton, List.sum_singleton]
    rfl
  · rfl

/-- What a pass adds to the fills of an order reported as filling. -/
theorem getFills_reconcileOrders {env : ReconcileEnv} (hanswers : Reconciler.Answers env)
    (hs : s.Keyed) {order : Order} (ho : s.orders.get? k = some order) (hopen : order.state.Open)
    (hid : order.brokerOrderId ≠ none) (hstatus : env.getOrder k = some status)
    (hfilling : status.state = .partiallyFilled ∨ status.state = .filled) :
    (Reconciler.reconcileOrders env s s.listOpenOrders).1.getFills k = s.getFills k ++
      if 0 < status.filledQty - order.filledQty then
        [syntheticFill order status (env.fillId k) status.updatedAt]
      else [] := by
  obtain ⟨fsm, hf⟩ := hs.exists_fsm ho
  have hcell : s.cell k = some ⟨order, fsm⟩ := Book.cell_eq_some_iff.mpr ⟨ho, hf⟩
  have hopen' : ¬order.state.Terminal := (OrderState.open_iff_not_terminal _).mp hopen
  have hlisted : k ∈ s.listOpenOrders.map (·.id) := by
    by_contra hk
    have hterminal := Reconciler.terminal_of_unlisted hs hcell hk
    exact hopen' hterminal
  have hlog : effectLog (fun k => Cell.poll env k) s k =
      (Cell.followStatus k status (env.fillId k) ⟨order, fsm⟩).2 := by
    rw [effectLog, hcell, Option.map_some, Option.getD_some,
      Cell.poll_of_status hopen' hid hstatus]
  refine ((Reconciler.reconcileOrders_spec hanswers hs).fillsOf k).trans ?_
  rw [if_pos hlisted, hlog]
  refine congrArg (s.fillsOf k ++ ·) ?_
  rw [Cell.followStatus]
  rcases hfilling with hst | hst <;> rw [hst]
  · exact Cell.loggedFills_fillUp _ _
  · dsimp only
    split_ifs with hd
    · refine (Cell.loggedFills_fillUp _ _).trans (if_pos hd)
    · rw [Cell.forceCloseFilled, if_neg (by exact hopen')]
      rfl

/-- What a recovery adds to the fills of an order the broker knows. -/
theorem getFills_reconcileOpenOrders {env : RecoveryEnv} (hs : s.Paired) {order : Order}
    (ho : s.orders.get? k = some order) (hopen : order.state.Open)
    (hstatus : env.findOrderByClientId k = some status) :
    (s.reconcileOpenOrders env).1.getFills k = s.getFills k ++
      if 0 < status.filledQty - order.filledQty then
        [syntheticFill order status (env.fillId k) env.now]
      else [] := by
  have hk := hs.get?_orders k
  rw [ho] at hk
  obtain ⟨cell, hcell, rfl⟩ := Option.map_eq_some_iff.mp hk.symm
  have hopen' : ¬cell.order.state.Terminal := (OrderState.open_iff_not_terminal _).mp hopen
  obtain ⟨-, -, hfills, -⟩ := reconcileOpenOrders_spec env hs
  refine (hfills k).trans (congrArg (s.fillsOf k ++ ·) ?_)
  rw [reconcileLog, hcell, Option.map_some, Option.getD_some, Cell.reconcile, if_neg hopen',
    hstatus]
  dsimp only
  split_ifs with hmatch hd hd
  · rw [hmatch.2.1, sub_self] at hd
    exact absurd hd (lt_irrefl _)
  · rfl
  · exact (Cell.loggedFills_catchUp _ _).trans (if_pos hd)
  · exact (Cell.loggedFills_catchUp _ _).trans (if_neg hd)

/-- **When catching up preserves the cost.** -/
theorem costsAsReported_catchUp_iff {ops : List OmsOp} (hfresh : Along step Fresh Oms.empty ops)
    (hops : ∀ op ∈ ops, op.Accountable) (hreports : status.Reports pieces)
    (hpos : ∀ e ∈ pieces, 0 < e.qty)
    (hdelivered : ((run step Oms.empty ops).getFills k).map Fill.piece <+: pieces) :
    (∀ env replayed order, (reboot (run step Oms.empty ops).store).replayLog = some replayed →
      replayed.orders.get? k = some order → order.state.Open →
        env.findOrderByClientId k = some status →
          ∃ r, (reboot (run step Oms.empty ops).store).recover env = some r ∧
            (r.1.CostsAsReported k status ↔
              AtAverage (((run step Oms.empty ops).getFills k).map Fill.piece) pieces)) ∧
    ∀ env order, Reconciler.Answers env →
      (run step Oms.empty ops).orders.get? k = some order → order.state.Open →
        order.brokerOrderId ≠ none → env.getOrder k = some status →
          (status.state = .partiallyFilled ∨ status.state = .filled) →
            ((Reconciler.reconcileOrders env (run step Oms.empty ops)
                (run step Oms.empty ops).listOpenOrders).1.CostsAsReported k status ↔
              AtAverage (((run step Oms.empty ops).getFills k).map Fill.piece)
                pieces) := by
  have hwf := WellFormed.empty.run ops
  constructor
  · intro env replayed order hreplay ho hopen hstatus
    obtain ⟨-, b, hb⟩ := exists_mirrors_run hfresh
    obtain ⟨b', hb', rfl⟩ := Option.map_eq_some_iff.mp hreplay
    obtain rfl : b = b' := Option.some.inj (hb.replays.symm.trans hb')
    obtain ⟨-, hcells, hfills⟩ := Book.paired_empty.applyLog hb.replays
    refine ⟨_, recover_reboot hb.replays env, ?_⟩
    have hrecorded : order.filledQty = (((run step Oms.empty ops).getFills k).map (·.qty)).sum := by
      have hk := hb.paired.get?_orders k
      rw [ho, hcells] at hk
      obtain ⟨cell, hcell, rfl⟩ := Option.map_eq_some_iff.mp hk.symm
      rw [← hb.fills, hfills k]
      exact (intentsFirst_run hfresh).filledQty hcell
    let replayed : Oms := { reboot (run step Oms.empty ops).store with toBook := b }
    have hgrown := @getFills_reconcileOpenOrders replayed k status env hb.paired order ho hopen
      hstatus
    rw [show replayed.getFills k = (run step Oms.empty ops).getFills k from hb.fills k] at hgrown
    exact costsAsReported_iff hgrown hrecorded hreports hpos hdelivered
  · intro env order hanswers ho hopen hid hstatus hfilling
    exact costsAsReported_iff
      (getFills_reconcileOrders hanswers hwf.toKeyed ho hopen hid hstatus hfilling)
      (fillAccounting_run hops k order ho).1 hreports hpos hdelivered

end CatchUp

/-- An order of ten shares, of which three came as a fill. -/
def threeOfTenRun : List OmsOp :=
  [.submitOrder (marketOrder 1 .buy 10) ⟨[], .returned "b-1"⟩ 0,
    .brokerEvent (fillEventFor 7 1 .buy 3 .partiallyFilled) 1]

/-- What the broker executed: the other seven at some price. -/
def threeAndSeven (price : Decimal) : List Piece := [⟨3, 100⟩, ⟨7, price⟩]

def tenFilled (price : Decimal) : BrokerOrderStatus :=
  { statusOf (marketOrder 1 .buy 10) 10 .filled with
    avgFillPrice := some (totalCost (threeAndSeven price) / totalQty (threeAndSeven price)) }

def tenFilledRecovery (price : Decimal) : RecoveryEnv where
  findOrderByClientId _ := some (tenFilled price)
  fillId _ := 8
  now := 5

def tenFilledPass (price : Decimal) : ReconcileEnv where
  getOrder k := if k = 1 then some (tenFilled price) else none
  listPositions := none
  fillId _ := 8
  ghostIds _ := ⟨9, 9, 9⟩
  ts := 5

theorem reports_tenFilled (price : Decimal) : (tenFilled price).Reports (threeAndSeven price) := by
  refine ⟨?_, fun _ => rfl⟩
  change (10 : Decimal) = 3 + (7 + 0)
  norm_num

/-- All ten shares at one price. -/
theorem costsAsReported_threeOfTenRun :
    (∃ r, (reboot (run step Oms.empty threeOfTenRun).store).recover (tenFilledRecovery 100) =
        some r ∧ r.1.CostsAsReported 1 (tenFilled 100)) ∧
      (Reconciler.reconcileOrders (tenFilledPass 100) (run step Oms.empty threeOfTenRun)
        (run step Oms.empty threeOfTenRun).listOpenOrders).1.CostsAsReported 1 (tenFilled 100) := by
  have hdelivered : ((run step Oms.empty threeOfTenRun).getFills 1).map Fill.piece <+:
      threeAndSeven 100 := by
    decide +kernel
  have haverage : AtAverage (((run step Oms.empty threeOfTenRun).getFills 1).map Fill.piece)
      (threeAndSeven 100) := by
    decide +kernel
  have hfresh : Along step Fresh Oms.empty threeOfTenRun := by decide +kernel
  have hops : ∀ op ∈ threeOfTenRun, op.Accountable := by decide +kernel
  have hpos : ∀ e ∈ threeAndSeven 100, 0 < e.qty := by decide +kernel
  obtain ⟨hrecovery, hpass⟩ :=
    costsAsReported_catchUp_iff hfresh hops (reports_tenFilled 100) hpos hdelivered
  have hanswers : Reconciler.Answers (tenFilledPass 100) := by
    intro k status h
    simp only [tenFilledPass] at h
    split_ifs at h with hk
    cases h
    exact hk.symm
  constructor
  · have hreplayed : (((reboot (run step Oms.empty threeOfTenRun).store).replayLog).bind
        (·.orders.get? 1)).any (fun order => decide order.state.Open) = true := by
      decide +kernel
    obtain ⟨order, hbind, hopen⟩ := Option.any_eq_true _ _ |>.mp hreplayed
    obtain ⟨replayed, hreplay, ho⟩ := Option.bind_eq_some_iff.mp hbind
    obtain ⟨r, hr, hiff⟩ := hrecovery (tenFilledRecovery 100) replayed order hreplay ho
      (of_decide_eq_true hopen) rfl
    exact ⟨r, hr, hiff.mpr haverage⟩
  · have hlive : ((run step Oms.empty threeOfTenRun).orders.get? 1).any (fun order =>
        decide (order.state.Open ∧ order.brokerOrderId ≠ none)) = true := by
      decide +kernel
    obtain ⟨order, ho, hopen⟩ := Option.any_eq_true _ _ |>.mp hlive
    obtain ⟨hopen, hid⟩ := of_decide_eq_true hopen
    exact (hpass (tenFilledPass 100) order hanswers ho hopen hid rfl (Or.inr rfl)).mpr haverage

/-- **A cost that is lost**: three shares at 100 came as a fill, and seven at 110 did not. They are
made up at 107, the average of all ten, and the ten shares cost 1049 in the books and 1070 at the
broker. -/
theorem not_costsAsReported_threeOfTenRun :
    (tenFilled 110).Reports (threeAndSeven 110) ∧
      (∃ r, (reboot (run step Oms.empty threeOfTenRun).store).recover (tenFilledRecovery 110) =
        some r ∧ ¬r.1.CostsAsReported 1 (tenFilled 110)) ∧
      ¬(Reconciler.reconcileOrders (tenFilledPass 110) (run step Oms.empty threeOfTenRun)
        (run step Oms.empty threeOfTenRun).listOpenOrders).1.CostsAsReported 1
          (tenFilled 110) := by
  have hrecovery : ((reboot (run step Oms.empty threeOfTenRun).store).recover
      (tenFilledRecovery 110)).any (fun r => decide (¬r.1.CostsAsReported 1 (tenFilled 110))) =
        true := by
    decide +kernel
  obtain ⟨r, hr, hnot⟩ := Option.any_eq_true _ _ |>.mp hrecovery
  exact ⟨reports_tenFilled 110, ⟨r, hr, of_decide_eq_true hnot⟩, by decide +kernel⟩

end Oms

end TradingPlatform
