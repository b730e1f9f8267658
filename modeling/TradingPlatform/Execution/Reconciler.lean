import TradingPlatform.Execution.KillSwitch
import TradingPlatform.Execution.OmsRecovery

/-!
# The reconciler

A pass of the reconciler polls the broker about every open order, then compares the net
position of every symbol with the broker's. What the broker answers in a pass is a
`TradingPlatform.ReconcileEnv`; an answer that is missing is a call that raised. The
identifiers a pass draws are part of it too.

A pass looks at the symbols in the order of a set, which the source leaves unspecified.
Here they come in the order of our books, then of the broker's.

This file has the pass, step by step, and what polling one order does to the order's filled
quantity: the reconciler and the recovery of the order management system are two separate
ways of catching up with the broker, and
`TradingPlatform.Reconciler.filledQty_reconcileOrder_iff` says exactly when the first one
catches up as the second one always does.
-/

namespace TradingPlatform

/-- Sum all fills into a net position for each symbol, and drop the symbols that net to
zero. -/
def Oms.computeExpectedPositions (s : Oms) : Dict String Decimal :=
  let fills := s.listOrders.flatMap fun order => s.getFills order.id
  let positions : Dict String Decimal := fills.foldl
    (fun positions fill =>
      positions.set fill.symbol ((positions.get? fill.symbol).getD 0 + fill.signedQty)) .empty
  positions.filter fun _ qty => qty ≠ 0

/-- What the reconciler publishes. -/
inductive ReconcilerEvent
  | heartbeatMissed
  | killSwitchReset
  | killSwitchTripped (newState : KillSwitchState) (reason : String)
  | reconciliationBreak (symbol : String) (localQty brokerQty deltaUsd : Decimal)
  deriving DecidableEq

/-- A symbol whose books are apart. -/
structure PositionMismatch where
  symbol : String
  localQty : Decimal
  brokerQty : Decimal
  deltaUsd : Decimal
  deriving DecidableEq

structure ReconcileResult where
  ordersChecked : ℕ
  ordersUpdated : ℕ
  positionMismatches : ℕ
  killSwitchTripped : Bool
  deriving DecidableEq

/-- What a pass gets from outside. -/
structure ReconcileEnv where
  /-- The broker's answer when polled about an order, unless the call raises. -/
  getOrder : OrderId → Option BrokerOrderStatus
  /-- The broker's positions, unless the call raises. -/
  listPositions : Option (List BrokerPosition)
  fillId : OrderId → FillId
  ghostIds : String → GhostIds
  ts : Time

/-- How a reconciler is set up. -/
structure ReconcilerConfig where
  qtyTolerance : Decimal := 1
  /-- Whether it was given an event bus. -/
  hasBus : Bool := true
  orphanAgentId : AgentId := .haiku

def dollarTolerance : Decimal := 1

/-- The reconciler, with the components it works on. -/
structure Reconciler where
  oms : Oms
  kill : KillSwitchEngine
  lastKillState : KillSwitchState
  /-- The symbols a break has been announced for. -/
  alertedBreaks : List String
  published : List ReconcilerEvent

/-- Whether the broker reports progress on an order we still hold open. -/
def statusRequiresUpdate (omsState : OrderState) (brokerState : BrokerOrderState) : Bool :=
  if omsState.Terminal then false
  else
    match brokerState with
    | .filled | .partiallyFilled | .canceled | .rejected | .expired => true
    | .new | .accepted | .unknown => false

namespace Reconciler

/-! ### Orders -/

/-- The broker event a status amounts to. -/
def statusEvent (status : BrokerOrderStatus) (fill : Option Fill) : BrokerOrderEvent where
  brokerOrderId := status.brokerOrderId
  clientOrderId := status.clientOrderId
  newState := status.state
  fill := fill
  timestamp := some status.updatedAt

/-- Act on the broker's status of one order, as it stood when the orders were listed. -/
def applyStatus (s : Oms) (order : Order) (status : BrokerOrderStatus) (fillId : FillId) :
    Oms × Bool :=
  if statusRequiresUpdate order.state status.state then
    let deltaQty := status.filledQty - order.filledQty
    let brokerTerminalFilled : Prop := status.state = .partiallyFilled ∨ status.state = .filled
    if brokerTerminalFilled ∧ 0 < deltaQty then
      let fill := syntheticFill order status fillId status.updatedAt
      (s.onBrokerEvent (statusEvent status (some fill)) status.updatedAt, true)
    else if brokerTerminalFilled ∧ status.state = .filled ∧ deltaQty ≤ 0 then
      -- all of it is recorded, so the order is only stuck
      (s.forceCloseFilled order.id status.updatedAt, true)
    else (s.onBrokerEvent (statusEvent status none) status.updatedAt, true)
  else (s, false)

/-- Check one open order against the broker. -/
def reconcileOrder (env : ReconcileEnv) (s : Oms) (order : Order) : Oms × Bool :=
  match order.brokerOrderId with
  | none => (s, false)
  | some _ =>
    match env.getOrder order.id with
    | none => (s, false)
    | some status => applyStatus s order status (env.fillId order.id)

/-- Check every open order, and count the updates. -/
def reconcileOrders (env : ReconcileEnv) (s : Oms) (openOrders : List Order) : Oms × ℕ :=
  openOrders.foldl
    (fun (s, updated) order =>
      ((reconcileOrder env s order).1, updated + if (reconcileOrder env s order).2 then 1 else 0))
    (s, 0)

/-! ### Positions -/

/-- The broker's positions by symbol; a later one replaces an earlier one. -/
def positionsBySymbol (positions : List BrokerPosition) : Dict String BrokerPosition :=
  positions.foldl (fun d p => d.set p.symbol p) .empty

/-- What comparing one symbol shows. -/
inductive SymbolCheck
  | agrees
  /-- The broker holds a position we have no record of. -/
  | orphan (qty price : Decimal)
  | mismatch (details : PositionMismatch)

def ourQty (expected : Dict String Decimal) (sym : String) : Decimal := (expected.get? sym).getD 0

def brokerQty (positions : Dict String BrokerPosition) (sym : String) : Decimal :=
  ((positions.get? sym).map (·.qty)).getD 0

def brokerPrice (positions : Dict String BrokerPosition) (sym : String) : Decimal :=
  ((positions.get? sym).map (·.currentPrice)).getD 0

/-- **Within tolerance**: less than the tolerated number of shares apart, and no more than
the tolerated number of dollars. -/
def Within (cfg : ReconcilerConfig) (our broker price : Decimal) : Prop :=
  |our - broker| < cfg.qtyTolerance ∧ |our - broker| * price ≤ dollarTolerance

instance (cfg : ReconcilerConfig) (our broker price : Decimal) :
    Decidable (Within cfg our broker price) :=
  inferInstanceAs (Decidable (_ ∧ _))

def checkSymbol (cfg : ReconcilerConfig) (expected : Dict String Decimal)
    (positions : Dict String BrokerPosition) (sym : String) : SymbolCheck :=
  let our := ourQty expected sym
  let broker := brokerQty positions sym
  let price := brokerPrice positions sym
  if Within cfg our broker price then .agrees
  else if our = 0 ∧ 0 < broker then .orphan broker price
  else .mismatch ⟨sym, our, broker, |our - broker| * price⟩

/-- The symbols either side has. -/
def allSymbols (expected : Dict String Decimal) (positions : Dict String BrokerPosition) :
    List String :=
  expected.keys ++ positions.keys.filter fun sym => sym ∉ expected.keys

/-- Compare one symbol: adopt an orphan, note a mismatch. -/
def compareSymbol (cfg : ReconcilerConfig) (env : ReconcileEnv) (expected : Dict String Decimal)
    (positions : Dict String BrokerPosition) (acc : Oms × List PositionMismatch) (sym : String) :
    Oms × List PositionMismatch :=
  match checkSymbol cfg expected positions sym with
  | .agrees => acc
  -- not counted: the books are in sync now
  | .orphan qty price =>
    (acc.1.adoptOrphanPosition (env.ghostIds sym) sym qty price cfg.orphanAgentId env.ts, acc.2)
  | .mismatch details => (acc.1, acc.2 ++ [details])

/-- Compare all positions. The result is the number of mismatches and whether the kill
switch was tripped; positions that cannot be fetched give none. -/
def reconcilePositions (cfg : ReconcilerConfig) (env : ReconcileEnv) (r : Reconciler) :
    Reconciler × ℕ × Bool :=
  let expected := r.oms.computeExpectedPositions
  match env.listPositions with
  | none => (r, 0, false)
  | some brokerPositions =>
    let positions := positionsBySymbol brokerPositions
    let (oms, mismatches) :=
      (allSymbols expected positions).foldl (compareSymbol cfg env expected positions) (r.oms, [])
    let alerted := r.alertedBreaks.filter fun sym => sym ∈ mismatches.map (·.symbol)
    if mismatches = [] then ({ r with oms := oms, alertedBreaks := alerted }, 0, false)
    else
      let newBreaks := (mismatches.take 5).filter fun m => m.symbol ∉ alerted
      ({ r with
          oms := oms
          kill := r.kill.tripReconciliationBreak
          alertedBreaks := if cfg.hasBus then alerted ++ newBreaks.map (·.symbol) else alerted
          published := r.published ++ if cfg.hasBus
            then newBreaks.map fun m =>
              .reconciliationBreak m.symbol m.localQty m.brokerQty m.deltaUsd
            else [] },
        mismatches.length, true)

/-! ### A pass -/

/-- Forward a change of the kill switch to the bus. -/
def publishStateChange (cfg : ReconcilerConfig) (r : Reconciler) (tripped : Bool) : Reconciler :=
  if cfg.hasBus ∧ r.kill.state ≠ r.lastKillState then
    { r with
      lastKillState := r.kill.state
      published := r.published ++
        [if r.kill.state = .ok then .killSwitchReset
          else .killSwitchTripped r.kill.state
            (if tripped then "reconciliation_break" else r.kill.state.value)] }
  else r

/-- The heartbeat watchdog, which rides on the reconciler's tick. -/
def checkHeartbeat (cfg : ReconcilerConfig) (env : ReconcileEnv) (r : Reconciler) : Reconciler :=
  let kill := r.kill.checkHeartbeat env.ts
  { r with
    kill := kill
    published := r.published ++
      if cfg.hasBus ∧ r.kill.state = .ok ∧ kill.state = .heartbeatMissed then [.heartbeatMissed]
      else [] }

/-- One pass. -/
def reconcileOnce (cfg : ReconcilerConfig) (env : ReconcileEnv) (r : Reconciler) :
    Reconciler × ReconcileResult :=
  let r := checkHeartbeat cfg env r
  let openOrders := r.oms.listOpenOrders
  let (oms, ordersUpdated) := reconcileOrders env r.oms openOrders
  let (r, mismatches, tripped) := reconcilePositions cfg env { r with oms := oms }
  -- clear a prior break once the books agree again
  let r := if mismatches = 0 then { r with kill := r.kill.clearReconciliationBreak } else r
  (publishStateChange cfg r tripped,
    { ordersChecked := openOrders.length, ordersUpdated := ordersUpdated,
      positionMismatches := mismatches, killSwitchTripped := tripped })

/-! ### What polling one order records -/

section Polling

variable {env : ReconcileEnv} {s : Oms} {order : Order} {status : BrokerOrderStatus}

/-- A status of no interest, or one that only closes the order, leaves its filled quantity
alone. -/
theorem filledQty_applyStatus_of_not_filling (hs : s.Keyed)
    (h : s.orders.get? order.id = some order)
    (hst : ¬((status.state = .partiallyFilled ∨ status.state = .filled) ∧
      0 < status.filledQty - order.filledQty)) (fillId : FillId) :
    ∃ order', (applyStatus s order status fillId).1.orders.get? order.id = some order' ∧
      order'.filledQty = order.filledQty := by
  have hq : s.Quiet (applyStatus s order status fillId).1 := by
    unfold applyStatus
    dsimp only
    rw [if_neg hst]
    split_ifs
    · exact Oms.quiet_forceCloseFilled hs _ _
    · exact Oms.quiet_onBrokerEvent hs rfl _
    · exact Oms.Quiet.refl s
  obtain ⟨order', ho, hsame⟩ := hq.exists_order h
  exact ⟨order', ho, hsame.filledQty⟩

theorem applyStatus_of_filling (hopen : order.state.Open)
    (hst : status.state = .partiallyFilled ∨ status.state = .filled)
    (hd : 0 < status.filledQty - order.filledQty) (fillId : FillId) :
    (applyStatus s order status fillId).1 =
      s.onBrokerEvent (statusEvent status (some (syntheticFill order status fillId
        status.updatedAt))) status.updatedAt := by
  have hreq : statusRequiresUpdate order.state status.state = true := by
    have ht := (OrderState.open_iff_not_terminal _).mp hopen
    rcases hst with hst | hst <;> simp [statusRequiresUpdate, ht, hst]
  rw [applyStatus, if_pos hreq]
  dsimp only
  rw [if_pos ⟨hst, hd⟩]

/-- **When the reconciler loses no execution.** Polling an open order records all the
broker has filled exactly when nothing was missing, or the broker reports the order in one
of the two filling states, under our own identifier. Recovery records it always. -/
theorem filledQty_reconcileOrder_iff (hs : s.Keyed) (h : s.orders.get? order.id = some order)
    (hopen : order.state.Open) {brokerOrderId : String}
    (hb : order.brokerOrderId = some brokerOrderId) (hstatus : env.getOrder order.id = some status)
    (hle : order.filledQty ≤ status.filledQty) :
    ((∃ order', (reconcileOrder env s order).1.orders.get? order.id = some order' ∧
        order'.filledQty = status.filledQty) ↔
      status.filledQty = order.filledQty ∨
        (status.state = .partiallyFilled ∨ status.state = .filled) ∧
          status.clientOrderId = order.id) ∧
    ∃ order', (s.catchUpFromBroker order.id status (env.fillId order.id)
      status.updatedAt).orders.get? order.id = some order' ∧
        order'.filledQty = status.filledQty := by
  refine ⟨?_, Oms.filledQty_catchUpFromBroker hs h hle _ _⟩
  rw [reconcileOrder, hb, hstatus]
  dsimp only
  by_cases hst : (status.state = .partiallyFilled ∨ status.state = .filled) ∧
      0 < status.filledQty - order.filledQty
  · obtain ⟨hstate, hd⟩ := hst
    have hne : status.filledQty ≠ order.filledQty := fun hc => by simp [hc] at hd
    rw [applyStatus_of_filling hopen hstate hd, or_iff_right hne, and_iff_right hstate]
    by_cases hid : status.clientOrderId = order.id
    · refine iff_of_true ?_ hid
      rw [Oms.onBrokerEvent_of_fill (by rw [← h, ← hid]; rfl) hstate rfl]
      change ∃ order', (s.handleFill status.clientOrderId _ status.updatedAt).orders.get? _ = _ ∧ _
      rw [hid]
      obtain ⟨order', ho, hsame⟩ := Oms.exists_order_handleFill hs h
        (syntheticFill order status (env.fillId order.id) status.updatedAt) status.updatedAt
      refine ⟨order', ho, hsame.filledQty.trans ?_⟩
      simp [syntheticFill]
    · refine iff_of_false ?_ hid
      rintro ⟨order', ho, hq⟩
      have hid' : (statusEvent status (some (syntheticFill order status (env.fillId order.id)
        status.updatedAt))).clientOrderId ≠ order.id := hid
      obtain ⟨o, ho', hsame⟩ := Oms.get?_onBrokerEvent_of_ne hs h hid' status.updatedAt
      rw [ho'] at ho
      cases ho
      exact hne (hq.symm.trans hsame.filledQty)
  · obtain ⟨order', ho, hq⟩ :=
      filledQty_applyStatus_of_not_filling hs h hst (env.fillId order.id)
    rw [ho]
    simp only [Option.some.injEq, exists_eq_left', hq]
    constructor
    · exact fun heq => Or.inl heq.symm
    · rintro (heq | ⟨hstate, -⟩)
      · exact heq.symm
      · exact le_antisymm hle (not_lt.mp fun hlt => hst ⟨hstate, sub_pos.mpr hlt⟩)

end Polling

/-- An order of ten shares, accepted, with four of them filled. -/
def partFilledOms : Oms :=
  run Oms.step Oms.empty
    [.submitOrder (Oms.marketOrder 1 .buy 10) ⟨[], .returned "b-1"⟩ 0,
      .brokerEvent (Oms.fillEventFor 7 1 .buy 4 .partiallyFilled) 2]

/-- That order. -/
def partFilledOrder : Order := (partFilledOms.orders.get? 1).getD (Oms.marketOrder 1 .buy 10)

/-- The broker's view of it, with six shares filled. -/
def sixFilled (state : BrokerOrderState) : BrokerOrderStatus where
  brokerOrderId := "b-1"
  clientOrderId := 1
  symbol := "AAPL"
  side := .buy
  qty := 10
  filledQty := 6
  avgFillPrice := some 100
  state := state
  submittedAt := 0
  updatedAt := 3

/-- A pass in which the broker answers with that view. -/
def sixFilledEnv (state : BrokerOrderState) : ReconcileEnv where
  getOrder _ := some (sixFilled state)
  listPositions := none
  fillId _ := 8
  ghostIds _ := ⟨9, 9, 9⟩
  ts := 3

theorem keyed_partFilledOms : partFilledOms.Keyed :=
  (Oms.WellFormed.empty.run _).toKeyed

/-- While the broker reports the order as partially filled, polling records the two shares
that were missing. -/
theorem filledQty_reconcileOrder_partFilled :
    ∃ order', (reconcileOrder (sixFilledEnv .partiallyFilled) partFilledOms
      partFilledOrder).1.orders.get? partFilledOrder.id = some order' ∧ order'.filledQty = 6 :=
  have hb : partFilledOrder.brokerOrderId = some "b-1" := by decide +kernel
  have hstatus : (sixFilledEnv .partiallyFilled).getOrder partFilledOrder.id =
      some (sixFilled .partiallyFilled) := rfl
  (filledQty_reconcileOrder_iff keyed_partFilledOms (by decide +kernel) (by decide +kernel) hb
    hstatus (by decide +kernel)).1.mpr (Or.inr ⟨Or.inl rfl, by decide +kernel⟩)

/-- **A lost execution**: once the broker has cancelled the rest of the order, polling
closes the order at four shares of six. -/
theorem filledQty_reconcileOrder_canceled :
    ¬∃ order', (reconcileOrder (sixFilledEnv .canceled) partFilledOms
      partFilledOrder).1.orders.get? partFilledOrder.id = some order' ∧ order'.filledQty = 6 := by
  have hfour : ((reconcileOrder (sixFilledEnv .canceled) partFilledOms
      partFilledOrder).1.orders.get? partFilledOrder.id).map (·.filledQty) = some 4 := by
    decide +kernel
  rintro ⟨order', ho, hq⟩
  rw [ho, Option.map_some, Option.some_inj, hq] at hfour
  exact absurd hfour (by decide)

end Reconciler

end TradingPlatform
