import TradingPlatform.Execution.OmsReplay

/-!
# Recovery

On a restart the system replays its log and then asks the broker about every order the
replay left open. What the broker answers is a snapshot
(`TradingPlatform.RecoveryEnv`); an order it does not know is declared lost, an order it
sees as we do is left alone, and any other is caught up
(`TradingPlatform.Oms.catchUpFromBroker`).

A replayed order need not be in the state of its machine – the replay assigns states the
machine refused – so the maps are only *keyed* here
(`TradingPlatform.Oms.Keyed`): every order has its machine and its fills.
-/

namespace TradingPlatform

/-- Map the broker's vocabulary to ours. -/
def brokerStateToLocal : BrokerOrderState → OrderState
  | .new | .accepted => .accepted
  | .partiallyFilled => .partiallyFilled
  | .filled => .filled
  | .canceled => .cancelled
  | .rejected => .rejected
  | .expired => .expired
  | .unknown => .pending

/-- Whether our view of an order agrees with the broker's. -/
def brokerStateMatches (order : Order) (broker : BrokerOrderStatus) : Prop :=
  order.brokerOrderId = some broker.brokerOrderId ∧ order.filledQty = broker.filledQty ∧
    brokerStateToLocal broker.state = order.state

instance (order : Order) (broker : BrokerOrderStatus) :
    Decidable (brokerStateMatches order broker) :=
  inferInstanceAs (Decidable (_ ∧ _ ∧ _))

/-- A fill made up for the quantity our records are missing. -/
def syntheticFill (order : Order) (broker : BrokerOrderStatus) (fillId : FillId) (ts : Time) :
    Fill where
  id := fillId
  orderId := order.id
  agentId := order.agentId
  symbol := order.symbol
  side := order.side
  qty := broker.filledQty - order.filledQty
  price := broker.fillPrice
  timestamp := ts
  isPartial := broker.state ≠ .filled

/-- What a recovery draws from outside: the broker's record of each order, a fresh
identifier for each synthetic fill, the time. -/
structure RecoveryEnv where
  findOrderByClientId : OrderId → Option BrokerOrderStatus
  fillId : OrderId → FillId
  now : Time

/-- What became of one order. -/
inductive RecoveryOutcome
  | alreadyTerminal | abandoned | matched | recovered
  deriving DecidableEq

structure ReconcileSummary where
  ordersReplayed : ℕ
  ordersRecovered : ℕ
  ordersAbandoned : ℕ
  ordersAlreadyTerminal : ℕ
  deriving DecidableEq

namespace Oms

/-- Follow the broker to a terminal state. -/
def catchUpTerminal (s : Oms) (orderId : OrderId) (broker : BrokerOrderStatus) (ts : Time) : Oms :=
  match broker.state with
  | .canceled => s.handleCancellation orderId ts
  | .rejected =>
    s.handleRejection orderId (orDefault broker.rejectionReason "broker rejected (recovered)") ts
  | .expired => s.handleExpiry orderId ts
  -- does nothing to an order that is terminal already
  | .filled => s.forceCloseFilled orderId ts
  | .new | .accepted | .partiallyFilled | .unknown => s

/-- Whether following the broker there counts as progress. -/
def terminalAdvances (s : Oms) (orderId : OrderId) (broker : BrokerOrderStatus) : Bool :=
  match broker.state with
  | .canceled | .rejected | .expired => true
  | .filled => (s.orders.get? orderId).any fun order => ¬order.state.Terminal
  | .new | .accepted | .partiallyFilled | .unknown => false

/-- Apply the broker's progress that our log is missing: an acceptance, a fill for the
missing quantity, a terminal state. -/
def catchUpFromBroker (s : Oms) (orderId : OrderId) (broker : BrokerOrderStatus)
    (fillId : FillId) (ts : Time) : Oms :=
  match s.orders.get? orderId with
  | none => s
  | some order =>
    let deltaQty := broker.filledQty - order.filledQty
    let accepted := if order.brokerOrderId = none
      then s.recordAccepted orderId broker.brokerOrderId ts else s
    let filled := if 0 < deltaQty
      then accepted.handleFill orderId (syntheticFill order broker fillId ts) ts else accepted
    let closed := filled.catchUpTerminal orderId broker ts
    let advanced : Bool :=
      order.brokerOrderId = none ∨ 0 < deltaQty ∨ filled.terminalAdvances orderId broker
    closed.append
      (if advanced then .reconcileRecovered broker.state (some deltaQty)
        else .reconcileNoop broker.state (some deltaQty)) orderId ts

/-- Ask the broker about one order. -/
def reconcileOpenOrder (env : RecoveryEnv) (s : Oms) (orderId : OrderId) :
    Oms × RecoveryOutcome :=
  match s.orders.get? orderId with
  | none => (s, .alreadyTerminal)
  | some order =>
    if order.state.Terminal then (s, .alreadyTerminal)
    else
      match env.findOrderByClientId orderId with
      | none =>
        let s := s.append (.reconcileAbandoned "broker has no record after recovery") orderId
          env.now
        (s.handleRejection orderId "abandoned_during_recovery" env.now, .abandoned)
      | some broker =>
        if brokerStateMatches order broker then
          (s.append (.reconcileNoop broker.state none) orderId env.now, .matched)
        else
          (s.catchUpFromBroker orderId broker (env.fillId orderId) env.now, .recovered)

end Oms

/-- Count what became of one more order. -/
def ReconcileSummary.count (summary : ReconcileSummary) : RecoveryOutcome → ReconcileSummary
  | .alreadyTerminal => { summary with ordersAlreadyTerminal := summary.ordersAlreadyTerminal + 1 }
  | .abandoned => { summary with ordersAbandoned := summary.ordersAbandoned + 1 }
  | .matched => summary
  | .recovered => { summary with ordersRecovered := summary.ordersRecovered + 1 }

namespace Oms

/-- Ask the broker about every order the log knows. -/
def reconcileOpenOrders (env : RecoveryEnv) (s : Oms) : Oms × ReconcileSummary :=
  s.orders.keys.foldl
    (fun (s, summary) orderId =>
      ((reconcileOpenOrder env s orderId).1,
        summary.count (reconcileOpenOrder env s orderId).2))
    (s, ⟨s.orders.keys.length, 0, 0, 0⟩)

/-- Replay the log, then ask the broker about the orders it left open. -/
def recover (env : RecoveryEnv) (s : Oms) : Option (Oms × ReconcileSummary) :=
  s.replayLog.map (reconcileOpenOrders env)

/-- The orders are looked at one after the other, and the summary does not matter to them. -/
theorem fst_reconcileOpenOrders (env : RecoveryEnv) (s : Oms) :
    (reconcileOpenOrders env s).1 =
      run (fun s k => (reconcileOpenOrder env s k).1) s s.orders.keys := by
  rw [reconcileOpenOrders, run]
  generalize (⟨_, _, _, _⟩ : ReconcileSummary) = summary
  generalize s.orders.keys = keys
  induction keys generalizing s summary with
  | nil => rfl
  | cons k keys ih => exact ih _ _

/-! ### What catching up does -/

section CatchUp

variable {s : Oms} {k : OrderId} {order : Order}

theorem quiet_catchUpTerminal (hs : s.Keyed) (k : OrderId) (broker : BrokerOrderStatus)
    (ts : Time) : s.Quiet (s.catchUpTerminal k broker ts) := by
  unfold catchUpTerminal
  cases broker.state with
  | canceled => exact quiet_handleCancellation hs _ _
  | rejected => exact quiet_handleRejection hs _ _ _
  | expired => exact quiet_handleExpiry hs _ _
  | filled => exact quiet_forceCloseFilled hs _ _
  | new | accepted | partiallyFilled | unknown => exact Quiet.refl s

/-- **Catching up is quiet but for one fill**, of the quantity that was missing. -/
theorem catchUpFromBroker_steps (hs : s.Keyed) (h : s.orders.get? k = some order)
    (broker : BrokerOrderStatus) (fillId : FillId) (ts : Time) :
    ∃ s₁ s₂ s₃, s.Quiet s₁ ∧
      s₂ = (if 0 < broker.filledQty - order.filledQty
        then s₁.handleFill k (syntheticFill order broker fillId ts) ts else s₁) ∧
      s₂.Quiet s₃ ∧ s₃.Quiet (s.catchUpFromBroker k broker fillId ts) := by
  let s₁ := if order.brokerOrderId = none then s.recordAccepted k broker.brokerOrderId ts else s
  have h₁ : s.Quiet s₁ := by
    change s.Quiet (if _ then _ else _)
    split_ifs
    · exact quiet_recordAccepted hs _ _ _
    · exact Quiet.refl s
  let s₂ := if 0 < broker.filledQty - order.filledQty
    then s₁.handleFill k (syntheticFill order broker fillId ts) ts else s₁
  have h₂ : s₂.Keyed := by
    change Keyed (if _ then _ else _)
    split_ifs
    · exact (h₁.keyed hs).handleFill _ _ _
    · exact h₁.keyed hs
  have hkeys : s₂.orders.keys = s₁.orders.keys := by
    change (if _ then _ else _ : Oms).orders.keys = _
    split_ifs
    · exact keys_handleFill (h₁.keyed hs) _ _ _
    · rfl
  have h₃ := quiet_catchUpTerminal h₂ k broker ts
  refine ⟨s₁, s₂, s₂.catchUpTerminal k broker ts, h₁, rfl, h₃, ?_⟩
  rw [catchUpFromBroker, h]
  refine quiet_append ?_ ?_
  · rw [h₃.keys, hkeys, h₁.keys]
    exact Dict.mem_keys_of_get? h
  · split_ifs <;> trivial

/-- **Catching up leaves no execution behind**: afterwards the order has as much filled as
the broker says. -/
theorem filledQty_catchUpFromBroker (hs : s.Keyed) (h : s.orders.get? k = some order)
    {broker : BrokerOrderStatus} (hle : order.filledQty ≤ broker.filledQty) (fillId : FillId)
    (ts : Time) :
    ∃ order', (s.catchUpFromBroker k broker fillId ts).orders.get? k = some order' ∧
      order'.filledQty = broker.filledQty := by
  obtain ⟨s₁, s₂, s₃, h₁, h₂, h₃, h₄⟩ := catchUpFromBroker_steps hs h broker fillId ts
  obtain ⟨o₁, ho₁, hs₁⟩ := h₁.exists_order h
  obtain ⟨o₂, ho₂, hq₂⟩ : ∃ o₂, s₂.orders.get? k = some o₂ ∧ o₂.filledQty = broker.filledQty := by
    by_cases hd : 0 < broker.filledQty - order.filledQty
    · obtain ⟨o₂, ho₂, hs₂⟩ := exists_order_handleFill (h₁.keyed hs) ho₁
        (syntheticFill order broker fillId ts) ts
      refine ⟨o₂, by rw [h₂, if_pos hd, ho₂], hs₂.filledQty.trans ?_⟩
      simp [hs₁.filledQty, syntheticFill]
    · refine ⟨o₁, by rw [h₂, if_neg hd, ho₁], hs₁.filledQty.trans ?_⟩
      linarith
  obtain ⟨o₃, ho₃, hs₃⟩ := h₃.exists_order ho₂
  obtain ⟨o₄, ho₄, hs₄⟩ := h₄.exists_order ho₃
  exact ⟨o₄, ho₄, hs₄.filledQty.trans (hs₃.filledQty.trans hq₂)⟩

end CatchUp

end Oms

end TradingPlatform
