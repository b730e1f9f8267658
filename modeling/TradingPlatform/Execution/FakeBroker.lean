import TradingPlatform.Execution.Reconciler

/-!
# The simulated broker

A broker in memory, for tests and for work offline. It keeps a record of every order, a map from
our identifiers to its own, the positions and the cash. What it does with a new order is its fill
mode; whatever else happens to an order is forced by the test.

It delivers events in the middle of its own operations, to the system that called it. So an
operation returns the events it delivers next to the state it leaves, in the order in which it
delivers them: it never looks at what the system makes of them. The identifiers it draws and the
clock it reads are arguments.
-/

namespace TradingPlatform

/-- What the broker does with a new order. -/
inductive FillMode
  /-- Fill it as soon as it is accepted. -/
  | instant
  /-- Leave it accepted. -/
  | manual
  | reject
  /-- Fill half of it, and hold the rest. -/
  | partialThenHold
  deriving DecidableEq, Repr

/-- How much of an accepted order is filled at once. -/
def FillMode.autoFill? (mode : FillMode) (qty : Decimal) : Option Decimal :=
  match mode with
  | .instant => some qty
  | .partialThenHold => some (qty / 2)
  | .manual | .reject => none

/-- The broker's record of an order. -/
structure BrokerOrder where
  status : BrokerOrderStatus
  fills : List Fill
  agentId : AgentId
  limitPrice : Option Decimal := none
  deriving DecidableEq

/-- What a broker call may raise. -/
inductive BrokerError
  | rejection (reason : String)
  | unavailable
  deriving DecidableEq

/-- What a submission that raises amounts to. -/
def BrokerError.outcome : BrokerError → SubmitOutcome
  | .rejection reason => .rejected reason
  | .unavailable => .unavailable

/-- What forcing an order may raise. -/
inductive ForceError
  | noOrder (clientOrderId : OrderId)
  | exceedsRemaining (qty remaining : Decimal)
  deriving DecidableEq

structure FakeBroker where
  fillMode : FillMode
  cash : Decimal
  orders : Dict String BrokerOrder
  clientToBroker : Dict OrderId String
  positions : Dict String BrokerPosition
  prices : Dict String Decimal
  raiseOnNextSubmit : Option BrokerError
  raiseOnNextCancel : Option BrokerError

namespace FakeBroker

/-- A broker that has just been constructed. -/
def new (fillMode : FillMode) (startingCash : Decimal) : FakeBroker where
  fillMode := fillMode
  cash := startingCash
  orders := .empty
  clientToBroker := .empty
  positions := .empty
  prices := .empty
  raiseOnNextSubmit := none
  raiseOnNextCancel := none

/-! ### Test knobs -/

def setFillMode (b : FakeBroker) (mode : FillMode) : FakeBroker := { b with fillMode := mode }

def setPrice (b : FakeBroker) (symbol : String) (price : Decimal) : FakeBroker :=
  { b with prices := b.prices.set symbol price }

def injectSubmitFailure (b : FakeBroker) (error : BrokerError) : FakeBroker :=
  { b with raiseOnNextSubmit := some error }

def injectCancelFailure (b : FakeBroker) (error : BrokerError) : FakeBroker :=
  { b with raiseOnNextCancel := some error }

/-! ### Internal helpers -/

def priceFor (b : FakeBroker) (symbol : String) (fallback : Option Decimal := none) : Decimal :=
  match b.prices.get? symbol with
  | some price => price
  | none => fallback.getD 100

/-- Write an order's record down. -/
def write (b : FakeBroker) (record : BrokerOrder) : FakeBroker :=
  { b with orders := b.orders.set record.status.brokerOrderId record }

/-- Book a fill to the cash and to the position in its symbol. A position of zero is not kept. -/
def applyFillToAccount (b : FakeBroker) (symbol : String) (side : OrderSide)
    (qty price : Decimal) : FakeBroker :=
  let signedQty := match side with
    | .buy => qty
    | .sell => -qty
  let b := { b with cash := b.cash - signedQty * price }
  match b.positions.get? symbol with
  | none =>
    if signedQty = 0 then b
    else
      { b with
        positions := b.positions.set symbol
          { symbol := symbol, qty := signedQty, avgEntryPrice := price, currentPrice := price,
            assetClass := .equity } }
  | some existing =>
    let newQty := existing.qty + signedQty
    if newQty = 0 then { b with positions := b.positions.erase symbol }
    else
      -- the entry price moves only when the position grows
      let newAvg :=
        if (0 < existing.qty ∧ 0 < signedQty) ∨ (existing.qty < 0 ∧ signedQty < 0) then
          (existing.avgEntryPrice * existing.qty + price * signedQty) / newQty
        else existing.avgEntryPrice
      { b with
        positions := b.positions.set symbol
          { existing with qty := newQty, avgEntryPrice := newAvg, currentPrice := price } }

/-- The record of an order with a fill of `qty` in it. -/
def filledRecord (record : BrokerOrder) (qty price : Decimal) (fillId : FillId) (now : Time) :
    BrokerOrder × Fill :=
  let newFilled := record.status.filledQty + qty
  let isFull : Bool := record.status.qty ≤ newFilled
  let newAvg := match record.status.avgFillPrice with
    | none => price
    | some avg => (avg * record.status.filledQty + price * qty) / newFilled
  let fill : Fill :=
    { id := fillId, orderId := record.status.clientOrderId, agentId := record.agentId,
      symbol := record.status.symbol, side := record.status.side, qty := qty, price := price,
      timestamp := now, commission := 0, isPartial := !isFull }
  ({ record with
      status := { record.status with
        filledQty := newFilled, avgFillPrice := some newAvg
        state := if isFull then .filled else .partiallyFilled
        updatedAt := now }
      fills := record.fills ++ [fill] }, fill)

/-- Record a fill against an order, book it, and deliver it. -/
def recordFill (b : FakeBroker) (record : BrokerOrder) (qty price : Decimal) (fillId : FillId)
    (now : Time) : FakeBroker × BrokerOrderEvent :=
  let (record, fill) := filledRecord record qty price fillId now
  ((b.write record).applyFillToAccount record.status.symbol record.status.side qty price,
    { brokerOrderId := record.status.brokerOrderId, clientOrderId := record.status.clientOrderId,
      newState := record.status.state, fill := some fill, timestamp := some now })

/-! ### What the system may call -/

/-- The record of a new order. -/
def newRecord (order : Order) (brokerOrderId : String) (state : BrokerOrderState)
    (rejectionReason : Option String) (now : Time) : BrokerOrder where
  status :=
    { brokerOrderId := brokerOrderId, clientOrderId := order.id, symbol := order.symbol
      side := order.side, qty := order.qty, filledQty := 0, avgFillPrice := none, state := state
      submittedAt := now, updatedAt := now, rejectionReason := rejectionReason }
  fills := []
  agentId := order.agentId
  limitPrice := order.limitPrice

/-- Keep a new order, under the broker's identifier and under ours. -/
def keep (b : FakeBroker) (record : BrokerOrder) : FakeBroker :=
  { b.write record with
    clientToBroker := b.clientToBroker.set record.status.clientOrderId
      record.status.brokerOrderId }

def rejectReason : String := "fake_broker REJECT mode"

/-- Submit an order: the broker's identifier of an order it knows already, else a rejection, or an
acceptance and what the fill mode fills at once. -/
def submitOrder (b : FakeBroker) (order : Order) (brokerOrderId : String) (fillId : FillId)
    (now : Time) : FakeBroker × SubmitCall :=
  match b.raiseOnNextSubmit with
  | some error => ({ b with raiseOnNextSubmit := none }, ⟨[], error.outcome⟩)
  | none =>
    match b.clientToBroker.get? order.id with
    | some existing => (b, ⟨[], .returned existing⟩)
    | none =>
      if b.fillMode = .reject then
        (b.keep (newRecord order brokerOrderId .rejected (some rejectReason) now),
          ⟨[{ brokerOrderId := brokerOrderId, clientOrderId := order.id, newState := .rejected,
              rejectionReason := some rejectReason, timestamp := some now }],
            .rejected rejectReason⟩)
      else
        let record := newRecord order brokerOrderId .accepted none now
        let kept := b.keep record
        let accepted : BrokerOrderEvent :=
          { brokerOrderId := brokerOrderId, clientOrderId := order.id, newState := .accepted,
            timestamp := some now }
        match b.fillMode.autoFill? order.qty with
        | none => (kept, ⟨[accepted], .returned brokerOrderId⟩)
        | some qty =>
          let (filled, event) := kept.recordFill record qty
            (b.priceFor order.symbol order.limitPrice) fillId now
          (filled, ⟨[accepted, event], .returned brokerOrderId⟩)

/-- The states the broker does not cancel an order in. -/
def Terminal (state : BrokerOrderState) : Prop :=
  state = .filled ∨ state = .canceled ∨ state = .rejected ∨ state = .expired

instance : DecidablePred Terminal := fun _ => inferInstanceAs (Decidable (_ ∨ _))

/-- Cancel an order. One that is closed stays as it is. -/
def cancelOrder (b : FakeBroker) (brokerOrderId : String) (now : Time) :
    FakeBroker × CancelCall :=
  match b.raiseOnNextCancel with
  | some _ => ({ b with raiseOnNextCancel := none }, ⟨[], true⟩)
  | none =>
    match b.orders.get? brokerOrderId with
    | none => (b, ⟨[], true⟩)
    | some record =>
      if Terminal record.status.state then (b, ⟨[], false⟩)
      else
        (b.write { record with
            status := { record.status with state := .canceled, updatedAt := now } },
          ⟨[{ brokerOrderId := brokerOrderId, clientOrderId := record.status.clientOrderId,
              newState := .canceled, timestamp := some now }], false⟩)

def findOrderByClientId (b : FakeBroker) (clientOrderId : OrderId) : Option BrokerOrderStatus :=
  (b.clientToBroker.get? clientOrderId).bind fun brokerOrderId =>
    (b.orders.get? brokerOrderId).map (·.status)

def listPositions (b : FakeBroker) : List BrokerPosition := b.positions.values

/-! ### Forcing an order -/

/-- The record of an order we submitted. -/
def recordOf (b : FakeBroker) (clientOrderId : OrderId) : Except ForceError BrokerOrder :=
  match (b.clientToBroker.get? clientOrderId).bind b.orders.get? with
  | none => .error (.noOrder clientOrderId)
  | some record => .ok record

/-- Fill what is left of an order, in whichever state it is. -/
def forceFullFill (b : FakeBroker) (clientOrderId : OrderId) (price : Option Decimal)
    (fillId : FillId) (now : Time) : Except ForceError (FakeBroker × List BrokerOrderEvent) :=
  match b.recordOf clientOrderId with
  | .error error => .error error
  | .ok record =>
    let remaining := record.status.qty - record.status.filledQty
    if remaining ≤ 0 then .ok (b, [])
    else
      let (filled, event) := b.recordFill record remaining
        (price.getD (b.priceFor record.status.symbol)) fillId now
      .ok (filled, [event])

/-- Fill some of what is left of an order. -/
def forcePartialFill (b : FakeBroker) (clientOrderId : OrderId) (qty : Decimal)
    (price : Option Decimal) (fillId : FillId) (now : Time) :
    Except ForceError (FakeBroker × List BrokerOrderEvent) :=
  match b.recordOf clientOrderId with
  | .error error => .error error
  | .ok record =>
    let remaining := record.status.qty - record.status.filledQty
    if remaining < qty then .error (.exceedsRemaining qty remaining)
    else
      let (filled, event) := b.recordFill record qty
        (price.getD (b.priceFor record.status.symbol)) fillId now
      .ok (filled, [event])

/-- Reject an order, in whichever state it is. -/
def forceReject (b : FakeBroker) (clientOrderId : OrderId) (reason : String) (now : Time) :
    Except ForceError (FakeBroker × List BrokerOrderEvent) :=
  match b.recordOf clientOrderId with
  | .error error => .error error
  | .ok record =>
    .ok (b.write { record with
        status := { record.status with
          state := .rejected, rejectionReason := some reason, updatedAt := now } },
      [{ brokerOrderId := record.status.brokerOrderId, clientOrderId := clientOrderId,
         newState := .rejected, rejectionReason := some reason, timestamp := some now }])

/-! ### The two maps -/

/-- **The broker's maps belong together**: our identifier of an order leads to its record, and the
record back. -/
structure Keyed (b : FakeBroker) : Prop where
  record : ∀ k brokerOrderId, b.clientToBroker.get? k = some brokerOrderId →
    ∃ record, b.orders.get? brokerOrderId = some record ∧ record.status.clientOrderId = k
  client : ∀ brokerOrderId record, b.orders.get? brokerOrderId = some record →
    record.status.brokerOrderId = brokerOrderId ∧
      b.clientToBroker.get? record.status.clientOrderId = some brokerOrderId

/-- The filled quantity the broker has for an order; none if it has no such order. -/
def filledQty (b : FakeBroker) (k : OrderId) : Decimal :=
  ((b.findOrderByClientId k).map (·.filledQty)).getD 0

theorem keyed_new (fillMode : FillMode) (startingCash : Decimal) :
    (new fillMode startingCash).Keyed :=
  ⟨fun _ _ h => absurd h (by simp [new]), fun _ _ h => absurd h (by simp [new])⟩

section Maps

variable {b : FakeBroker} {old record : BrokerOrder}

theorem find_of_get? (hb : b.Keyed) {brokerOrderId : String}
    (h : b.orders.get? brokerOrderId = some record) :
    b.findOrderByClientId record.status.clientOrderId = some record.status := by
  rw [findOrderByClientId, (hb.client _ _ h).2, Option.bind_some, h, Option.map_some]

theorem find_congr {b' : FakeBroker} (horders : b'.orders = b.orders)
    (hclients : b'.clientToBroker = b.clientToBroker) :
    b'.findOrderByClientId = b.findOrderByClientId := by
  funext k
  rw [findOrderByClientId, horders, hclients, findOrderByClientId]

theorem Keyed.congr (hb : b.Keyed) {b' : FakeBroker} (horders : b'.orders = b.orders)
    (hclients : b'.clientToBroker = b.clientToBroker) : b'.Keyed := by
  constructor
  · rw [horders, hclients]
    exact hb.record
  · rw [horders, hclients]
    exact hb.client

/-- Writing another record for an order. -/
theorem Keyed.write (hb : b.Keyed) (h : b.orders.get? record.status.brokerOrderId = some old)
    (hclient : record.status.clientOrderId = old.status.clientOrderId) :
    (b.write record).Keyed ∧ ∀ k, (b.write record).findOrderByClientId k =
      if k = record.status.clientOrderId then some record.status else b.findOrderByClientId k := by
  have hid : b.clientToBroker.get? record.status.clientOrderId =
      some record.status.brokerOrderId := by
    rw [hclient]
    exact (hb.client _ _ h).2
  have horders : ∀ id, (b.write record).orders.get? id =
      if id = record.status.brokerOrderId then some record else b.orders.get? id :=
    fun id => Dict.get?_set _ _ _ _
  refine ⟨⟨fun k id hk => ?_, fun id r hr => ?_⟩, fun k => ?_⟩
  · rw [horders]
    split_ifs with hc
    · -- only one of our identifiers leads to the record
      obtain ⟨r, hr, rfl⟩ := hb.record k id hk
      obtain rfl : r = old := Option.some.inj (hr.symm.trans (hc ▸ h))
      exact ⟨record, rfl, hclient⟩
    · exact hb.record k id hk
  · rw [horders] at hr
    split_ifs at hr with hc
    · cases hr
      exact ⟨hc.symm, hc ▸ hid⟩
    · exact hb.client id r hr
  · rw [findOrderByClientId, findOrderByClientId]
    change ((b.clientToBroker.get? k).bind _) = _
    split_ifs with hk
    · rw [hk, hid, Option.bind_some, horders, if_pos rfl, Option.map_some]
    · rcases hid' : b.clientToBroker.get? k with _ | id
      · rfl
      · rw [Option.bind_some, Option.bind_some, horders, if_neg]
        rintro rfl
        obtain ⟨r, hr, rfl⟩ := hb.record k _ hid'
        obtain rfl : r = old := Option.some.inj (hr.symm.trans h)
        exact hk hclient.symm

/-- Keeping a new order. -/
theorem Keyed.keep (hb : b.Keyed) (hnew : b.findOrderByClientId record.status.clientOrderId = none)
    (hid : record.status.brokerOrderId ∉ b.orders.keys) :
    (b.keep record).Keyed ∧ ∀ k, (b.keep record).findOrderByClientId k =
      if k = record.status.clientOrderId then some record.status else b.findOrderByClientId k := by
  have horders : ∀ id, (b.keep record).orders.get? id =
      if id = record.status.brokerOrderId then some record else b.orders.get? id :=
    fun id => Dict.get?_set _ _ _ _
  have hclients : ∀ k, (b.keep record).clientToBroker.get? k =
      if k = record.status.clientOrderId then some record.status.brokerOrderId
      else b.clientToBroker.get? k :=
    fun k => Dict.get?_set _ _ _ _
  have hne : ∀ id r, b.orders.get? id = some r → id ≠ record.status.brokerOrderId := by
    rintro id r hr rfl
    exact hid (Dict.mem_keys_of_get? hr)
  refine ⟨⟨fun k id hk => ?_, fun id r hr => ?_⟩, fun k => ?_⟩
  · rw [hclients] at hk
    split_ifs at hk with hc
    · cases hk
      exact ⟨record, (horders _).trans (if_pos rfl), hc.symm⟩
    · obtain ⟨r, hr, hrk⟩ := hb.record k id hk
      exact ⟨r, by rw [horders, if_neg (hne id r hr), hr], hrk⟩
  · rw [horders] at hr
    rw [hclients]
    split_ifs at hr with hc
    · cases hr
      exact ⟨hc.symm, by rw [if_pos rfl, hc]⟩
    · obtain ⟨hid', hclient⟩ := hb.client id r hr
      refine ⟨hid', ?_⟩
      rw [if_neg, hclient]
      intro hk
      have hfind := find_of_get? hb hr
      rw [hk, hnew] at hfind
      exact Option.some_ne_none _ hfind.symm
  · rw [findOrderByClientId, hclients]
    split_ifs with hk
    · rw [Option.bind_some, horders, if_pos rfl, Option.map_some]
    · rw [findOrderByClientId]
      rcases hid' : b.clientToBroker.get? k with _ | id
      · rfl
      · obtain ⟨r, hr, -⟩ := hb.record k id hid'
        rw [Option.bind_some, Option.bind_some, horders, if_neg (hne id r hr)]

end Maps

/-! ### The positions -/

section Account

variable (b : FakeBroker) (symbol : String) (side : OrderSide) (qty price : Decimal)

@[simp] theorem orders_applyFillToAccount :
    (b.applyFillToAccount symbol side qty price).orders = b.orders := by
  unfold applyFillToAccount
  dsimp only
  split
  · split_ifs
    · rfl
    · rfl
  · split_ifs
    · rfl
    · rfl
    · rfl

@[simp] theorem clientToBroker_applyFillToAccount :
    (b.applyFillToAccount symbol side qty price).clientToBroker = b.clientToBroker := by
  unfold applyFillToAccount
  dsimp only
  split
  · split_ifs
    · rfl
    · rfl
  · split_ifs
    · rfl
    · rfl
    · rfl

/-- **A fill moves the position in its symbol**, by its signed quantity, and no other. -/
theorem brokerQty_applyFillToAccount (sym : String) :
    Reconciler.brokerQty (b.applyFillToAccount symbol side qty price).positions sym =
      Reconciler.brokerQty b.positions sym +
        if sym = symbol then (match side with | .buy => qty | .sell => -qty) else 0 := by
  unfold applyFillToAccount Reconciler.brokerQty
  dsimp only
  generalize (match side with | .buy => qty | .sell => -qty : Decimal) = signedQty
  rcases h : b.positions.get? symbol with _ | existing
  · dsimp only
    by_cases hzero : signedQty = 0
    · rw [if_pos hzero, hzero, ite_self, add_zero]
    · rw [if_neg hzero, Dict.get?_set]
      by_cases hsym : sym = symbol
      · simp [hsym, h]
      · simp [hsym]
  · dsimp only
    by_cases hzero : existing.qty + signedQty = 0
    · rw [if_pos hzero, Dict.get?_erase]
      by_cases hsym : sym = symbol
      · simp [hsym, h, hzero]
      · simp [hsym]
    · rw [if_neg hzero, Dict.get?_set]
      by_cases hsym : sym = symbol
      · simp [hsym, h]
      · simp [hsym]

end Account

/-- A recorded fill is found under its order, and nothing else is moved. -/
theorem Keyed.recordFill {b : FakeBroker} (hb : b.Keyed) {record : BrokerOrder}
    (h : b.orders.get? record.status.brokerOrderId = some record) (qty price : Decimal)
    (fillId : FillId) (now : Time) :
    (b.recordFill record qty price fillId now).1.Keyed ∧
      ∀ k, (b.recordFill record qty price fillId now).1.findOrderByClientId k =
        if k = record.status.clientOrderId then
          some (filledRecord record qty price fillId now).1.status
        else b.findOrderByClientId k := by
  obtain ⟨hkeyed, hfind⟩ :=
    @Keyed.write b record (filledRecord record qty price fillId now).1 hb h rfl
  refine ⟨hkeyed.congr (by simp [FakeBroker.recordFill]) (by simp [FakeBroker.recordFill]),
    fun k => ?_⟩
  rw [← find_congr (orders_applyFillToAccount _ _ _ _ _)
    (clientToBroker_applyFillToAccount _ _ _ _ _)] at hfind
  exact hfind k

end FakeBroker

end TradingPlatform
