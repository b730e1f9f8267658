import TradingPlatform.Execution.AlpacaBroker

/-!
# What the stream reports and what a poll reports

Alpaca takes its fee on a purchase of crypto in kind, and the adapter takes it off in two places:
off the quantity of an execution, when the trade stream reports it, and off the quantity filled so
far, when the order is polled. The first goes by the side the adapter remembers, and by the buying
side if it remembers none; the second goes by the side the broker says.

So the two agree for every order but one kind. The executions of a sale of crypto that arrive while
the adapter does not remember the order lose a fee that nobody takes
(`TradingPlatform.AlpacaOrder.streamedQty_eq_filledQty_iff`), and the next poll finds it missing.
-/

namespace TradingPlatform

/-- The states of an order, as Alpaca names them. -/
inductive AlpacaStatus
  | new | pendingNew | held | accepted | acceptedForBidding | pendingCancel | pendingReplace
  | calculated | stopped | partiallyFilled | filled | doneForDay | canceled | replaced | expired
  | rejected | suspended
  /-- Any other text. -/
  | other
  deriving DecidableEq, Repr

def alpacaStatusToBroker : AlpacaStatus → BrokerOrderState
  | .new => .new
  | .pendingNew => .new
  | .held => .new
  | .accepted => .accepted
  | .acceptedForBidding => .accepted
  | .pendingCancel => .accepted
  | .pendingReplace => .accepted
  | .calculated => .accepted
  | .stopped => .accepted
  | .partiallyFilled => .partiallyFilled
  | .filled => .filled
  | .doneForDay => .expired
  | .canceled => .canceled
  | .replaced => .canceled
  | .expired => .expired
  | .rejected => .rejected
  | .suspended => .rejected
  | .other => .unknown

/-- An order, as Alpaca answers it. Almost everything may be missing. -/
structure AlpacaOrder where
  id : String
  /-- The client identifier, if the broker's text for it is one of ours. -/
  clientOrderId : Option OrderId
  status : Option AlpacaStatus := none
  symbol : Option String := none
  side : Option OrderSide := none
  assetClass : Option AssetClass := none
  qty : Option Decimal := none
  filledQty : Option Decimal := none
  filledAvgPrice : Option Decimal := none
  submittedAt : Option Time := none
  updatedAt : Option Time := none

/-- A delivery of the trade stream: one execution of an order, and the adapter's memory at that
time. What the adapter remembers of the order is what it submitted, so its side is the order's. -/
structure StreamDelivery (order : AlpacaOrder) where
  broker : AlpacaBroker
  qty : Decimal
  price : Decimal
  /-- Whether it completes the order. -/
  completes : Bool
  timestamp : Option Time
  fillId : FillId
  now : Time
  qty_pos : 0 < qty
  price_pos : 0 < price
  remembered : ∀ id ∈ order.clientOrderId, ∀ m ∈ broker.orderMeta.get? id,
    m.side = order.side.getD .buy

namespace AlpacaOrder

variable {order : AlpacaOrder}

/-- The side of an order, for the adapter. -/
def orderSide (order : AlpacaOrder) : OrderSide := order.side.getD .buy

/-- `AlpacaBroker._translate_order`. -/
def translateOrder (order : AlpacaOrder) (now : Time) : BrokerOrderStatus where
  brokerOrderId := order.id
  clientOrderId := order.clientOrderId.getD 0
  symbol := order.symbol.getD ""
  side := order.orderSide
  qty := order.qty.getD 0
  -- the fee of a crypto purchase is taken in kind
  filledQty := if order.assetClass = some .crypto ∧ order.orderSide = .buy
    then order.filledQty.getD 0 * (1 - cryptoTakerFee) else order.filledQty.getD 0
  avgFillPrice := truthy order.filledAvgPrice
  state := (order.status.map alpacaStatusToBroker).getD .unknown
  submittedAt := order.submittedAt.getD now
  updatedAt := order.updatedAt.getD now

/-- The message about an execution. -/
def update (order : AlpacaOrder) (d : StreamDelivery order) : TradeUpdate where
  clientOrderId := order.clientOrderId
  brokerOrderId := order.id
  event := if d.completes then .fill else .partialFill
  symbol := order.symbol
  assetClass := order.assetClass
  price := some d.price
  qty := some d.qty
  timestamp := d.timestamp

/-- The fill the adapter makes of an execution. -/
def fill? (order : AlpacaOrder) (d : StreamDelivery order) : Option Fill :=
  (d.broker.tradeUpdateToEvent (order.update d) d.fillId d.now).bind (·.fill)

/-- What the fills of the stream add up to. -/
def streamedQty (order : AlpacaOrder) (deliveries : List (StreamDelivery order)) : Decimal :=
  (deliveries.map fun d => ((order.fill? d).map (·.qty)).getD 0).sum

/-- The order after some executions. -/
def executed (order : AlpacaOrder) (deliveries : List (StreamDelivery order)) : AlpacaOrder :=
  { order with filledQty := some (deliveries.map (·.qty)).sum }

/-- **The condition**: nothing was executed, or the order has one of our identifiers and, if it
sells crypto, the adapter remembered it at every execution. -/
def StreamsAll (order : AlpacaOrder) (deliveries : List (StreamDelivery order)) : Prop :=
  deliveries = [] ∨ ∃ id, order.clientOrderId = some id ∧
    (order.assetClass = some .crypto → order.orderSide = .sell →
      ∀ d ∈ deliveries, id ∈ d.broker.orderMeta.keys)

/-! ### One execution -/

/-- An order that has none of our identifiers gets no fills. -/
theorem fill?_of_none (h : order.clientOrderId = none) (d : StreamDelivery order) :
    order.fill? d = none := by
  rw [fill?, AlpacaBroker.tradeUpdateToEvent, update, h]
  rfl

/-- An execution becomes a fill, with the side the adapter takes it for. -/
theorem map_qty_fill? {id : OrderId} (h : order.clientOrderId = some id)
    (d : StreamDelivery order) : (order.fill? d).map (·.qty) =
      some (if order.assetClass = some .crypto ∧ d.broker.sideOf id = .buy
        then d.qty * (1 - cryptoTakerFee) else d.qty) := by
  have hprice : truthy (order.update d).price = some d.price :=
    Option.filter_eq_some_iff.mpr ⟨rfl, decide_eq_true d.price_pos.ne'⟩
  have hqty : truthy (order.update d).qty = some d.qty :=
    Option.filter_eq_some_iff.mpr ⟨rfl, decide_eq_true d.qty_pos.ne'⟩
  have hevent : (order.update d).event = .fill ∨ (order.update d).event = .partialFill := by
    rw [update]
    dsimp only
    split_ifs
    · exact Or.inl rfl
    · exact Or.inr rfl
  have hexecution : AlpacaBroker.execution? (order.update d) = some (d.price, d.qty) := by
    rw [AlpacaBroker.execution?, if_pos hevent, hprice, hqty]
  have hid : (order.update d).clientOrderId = some id := h
  rw [fill?, AlpacaBroker.tradeUpdateToEvent, hid, hexecution]
  rfl

/-- The side the adapter takes an execution for. -/
theorem sideOf_delivery {id : OrderId} (h : order.clientOrderId = some id)
    (d : StreamDelivery order) :
    d.broker.sideOf id = .buy ↔ (order.orderSide = .sell → id ∉ d.broker.orderMeta.keys) := by
  rw [AlpacaBroker.sideOf]
  rcases hm : d.broker.orderMeta.get? id with _ | m
  · exact iff_of_true rfl fun _ => Dict.get?_eq_none_iff.mp hm
  · have hside : m.side = order.orderSide := d.remembered id h m hm
    have hkey : id ∈ d.broker.orderMeta.keys := Dict.mem_keys_of_get? hm
    rw [Option.map_some, Option.getD_some, hside]
    cases order.orderSide <;> simp [hkey]

/-- The executions of a sale of crypto that arrive while the adapter does not remember it. -/
def forgottenQty (order : AlpacaOrder) (id : OrderId) (deliveries : List (StreamDelivery order)) :
    Decimal :=
  (deliveries.map fun d => if order.assetClass = some .crypto ∧ order.orderSide = .sell ∧
    id ∉ d.broker.orderMeta.keys then d.qty else 0).sum

/-- **The stream reports what a poll reports**, less a fee on what was sold and forgotten. -/
theorem streamedQty_eq {id : OrderId} (h : order.clientOrderId = some id)
    (deliveries : List (StreamDelivery order)) (now : Time) :
    order.streamedQty deliveries =
      ((order.executed deliveries).translateOrder now).filledQty -
        cryptoTakerFee * order.forgottenQty id deliveries := by
  have hfilled : ((order.executed deliveries).translateOrder now).filledQty =
      if order.assetClass = some .crypto ∧ order.orderSide = .buy
      then (deliveries.map (·.qty)).sum * (1 - cryptoTakerFee)
      else (deliveries.map (·.qty)).sum := rfl
  rw [hfilled, streamedQty, forgottenQty]
  clear hfilled
  induction deliveries with
  | nil => simp
  | cons d deliveries ih =>
    rw [List.map_cons, List.sum_cons, ih, map_qty_fill? h, Option.getD_some, List.map_cons,
      List.sum_cons, List.map_cons, List.sum_cons]
    by_cases hcrypto : order.assetClass = some .crypto
    · simp only [hcrypto, true_and]
      cases hside : order.orderSide with
      | buy =>
        have hbuy : d.broker.sideOf id = .buy :=
          (sideOf_delivery h d).mpr fun hc => absurd (hside.symm.trans hc) (by decide)
        simp [hbuy]
        ring
      | sell =>
        by_cases hkey : id ∈ d.broker.orderMeta.keys
        · -- a sale that is remembered costs no coins on either path
          have hsell : d.broker.sideOf id ≠ .buy :=
            fun hc => (sideOf_delivery h d).mp hc hside hkey
          simp [hsell, hkey]
          ring
        · -- one that is forgotten is taken for a purchase, and the fee is taken off
          have hbuy : d.broker.sideOf id = .buy := (sideOf_delivery h d).mpr fun _ => hkey
          simp [hbuy, hkey]
          ring
    · simp [hcrypto]

/-- Every execution has a quantity, so nothing was forgotten only if no execution was. -/
theorem forgottenQty_eq_zero_iff (id : OrderId) (deliveries : List (StreamDelivery order)) :
    order.forgottenQty id deliveries = 0 ↔
      (order.assetClass = some .crypto → order.orderSide = .sell →
        ∀ d ∈ deliveries, id ∈ d.broker.orderMeta.keys) := by
  constructor
  · intro h hcrypto hsell d hd
    by_contra hkey
    have hnonneg : ∀ q ∈ deliveries.map (fun d => if order.assetClass = some .crypto ∧
        order.orderSide = .sell ∧ id ∉ d.broker.orderMeta.keys then d.qty else 0), 0 ≤ q := by
      intro q hq
      obtain ⟨d', -, rfl⟩ := List.mem_map.mp hq
      split_ifs
      · exact d'.qty_pos.le
      · exact le_rfl
    have hzero := List.all_zero_of_le_zero_le_of_sum_eq_zero hnonneg h (List.mem_map_of_mem hd)
    rw [if_pos ⟨hcrypto, hsell, hkey⟩] at hzero
    exact d.qty_pos.ne' hzero
  · intro h
    refine List.sum_eq_zero fun q hq => ?_
    obtain ⟨d, hd, rfl⟩ := List.mem_map.mp hq
    exact if_neg fun hc => hc.2.2 (h hc.1 hc.2.1 d hd)

/-- What a poll reports of an order of which something was executed. -/
theorem filledQty_executed_pos {deliveries : List (StreamDelivery order)} (hne : deliveries ≠ [])
    (now : Time) : 0 < ((order.executed deliveries).translateOrder now).filledQty := by
  have hsum : 0 < (deliveries.map (·.qty)).sum := by
    refine List.sum_pos _ (fun q hq => ?_) (by simpa using hne)
    obtain ⟨d, -, rfl⟩ := List.mem_map.mp hq
    exact d.qty_pos
  have hfilled : ((order.executed deliveries).translateOrder now).filledQty =
      if order.assetClass = some .crypto ∧ order.orderSide = .buy
      then (deliveries.map (·.qty)).sum * (1 - cryptoTakerFee)
      else (deliveries.map (·.qty)).sum := rfl
  rw [hfilled]
  split_ifs
  · exact mul_pos hsum (by norm_num [cryptoTakerFee])
  · exact hsum

/-- **When the stream reports what a poll reports**: for every order and all its executions, the
fills of the stream add up to the quantity the poll reports filled exactly if nothing was executed,
or the order has one of our identifiers and is no sale of crypto of which the adapter forgot an
execution. -/
theorem streamedQty_eq_filledQty_iff (order : AlpacaOrder)
    (deliveries : List (StreamDelivery order)) (now : Time) :
    order.streamedQty deliveries = ((order.executed deliveries).translateOrder now).filledQty ↔
      order.StreamsAll deliveries := by
  unfold StreamsAll
  rcases hid : order.clientOrderId with _ | id
  · -- the stream drops what has no identifier of ours
    have hzero : order.streamedQty deliveries = 0 := by
      refine List.sum_eq_zero fun q hq => ?_
      obtain ⟨d, -, rfl⟩ := List.mem_map.mp hq
      rw [fill?_of_none hid]
      rfl
    rw [hzero]
    constructor
    · intro h
      refine Or.inl ?_
      by_contra hne
      exact absurd h (filledQty_executed_pos hne now).ne
    · rintro (rfl | ⟨id, hsome, -⟩)
      · change (0 : Decimal) = if order.assetClass = some .crypto ∧ order.orderSide = .buy
          then ([] : List Decimal).sum * (1 - cryptoTakerFee) else ([] : List Decimal).sum
        split_ifs <;> simp
      · cases hsome
  · have hfee : cryptoTakerFee ≠ 0 := by norm_num [cryptoTakerFee]
    rw [streamedQty_eq hid deliveries now, sub_eq_self, mul_eq_zero, or_iff_right hfee,
      forgottenQty_eq_zero_iff]
    constructor
    · exact fun h => Or.inr ⟨id, rfl, h⟩
    · rintro (rfl | ⟨id', hsome, h⟩)
      · exact fun _ _ d hd => absurd hd List.not_mem_nil
      · cases hsome
        exact h

/-- A sale of a coin. -/
def coinSale : AlpacaOrder where
  id := "A"
  clientOrderId := some 1
  symbol := some "BTC/USD"
  side := some .sell
  assetClass := some .crypto

/-- Its only execution, delivered to a process that did not submit the order. -/
def lateDelivery : StreamDelivery coinSale where
  broker := ⟨.empty⟩
  qty := 1
  price := 50000
  completes := true
  timestamp := some 0
  fillId := 1
  now := 0
  qty_pos := by norm_num
  price_pos := by norm_num
  remembered id _ m hm := absurd hm (by simp)

/-- **A fee that nobody took**: the stream reports a coin less a quarter of a percent, the poll
reports a coin. -/
theorem streamedQty_coinSale :
    coinSale.streamedQty [lateDelivery] = 9975 / 10000 ∧
      ((coinSale.executed [lateDelivery]).translateOrder 0).filledQty = 1 ∧
      ¬coinSale.streamedQty [lateDelivery] =
        ((coinSale.executed [lateDelivery]).translateOrder 0).filledQty := by
  have hstream : coinSale.streamedQty [lateDelivery] = 9975 / 10000 := by decide +kernel
  have hpoll : ((coinSale.executed [lateDelivery]).translateOrder 0).filledQty = 1 := by
    decide +kernel
  refine ⟨hstream, hpoll, ?_⟩
  rw [hstream, hpoll]
  norm_num

end AlpacaOrder

end TradingPlatform
