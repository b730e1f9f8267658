import TradingPlatform.TradeBook
import TradingPlatform.Execution.PaperDesk

/-!
# The account at the simulated broker

What the simulated broker says of itself when it is asked: its account, its open orders, all its
fills. Here it is on its own, called by anyone in any order, and what it is compared with is the
list of the events it has delivered.

Whatever an operation does, it does by four moves (`TradingPlatform.FakeBroker.Move`): a move that
touches no book, a new order, an order that is closed, and a fill. So an invariant of the broker is
proved move by move, and `TradingPlatform.FakeBroker.moves_step` carries it through the operations.
Two invariants are: the account is what the delivered fills amount to
(`TradingPlatform.FakeBroker.Balanced`), and each order is what its own fills amount to
(`TradingPlatform.BrokerOrder.Sound`).

The broker takes any quantity. With an order or a fill of a quantity that is not positive the
filled quantity may come back to zero, and the average price is a quotient by it: such calls are
left out.
-/

namespace TradingPlatform

/-- Account-level snapshot from the broker. -/
structure BrokerAccount where
  cash : Decimal
  /-- Cash and the market value of the positions. -/
  equity : Decimal
  buyingPower : Decimal
  patternDayTrader : Bool
  daytradeCount : ℕ
  deriving DecidableEq

/-- A fill as a trade. -/
def Fill.trade (fill : Fill) : Deal String Decimal := ⟨fill.symbol, fill.signedQty, fill.price⟩

namespace FakeBroker

/-! ### What the broker says of itself -/

/-- The states of an open order. -/
def IsOpen (state : BrokerOrderState) : Prop :=
  state = .new ∨ state = .accepted ∨ state = .partiallyFilled

instance : DecidablePred IsOpen := fun _ => inferInstanceAs (Decidable (_ ∨ _))

def openOrders (b : FakeBroker) : List BrokerOrderStatus :=
  (b.orders.values.map (·.status)).filter fun status => IsOpen status.state

/-- All fills, order by order. -/
def allFills (b : FakeBroker) : List Fill := b.orders.values.flatMap (·.fills)

/-- The status of an order; none where the source raises. -/
def getOrder (b : FakeBroker) (brokerOrderId : String) : Option BrokerOrderStatus :=
  (b.orders.get? brokerOrderId).map (·.status)

def getAccount (b : FakeBroker) : BrokerAccount where
  cash := b.cash
  equity := b.cash + (b.positions.values.map fun p => p.qty * p.currentPrice).sum
  buyingPower := b.cash * 2
  patternDayTrader := false
  daytradeCount := 0

/-! ### The broker on its own -/

/-- What anyone may do with the broker. -/
inductive Op
  | submitOrder (order : Order) (brokerOrderId : String) (fillId : FillId) (now : Time)
  | cancelOrder (brokerOrderId : String) (now : Time)
  | forceFullFill (orderId : OrderId) (price : Option Decimal) (fillId : FillId) (now : Time)
  | forcePartialFill (orderId : OrderId) (qty : Decimal) (price : Option Decimal)
      (fillId : FillId) (now : Time)
  | forceReject (orderId : OrderId) (reason : String) (now : Time)
  | setFillMode (mode : FillMode)
  | setPrice (symbol : String) (price : Decimal)
  | injectSubmitFailure (error : BrokerError)
  | injectCancelFailure (error : BrokerError)
  deriving DecidableEq

/-- The broker, and the events it has delivered. -/
structure Session where
  broker : FakeBroker
  delivered : List BrokerOrderEvent

/-- What forcing an order does: nothing, if it raises. -/
def Session.force (s : Session) (forced : Except ForceError (FakeBroker × List BrokerOrderEvent)) :
    Session :=
  match forced with
  | .error _ => s
  | .ok (broker, events) => ⟨broker, s.delivered ++ events⟩

def Session.step (s : Session) : Op → Session
  | .submitOrder order brokerOrderId fillId now =>
    let (broker, call) := s.broker.submitOrder order brokerOrderId fillId now
    ⟨broker, s.delivered ++ call.callbacks⟩
  | .cancelOrder brokerOrderId now =>
    let (broker, call) := s.broker.cancelOrder brokerOrderId now
    ⟨broker, s.delivered ++ call.callbacks⟩
  | .forceFullFill orderId price fillId now =>
    s.force (s.broker.forceFullFill orderId price fillId now)
  | .forcePartialFill orderId qty price fillId now =>
    s.force (s.broker.forcePartialFill orderId qty price fillId now)
  | .forceReject orderId reason now => s.force (s.broker.forceReject orderId reason now)
  | .setFillMode mode => { s with broker := s.broker.setFillMode mode }
  | .setPrice symbol price => { s with broker := s.broker.setPrice symbol price }
  | .injectSubmitFailure error => { s with broker := s.broker.injectSubmitFailure error }
  | .injectCancelFailure error => { s with broker := s.broker.injectCancelFailure error }

/-- A new broker, which has delivered nothing. -/
def Session.new (fillMode : FillMode) (startingCash : Decimal) : Session :=
  ⟨FakeBroker.new fillMode startingCash, []⟩

/-- The fills the broker has delivered, oldest first. -/
def Session.fills (s : Session) : List Fill := s.delivered.filterMap (·.fill)

def Session.trades (s : Session) : List (Deal String Decimal) := s.fills.map Fill.trade

/-- An order of a positive quantity gets an identifier of its own from the broker, and a forced
fill is of a positive quantity. -/
def Session.Admits (s : Session) : Op → Prop
  | .submitOrder order brokerOrderId _ _ => 0 < order.qty ∧ brokerOrderId ∉ s.broker.orders.keys
  | .forcePartialFill _ qty _ _ _ => 0 < qty
  | _ => True

instance (s : Session) : (op : Op) → Decidable (s.Admits op)
  | .submitOrder .. => inferInstanceAs (Decidable (_ ∧ _))
  | .forcePartialFill _ qty _ _ _ => inferInstanceAs (Decidable (0 < qty))
  | .cancelOrder .. | .forceFullFill .. | .forceReject .. | .setFillMode _ | .setPrice ..
  | .injectSubmitFailure _ | .injectCancelFailure _ => isTrue trivial

/-! ### The four moves -/

/-- The record of an order that was closed with nothing filled on the occasion. -/
def closedRecord (record : BrokerOrder) (state : BrokerOrderState) (reason : Option String)
    (now : Time) : BrokerOrder :=
  { record with
    status := { record.status with state := state, rejectionReason := reason, updatedAt := now } }

/-- **What the broker can do at all.** -/
inductive Move : Session → Session → Prop
  /-- A move that touches no book. -/
  | silent {s : Session} {b : FakeBroker} {events : List BrokerOrderEvent}
      (horders : b.orders = s.broker.orders)
      (hclients : b.clientToBroker = s.broker.clientToBroker)
      (hcash : b.cash = s.broker.cash) (hpos : b.positions = s.broker.positions)
      (hevents : ∀ event ∈ events, event.fill = none) : Move s ⟨b, s.delivered ++ events⟩
  /-- A new order, accepted or rejected. -/
  | keep {s : Session} {order : Order} {brokerOrderId : String} {state : BrokerOrderState}
      {reason : Option String} {now : Time} (hqty : 0 < order.qty)
      (hnew : s.broker.findOrderByClientId order.id = none)
      (hid : brokerOrderId ∉ s.broker.orders.keys)
      (hstate : state = .accepted ∨ state = .rejected) :
      Move s ⟨s.broker.keep (newRecord order brokerOrderId state reason now), s.delivered⟩
  /-- An order that is canceled or rejected. -/
  | close {s : Session} {record : BrokerOrder} {state : BrokerOrderState}
      {reason : Option String} {now : Time}
      (hrecord : s.broker.orders.get? record.status.brokerOrderId = some record)
      (hstate : state = .canceled ∨ state = .rejected) :
      Move s ⟨s.broker.write (closedRecord record state reason now), s.delivered⟩
  /-- A fill of some of what is left of an order. -/
  | fill {s : Session} {record : BrokerOrder} {qty price : Decimal} {fillId : FillId} {now : Time}
      (hrecord : s.broker.orders.get? record.status.brokerOrderId = some record)
      (hpos : 0 < qty) (hle : qty ≤ record.status.qty - record.status.filledQty) :
      Move s ⟨(s.broker.recordFill record qty price fillId now).1,
        s.delivered ++ [(s.broker.recordFill record qty price fillId now).2]⟩

/-- One move after another. -/
abbrev Moves : Session → Session → Prop := Relation.ReflTransGen Move

section Moves

variable {s s' : Session}

/-- Events without a fill are delivered by a silent move. -/
theorem moves_deliver {events : List BrokerOrderEvent} (h : ∀ event ∈ events, event.fill = none) :
    Moves s ⟨s.broker, s.delivered ++ events⟩ :=
  .single (.silent rfl rfl rfl rfl h)

/-- A change of the broker's knobs is a silent move. -/
theorem moves_knob {b : FakeBroker} (horders : b.orders = s.broker.orders)
    (hclients : b.clientToBroker = s.broker.clientToBroker) (hcash : b.cash = s.broker.cash)
    (hpos : b.positions = s.broker.positions) : Moves s ⟨b, s.delivered⟩ := by
  have hmove : Move s ⟨b, s.delivered ++ []⟩ := .silent horders hclients hcash hpos (by simp)
  rw [List.append_nil] at hmove
  exact .single hmove

/-- A fill mode fills some of an order, and no more than all of it. -/
theorem autoFill?_bounds {mode : FillMode} {all qty : Decimal} (hall : 0 < all)
    (h : mode.autoFill? all = some qty) : 0 < qty ∧ qty ≤ all := by
  cases mode with
  | instant =>
    cases h
    exact ⟨hall, le_rfl⟩
  | partialThenHold =>
    cases h
    exact ⟨half_pos hall, half_le_self hall.le⟩
  | manual => cases h
  | reject => cases h

theorem moves_submitOrder {order : Order} {brokerOrderId : String} (hqty : 0 < order.qty)
    (hid : brokerOrderId ∉ s.broker.orders.keys) (fillId : FillId) (now : Time) :
    Moves s (s.step (.submitOrder order brokerOrderId fillId now)) := by
  rw [Session.step, FakeBroker.submitOrder]
  rcases s.broker.raiseOnNextSubmit with _ | error
  · rcases hclient : s.broker.clientToBroker.get? order.id with _ | existing
    · have hnew : s.broker.findOrderByClientId order.id = none := by
        rw [findOrderByClientId, hclient, Option.bind_none]
      by_cases hreject : s.broker.fillMode = .reject
      · dsimp only
        rw [if_pos hreject]
        exact (Relation.ReflTransGen.single (.keep hqty hnew hid (.inr rfl))).trans
          (moves_deliver (by simp))
      · dsimp only
        rw [if_neg hreject]
        -- accepted first, and then filled as the mode has it
        let accepted : BrokerOrderEvent :=
          { brokerOrderId := brokerOrderId, clientOrderId := order.id, newState := .accepted,
            timestamp := some now }
        let record := newRecord order brokerOrderId .accepted none now
        let kept : Session := ⟨s.broker.keep record, s.delivered ++ [accepted]⟩
        have hkept : Moves s kept :=
          (Relation.ReflTransGen.single (.keep hqty hnew hid (.inl rfl))).trans
            (moves_deliver (by simp [accepted]))
        rcases hfill : s.broker.fillMode.autoFill? order.qty with _ | qty
        · exact hkept
        · obtain ⟨hpos, hle⟩ := autoFill?_bounds hqty hfill
          have hmove := @Move.fill kept record qty
            (s.broker.priceFor order.symbol order.limitPrice) fillId now
            (Dict.get?_set_self _ _ _) hpos (hle.trans_eq (sub_zero _).symm)
          rw [List.append_assoc] at hmove
          exact hkept.tail hmove
    · exact moves_deliver (by simp)
  · exact .single (.silent rfl rfl rfl rfl (by simp))

theorem moves_cancelOrder (hs : s.broker.Keyed) (brokerOrderId : String) (now : Time) :
    Moves s (s.step (.cancelOrder brokerOrderId now)) := by
  rw [Session.step, FakeBroker.cancelOrder]
  rcases s.broker.raiseOnNextCancel with _ | error
  · rcases hrecord : s.broker.orders.get? brokerOrderId with _ | record
    · exact moves_deliver (by simp)
    · dsimp only
      split_ifs
      · exact moves_deliver (by simp)
      · have hid := (hs.client _ _ hrecord).1
        have hclose := @Move.close s record .canceled record.status.rejectionReason now
          (hid.symm ▸ hrecord) (.inl rfl)
        exact (Relation.ReflTransGen.single hclose).trans (moves_deliver (by simp))
  · exact .single (.silent rfl rfl rfl rfl (by simp))

theorem moves_forceFullFill (hs : s.broker.Keyed) (orderId : OrderId) (price : Option Decimal)
    (fillId : FillId) (now : Time) :
    Moves s (s.step (.forceFullFill orderId price fillId now)) := by
  rw [Session.step, FakeBroker.forceFullFill]
  rcases hr : s.broker.recordOf orderId with error | record
  · exact .refl
  · obtain ⟨hrecord, -⟩ := PaperDesk.get?_of_recordOf hs hr
    dsimp only
    split_ifs with hdone
    · exact moves_deliver (by simp)
    · exact .single (.fill hrecord (not_le.mp hdone) le_rfl)

theorem moves_forcePartialFill (hs : s.broker.Keyed) (orderId : OrderId) {qty : Decimal}
    (hqty : 0 < qty) (price : Option Decimal) (fillId : FillId) (now : Time) :
    Moves s (s.step (.forcePartialFill orderId qty price fillId now)) := by
  rw [Session.step, FakeBroker.forcePartialFill]
  rcases hr : s.broker.recordOf orderId with error | record
  · exact .refl
  · obtain ⟨hrecord, -⟩ := PaperDesk.get?_of_recordOf hs hr
    dsimp only
    split_ifs with hmore
    · exact .refl
    · exact .single (.fill hrecord hqty (not_lt.mp hmore))

theorem moves_forceReject (hs : s.broker.Keyed) (orderId : OrderId) (reason : String)
    (now : Time) : Moves s (s.step (.forceReject orderId reason now)) := by
  rw [Session.step, FakeBroker.forceReject]
  rcases hr : s.broker.recordOf orderId with error | record
  · exact .refl
  · obtain ⟨hrecord, -⟩ := PaperDesk.get?_of_recordOf hs hr
    have hclose := @Move.close s record .rejected (some reason) now hrecord (.inr rfl)
    exact (Relation.ReflTransGen.single hclose).trans (moves_deliver (by simp))

/-- **Every operation is made of the four moves.** -/
theorem moves_step (hs : s.broker.Keyed) {op : Op} (hop : s.Admits op) : Moves s (s.step op) := by
  cases op with
  | submitOrder order brokerOrderId fillId now =>
    exact moves_submitOrder hop.1 hop.2 fillId now
  | cancelOrder brokerOrderId now => exact moves_cancelOrder hs brokerOrderId now
  | forceFullFill orderId price fillId now => exact moves_forceFullFill hs orderId price fillId now
  | forcePartialFill orderId qty price fillId now =>
    exact moves_forcePartialFill hs orderId hop price fillId now
  | forceReject orderId reason now => exact moves_forceReject hs orderId reason now
  | setFillMode mode => exact moves_knob rfl rfl rfl rfl
  | setPrice symbol price => exact moves_knob rfl rfl rfl rfl
  | injectSubmitFailure error => exact moves_knob rfl rfl rfl rfl
  | injectCancelFailure error => exact moves_knob rfl rfl rfl rfl

theorem Move.keyed (h : Move s s') (hs : s.broker.Keyed) : s'.broker.Keyed := by
  cases h with
  | silent horders hclients => exact hs.congr horders hclients
  | keep _ hnew hid => exact (hs.keep hnew hid).1
  | @close record state reason now hrecord =>
    exact (@Keyed.write s.broker record (closedRecord record state reason now) hs hrecord rfl).1
  | fill hrecord => exact (hs.recordFill hrecord _ _ _ _).1

/-- **The invariant rule of the broker**: what every move keeps holds after every run. -/
theorem invariant_of_moves {Inv : Session → Prop} (fillMode : FillMode) (startingCash : Decimal)
    (hnew : Inv (.new fillMode startingCash))
    (hmove : ∀ s s', s.broker.Keyed → Inv s → Move s s' → Inv s') {ops : List Op}
    (hops : Along Session.step Session.Admits (.new fillMode startingCash) ops) :
    Inv (run Session.step (.new fillMode startingCash) ops) := by
  have hmoves : ∀ s s', Moves s s' → s.broker.Keyed ∧ Inv s → s'.broker.Keyed ∧ Inv s' := by
    intro s s' h hs
    induction h with
    | refl => exact hs
    | tail _ hlast ih => exact ⟨hlast.keyed ih.1, hmove _ _ ih.1 ih.2 hlast⟩
  have hstep : ∀ (s : Session) (op : Op), s.broker.Keyed ∧ Inv s → s.Admits op →
      (s.step op).broker.Keyed ∧ Inv (s.step op) :=
    fun s op hs hop => hmoves _ _ (moves_step hs.1 hop) hs
  exact (hops.invariant hstep ⟨keyed_new _ _, hnew⟩).2

end Moves

/-! ### The account -/

/-- A price between two prices paid in a symbol. -/
def PricedWithin (trades : List (Deal String Decimal)) (sym : String) (price : Decimal) : Prop :=
  ∃ t ∈ trades, ∃ t' ∈ trades, t.key = sym ∧ t'.key = sym ∧ t.price ≤ price ∧ price ≤ t'.price

/-- The position in a symbol after a list of trades: none where they leave none, and else one at the
last price, with an entry price between the prices that were paid. -/
def HeldAfter (trades : List (Deal String Decimal)) (sym : String) : Option BrokerPosition → Prop
  | none => Trades.position trades sym = 0
  | some p =>
    p.qty = Trades.position trades sym ∧ p.qty ≠ 0 ∧
      Trades.mark trades sym = some p.currentPrice ∧ PricedWithin trades sym p.avgEntryPrice

/-- **The books of a list of trades**: the cash is what the broker started with less what was paid,
and the positions are what the trades leave. -/
structure Booked (startingCash : Decimal) (b : FakeBroker) (trades : List (Deal String Decimal)) :
    Prop where
  cash : b.cash = startingCash - Trades.paid trades
  held : ∀ sym, HeldAfter trades sym (b.positions.get? sym)

/-- The account is what the delivered fills amount to, and these are the fills on record. -/
structure Balanced (startingCash : Decimal) (s : Session) : Prop where
  fills : s.broker.allFills.Perm s.fills
  booked : Booked startingCash s.broker s.trades

section Account

variable {s s' : Session} {startingCash : Decimal}

theorem balanced_new (fillMode : FillMode) (startingCash : Decimal) :
    Balanced startingCash (.new fillMode startingCash) where
  fills := .refl _
  booked :=
    { cash := (sub_zero _).symm
      held := fun _ => rfl }

/-- Events without a fill deliver none. -/
theorem Session.fills_deliver {events : List BrokerOrderEvent}
    (h : ∀ event ∈ events, event.fill = none) {b : FakeBroker} :
    Session.fills ⟨b, s.delivered ++ events⟩ = s.fills := by
  have hnone : events.filterMap (·.fill) = [] := List.filterMap_eq_nil_iff.mpr h
  rw [Session.fills, List.filterMap_append, hnone, List.append_nil]
  rfl

/-- The entry price after a fill is between the entry price before it and the price of the
fill. -/
theorem entryPrice_between {q avg x price : Decimal}
    (h : 0 < q ∧ 0 < x ∨ q < 0 ∧ x < 0) :
    min avg price ≤ (avg * q + price * x) / (q + x) ∧
      (avg * q + price * x) / (q + x) ≤ max avg price := by
  rcases h with ⟨hq, hx⟩ | ⟨hq, hx⟩
  · have hsum : 0 < q + x := add_pos hq hx
    rw [le_div_iff₀ hsum, div_le_iff₀ hsum, mul_add, mul_add]
    exact ⟨add_le_add (mul_le_mul_of_nonneg_right (min_le_left _ _) hq.le)
        (mul_le_mul_of_nonneg_right (min_le_right _ _) hx.le),
      add_le_add (mul_le_mul_of_nonneg_right (le_max_left _ _) hq.le)
        (mul_le_mul_of_nonneg_right (le_max_right _ _) hx.le)⟩
  · have hsum : q + x < 0 := add_neg hq hx
    rw [le_div_iff_of_neg hsum, div_le_iff_of_neg hsum, mul_add, mul_add]
    exact ⟨add_le_add (mul_le_mul_of_nonpos_right (min_le_left _ _) hq.le)
        (mul_le_mul_of_nonpos_right (min_le_right _ _) hx.le),
      add_le_add (mul_le_mul_of_nonpos_right (le_max_left _ _) hq.le)
        (mul_le_mul_of_nonpos_right (le_max_right _ _) hx.le)⟩

theorem PricedWithin.mono {trades : List (Deal String Decimal)} {sym : String} {price : Decimal}
    (h : PricedWithin trades sym price) (t : Deal String Decimal) :
    PricedWithin (trades ++ [t]) sym price := by
  obtain ⟨t₁, h₁, t₂, h₂, hk⟩ := h
  exact ⟨t₁, List.mem_append_left _ h₁, t₂, List.mem_append_left _ h₂, hk⟩

theorem pricedWithin_concat (trades : List (Deal String Decimal)) (t : Deal String Decimal) :
    PricedWithin (trades ++ [t]) t.key t.price :=
  ⟨t, by simp, t, by simp, rfl, rfl, le_rfl, le_rfl⟩

/-- What is between two prices that are each between prices paid. -/
theorem PricedWithin.between {trades : List (Deal String Decimal)} {sym : String}
    {low high price : Decimal} (hlow : PricedWithin trades sym low)
    (hhigh : PricedWithin trades sym high) (h : min low high ≤ price ∧ price ≤ max low high) :
    PricedWithin trades sym price := by
  obtain ⟨t₁, h₁, t₂, h₂, hk₁, hk₂, hle₁, hle₂⟩ := hlow
  obtain ⟨t₃, h₃, t₄, h₄, hk₃, hk₄, hle₃, hle₄⟩ := hhigh
  rcases le_total low high with hle | hle
  · rw [min_eq_left hle, max_eq_right hle] at h
    exact ⟨t₁, h₁, t₄, h₄, hk₁, hk₄, hle₁.trans h.1, h.2.trans hle₄⟩
  · rw [min_eq_right hle, max_eq_left hle] at h
    exact ⟨t₃, h₃, t₂, h₂, hk₃, hk₂, hle₃.trans h.1, h.2.trans hle₂⟩

theorem Booked.congr {b b' : FakeBroker} {trades : List (Deal String Decimal)}
    (h : Booked startingCash b trades) (hcash : b'.cash = b.cash)
    (hpos : b'.positions = b.positions) : Booked startingCash b' trades :=
  ⟨hcash.trans h.cash, hpos ▸ h.held⟩

/-- A trade in another symbol. -/
theorem HeldAfter.concat {trades : List (Deal String Decimal)} {sym : String}
    {held : Option BrokerPosition} (h : HeldAfter trades sym held) {t : Deal String Decimal}
    (ht : sym ≠ t.key) : HeldAfter (trades ++ [t]) sym held := by
  have hposition : Trades.position (trades ++ [t]) sym = Trades.position trades sym := by
    rw [Trades.position_concat, if_neg ht.symm, add_zero]
  rcases held with _ | p
  · exact hposition.trans h
  · obtain ⟨hqty, hne, hmark, hprice⟩ := h
    refine ⟨hqty.trans hposition.symm, hne, ?_, hprice.mono t⟩
    rw [Trades.mark_concat, if_neg ht.symm, hmark]

/-- A trade in the symbol of a position. -/
theorem heldAfter_concat_self {trades : List (Deal String Decimal)} {t : Deal String Decimal}
    {p : BrokerPosition} (hqty : p.qty = Trades.position trades t.key + t.qty) (hne : p.qty ≠ 0)
    (hcurrent : p.currentPrice = t.price)
    (hentry : PricedWithin (trades ++ [t]) t.key p.avgEntryPrice) :
    HeldAfter (trades ++ [t]) t.key (some p) := by
  refine ⟨?_, hne, ?_, hentry⟩
  · rw [hqty, Trades.position_concat, if_pos rfl]
  · rw [Trades.mark_concat, if_pos rfl, hcurrent]

/-- What it takes to book a trade: to pay for it, and to have the position right in its symbol. -/
theorem Booked.trade {b b' : FakeBroker} {trades : List (Deal String Decimal)}
    (h : Booked startingCash b trades) {t : Deal String Decimal}
    (hcash : b'.cash = b.cash - t.qty * t.price)
    (hother : ∀ sym, sym ≠ t.key → b'.positions.get? sym = b.positions.get? sym)
    (hself : HeldAfter (trades ++ [t]) t.key (b'.positions.get? t.key)) :
    Booked startingCash b' (trades ++ [t]) := by
  refine ⟨?_, fun sym => ?_⟩
  · rw [hcash, h.cash, Trades.paid_concat, sub_sub]
  · rcases eq_or_ne sym t.key with rfl | hsym
    · exact hself
    · rw [hother sym hsym]
      exact (h.held sym).concat hsym

/-- What is booked for a trade. -/
def bookTrade (b : FakeBroker) (t : Deal String Decimal) : FakeBroker :=
  let b := { b with cash := b.cash - t.qty * t.price }
  match b.positions.get? t.key with
  | none =>
    if t.qty = 0 then b
    else
      { b with
        positions := b.positions.set t.key
          { symbol := t.key, qty := t.qty, avgEntryPrice := t.price, currentPrice := t.price,
            assetClass := .equity } }
  | some existing =>
    if existing.qty + t.qty = 0 then { b with positions := b.positions.erase t.key }
    else
      { b with
        positions := b.positions.set t.key
          { existing with
            qty := existing.qty + t.qty
            avgEntryPrice :=
              if (0 < existing.qty ∧ 0 < t.qty) ∨ (existing.qty < 0 ∧ t.qty < 0) then
                (existing.avgEntryPrice * existing.qty + t.price * t.qty) / (existing.qty + t.qty)
              else existing.avgEntryPrice
            currentPrice := t.price } }

/-- A fill is booked as the trade it is. -/
theorem applyFillToAccount_eq_bookTrade (b : FakeBroker) (fill : Fill) :
    b.applyFillToAccount fill.symbol fill.side fill.qty fill.price = b.bookTrade fill.trade := by
  obtain ⟨id, orderId, agentId, symbol, side, qty, price, timestamp, commission, isPartial⟩ := fill
  cases side with
  | buy => rfl
  | sell => rfl

/-- **Booking a trade** makes the books those of one more trade. -/
theorem Booked.bookTrade {b : FakeBroker} {trades : List (Deal String Decimal)}
    (h : Booked startingCash b trades) (t : Deal String Decimal) :
    Booked startingCash (b.bookTrade t) (trades ++ [t]) := by
  unfold FakeBroker.bookTrade
  dsimp only
  have hself := h.held t.key
  have hlast := pricedWithin_concat trades t
  have hnone : Trades.position trades t.key + t.qty = 0 → HeldAfter (trades ++ [t]) t.key none := by
    intro hzero
    change Trades.position (trades ++ [t]) t.key = 0
    rw [Trades.position_concat, if_pos rfl, hzero]
  rcases hold : b.positions.get? t.key with _ | existing
  · rw [hold] at hself
    dsimp only
    split_ifs with hx
    · refine h.trade rfl (fun _ _ => rfl) ?_
      rw [hold]
      exact hnone (by rw [hself, hx, add_zero])
    · refine h.trade rfl (fun sym hsym => Dict.get?_set_of_ne _ hsym _) ?_
      rw [Dict.get?_set_self]
      refine heldAfter_concat_self ?_ hx rfl hlast
      rw [hself, zero_add]
  · rw [hold] at hself
    obtain ⟨hqty, -, -, hentry⟩ := hself
    dsimp only
    split_ifs with hzero hgrows
    · refine h.trade rfl (fun sym hsym => ?_) ?_
      · rw [Dict.get?_erase, if_neg hsym]
      · rw [Dict.get?_erase, if_pos rfl]
        exact hnone (hqty ▸ hzero)
    · -- the position grows: its entry price moves towards the price of the trade
      refine h.trade rfl (fun sym hsym => Dict.get?_set_of_ne _ hsym _) ?_
      rw [Dict.get?_set_self]
      refine heldAfter_concat_self (by rw [← hqty]) hzero rfl ?_
      exact (hentry.mono t).between hlast (entryPrice_between hgrows)
    · refine h.trade rfl (fun sym hsym => Dict.get?_set_of_ne _ hsym _) ?_
      rw [Dict.get?_set_self]
      exact heldAfter_concat_self (by rw [← hqty]) hzero rfl (hentry.mono t)

/-! ### The account along a run -/

theorem allFills_keep (b : FakeBroker) {record : BrokerOrder} (hfills : record.fills = [])
    (hid : record.status.brokerOrderId ∉ b.orders.keys) :
    (b.keep record).allFills = b.allFills := by
  change (b.orders.set record.status.brokerOrderId record).values.flatMap _ = _
  rw [Dict.values, Dict.entries_set_of_notMem _ hid, List.map_append, List.flatMap_append]
  simp [hfills, allFills, Dict.values]

theorem perm_allFills_write {b : FakeBroker} {old record : BrokerOrder} {more : List Fill}
    (hold : b.orders.get? record.status.brokerOrderId = some old)
    (hmore : record.fills = old.fills ++ more) :
    (b.write record).allFills.Perm (b.allFills ++ more) :=
  Dict.perm_flatMap_set hold hmore

theorem Balanced.move (hs : Balanced startingCash s) (h : Move s s') :
    Balanced startingCash s' := by
  cases h with
  | silent horders hclients hcash hpos hevents =>
    refine ⟨?_, ?_⟩
    · rw [allFills, horders, Session.fills_deliver hevents]
      exact hs.fills
    · rw [Session.trades, Session.fills_deliver hevents]
      exact hs.booked.congr hcash hpos
  | @keep order brokerOrderId state reason now hqty hnew hid =>
    refine ⟨?_, hs.booked.congr rfl rfl⟩
    have hkeep : (s.broker.keep (newRecord order brokerOrderId state reason now)).allFills = _ :=
      allFills_keep s.broker rfl hid
    exact hkeep ▸ hs.fills
  | @close record state reason now hrecord =>
    refine ⟨?_, hs.booked.congr rfl rfl⟩
    have hwrite := @perm_allFills_write s.broker record (closedRecord record state reason now) []
      hrecord (List.append_nil _).symm
    rw [List.append_nil] at hwrite
    exact hwrite.trans hs.fills
  | @fill record qty price fillId now hrecord =>
    set filled := filledRecord record qty price fillId now with hfilled
    have hfills : Session.fills ⟨(s.broker.recordFill record qty price fillId now).1,
        s.delivered ++ [(s.broker.recordFill record qty price fillId now).2]⟩ =
          s.fills ++ [filled.2] := by
      rw [Session.fills, List.filterMap_append]
      rfl
    refine ⟨?_, ?_⟩
    · rw [hfills]
      have hwrite := @perm_allFills_write s.broker record filled.1 [filled.2] hrecord rfl
      have hbroker : (s.broker.recordFill record qty price fillId now).1.allFills =
          (s.broker.write filled.1).allFills := by
        rw [allFills, allFills, recordFill, orders_applyFillToAccount]
      exact hbroker ▸ hwrite.trans (hs.fills.append_right _)
    · rw [Session.trades, hfills, List.map_append]
      have hbook := (hs.booked.congr rfl rfl : Booked startingCash (s.broker.write filled.1)
        s.trades).bookTrade filled.2.trade
      rw [← applyFillToAccount_eq_bookTrade] at hbook
      exact hbook

/-- The net position the broker has in a symbol. -/
theorem Booked.brokerQty {b : FakeBroker} {trades : List (Deal String Decimal)}
    (h : Booked startingCash b trades) (sym : String) :
    Reconciler.brokerQty b.positions sym = Trades.position trades sym := by
  have hheld := h.held sym
  rw [Reconciler.brokerQty]
  rcases hp : b.positions.get? sym with _ | p
  · rw [hp] at hheld
    exact hheld.symm
  · rw [hp] at hheld
    exact hheld.1

/-- **The market value of the positions** is what was paid for them and what they have gained. -/
theorem Booked.equity {b : FakeBroker} {trades : List (Deal String Decimal)}
    (h : Booked startingCash b trades) :
    b.getAccount.equity = startingCash + Trades.gain trades := by
  have hkeys : ∀ t ∈ trades, t.key ∈ (trades.map Deal.key).dedup :=
    fun t ht => List.mem_dedup.mpr (List.mem_map_of_mem ht)
  have hsub : ∀ sym ∈ b.positions.keys, sym ∈ (trades.map Deal.key).dedup := by
    intro sym hsym
    obtain ⟨p, hp⟩ := Dict.mem_keys_iff.mp hsym
    have hheld := h.held sym
    rw [hp] at hheld
    obtain ⟨t, ht, rfl, -⟩ := Trades.exists_of_mark hheld.2.2.1
    exact hkeys t ht
  have hvalue : (b.positions.values.map fun p => p.qty * p.currentPrice).sum =
      Trades.paid trades + Trades.gain trades := by
    rw [← Trades.sum_position_mark (List.nodup_dedup _) hkeys, Dict.values, List.map_map]
    refine (Dict.sum_entries_eq_sum_keys b.positions (List.nodup_dedup _) hsub _).trans ?_
    refine congrArg List.sum (List.map_congr_left fun sym _ => ?_)
    have hheld := h.held sym
    rcases hp : b.positions.get? sym with _ | p
    · rw [hp] at hheld
      change Trades.position trades sym = 0 at hheld
      rw [hheld, zero_mul]
      rfl
    · rw [hp] at hheld
      obtain ⟨hqty, -, hmark, -⟩ := hheld
      rw [← hqty, hmark]
      rfl
  change b.cash + _ = _
  rw [hvalue, h.cash]
  ring

end Account

/-- **The account is worth what the trades have gained**, whatever was done to the broker: its cash
is the cash it started with less what was paid, and its equity is the cash it started with and what
each fill has gained since, at the last price in its symbol. The fills on record are those it has
delivered, and no position has an entry price outside the prices paid for it. -/
theorem account_run (fillMode : FillMode) (startingCash : Decimal) {ops : List Op}
    (hops : Along Session.step Session.Admits (.new fillMode startingCash) ops) :
    let s := run Session.step (.new fillMode startingCash) ops
    s.broker.allFills.Perm s.fills ∧
      s.broker.getAccount.cash = startingCash - Trades.paid s.trades ∧
      s.broker.getAccount.equity = startingCash + Trades.gain s.trades ∧
      (∀ sym, Reconciler.brokerQty s.broker.positions sym = Trades.position s.trades sym) ∧
      ∀ sym p, s.broker.positions.get? sym = some p →
        PricedWithin s.trades sym p.avgEntryPrice := by
  obtain ⟨hfills, hbooked⟩ := invariant_of_moves fillMode startingCash
    (balanced_new fillMode startingCash) (fun _ _ _ hs h => hs.move h) hops
  refine ⟨hfills, hbooked.cash, hbooked.equity, hbooked.brokerQty, fun sym p hp => ?_⟩
  have hheld := hbooked.held sym
  rw [hp] at hheld
  exact hheld.2.2.2

/-- A purchase, a price that moves, and a sale of some of it. -/
def gainingOps : List Op :=
  [.submitOrder (Oms.marketOrder 1 .buy 10) "b-1" 7 0,
    .setPrice "AAPL" 120,
    .submitOrder (Oms.marketOrder 2 .sell 4) "b-2" 8 1]

theorem account_gainingOps :
    let s := run Session.step (.new .instant 30000) gainingOps
    s.broker.getAccount.equity = 30200 ∧ Trades.gain s.trades = 200 := by
  have hgain : Trades.gain (run Session.step (.new .instant 30000) gainingOps).trades = 200 := by
    decide +kernel
  refine ⟨(account_run .instant 30000 (by decide +kernel)).2.2.1.trans ?_, hgain⟩
  rw [hgain]
  norm_num

/-! ### The orders -/

/-- **The status of an order is what its fills amount to.** -/
structure Sound (record : BrokerOrder) : Prop where
  /-- The fills are of this order. -/
  own : ∀ fill ∈ record.fills, fill.orderId = record.status.clientOrderId ∧
    fill.agentId = record.agentId ∧ fill.symbol = record.status.symbol ∧
      fill.side = record.status.side ∧ 0 < fill.qty
  filledQty : record.status.filledQty = (record.fills.map Fill.qty).sum
  /-- No more is filled than was asked for. -/
  filledQty_le : record.status.filledQty ≤ record.status.qty
  /-- The average price is the value of the fills over their quantity. -/
  avgFillPrice : match record.status.avgFillPrice with
    | none => record.fills = []
    | some avg => record.fills ≠ [] ∧
      avg * record.status.filledQty = (record.fills.map fun fill => fill.qty * fill.price).sum
  /-- An order is filled when nothing is left of it, and open while something is. -/
  state : match record.status.state with
    | .accepted => record.fills = [] ∧ 0 < record.status.qty
    | .partiallyFilled => record.fills ≠ [] ∧ record.status.filledQty < record.status.qty
    | .filled => record.fills ≠ [] ∧ record.status.filledQty = record.status.qty
    | .canceled | .rejected => True
    | .new | .expired | .unknown => False

section Orders

variable {record : BrokerOrder}

theorem Sound.filledQty_nonneg (h : Sound record) : 0 ≤ record.status.filledQty := by
  rw [h.filledQty]
  refine List.sum_nonneg fun x hx => ?_
  obtain ⟨fill, hfill, rfl⟩ := List.mem_map.mp hx
  exact (h.own fill hfill).2.2.2.2.le

theorem sound_newRecord {order : Order} (hqty : 0 < order.qty) (brokerOrderId : String)
    {state : BrokerOrderState} (hstate : state = .accepted ∨ state = .rejected)
    (reason : Option String) (now : Time) :
    Sound (newRecord order brokerOrderId state reason now) where
  own _ h := absurd h List.not_mem_nil
  filledQty := rfl
  filledQty_le := hqty.le
  avgFillPrice := rfl
  state := by
    rcases hstate with rfl | rfl
    · exact ⟨rfl, hqty⟩
    · trivial

theorem Sound.closedRecord (h : Sound record) {state : BrokerOrderState}
    (hstate : state = .canceled ∨ state = .rejected) (reason : Option String) (now : Time) :
    Sound (closedRecord record state reason now) where
  own := h.own
  filledQty := h.filledQty
  filledQty_le := h.filledQty_le
  avgFillPrice := h.avgFillPrice
  state := by
    rcases hstate with rfl | rfl
    · trivial
    · trivial

/-- A fill of some of what is left. -/
theorem Sound.filledRecord (h : Sound record) {qty : Decimal} (hpos : 0 < qty)
    (hle : qty ≤ record.status.qty - record.status.filledQty) (price : Decimal) (fillId : FillId)
    (now : Time) : Sound (filledRecord record qty price fillId now).1 where
  own fill hfill := by
    rcases List.mem_append.mp hfill with hold | hnew
    · exact h.own fill hold
    · obtain rfl := List.mem_singleton.mp hnew
      exact ⟨rfl, rfl, rfl, rfl, hpos⟩
  filledQty := by
    change record.status.filledQty + qty = _
    rw [FakeBroker.filledRecord, List.map_append, List.sum_append, ← h.filledQty]
    simp
  filledQty_le := by
    change record.status.filledQty + qty ≤ record.status.qty
    linarith
  avgFillPrice := by
    refine ⟨by simp [FakeBroker.filledRecord], ?_⟩
    have hsum : 0 < record.status.filledQty + qty :=
      add_pos_of_nonneg_of_pos h.filledQty_nonneg hpos
    have havg := h.avgFillPrice
    rw [FakeBroker.filledRecord, List.map_append, List.sum_append]
    dsimp only
    rcases hold : record.status.avgFillPrice with _ | avg
    · rw [hold] at havg
      have hzero : record.status.filledQty = 0 := by
        rw [h.filledQty, havg]
        rfl
      rw [havg, hzero]
      simp [mul_comm]
    · rw [hold] at havg
      rw [← havg.2]
      simp only [List.map_cons, List.map_nil, List.sum_cons, List.sum_nil, add_zero]
      rw [div_mul_cancel₀ _ hsum.ne', mul_comm price]
  state := by
    have hne : (FakeBroker.filledRecord record qty price fillId now).1.fills ≠ [] := by
      simp [FakeBroker.filledRecord]
    by_cases hfull : record.status.qty ≤ record.status.filledQty + qty
    · have hstate : (FakeBroker.filledRecord record qty price fillId now).1.status.state =
          .filled := by
        simp [FakeBroker.filledRecord, hfull]
      rw [hstate]
      have hall : record.status.filledQty + qty ≤ record.status.qty := by linarith
      exact ⟨hne, le_antisymm hall hfull⟩
    · have hstate : (FakeBroker.filledRecord record qty price fillId now).1.status.state =
          .partiallyFilled := by
        simp [FakeBroker.filledRecord, hfull]
      rw [hstate]
      exact ⟨hne, not_le.mp hfull⟩

/-- All orders are sound. -/
def AllSound (s : Session) : Prop :=
  ∀ brokerOrderId record, s.broker.orders.get? brokerOrderId = some record → Sound record

theorem AllSound.move {s s' : Session} (hs : AllSound s) (h : Move s s') : AllSound s' := by
  -- a record that is written down, among the records that were there
  have hset : ∀ (b : FakeBroker) (brokerOrderId : String) (record : BrokerOrder), Sound record →
      b.orders = s.broker.orders.set brokerOrderId record →
        ∀ id r, b.orders.get? id = some r → Sound r := by
    intro b brokerOrderId record hrecord horders id r hr
    rw [horders, Dict.get?_set] at hr
    split_ifs at hr with hid
    · cases hr
      exact hrecord
    · exact hs id r hr
  cases h with
  | silent horders =>
    intro id r hr
    rw [horders] at hr
    exact hs id r hr
  | keep hqty hnew hid hstate => exact hset _ _ _ (sound_newRecord hqty _ hstate _ _) rfl
  | close hrecord hstate => exact hset _ _ _ ((hs _ _ hrecord).closedRecord hstate _ _) rfl
  | @fill record qty price fillId now hrecord hpos hle =>
    refine hset _ record.status.brokerOrderId _
      ((hs _ _ hrecord).filledRecord hpos hle price fillId now) ?_
    rw [recordFill]
    exact orders_applyFillToAccount _ _ _ _ _

end Orders

/-- **Each order's status is what its fills amount to**, whatever was done to the broker and in
whichever order: its filled quantity is their sum, no more than was asked for, its average price is
theirs, it is filled only when nothing is left of it, and there is something left of every open
order, which is found under its identifiers. -/
theorem orders_run (fillMode : FillMode) (startingCash : Decimal) {ops : List Op}
    (hops : Along Session.step Session.Admits (.new fillMode startingCash) ops) :
    let b := (run Session.step (.new fillMode startingCash) ops).broker
    (∀ brokerOrderId record, b.orders.get? brokerOrderId = some record → Sound record) ∧
      ∀ status ∈ b.openOrders, status.filledQty < status.qty ∧
        b.getOrder status.brokerOrderId = some status ∧
        b.findOrderByClientId status.clientOrderId = some status := by
  have hnew : AllSound (.new fillMode startingCash) :=
    fun _ _ h => absurd h (by simp [Session.new, FakeBroker.new])
  have hkeyed := @invariant_of_moves (fun s => s.broker.Keyed) fillMode startingCash
    (keyed_new _ _) (fun _ _ hs _ h => h.keyed hs) ops hops
  have hsound := @invariant_of_moves AllSound fillMode startingCash hnew
    (fun _ _ _ hs h => hs.move h) ops hops
  refine ⟨hsound, fun status hstatus => ?_⟩
  obtain ⟨hmem, hopen⟩ := List.mem_filter.mp hstatus
  obtain ⟨record, hvalue, rfl⟩ := List.mem_map.mp hmem
  obtain ⟨brokerOrderId, hrecord⟩ := Dict.mem_values_iff.mp hvalue
  have hstate := (hsound _ _ hrecord).state
  refine ⟨?_, ?_, find_of_get? hkeyed hrecord⟩
  · rcases of_decide_eq_true hopen with hs | hs | hs
    · rw [hs] at hstate
      exact hstate.elim
    · rw [hs] at hstate
      rw [(hsound _ _ hrecord).filledQty, hstate.1]
      exact hstate.2
    · rw [hs] at hstate
      exact hstate.2
  · rw [getOrder, (hkeyed.client _ _ hrecord).1, hrecord, Option.map_some]

/-- Half of a purchase, and a sale that is canceled after a part of it. -/
def heldOps : List Op :=
  [.submitOrder (Oms.marketOrder 1 .buy 10) "b-1" 7 0,
    .setFillMode .manual,
    .submitOrder (Oms.marketOrder 2 .sell 4) "b-2" 8 1,
    .forcePartialFill 2 1 (some 120) 9 2,
    .cancelOrder "b-2" 3]

theorem orders_heldOps :
    let b := (run Session.step (.new .partialThenHold 30000) heldOps).broker
    (b.openOrders.map fun status => (status.brokerOrderId, status.filledQty)) = [("b-1", 5)] ∧
      ∀ status ∈ b.openOrders, status.filledQty < status.qty :=
  ⟨by decide +kernel, fun status hstatus =>
    ((orders_run .partialThenHold 30000 (by decide +kernel)).2 status hstatus).1⟩

end FakeBroker

end TradingPlatform
