import TradingPlatform.AppBooking
import TradingPlatform.Execution.Risk
import TradingPlatform.Execution.SleeveGross

/-!
# The Manager's reserve

Once a week a job buys the Manager's reserve of SPY, unless the Manager has it. It asks two stores:
the lot ledger for what the Manager holds, and the order management system for an order that is
still open. An order that is filled leaves the one and enters the other. The lock of the order
management system hides the moment between, but the job does not hold it when it reads the lots.

So a fill that is booked after the job has read the lots is seen by neither look, and the reserve is
bought again. In every other run at most one order is accepted
(`TradingPlatform.ReserveRun.atMostOne_iff`).
-/

namespace TradingPlatform

/-! ### The job -/

def managerReserveTargetUsd : Decimal := 10000

/-- What the job meets on its way to a submission. -/
structure ReserveCall where
  /-- The close of the latest bar of SPY, if there is one. -/
  mark : Option Decimal
  /-- The cash of the account, unless the call raises. -/
  cash : Option Decimal
  orderId : OrderId
  intentId : IntentId
  now : Time

/-- The shares the reserve is, rounded to four digits. -/
def reserveQty (mark : Decimal) : Decimal :=
  roundHalfEven (managerReserveTargetUsd / mark * 10 ^ 4) / 10 ^ 4

/-- The order the job submits, unless it defers. -/
def ReserveCall.order? (c : ReserveCall) : Option Order :=
  match c.mark, c.cash with
  | some mark, some cash =>
    if 0 < mark ∧ managerReserveTargetUsd ≤ cash ∧ 0 < reserveQty mark then
      some
        { id := c.orderId
          intentId := c.intentId
          agentId := .manager
          symbol := "SPY"
          side := .buy
          qty := reserveQty mark
          orderType := .market
          orderClass := .simple
          timeInForce := .day
          state := .pending
          createdAt := c.now }
    else none
  | _, _ => none

/-- The first look: the Manager holds SPY. -/
def HoldsReserve (lots : LotLedger) : Prop :=
  0 < ((lots.openQtyBySymbol .manager).get? "SPY").getD 0

instance (lots : LotLedger) : Decidable (HoldsReserve lots) := inferInstanceAs (Decidable (_ < _))

/-- The second look: an order of the Manager for SPY is still open. -/
def ReserveInFlight (oms : Oms) : Prop :=
  ∃ o ∈ oms.listOpenOrders, o.agentId = .manager ∧ o.symbol = "SPY"

instance (oms : Oms) : Decidable (ReserveInFlight oms) :=
  inferInstanceAs (Decidable (∃ o ∈ oms.listOpenOrders, _))

/-! ### The broker -/

/-- An execution of a purchase of the reserve. -/
structure ReserveExecution where
  fillId : FillId
  qty : Decimal
  price : Decimal
  timestamp : Time
  /-- Whether the broker reports the order as filled. -/
  completes : Bool
  qty_pos : 0 < qty

/-- What the broker reports about an order it accepted. -/
inductive OrderNews
  | acceptance (brokerOrderId : String)
  | execution (brokerOrderId : String) (e : ReserveExecution)

/-- The event of a report about a purchase of the reserve. -/
def OrderNews.event (k : OrderId) : OrderNews → BrokerOrderEvent
  | .acceptance brokerOrderId =>
    { brokerOrderId := brokerOrderId, clientOrderId := k, newState := .accepted }
  | .execution brokerOrderId e =>
    { brokerOrderId := brokerOrderId
      clientOrderId := k
      newState := if e.completes then .filled else .partiallyFilled
      fill := some
        { id := e.fillId
          orderId := k
          agentId := .manager
          symbol := "SPY"
          side := .buy
          qty := e.qty
          price := e.price
          timestamp := e.timestamp
          isPartial := ¬e.completes }
      timestamp := some e.timestamp }

/-- What becomes of a submission. -/
inductive BrokerAnswer
  /-- The order is accepted; some reports come before the call returns. -/
  | accepted (brokerOrderId : String) (callbacks : List OrderNews)
  /-- The order is accepted, and the call raises. -/
  | lost
  | unavailable
  | rejected (reason : String)

namespace BrokerAnswer

def call (k : OrderId) : BrokerAnswer → SubmitCall
  | .accepted brokerOrderId callbacks => ⟨callbacks.map (·.event k), .returned brokerOrderId⟩
  | .lost | .unavailable => ⟨[], .unavailable⟩
  | .rejected reason => ⟨[], .rejected reason⟩

/-- The broker has the order. -/
def Accepts : BrokerAnswer → Prop
  | .accepted .. | .lost => True
  | .unavailable | .rejected _ => False

instance : DecidablePred Accepts
  | .accepted .. | .lost => isTrue trivial
  | .unavailable | .rejected _ => isFalse id

end BrokerAnswer

/-! ### The job and the broker, in any order -/

/-- How far a run of the job has got. The scheduler runs it once at a time. -/
inductive ReserveJob
  | idle
  /-- The lots were read, and the Manager held nothing. -/
  | lotsRead
  /-- The open orders were read, and there was none. -/
  | ordersRead
  deriving DecidableEq

structure ReserveRun where
  oms : Oms
  lots : LotLedger
  /-- The fills that are published and not booked yet. The lock of the system is held meanwhile. -/
  unbooked : List Fill
  job : ReserveJob
  /-- The orders the broker accepted. -/
  accepted : List OrderId

inductive ReserveStep
  | readLots
  | readOrders
  | submit (call : ReserveCall) (answer : BrokerAnswer) (lotIds : LotIds)
  /-- The broker reports about an order, and the system handles the report. -/
  | deliver (k : OrderId) (news : OrderNews) (now : Time)
  /-- The handler of the published fill books it. -/
  | book (lotIds : LotIds)

namespace ReserveRun

def start : ReserveRun := ⟨.empty, .empty, [], .idle, []⟩

/-- Submit an order. What is published meanwhile is booked before the call returns. -/
def submit (s : ReserveRun) (order : Order) (answer : BrokerAnswer) (lotIds : LotIds) (now : Time) :
    ReserveRun :=
  let oms := (s.oms.submitOrder order (answer.call order.id) now).1
  { s with
    oms := oms
    lots := s.lots.onFillsReceived lotIds (fillsPublished (oms.bus.drop s.oms.bus.length))
    job := .idle
    accepted := if answer.Accepts then s.accepted ++ [order.id] else s.accepted }

/-- A step. One that needs the lock waits for it, and identifiers do not repeat. -/
def step (s : ReserveRun) : ReserveStep → ReserveRun
  | .readLots =>
    if s.job = .idle ∧ ¬HoldsReserve s.lots then { s with job := .lotsRead } else s
  | .readOrders =>
    if s.job = .lotsRead ∧ s.unbooked = [] then
      { s with job := if ReserveInFlight s.oms then .idle else .ordersRead }
    else s
  | .submit call answer lotIds =>
    if s.job = .ordersRead ∧ s.unbooked = [] then
      match call.order? with
      | none => { s with job := .idle }
      | some order =>
        if order.id ∈ s.oms.orders.keys then s else s.submit order answer lotIds call.now
    else s
  | .deliver k news now =>
    if k ∈ s.accepted ∧ s.unbooked = [] then
      let oms := s.oms.onBrokerEvent (news.event k) now
      { s with oms := oms, unbooked := fillsPublished (oms.bus.drop s.oms.bus.length) }
    else s
  | .book lotIds => { s with lots := s.lots.onFillsReceived lotIds s.unbooked, unbooked := [] }

/-- **The condition**: when the broker accepts an order, the Manager still holds no SPY. -/
def StillNone (s : ReserveRun) : ReserveStep → Prop
  | .submit call answer _ => s.job = .ordersRead → s.unbooked = [] →
      (∃ order ∈ call.order?, order.id ∉ s.oms.orders.keys) → answer.Accepts →
        ¬HoldsReserve s.lots
  | .readLots | .readOrders | .deliver .. | .book _ => True

end ReserveRun

/-! ### The ledger -/

/-- A purchase of the reserve. -/
structure Fill.BuysReserve (fill : Fill) : Prop where
  agentId : fill.agentId = .manager
  symbol : fill.symbol = "SPY"
  side : fill.side = .buy
  qty_pos : 0 < fill.qty

/-- A lot of the reserve. -/
structure Lot.InReserve (lot : Lot) : Prop where
  agentId : lot.agentId = .manager
  symbol : lot.symbol = "SPY"
  isClosed : lot.isClosed = false
  remainingQty_pos : 0 < lot.remainingQty

namespace LotLedger

/-- Nothing was booked but purchases of the reserve. -/
structure ReserveOnly (l : LotLedger) : Prop where
  lots : ∀ lot ∈ l.allLots, lot.InReserve
  booked : l.booked ≠ [] → l.allLots ≠ []

variable {l : LotLedger}

/-- The Manager holds SPY as soon as there is a lot. -/
theorem ReserveOnly.holdsReserve_iff (hl : l.ReserveOnly) :
    HoldsReserve l ↔ l.allLots ≠ [] := by
  have htotal : ∀ lots : List Lot, (∀ lot ∈ lots, lot.InReserve) →
      (0 < (lots.map (openIn .manager "SPY")).sum ↔ lots ≠ []) := by
    intro lots hlots
    constructor
    · rintro hpos rfl
      exact lt_irrefl 0 hpos
    · intro hne
      refine List.sum_pos _ (fun q hq => ?_) (by simpa using hne)
      obtain ⟨lot, hlot, rfl⟩ := List.mem_map.mp hq
      have h := hlots lot hlot
      rw [openIn, if_pos ⟨h.agentId, h.symbol, h.isClosed⟩]
      exact h.remainingQty_pos
  rw [HoldsReserve, get?_openQtyBySymbol, total, ← htotal l.allLots hl.lots]
  split_ifs with hpos
  · exact iff_of_true hpos hpos
  · exact iff_of_false (lt_irrefl 0) hpos

/-- Booking a purchase of the reserve leaves a lot. -/
theorem ReserveOnly.bookFill (hl : l.ReserveOnly) {fill : Fill} (hfill : fill.BuysReserve)
    (lotId : LotId) :
    (l.bookFill fill lotId .fifo).ReserveOnly ∧ (l.bookFill fill lotId .fifo).allLots ≠ [] := by
  rw [LotLedger.bookFill]
  by_cases hbooked : fill.id ∈ l.booked
  · rw [if_pos hbooked]
    exact ⟨hl, hl.booked (List.ne_nil_of_mem hbooked)⟩
  · rw [if_neg hbooked, hfill.side]
    have hnew : ((l.markBooked fill.id).openLot fill lotId).allLots ≠ [] :=
      List.ne_nil_of_mem (mem_allLots.mpr ⟨lotId, Dict.get?_set_self _ _ _⟩)
    refine ⟨⟨fun lot hlot => ?_, fun _ => hnew⟩, hnew⟩
    rcases mem_openLot fill hlot with rfl | hold
    · have hsymbol : normalizeSymbol "SPY" = "SPY" := by decide
      exact ⟨hfill.agentId, (congrArg normalizeSymbol hfill.symbol).trans hsymbol, rfl,
        hfill.qty_pos⟩
    · exact hl.lots lot hold

/-- Booking purchases of the reserve, one after the other. -/
theorem ReserveOnly.onFillsReceived (hl : l.ReserveOnly) (lotIds : LotIds) {fills : List Fill}
    (hfills : ∀ fill ∈ fills, fill.BuysReserve) :
    (l.onFillsReceived lotIds fills).ReserveOnly ∧
      ((l.onFillsReceived lotIds fills).allLots = [] ↔ l.allLots = [] ∧ fills = []) := by
  induction fills generalizing l with
  | nil => exact ⟨hl, (and_iff_left rfl).symm⟩
  | cons fill fills ih =>
    obtain ⟨hbooked, hne⟩ := hl.bookFill (hfills fill List.mem_cons_self) (lotIds fill.id)
    obtain ⟨hrest, hiff⟩ := ih hbooked fun f hf => hfills f (List.mem_cons_of_mem _ hf)
    refine ⟨hrest, hiff.trans (iff_of_false (fun h => hne h.1) fun h => ?_)⟩
    exact List.cons_ne_nil _ _ h.2

/-- The Manager holds nothing afterwards just when there was nothing to book. -/
theorem ReserveOnly.not_holdsReserve_onFillsReceived (hl : l.ReserveOnly) (lotIds : LotIds)
    {fills : List Fill} (hfills : ∀ fill ∈ fills, fill.BuysReserve) :
    ¬HoldsReserve (l.onFillsReceived lotIds fills) ↔ ¬HoldsReserve l ∧ fills = [] := by
  obtain ⟨hbooked, hiff⟩ := hl.onFillsReceived lotIds hfills
  rw [hbooked.holdsReserve_iff, hl.holdsReserve_iff, not_not, not_not, hiff]

end LotLedger

/-! ### The orders -/

namespace Oms

variable {s s' s'' : Oms} {k : OrderId} {ks : List OrderId}

/-- An order for the reserve. -/
def KnowsReserve (s : Oms) (k : OrderId) : Prop :=
  ∃ order, s.orders.get? k = some order ∧ order.agentId = .manager ∧ order.symbol = "SPY"

/-- An order for the reserve that is open. -/
def OpensReserve (s : Oms) (k : OrderId) : Prop :=
  ∃ order, s.orders.get? k = some order ∧ order.state.Open ∧ order.agentId = .manager ∧
    order.symbol = "SPY"

/-- **What the system does between two states**: it forgets no order for the reserve, publishes some
purchases of the reserve and no other fill, and closes none of some orders without publishing. -/
structure Buys (s s' : Oms) (fills : List Fill) (ks : List OrderId) : Prop where
  wellFormed : s'.WellFormed
  known : ∀ k, s.KnowsReserve k → s'.KnowsReserve k
  bus : ∃ bus, s'.bus = s.bus ++ bus ∧ fillsPublished bus = fills
  buysReserve : ∀ fill ∈ fills, fill.BuysReserve
  opens : fills = [] → ∀ k ∈ ks, s.OpensReserve k → s'.OpensReserve k

theorem Buys.refl (hs : s.WellFormed) (ks : List OrderId) : s.Buys s [] ks :=
  ⟨hs, fun _ h => h, ⟨[], (List.append_nil _).symm, rfl⟩, fun _ h => absurd h List.not_mem_nil,
    fun _ _ _ h => h⟩

theorem Buys.trans {fills fills' : List Fill} (h : s.Buys s' fills ks)
    (h' : s'.Buys s'' fills' ks) : s.Buys s'' (fills ++ fills') ks := by
  obtain ⟨bus, hbus, hfills⟩ := h.bus
  obtain ⟨bus', hbus', hfills'⟩ := h'.bus
  refine ⟨h'.wellFormed, fun k hk => h'.known k (h.known k hk), ⟨bus ++ bus', ?_, ?_⟩,
    fun fill hfill => ?_, fun hnone k hk ho => ?_⟩
  · rw [hbus', hbus, List.append_assoc]
  · rw [← hfills, ← hfills']
    exact List.filterMap_append
  · exact (List.mem_append.mp hfill).elim (h.buysReserve fill) (h'.buysReserve fill)
  · obtain ⟨hnil, hnil'⟩ := List.append_eq_nil_iff.mp hnone
    exact h'.opens hnil' k hk (h.opens hnil k hk ho)

/-- Closing none of some orders is closing none of fewer. -/
theorem Buys.mono {fills : List Fill} {ks' : List OrderId} (h : s.Buys s' fills ks')
    (hks : ks ⊆ ks') : s.Buys s' fills ks :=
  { h with opens := fun hnone k hk => h.opens hnone k (hks hk) }

/-- What is published is what was published before, and the fills. -/
theorem Buys.fillsPublished_drop {fills : List Fill} (h : s.Buys s' fills ks) :
    fillsPublished (s'.bus.drop s.bus.length) = fills := by
  obtain ⟨bus, hbus, hfills⟩ := h.bus
  rw [hbus, List.drop_left, hfills]

/-- The fills that a step published which logged one event. -/
theorem exists_bus_of_emits (h : s.Emits s') {logged : LoggedEvent}
    (hstore : s'.store = s.store ++ [logged]) :
    ∃ bus, s'.bus = s.bus ++ bus ∧ fillsPublished bus = fillsLogged [logged] := by
  obtain ⟨log, bus, hstore', hbus, hfills, -⟩ := h.exists_eq
  obtain rfl := List.append_cancel_left (hstore'.symm.trans hstore)
  exact ⟨bus, hbus, hfills.symm⟩

/-- An order that is moved is for the reserve as before. -/
theorem known_of_moves {order order' : Order} {fsm : OrderFsm} {event : OrderEvent}
    {fills : List Fill} (hm : s.Moves s' k order' fsm event fills)
    (hk : s.orders.get? k = some order) (hagent : order'.agentId = order.agentId)
    (hsymbol : order'.symbol = order.symbol) (k' : OrderId) (h : s.KnowsReserve k') :
    s'.KnowsReserve k' := by
  obtain ⟨o, ho, ha, hs⟩ := h
  by_cases hkk : k' = k
  · subst hkk
    obtain rfl := Option.some.inj (hk.symm.trans ho)
    have hsame := Order.sameTrade_moved order' fsm event
    refine ⟨_, (hm.orders k').trans (if_pos rfl), ?_, ?_⟩
    · rw [hsame.agentId, hagent, ha]
    · rw [hsame.symbol, hsymbol, hs]
  · exact ⟨o, (hm.orders k').trans ((if_neg hkk).trans ho), ha, hs⟩

/-- The acceptance of an order closes none. -/
theorem buys_recordAccepted (hs : s.WellFormed) (k : OrderId) (brokerOrderId : String)
    (ts : Time) (ks : List OrderId) : s.Buys (s.recordAccepted k brokerOrderId ts) [] ks := by
  rcases hk : s.orders.get? k with _ | order
  · rw [recordAccepted, hk]
    exact .refl hs ks
  by_cases hb : order.brokerOrderId = some brokerOrderId
  · rw [recordAccepted_eq_self hk hb]
    exact .refl hs ks
  obtain ⟨fsm, hf, hstate⟩ := hs.exists_fsm hk
  have hadv := recordAccepted_advances hk hf hb ts
  refine ⟨hadv.wellFormed hs hk hf rfl rfl, known_of_moves hadv.toMoves hk rfl rfl,
    exists_bus_of_emits ((Emits.refl s).recordAccepted k brokerOrderId ts) hadv.store,
    fun _ h => absurd h List.not_mem_nil, ?_⟩
  rintro - k' - ⟨o, ho, hopen, ha, hsym⟩
  by_cases hkk : k' = k
  · subst hkk
    obtain rfl := Option.some.inj (hk.symm.trans ho)
    have hmoved : ∀ o : Order, o.state = order.state → o.agentId = .manager →
        o.symbol = "SPY" → (o.moved fsm .accept).state = (fsm.after .accept).state ∧
          (o.moved fsm .accept).agentId = .manager ∧ (o.moved fsm .accept).symbol = "SPY" := by
      intro o hostate hoa hosym
      rw [Order.moved_eq (hstate.trans hostate.symm)]
      exact ⟨rfl, hoa, hosym⟩
    -- an acceptance leaves an open order open, from whatever state
    obtain ⟨hnext, hagent, hsymbol⟩ := hmoved { order with
      brokerOrderId := some brokerOrderId, submittedAt := some ts } rfl ha hsym
    refine ⟨_, (hadv.orders k').trans (if_pos rfl), ?_, hagent, hsymbol⟩
    rw [hnext, StateMachine.state_after, hstate]
    revert hopen
    generalize order.state = state
    cases state <;> decide
  · exact ⟨o, (hadv.orders k').trans ((if_neg hkk).trans ho), hopen, ha, hsym⟩

/-- A fill of an order for the reserve is a purchase of the reserve. -/
theorem buys_handleFill (hs : s.WellFormed) (hk : s.KnowsReserve k) {fill : Fill}
    (hside : fill.side = .buy) (hqty : 0 < fill.qty) (ts : Time) (ks : List OrderId) :
    ∃ fills, s.Buys (s.handleFill k fill ts) fills ks := by
  obtain ⟨order, ho, ha, hsym⟩ := hk
  obtain ⟨fsm, hf, -⟩ := hs.exists_fsm ho
  have hadv := handleFill_advances ho hf fill ts
  obtain ⟨bus, hbus, hfills⟩ :=
    exists_bus_of_emits ((Emits.refl s).handleFill k fill ts) hadv.store
  have hone : fillsPublished bus = [fill.correctedFor order] :=
    hfills.trans (congrArg (fun f => [f]) (deserializeFill_serializeFill _))
  refine ⟨[fill.correctedFor order], hs.handleFill k fill ts,
    known_of_moves hadv.toMoves ho rfl rfl, ⟨bus, hbus, hone⟩, fun f hmem => ?_, fun hnone => ?_⟩
  · obtain rfl := List.mem_singleton.mp hmem
    exact ⟨ha, hsym, hside, hqty⟩
  · exact absurd hnone (List.cons_ne_nil _ _)

/-- **A report about an order for the reserve.** -/
theorem buys_event (hs : s.WellFormed) (hk : s.KnowsReserve k) (news : OrderNews) (now : Time)
    (ks : List OrderId) : ∃ fills, s.Buys (s.onBrokerEvent (news.event k) now) fills ks := by
  obtain ⟨order, ho, -⟩ := id hk
  cases news with
  | acceptance brokerOrderId =>
    refine ⟨[], ?_⟩
    rw [onBrokerEvent]
    change s.Buys (if k ∈ s.orders.keys then if _ then _ else _ else s) [] ks
    rw [if_pos (Dict.mem_keys_of_get? ho)]
    split_ifs
    · exact .refl hs ks
    · exact buys_recordAccepted hs _ _ _ ks
  | execution brokerOrderId e =>
    have hclient : ((OrderNews.execution brokerOrderId e).event k).clientOrderId = k := rfl
    have hstate : ((OrderNews.execution brokerOrderId e).event k).newState = .partiallyFilled ∨
        ((OrderNews.execution brokerOrderId e).event k).newState = .filled := by
      change (if _ then _ else _) = _ ∨ (if _ then _ else _) = _
      split_ifs
      · exact Or.inr rfl
      · exact Or.inl rfl
    rw [onBrokerEvent_of_fill (hclient ▸ ho) hstate rfl]
    exact buys_handleFill hs hk rfl e.qty_pos _ ks

/-- Some reports about an order for the reserve. -/
theorem buys_events (hs : s.WellFormed) (hk : s.KnowsReserve k) (news : List OrderNews)
    (now : Time) (ks : List OrderId) :
    ∃ fills, s.Buys (s.onBrokerEvents (news.map (·.event k)) now) fills ks := by
  induction news generalizing s with
  | nil => exact ⟨[], .refl hs ks⟩
  | cons n news ih =>
    obtain ⟨fills, hfirst⟩ := buys_event hs hk n now ks
    obtain ⟨fills', hrest⟩ := ih hfirst.wellFormed (hfirst.known k hk)
    exact ⟨fills ++ fills', hfirst.trans hrest⟩

/-- A new order closes none. -/
theorem buys_persistIntent (hs : s.WellFormed) {order : Order} (hpending : order.state = .pending)
    (hnew : order.id ∉ s.orders.keys) (now : Time) (ks : List OrderId) :
    s.Buys (s.persistIntent order now) [] ks := by
  have hi := persistIntent_introduces s hpending now
  have hother : ∀ k o, s.orders.get? k = some o →
      (s.persistIntent order now).orders.get? k = some o := by
    intro k o ho
    have hne : k ≠ order.id := by
      rintro rfl
      exact hnew (Dict.mem_keys_of_get? ho)
    exact (hi.orders k).trans ((if_neg hne).trans ho)
  refine ⟨hi.wellFormed hs, ?_, exists_bus_of_emits (s.emits_persistIntent order now) hi.store,
    fun _ h => absurd h List.not_mem_nil, ?_⟩
  · rintro k ⟨o, ho, h⟩
    exact ⟨o, hother k o ho, h⟩
  · rintro - k - ⟨o, ho, h⟩
    exact ⟨o, hother k o ho, h⟩

/-- A rejection closes its own order only. -/
theorem buys_handleRejection (hs : s.WellFormed) (hk : k ∉ ks) (reason : String) (ts : Time) :
    s.Buys (s.handleRejection k reason ts) [] ks := by
  rcases ho : s.orders.get? k with _ | order
  · have hself : s.handleRejection k reason ts = s := by
      rw [handleRejection, handleClosing, ho]
    rw [hself]
    exact .refl hs ks
  by_cases ht : order.state.Terminal
  · rw [handleRejection, handleClosing_eq_self ho ht]
    exact .refl hs ks
  obtain ⟨fsm, hf, -⟩ := hs.exists_fsm ho
  have hadv := handleClosing_advances ho hf ht (.orderRejected (some reason))
    (fun order => { order with rejectionReason := some reason }) .reject ts
  refine ⟨hadv.wellFormed hs ho hf rfl rfl, known_of_moves hadv.toMoves ho rfl rfl,
    exists_bus_of_emits ((Emits.refl s).handleRejection k reason ts) hadv.store,
    fun _ h => absurd h List.not_mem_nil, ?_⟩
  rintro - k' hk' ⟨o, ho', h⟩
  have hne : k' ≠ k := by
    rintro rfl
    exact hk hk'
  exact ⟨o, (hadv.orders k').trans ((if_neg hne).trans ho'), h⟩

/-- **What a submission of the reserve does.** If the broker accepts the order, it is open, unless
something was bought; if not, nothing was. -/
theorem buys_submitOrder (hs : s.WellFormed) {order : Order} (hpending : order.state = .pending)
    (hagent : order.agentId = .manager) (hsymbol : order.symbol = "SPY")
    (hnew : order.id ∉ s.orders.keys) (hks : order.id ∉ ks) (answer : BrokerAnswer) (now : Time) :
    let s' := (s.submitOrder order (answer.call order.id) now).1
    ∃ fills, s.Buys s' fills ks ∧
      (answer.Accepts → s'.KnowsReserve order.id ∧ (fills = [] → s'.OpensReserve order.id)) ∧
      (¬answer.Accepts → fills = []) := by
  have hi := persistIntent_introduces s hpending now
  have h₁ := buys_persistIntent hs hpending hnew now ks
  have hsubmitted : OrderState.submitted.Open := by decide
  have hopen : (s.persistIntent order now).OpensReserve order.id :=
    ⟨_, hi.get?_self, hsubmitted, hagent, hsymbol⟩
  have hknown : (s.persistIntent order now).KnowsReserve order.id :=
    ⟨_, hi.get?_self, hagent, hsymbol⟩
  have hsubmit : (s.submitOrder order (answer.call order.id) now).1 =
      ((s.persistIntent order now).onBrokerEvents (answer.call order.id).callbacks
        now).settleSubmit order.id (answer.call order.id).outcome now := by
    rw [submitOrder, if_pos hpending]
    dsimp only
    cases (answer.call order.id).outcome <;> rfl
  dsimp only
  rw [hsubmit]
  cases answer with
  | accepted brokerOrderId callbacks =>
    obtain ⟨fills, h₂⟩ := buys_events h₁.wellFormed hknown callbacks now (order.id :: ks)
    have h₃ : ((s.persistIntent order now).onBrokerEvents
        (callbacks.map (·.event order.id)) now).Buys
          (((s.persistIntent order now).onBrokerEvents (callbacks.map (·.event order.id))
            now).settleSubmit order.id (.returned brokerOrderId) now) [] (order.id :: ks) := by
      rw [settleSubmit]
      split_ifs
      · exact .refl h₂.wellFormed _
      · exact buys_recordAccepted h₂.wellFormed _ _ _ _
    -- the order is one of those that are not closed, once it is there
    have h₂₃ := h₂.trans h₃
    rw [List.append_nil] at h₂₃
    exact ⟨fills, h₁.trans (h₂₃.mono (List.subset_cons_self _ _)),
      fun _ => ⟨h₂₃.known _ hknown, fun hnone => h₂₃.opens hnone _ List.mem_cons_self hopen⟩,
      fun h => absurd trivial h⟩
  | lost => exact ⟨[], h₁, fun _ => ⟨hknown, fun _ => hopen⟩, fun _ => rfl⟩
  | unavailable => exact ⟨[], h₁, fun h => absurd h id, fun _ => rfl⟩
  | rejected reason =>
    exact ⟨[], h₁.trans (buys_handleRejection h₁.wellFormed hks reason now),
      fun h => absurd h id, fun _ => rfl⟩

end Oms

/-! ### The runs -/

/-- The second look finds an open order for the reserve. -/
theorem Oms.OpensReserve.reserveInFlight {s : Oms} {k : OrderId} (h : s.OpensReserve k) :
    ReserveInFlight s := by
  obtain ⟨order, ho, hopen, hagent, hsymbol⟩ := h
  have hlisted : order ∈ s.listOpenOrders :=
    List.mem_filter.mpr ⟨Dict.mem_values_of_get? ho, decide_eq_true hopen⟩
  exact ⟨order, hlisted, hagent, hsymbol⟩

/-- The order of the job is for the reserve. -/
theorem ReserveCall.of_order?_eq_some {call : ReserveCall} {order : Order}
    (h : call.order? = some order) :
    order.state = .pending ∧ order.agentId = .manager ∧ order.symbol = "SPY" := by
  unfold ReserveCall.order? at h
  split at h
  · split_ifs at h
    obtain rfl := Option.some.inj h
    exact ⟨rfl, rfl, rfl⟩
  · cases h

namespace ReserveRun

/-- **The invariant.** Of what the broker accepted there is always a trace: an order that is open, a
fill that waits to be booked, or a lot. -/
structure WellFormed (s : ReserveRun) : Prop where
  oms : s.oms.WellFormed
  lots : s.lots.ReserveOnly
  buysReserve : ∀ fill ∈ s.unbooked, fill.BuysReserve
  known : ∀ k ∈ s.accepted, s.oms.KnowsReserve k
  opens : s.unbooked = [] → ¬HoldsReserve s.lots → ∀ k ∈ s.accepted, s.oms.OpensReserve k
  /-- Nothing is bought before an order is accepted. -/
  bought : s.accepted = [] → s.unbooked = [] ∧ ¬HoldsReserve s.lots
  /-- After both looks nothing was accepted, unless it is bought by now. -/
  looked : s.job = .ordersRead → s.unbooked = [] → ¬HoldsReserve s.lots → s.accepted = []
  once : s.accepted.length ≤ 1

variable {s : ReserveRun}

theorem wellFormed_start : start.WellFormed where
  oms := Oms.WellFormed.empty
  lots := ⟨fun _ h => absurd h List.not_mem_nil, fun h => absurd rfl h⟩
  buysReserve _ h := absurd h List.not_mem_nil
  known _ h := absurd h List.not_mem_nil
  opens _ _ _ h := absurd h List.not_mem_nil
  bought _ := ⟨rfl, by decide⟩
  looked _ _ _ := rfl
  once := Nat.zero_le 1

/-- The first look. -/
theorem WellFormed.readLots (hs : s.WellFormed) : (s.step .readLots).WellFormed := by
  rw [step]
  split_ifs with hlook
  · exact { hs with looked := fun h => by cases h }
  · exact hs

/-- The second look: what was accepted and is not bought would be open. -/
theorem WellFormed.readOrders (hs : s.WellFormed) : (s.step .readOrders).WellFormed := by
  rw [step]
  split_ifs with hlook hopen
  · exact { hs with looked := fun h => by cases h }
  · refine { hs with looked := fun _ hnone hholds => ?_ }
    -- an order that was accepted and bought nothing is open, and would have been seen
    by_contra hsome
    obtain ⟨k, hk⟩ := List.exists_mem_of_ne_nil _ hsome
    exact hopen (hs.opens hnone hholds k hk).reserveInFlight
  · exact hs

/-- A report publishes what it buys. -/
theorem WellFormed.deliver (hs : s.WellFormed) (k : OrderId) (news : OrderNews) (now : Time) :
    (s.step (.deliver k news now)).WellFormed := by
  rw [step]
  split_ifs with hlive
  · obtain ⟨hk, hnone⟩ := hlive
    obtain ⟨fills, hbuys⟩ := Oms.buys_event hs.oms (hs.known k hk) news now s.accepted
    dsimp only
    rw [hbuys.fillsPublished_drop]
    exact
      { oms := hbuys.wellFormed
        lots := hs.lots
        buysReserve := hbuys.buysReserve
        known := fun k' hk' => hbuys.known k' (hs.known k' hk')
        opens := fun hfills hholds k' hk' =>
          hbuys.opens hfills k' hk' (hs.opens hnone hholds k' hk')
        bought := fun h => absurd hk (h ▸ List.not_mem_nil)
        looked := fun hjob _ => hs.looked hjob hnone
        once := hs.once }
  · exact hs

/-- Booking leaves a lot of what waited. -/
theorem WellFormed.book (hs : s.WellFormed) (lotIds : LotIds) :
    (s.step (.book lotIds)).WellFormed := by
  have hholds := hs.lots.not_holdsReserve_onFillsReceived lotIds hs.buysReserve
  exact
    { oms := hs.oms
      lots := (hs.lots.onFillsReceived lotIds hs.buysReserve).1
      buysReserve := fun _ h => absurd h List.not_mem_nil
      known := hs.known
      opens := fun _ h => hs.opens (hholds.mp h).2 (hholds.mp h).1
      bought := fun h => ⟨rfl, hholds.mpr (hs.bought h).symm⟩
      looked := fun hjob _ h => hs.looked hjob (hholds.mp h).2 (hholds.mp h).1
      once := hs.once }

/-- A submission while nothing was accepted. -/
theorem WellFormed.submit (hs : s.WellFormed) {order : Order} (hpending : order.state = .pending)
    (hagent : order.agentId = .manager) (hsymbol : order.symbol = "SPY")
    (hnew : order.id ∉ s.oms.orders.keys) (hnone : s.unbooked = []) (answer : BrokerAnswer)
    (hnothing : answer.Accepts → s.accepted = []) (lotIds : LotIds) (now : Time) :
    (s.submit order answer lotIds now).WellFormed := by
  -- identifiers do not repeat, so the order is none of the accepted ones
  have hks : order.id ∉ s.accepted := by
    intro hmem
    obtain ⟨o, ho, -⟩ := hs.known _ hmem
    exact hnew (Dict.mem_keys_of_get? ho)
  obtain ⟨fills, hbuys, haccepts, hfails⟩ :=
    Oms.buys_submitOrder hs.oms hpending hagent hsymbol hnew hks answer now
  have hholds := hs.lots.not_holdsReserve_onFillsReceived lotIds hbuys.buysReserve
  rw [ReserveRun.submit, hbuys.fillsPublished_drop]
  by_cases haccept : answer.Accepts
  · -- it is the only order, open unless something was bought
    obtain ⟨hknown, hopens⟩ := haccepts haccept
    rw [if_pos haccept, hnothing haccept, List.nil_append]
    exact
      { oms := hbuys.wellFormed
        lots := (hs.lots.onFillsReceived lotIds hbuys.buysReserve).1
        buysReserve := hs.buysReserve
        known := fun k hk => List.mem_singleton.mp hk ▸ hknown
        opens := fun _ h k hk => List.mem_singleton.mp hk ▸ hopens (hholds.mp h).2
        bought := fun h => absurd h (List.cons_ne_nil _ _)
        looked := fun h => by cases h
        once := le_refl 1 }
  · obtain rfl := hfails haccept
    rw [if_neg haccept]
    exact
      { oms := hbuys.wellFormed
        lots := hs.lots
        buysReserve := hs.buysReserve
        known := fun k hk => hbuys.known k (hs.known k hk)
        opens := fun _ h k hk => hbuys.opens rfl k hk (hs.opens hnone h k hk)
        bought := hs.bought
        looked := fun h => by cases h
        once := hs.once }

/-- What one step preserves. -/
theorem WellFormed.step (hs : s.WellFormed) (op : ReserveStep) (hok : s.StillNone op) :
    (s.step op).WellFormed := by
  cases op with
  | readLots => exact hs.readLots
  | readOrders => exact hs.readOrders
  | deliver k news now => exact hs.deliver k news now
  | book lotIds => exact hs.book lotIds
  | submit call answer lotIds =>
    rw [ReserveRun.step]
    split_ifs with hready
    · obtain ⟨hjob, hnone⟩ := hready
      rcases hcall : call.order? with _ | order
      · dsimp only
        exact { hs with looked := fun h => by cases h }
      dsimp only
      split_ifs with hold
      · exact hs
      obtain ⟨hpending, hagent, hsymbol⟩ := ReserveCall.of_order?_eq_some hcall
      refine hs.submit hpending hagent hsymbol hold hnone answer (fun haccept => ?_) lotIds _
      exact hs.looked hjob hnone (hok hjob hnone ⟨order, hcall, hold⟩ haccept)
    · exact hs

/-- A submission that is accepted while the reserve is there is the second. -/
theorem WellFormed.twice (hs : s.WellFormed) {op : ReserveStep} (hok : ¬s.StillNone op) :
    ¬(s.step op).accepted.length ≤ 1 := by
  cases op with
  | submit call answer lotIds =>
    simp only [StillNone, Classical.not_imp, not_not] at hok
    obtain ⟨hjob, hnone, ⟨order, hcall, hnew⟩, haccept, hholds⟩ := hok
    -- what the Manager holds was bought by an order
    have hsome : s.accepted ≠ [] := fun h => (hs.bought h).2 hholds
    have hsubmit : s.step (.submit call answer lotIds) =
        s.submit order answer lotIds call.now := by
      rw [ReserveRun.step, if_pos ⟨hjob, hnone⟩, Option.mem_def.mp hcall]
      exact if_neg hnew
    rw [hsubmit, ReserveRun.submit]
    dsimp only
    rw [if_pos haccept, List.length_append, List.length_singleton]
    have hlength := List.length_pos_iff.mpr hsome
    omega
  | readLots => exact absurd trivial hok
  | readOrders => exact absurd trivial hok
  | deliver k news now => exact absurd trivial hok
  | book lotIds => exact absurd trivial hok

/-- **The reserve is bought at most once**, in every run in which the Manager still holds no SPY
when the broker accepts an order, and in no other. -/
theorem atMostOne_iff (steps : List ReserveStep) :
    (∀ pre, pre <+: steps → (run step start pre).accepted.length ≤ 1) ↔
      Along step StillNone start steps :=
  forall_reached_iff_along_of_invariant (fun _ op hs hok => hs.step op hok) (fun _ hs => hs.once)
    (fun _ _ hs hok => hs.twice hok) wellFormed_start steps

/-! ### A fill between the two looks -/

/-- A call of the job, with SPY at 500. -/
def mondayCall (k : OrderId) : ReserveCall := ⟨some 500, some 100000, k, k, 0⟩

/-- The order of the first week is filled while the job of the second week has read the lots and not
the open orders. -/
def betweenTheLooks : List ReserveStep :=
  [.readLots, .readOrders, .submit (mondayCall 1) (.accepted "b1" []) id,
    .readLots, .deliver 1 (.execution "b1" ⟨1, 20, 500, 1, true, by decide⟩) 1, .book id,
    .readOrders, .submit (mondayCall 2) (.accepted "b2" []) id]

/-- The reserve is bought twice. -/
theorem not_atMostOne_betweenTheLooks :
    (run step start betweenTheLooks).accepted = [1, 2] ∧
      ¬(run step start betweenTheLooks).accepted.length ≤ 1 := by
  decide +kernel

end ReserveRun

end TradingPlatform
