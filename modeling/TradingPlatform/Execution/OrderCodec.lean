import TradingPlatform.Execution.Planner
import TradingPlatform.Execution.RecordCodec

/-!
# Orders in the log

An order as the program holds it, the dict that goes into the log before the order is submitted,
and the order that recovery builds from the dict. The dict has fourteen of the twenty-three
fields, and recovery gives the other nine their defaults – although the function that makes the
dict says that the decoder reverses it.

`TradingPlatform.PyOrder.survives_iff` says which orders are read back as they were: those with
nothing in the nine fields (`TradingPlatform.PyOrder.NothingLost`). An order that the planner makes
for options has its legs there (`TradingPlatform.survives_planned_iff`), and comes back without
them.
-/

namespace TradingPlatform

/-! ### Enumerations -/

def OrderType.value : OrderType → String
  | .market => "market"
  | .limit => "limit"
  | .stop => "stop"
  | .stopLimit => "stop_limit"
  | .trailingStop => "trailing_stop"

def OrderClass.value : OrderClass → String
  | .simple => "simple"
  | .bracket => "bracket"
  | .oco => "oco"
  | .oto => "oto"
  | .mleg => "mleg"

def TimeInForce.value : TimeInForce → String
  | .day => "day"
  | .gtc => "gtc"
  | .opg => "opg"
  | .cls => "cls"
  | .ioc => "ioc"
  | .fok => "fok"

def OrderState.value : OrderState → String
  | .pending => "pending"
  | .submitted => "submitted"
  | .accepted => "accepted"
  | .partiallyFilled => "partial"
  | .filled => "filled"
  | .cancelled => "cancelled"
  | .rejected => "rejected"
  | .expired => "expired"

def OrderType.ofValue (s : Str) : Option OrderType :=
  enumOf [.market, .limit, .stop, .stopLimit, .trailingStop] OrderType.value s

def OrderClass.ofValue (s : Str) : Option OrderClass :=
  enumOf [.simple, .bracket, .oco, .oto, .mleg] OrderClass.value s

def TimeInForce.ofValue (s : Str) : Option TimeInForce :=
  enumOf [.day, .gtc, .opg, .cls, .ioc, .fok] TimeInForce.value s

def OrderState.ofValue (s : Str) : Option OrderState :=
  enumOf [.pending, .submitted, .accepted, .partiallyFilled, .filled, .cancelled, .rejected,
    .expired] OrderState.value s

@[simp] theorem OrderType.ofValue_value (t : OrderType) :
    OrderType.ofValue (Str.ofString t.value) = some t := by
  cases t <;> rfl

@[simp] theorem OrderClass.ofValue_value (c : OrderClass) :
    OrderClass.ofValue (Str.ofString c.value) = some c := by
  cases c <;> rfl

@[simp] theorem TimeInForce.ofValue_value (t : TimeInForce) :
    TimeInForce.ofValue (Str.ofString t.value) = some t := by
  cases t <;> rfl

@[simp] theorem OrderState.ofValue_value (state : OrderState) :
    OrderState.ofValue (Str.ofString state.value) = some state := by
  cases state <;> rfl

/-! ### Orders -/

/-- A leg, with the types of the program. -/
structure PyLeg where
  symbol : Str
  side : OrderSide
  ratioQty : ℤ
  deriving DecidableEq

/-- An order, with the types of the program. -/
structure PyOrder where
  id : Uuid
  intentId : Uuid
  agentId : AgentId
  symbol : Str
  side : OrderSide
  qty : FiniteDecimal
  orderType : OrderType
  orderClass : OrderClass
  timeInForce : TimeInForce
  state : OrderState
  createdAt : DateTime
  limitPrice : Option FiniteDecimal := none
  stopPrice : Option FiniteDecimal := none
  trailPercent : Option FiniteDecimal := none
  brokerOrderId : Option Str := none
  legs : List PyLeg := []
  submittedAt : Option DateTime := none
  filledAt : Option DateTime := none
  filledQty : FiniteDecimal := FiniteDecimal.zero
  filledAvgPrice : Option FiniteDecimal := none
  rejectionReason : Option Str := none
  isLetf : Bool := false
  letfEntryDate : Option CivilDate := none

variable {F : Type}

namespace PyValue

/-- A decimal or nothing. -/
def ofDecimal? : Option FiniteDecimal → PyValue F
  | some d => .decimal (.finite d)
  | Option.none => .none

def asOptDecimal? : PyValue F → Option (Option FiniteDecimal)
  | .none => some Option.none
  | .decimal (.finite d) => some (some d)
  | _ => Option.none

@[simp] theorem asOptDecimal?_ofDecimal? (d : Option FiniteDecimal) :
    (ofDecimal? d : PyValue F).asOptDecimal? = some d := by
  cases d <;> rfl

theorem plain_ofDecimal? (d : Option FiniteDecimal) : (ofDecimal? d : PyValue F).Plain := by
  cases d with
  | none => exact .none
  | some d => exact .decimal d

end PyValue

namespace PyOrder

/-- The source's `_serialize_order`. -/
def serialize (order : PyOrder) : PyValue F :=
  .record [("id", .uuid order.id), ("intent_id", .uuid order.intentId),
    ("agent_id", .str (Str.ofString order.agentId.value)), ("symbol", .str order.symbol),
    ("side", .str (Str.ofString order.side.value)), ("qty", .decimal (.finite order.qty)),
    ("order_type", .str (Str.ofString order.orderType.value)),
    ("order_class", .str (Str.ofString order.orderClass.value)),
    ("time_in_force", .str (Str.ofString order.timeInForce.value)),
    ("state", .str (Str.ofString order.state.value)), ("created_at", .datetime order.createdAt),
    ("limit_price", .ofDecimal? order.limitPrice), ("stop_price", .ofDecimal? order.stopPrice),
    ("is_letf", .bool order.isLetf)]

/-- The source's `_deserialize_order`, for a payload with values of the right types. -/
def deserialize (payload : PyValue F) : Option PyOrder := do
  let id ← (← payload.get? "id").asUuid?
  let intentId ← (← payload.get? "intent_id").asUuid?
  let agentId ← AgentId.ofValue (← (← payload.get? "agent_id").asStr?)
  let symbol ← (← payload.get? "symbol").asStr?
  let side ← OrderSide.ofValue (← (← payload.get? "side").asStr?)
  let qty ← (← payload.get? "qty").asDecimal?
  let orderType ← OrderType.ofValue (← (← payload.get? "order_type").asStr?)
  let orderClass ← OrderClass.ofValue (← (← payload.get? "order_class").asStr?)
  let timeInForce ← TimeInForce.ofValue (← (← payload.get? "time_in_force").asStr?)
  let state ← OrderState.ofValue (← (← payload.get? "state").asStr?)
  let createdAt ← (← payload.get? "created_at").asDatetime?
  let limitPrice ← ((payload.get? "limit_price").getD .none).asOptDecimal?
  let stopPrice ← ((payload.get? "stop_price").getD .none).asOptDecimal?
  let isLetf ← ((payload.get? "is_letf").getD (.bool false)).asBool?
  some { id, intentId, agentId, symbol, side, qty, orderType, orderClass, timeInForce, state,
         createdAt, limitPrice, stopPrice, isLetf }

/-- What the dict keeps of an order. -/
def kept (order : PyOrder) : PyOrder where
  id := order.id
  intentId := order.intentId
  agentId := order.agentId
  symbol := order.symbol
  side := order.side
  qty := order.qty
  orderType := order.orderType
  orderClass := order.orderClass
  timeInForce := order.timeInForce
  state := order.state
  createdAt := order.createdAt
  limitPrice := order.limitPrice
  stopPrice := order.stopPrice
  isLetf := order.isLetf

theorem deserialize_serialize (order : PyOrder) :
    deserialize (order.serialize : PyValue F) = some order.kept := by
  simp [deserialize, serialize, kept, PyValue.asUuid?, PyValue.asStr?, PyValue.asDecimal?,
    PyValue.asDatetime?, PyValue.asBool?]

theorem plain_serialize {order : PyOrder} (hsymbol : order.symbol.Apart)
    (hcreated : order.createdAt.offset = order.createdAt.otherOffset) :
    (order.serialize : PyValue F).Plain := by
  refine PyValue.plain_record ["id", "intent_id", "agent_id", "symbol", "side", "qty",
    "order_type", "order_class", "time_in_force", "state", "created_at", "limit_price",
    "stop_price", "is_letf"] rfl (by decide) (by decide) ?_
  intro field hfield
  simp only [List.mem_cons, List.not_mem_nil, or_false] at hfield
  rcases hfield with rfl | rfl | rfl | rfl | rfl | rfl | rfl | rfl | rfl | rfl | rfl | rfl | rfl |
    rfl
  · exact .uuid _
  · exact .uuid _
  · exact .str (Str.apart_map_scalar _)
  · exact .str hsymbol
  · exact .str (Str.apart_map_scalar _)
  · exact .decimal _
  · exact .str (Str.apart_map_scalar _)
  · exact .str (Str.apart_map_scalar _)
  · exact .str (Str.apart_map_scalar _)
  · exact .str (Str.apart_map_scalar _)
  · exact .datetime hcreated
  · exact PyValue.plain_ofDecimal? _
  · exact PyValue.plain_ofDecimal? _
  · exact .bool _

/-! ### The same text for two orders -/

/-- The order whose symbol has no pair of surrogates and whose datetime a fixed zone, with the
same text in the log. -/
def written (order : PyOrder) : PyOrder :=
  { order with symbol := order.symbol.joined, createdAt := order.createdAt.fixed }

theorem dumps_written (ff : FloatFormat F) (order : PyOrder) :
    OmsStore.dumps ff (order.written.serialize : PyValue F) =
      OmsStore.dumps ff order.serialize := by
  have hcreated : (PyValue.datetime order.createdAt.fixed : PyValue F).encode =
      (PyValue.datetime order.createdAt).encode := by
    rw [PyValue.encode, PyValue.encode]
    rfl
  simp only [OmsStore.dumps, dumps, serialize, written, PyValue.record, List.map_cons, List.map_nil,
    PyValue.encode_dict, PyValue.encodeFields, PyValue.encodeField, hcreated]
  simp only [PyValue.encode_str, render, renderFields, renderField, stringText_joined]

section Reload

variable (ff : FloatFormat F) (tables : UnicodeTables)

/-- The order that recovery reads from the log. -/
def reload (order : PyOrder) : Option PyOrder :=
  (OmsStore.loads ff tables (OmsStore.dumps ff order.serialize)).bind deserialize

/-- **What recovery reads**: the order that the text stands for, without the nine fields. -/
theorem reload_eq (order : PyOrder) : order.reload ff tables = some order.written.kept := by
  have hplain : (order.written.serialize : PyValue F).Plain :=
    plain_serialize (Str.apart_joined order.symbol) rfl
  rw [reload, ← dumps_written, OmsStore.loads_dumps ff tables hplain, Option.bind_some,
    deserialize_serialize]

end Reload

/-- **The source's `==` of orders**: field by field, decimals by value and datetimes by instant. -/
structure Same (order order' : PyOrder) : Prop where
  id : order.id = order'.id
  intentId : order.intentId = order'.intentId
  agentId : order.agentId = order'.agentId
  symbol : order.symbol = order'.symbol
  side : order.side = order'.side
  qty : order.qty.toRat = order'.qty.toRat
  orderType : order.orderType = order'.orderType
  orderClass : order.orderClass = order'.orderClass
  timeInForce : order.timeInForce = order'.timeInForce
  state : order.state = order'.state
  createdAt : order.createdAt.Same order'.createdAt
  limitPrice : order.limitPrice.map FiniteDecimal.toRat = order'.limitPrice.map FiniteDecimal.toRat
  stopPrice : order.stopPrice.map FiniteDecimal.toRat = order'.stopPrice.map FiniteDecimal.toRat
  trailPercent :
    order.trailPercent.map FiniteDecimal.toRat = order'.trailPercent.map FiniteDecimal.toRat
  brokerOrderId : order.brokerOrderId = order'.brokerOrderId
  legs : order.legs = order'.legs
  submittedAt : Option.Rel DateTime.Same order.submittedAt order'.submittedAt
  filledAt : Option.Rel DateTime.Same order.filledAt order'.filledAt
  filledQty : order.filledQty.toRat = order'.filledQty.toRat
  filledAvgPrice :
    order.filledAvgPrice.map FiniteDecimal.toRat = order'.filledAvgPrice.map FiniteDecimal.toRat
  rejectionReason : order.rejectionReason = order'.rejectionReason
  isLetf : order.isLetf = order'.isLetf
  letfEntryDate : order.letfEntryDate = order'.letfEntryDate

/-- **Nothing is in the nine fields** that the dict does not have: no trailing percentage, no legs,
no entry date of a leveraged fund, and nothing that the broker reports. -/
structure NothingLost (order : PyOrder) : Prop where
  trailPercent : order.trailPercent = none
  brokerOrderId : order.brokerOrderId = none
  legs : order.legs = []
  submittedAt : order.submittedAt = none
  filledAt : order.filledAt = none
  filledQty : order.filledQty.toRat = 0
  filledAvgPrice : order.filledAvgPrice = none
  rejectionReason : order.rejectionReason = none
  letfEntryDate : order.letfEntryDate = none

theorem rel_none_iff {α : Type} {r : α → α → Prop} {o : Option α} :
    Option.Rel r none o ↔ o = none := by
  constructor
  · rintro ⟨⟩
    rfl
  · rintro rfl
    exact .none

theorem same_kept_iff (order : PyOrder) : order.written.kept.Same order ↔
    order.symbol.Apart ∧ order.createdAt.offset = order.createdAt.otherOffset ∧
      order.NothingLost := by
  constructor
  · intro h
    refine ⟨(Str.joined_eq_self_iff _).mp h.symbol, (DateTime.same_fixed_iff _).mp h.createdAt,
      ⟨?_, h.brokerOrderId.symm, h.legs.symm, rel_none_iff.mp h.submittedAt,
        rel_none_iff.mp h.filledAt, ?_, ?_, h.rejectionReason.symm, h.letfEntryDate.symm⟩⟩
    · exact Option.map_eq_none_iff.mp h.trailPercent.symm
    · exact h.filledQty.symm.trans FiniteDecimal.toRat_zero
    · exact Option.map_eq_none_iff.mp h.filledAvgPrice.symm
  · rintro ⟨hsymbol, hcreated, hlost⟩
    exact
      { id := rfl, intentId := rfl, agentId := rfl
        symbol := (Str.joined_eq_self_iff _).mpr hsymbol
        side := rfl, qty := rfl, orderType := rfl, orderClass := rfl, timeInForce := rfl
        state := rfl
        createdAt := (DateTime.same_fixed_iff _).mpr hcreated
        limitPrice := rfl, stopPrice := rfl
        trailPercent := (Option.map_eq_none_iff.mpr hlost.trailPercent).symm
        brokerOrderId := hlost.brokerOrderId.symm
        legs := hlost.legs.symm
        submittedAt := rel_none_iff.mpr hlost.submittedAt
        filledAt := rel_none_iff.mpr hlost.filledAt
        filledQty := FiniteDecimal.toRat_zero.trans hlost.filledQty.symm
        filledAvgPrice := (Option.map_eq_none_iff.mpr hlost.filledAvgPrice).symm
        rejectionReason := hlost.rejectionReason.symm
        isLetf := rfl
        letfEntryDate := hlost.letfEntryDate.symm }

/-- An order survives the log: recovery reads one that equals it in every field. -/
def Survives (ff : FloatFormat F) (tables : UnicodeTables) (order : PyOrder) : Prop :=
  ∃ order', order.reload ff tables = some order' ∧ order'.Same order

theorem survives_iff_same (ff : FloatFormat F) (tables : UnicodeTables) (order : PyOrder) :
    order.Survives ff tables ↔ order.written.kept.Same order := by
  rw [Survives, reload_eq]
  constructor
  · rintro ⟨order', heq, hsame⟩
    rw [Option.some.inj heq]
    exact hsame
  · intro hsame
    exact ⟨_, rfl, hsame⟩

/-- **An order survives the log if and only if nothing is lost**: the nine fields that the dict
does not have are at their defaults, and the text of the log tells its symbol and its datetime. -/
theorem survives_iff (ff : FloatFormat F) (tables : UnicodeTables) (order : PyOrder) :
    order.Survives ff tables ↔
      order.symbol.Apart ∧ order.createdAt.offset = order.createdAt.otherOffset ∧
        order.NothingLost := by
  rw [survives_iff_same, same_kept_iff]

/-- A call spread as the planner makes it: two legs. -/
def spread : PyOrder where
  id := ⟨1, by decide⟩
  intentId := ⟨2, by decide⟩
  agentId := .opus
  symbol := Str.ofString "SPY"
  side := .buy
  qty := ⟨false, 3, 0, by decide⟩
  orderType := .market
  orderClass := .mleg
  timeInForce := .day
  state := .pending
  createdAt := .utc ⟨2026, 3, 5, by decide⟩ ⟨14, 30, 0, 0, by decide⟩
  legs := [⟨Str.ofString "SPY261218C00500000", .buy, 1⟩,
    ⟨Str.ofString "SPY261218C00520000", .sell, 1⟩]

/-- **It comes back without its legs.** -/
theorem not_survives_spread : ¬spread.Survives decimalFloats .ascii := by
  rw [survives_iff_same]
  intro h
  exact absurd h.legs (by decide)

/-! ### The log of the model -/

/-- A text, if there is one and it is one. -/
def text? : Option Str → Option (Option String)
  | none => some none
  | some s => s.toText?.map fun cs => some (String.ofList cs)

def leg? (leg : PyLeg) : Option OptionLeg :=
  leg.symbol.toText?.map fun cs => ⟨String.ofList cs, leg.side, leg.ratioQty⟩

/-- The order of the model, if its strings are texts. -/
def order? (order : PyOrder) : Option Order :=
  match order.symbol.toText?, text? order.brokerOrderId, order.legs.mapM leg?,
    text? order.rejectionReason with
  | some symbol, some brokerOrderId, some legs, some rejectionReason =>
    some
      { id := order.id.value
        intentId := order.intentId.value
        agentId := order.agentId
        symbol := String.ofList symbol
        side := order.side
        qty := order.qty.toRat
        orderType := order.orderType
        orderClass := order.orderClass
        timeInForce := order.timeInForce
        state := order.state
        createdAt := order.createdAt.instant
        limitPrice := order.limitPrice.map FiniteDecimal.toRat
        stopPrice := order.stopPrice.map FiniteDecimal.toRat
        trailPercent := order.trailPercent.map FiniteDecimal.toRat
        brokerOrderId := brokerOrderId
        legs := legs
        submittedAt := order.submittedAt.map DateTime.instant
        filledAt := order.filledAt.map DateTime.instant
        filledQty := order.filledQty.toRat
        filledAvgPrice := order.filledAvgPrice.map FiniteDecimal.toRat
        rejectionReason := rejectionReason
        isLetf := order.isLetf
        letfEntryDate := order.letfEntryDate.map CivilDate.date }
  | _, _, _, _ => none

/-- The parts of the model's order. -/
theorem of_order? {order : PyOrder} {o : Order} (h : order.order? = some o) :
    ∃ symbol brokerOrderId legs rejectionReason, order.symbol.toText? = some symbol ∧
      text? order.brokerOrderId = some brokerOrderId ∧ order.legs.mapM leg? = some legs ∧
      text? order.rejectionReason = some rejectionReason ∧
      o = ⟨order.id.value, order.intentId.value, order.agentId, String.ofList symbol, order.side,
        order.qty.toRat, order.orderType, order.orderClass, order.timeInForce, order.state,
        order.createdAt.instant, order.limitPrice.map FiniteDecimal.toRat,
        order.stopPrice.map FiniteDecimal.toRat, order.trailPercent.map FiniteDecimal.toRat,
        brokerOrderId, legs, order.submittedAt.map DateTime.instant,
        order.filledAt.map DateTime.instant, order.filledQty.toRat,
        order.filledAvgPrice.map FiniteDecimal.toRat, rejectionReason, order.isLetf,
        order.letfEntryDate.map CivilDate.date⟩ := by
  rw [order?] at h
  split at h
  · next symbol brokerOrderId legs rejectionReason hsymbol hbroker hlegs hreason =>
    exact ⟨symbol, brokerOrderId, legs, rejectionReason, hsymbol, hbroker, hlegs, hreason,
      (Option.some.inj h).symm⟩
  · cases h

/-- **The log of the model is the log of the program**: what is read back is the model's payload
of the order, decoded. -/
theorem bind_order?_reload (ff : FloatFormat F) (tables : UnicodeTables) {order : PyOrder}
    {o : Order} (h : order.order? = some o) :
    (order.reload ff tables).bind order? = some (deserializeOrder (serializeOrder o)) := by
  obtain ⟨symbol, brokerOrderId, legs, rejectionReason, hsymbol, -, -, -, rfl⟩ := of_order? h
  have hjoined : order.symbol.joined = order.symbol := by
    rw [Str.joined_eq_self_iff, Str.toText?_eq_some hsymbol]
    exact Str.apart_map_scalar symbol
  have hwritten : order.written.kept.symbol.toText? = some symbol := by
    show order.symbol.joined.toText? = some symbol
    rw [hjoined, hsymbol]
  rw [reload_eq, Option.bind_some, order?, hwritten]
  simp [kept, written, text?, DateTime.instant, DateTime.fixed,
    deserializeOrder, serializeOrder]

end PyOrder

/-! ### The planner's orders -/

section Planned

variable {p p' : ExecutionPlanner} {ledger : LotLedger} {settings : SizingSettings}
  {intent : Intent} {agentState : AgentState} {snapshot : MarketSnapshot} {orderId : OrderId}
  {now : Time} {o : Order}

/-- Every order of the planner is made for an intent: nothing but its legs can be lost. -/
theorem exists_orderFor (h : p.plan ledger settings intent agentState snapshot orderId now =
    .ok (p', .ok o)) :
    ∃ intent' sized, o = ExecutionPlanner.orderFor intent' sized orderId now := by
  have hmap : ∀ {gross : Except MasterCapabilityError Decimal}
      {f : Decimal → ExecutionPlanner × PlanResult}, gross.map f = .ok (p', .ok o) →
      ∃ g, f g = (p', .ok o) := by
    intro gross f hf
    cases gross with
    | error e => cases hf
    | ok g => exact ⟨g, Except.ok.inj hf⟩
  rw [ExecutionPlanner.plan] at h
  split_ifs at h with hexit hnone
  · rw [ExecutionPlanner.planClose] at h
    dsimp only at h
    split_ifs at h with hflat
    · exact absurd (Except.ok.inj h) (p.reject_ne _ _ _)
    · split at h
      · exact absurd (Except.ok.inj h) (p.reject_ne _ _ _)
      · split_ifs at h with hsmall
        · exact absurd (Except.ok.inj h) (p.reject_ne _ _ _)
        · obtain ⟨g, hg⟩ := hmap h
          exact ⟨_, _, ExecutionPlanner.eq_of_accept hg⟩
  · exact absurd (Except.ok.inj h) (p.reject_ne _ _ _)
  · obtain ⟨g, hg⟩ := hmap h
    dsimp only at hg
    split at hg
    · exact absurd hg (p.reject_ne _ _ _)
    · exact ⟨_, _, ExecutionPlanner.eq_of_accept hg⟩

/-- **A planned order survives the log if and only if it has no legs.** -/
theorem survives_planned_iff (ff : FloatFormat F) (tables : UnicodeTables) {order : PyOrder}
    (h : p.plan ledger settings intent agentState snapshot orderId now = .ok (p', .ok o))
    (horder : order.order? = some o)
    (hcreated : order.createdAt.offset = order.createdAt.otherOffset) :
    order.Survives ff tables ↔ o.legs = [] := by
  obtain ⟨intent', sized, ho⟩ := exists_orderFor h
  obtain ⟨symbol, brokerOrderId, legs, rejectionReason, hsymbol, hbroker, hlegs, hreason, rfl⟩ :=
    PyOrder.of_order? horder
  have hapart : order.symbol.Apart := by
    rw [Str.toText?_eq_some hsymbol]
    exact Str.apart_map_scalar symbol
  obtain ⟨-, -, -, -, -, -, -, -, -, -, -, -, -, htrail, hbroker', -, hsubmitted, hfilled, hqty,
    hprice, hreason', -, hdate⟩ := Order.mk.inj ho
  have htext : ∀ {s : Option Str}, PyOrder.text? s = some none → s = none := by
    intro s hs
    cases s with
    | none => rfl
    | some s =>
      obtain ⟨cs, -, hcs⟩ := Option.map_eq_some_iff.mp hs
      cases hcs
  have hnil : order.legs = [] ↔ legs = [] := by
    cases hcases : order.legs with
    | nil =>
      rw [hcases] at hlegs
      obtain rfl : [] = legs := Option.some.inj hlegs
      exact iff_of_true rfl rfl
    | cons leg rest =>
      rw [hcases, List.mapM_cons] at hlegs
      obtain ⟨leg', -, hrest⟩ := Option.bind_eq_some_iff.mp hlegs
      obtain ⟨rest', -, heq⟩ := Option.bind_eq_some_iff.mp hrest
      obtain rfl : leg' :: rest' = legs := Option.some.inj heq
      exact iff_of_false (List.cons_ne_nil _ _) (List.cons_ne_nil _ _)
  rw [PyOrder.survives_iff_same, PyOrder.same_kept_iff]
  constructor
  · rintro ⟨-, -, hlost⟩
    exact hnil.mp hlost.legs
  · intro hnone
    exact ⟨hapart, hcreated, Option.map_eq_none_iff.mp htrail, htext (hbroker' ▸ hbroker),
      hnil.mpr hnone, Option.map_eq_none_iff.mp hsubmitted, Option.map_eq_none_iff.mp hfilled, hqty,
      Option.map_eq_none_iff.mp hprice, htext (hreason' ▸ hreason),
      Option.map_eq_none_iff.mp hdate⟩

end Planned

end TradingPlatform
