import TradingPlatform.Execution.OmsStore
import TradingPlatform.Text.DateTimeText
import TradingPlatform.Text.DecimalText
import TradingPlatform.Text.UuidText

/-!
# The text of a payload

The event log keeps a payload as a JSON text. Decimals, datetimes and UUIDs, which JSON does not
have, are written as objects with one reserved key (`TradingPlatform.PyValue.encode`), and the
reader turns every object with such a key back, from the inside out
(`TradingPlatform.PyValue.decode`).

`TradingPlatform.OmsStore.loads_dumps` is the round trip, for the values that
`TradingPlatform.PyValue.Plain` describes. Two kinds of values are not among them although they
have none of the reserved keys. A string in which the two halves of a surrogate pair stand side by
side comes back with one character in their place. A datetime whose zone reads its local time in
two ways comes back with a fixed distance from UTC, and equals no datetime of another zone then.
-/

namespace TradingPlatform

/-! ### Values -/

/-- The values a payload is made of. -/
inductive PyValue (F : Type)
  | none
  | bool (b : Bool)
  | int (n : ℤ)
  | float (x : PyFloat F)
  | str (s : Str)
  | decimal (d : DecimalValue)
  | datetime (d : DateTime)
  | uuid (u : Uuid)
  | list (items : List (PyValue F))
  | dict (fields : List (Str × PyValue F))

/-- A number that another one may equal: infinities, but no not-a-number. -/
inductive PyNumber
  | finite (q : ℚ)
  | infinity (negative : Bool)
  deriving DecidableEq

variable {F : Type}

namespace PyValue

section Equality

variable (ff : FloatFormat F)

/-- The number of a value. -/
def number? : PyValue F → Option PyNumber
  | .bool b => some (.finite (if b then 1 else 0))
  | .int n => some (.finite n)
  | .float (.finite x) => some (.finite (ff.exact x).toRat)
  | .float (.infinity negative) => some (.infinity negative)
  | .decimal (.finite d) => some (.finite d.toRat)
  | .decimal (.infinity negative) => some (.infinity negative)
  | .none | .float .nan | .str _ | .decimal (.nan ..) | .datetime _ | .uuid _ | .list _ | .dict _ =>
    Option.none

/-- Numbers of any two types are equal if their values are. -/
def numberEq (v w : PyValue F) : Bool :=
  match v.number? ff, w.number? ff with
  | some q, some q' => decide (q = q')
  | _, _ => false

mutual

/-- **The source's `==`.** -/
def pyEq : PyValue F → PyValue F → Bool
  | .none, w => match w with | .none => true | _ => false
  | .bool b, w => numberEq ff (.bool b) w
  | .int n, w => numberEq ff (.int n) w
  | .float x, w => numberEq ff (.float x) w
  | .decimal d, w => numberEq ff (.decimal d) w
  | .str s, w => match w with | .str s' => decide (s = s') | _ => false
  | .datetime d, w => match w with | .datetime d' => decide (d.Same d') | _ => false
  | .uuid u, w => match w with | .uuid u' => decide (u = u') | _ => false
  | .list items, w => match w with | .list items' => pyEqItems items items' | _ => false
  | .dict fields, w =>
    match w with
    | .dict fields' => decide (fields.length = fields'.length) && pyEqFields fields fields'
    | _ => false
termination_by structural v => v

def pyEqItems : List (PyValue F) → List (PyValue F) → Bool
  | [], items => items.isEmpty
  | v :: vs, items => match items with | w :: ws => pyEq v w && pyEqItems vs ws | [] => false
termination_by structural v => v

/-- The fields of a dict, each looked up in another one. -/
def pyEqFields : List (Str × PyValue F) → List (Str × PyValue F) → Bool
  | [], _ => true
  | field :: fields, fields' => pyEqField field fields' && pyEqFields fields fields'
termination_by structural fields => fields

def pyEqField : Str × PyValue F → List (Str × PyValue F) → Bool
  | (key, v), fields => match fields.lookup key with | some w => pyEq v w | Option.none => false
termination_by structural field => field

end

end Equality

/-! ### The encoder -/

/-- An object with one reserved key. -/
def tagged (tag : String) (text : List Char) : JsonValue F :=
  .obj [(Str.ofString tag, .str (text.map .scalar))]

mutual

/-- The source's `_Encoder`: what its `default` gives is encoded in turn. -/
def encode : PyValue F → JsonValue F
  | .none => .null
  | .bool b => .bool b
  | .int n => .int n
  | .float x => .float x
  | .str s => .str s
  | .decimal d => tagged "__decimal__" d.text
  | .datetime d => tagged "__datetime__" d.isoformat
  | .uuid u => tagged "__uuid__" u.text
  | .list items => .arr (encodeItems items)
  | .dict fields => .obj (encodeFields fields)

def encodeItems : List (PyValue F) → List (JsonValue F)
  | [] => []
  | v :: vs => encode v :: encodeItems vs

def encodeFields : List (Str × PyValue F) → List (Str × JsonValue F)
  | [] => []
  | field :: fields => encodeField field :: encodeFields fields

def encodeField : Str × PyValue F → Str × JsonValue F
  | (key, v) => (key, encode v)

end

theorem encode_str (s : Str) : encode (.str s : PyValue F) = .str s := by rw [encode]

theorem encode_dict (fields : List (Str × PyValue F)) :
    encode (.dict fields) = .obj (encodeFields fields) := by rw [encode]

/-! ### The decoder -/

section Decoder

variable (tables : UnicodeTables)

/-- The source's `Decimal` of a value: of a text, of an integer or of a decimal. Nothing else is
written under the key of a decimal. -/
def decimalOf : PyValue F → Option DecimalValue
  | .str s => decimalOfText tables s
  | .int n => finiteOf (decide (n < 0)) n.natAbs 0
  | .bool b => finiteOf false (if b then 1 else 0) 0
  | .decimal d => some d
  | .none | .float _ | .datetime _ | .uuid _ | .list _ | .dict _ => Option.none

def datetimeOf : PyValue F → Option DateTime
  | .str s => DateTime.fromisoformat s
  | _ => Option.none

def uuidOf : PyValue F → Option Uuid
  | .str s => uuidOfText tables s
  | _ => Option.none

/-- The source's `_decode_hook`: nothing if it raises. -/
def decodeHook (fields : List (Str × PyValue F)) : Option (PyValue F) :=
  match fields.lookup (Str.ofString "__decimal__"), fields.lookup (Str.ofString "__datetime__"),
    fields.lookup (Str.ofString "__uuid__") with
  | some v, _, _ => (decimalOf tables v).map .decimal
  | Option.none, some v, _ => (datetimeOf v).map .datetime
  | Option.none, Option.none, some v => (uuidOf tables v).map .uuid
  | Option.none, Option.none, Option.none => some (.dict fields)

mutual

/-- A value of a text, with the hook applied to every object after its fields. -/
def decode : JsonValue F → Option (PyValue F)
  | .null => some .none
  | .bool b => some (.bool b)
  | .int n => some (.int n)
  | .float x => some (.float x)
  | .str s => some (.str s)
  | .arr items => (decodeItems items).map .list
  | .obj fields => (decodeFields fields).bind (decodeHook tables)

def decodeItems : List (JsonValue F) → Option (List (PyValue F))
  | [] => some []
  | v :: vs => (decode v).bind fun w => (decodeItems vs).map (w :: ·)

def decodeFields : List (Str × JsonValue F) → Option (List (Str × PyValue F))
  | [] => some []
  | field :: fields => (decodeField field).bind fun f => (decodeFields fields).map (f :: ·)

def decodeField : Str × JsonValue F → Option (Str × PyValue F)
  | (key, v) => (decode v).map fun w => (key, w)

end

end Decoder

/-! ### The values that come back -/

def reservedKeys : List Str :=
  [Str.ofString "__decimal__", Str.ofString "__datetime__", Str.ofString "__uuid__"]

/-- **A payload value**: finite decimals, no floats, no reserved keys – and strings without a pair
of surrogates that stands as two, and datetimes that do not depend on how an ambiguous local time
is read. -/
inductive Plain : PyValue F → Prop
  | none : Plain .none
  | bool (b : Bool) : Plain (.bool b)
  | int (n : ℤ) : Plain (.int n)
  | str {s : Str} (h : s.Apart) : Plain (.str s)
  | decimal (d : FiniteDecimal) : Plain (.decimal (.finite d))
  | datetime {d : DateTime} (h : d.offset = d.otherOffset) : Plain (.datetime d)
  | uuid (u : Uuid) : Plain (.uuid u)
  | list {items : List (PyValue F)} (h : ∀ v ∈ items, Plain v) : Plain (.list items)
  | dict {fields : List (Str × PyValue F)} (hkeys : (fields.map Prod.fst).Nodup)
      (hapart : ∀ field ∈ fields, Str.Apart field.1)
      (hreserved : ∀ key ∈ reservedKeys, key ∉ fields.map Prod.fst)
      (h : ∀ field ∈ fields, Plain field.2) : Plain (.dict fields)

/-! ### What the encoder writes can be read -/

theorem encodeItems_eq_map (items : List (PyValue F)) : encodeItems items = items.map encode := by
  induction items with
  | nil => rfl
  | cons v items ih => rw [encodeItems, ih, List.map_cons]

theorem encodeFields_eq_map (fields : List (Str × PyValue F)) :
    encodeFields fields = fields.map encodeField := by
  induction fields with
  | nil => rfl
  | cons field fields ih => rw [encodeFields, ih, List.map_cons]

theorem encodeField_eq (field : Str × PyValue F) :
    encodeField field = (field.1, field.2.encode) := by
  obtain ⟨key, v⟩ := field
  rw [encodeField]

theorem map_fst_encodeField (fields : List (Str × PyValue F)) :
    (fields.map encodeField).map Prod.fst = fields.map Prod.fst := by
  rw [List.map_map]
  refine List.map_congr_left fun field _ => ?_
  rw [Function.comp_apply, encodeField_eq]

theorem proper_tagged (tag : String) (text : List Char) :
    (tagged tag text : JsonValue F).Proper := by
  refine .obj (List.nodup_singleton _) (fun field hfield => ?_) fun field hfield => ?_
  · obtain rfl := List.mem_singleton.mp hfield
    exact Str.apart_map_scalar tag.toList
  · obtain rfl := List.mem_singleton.mp hfield
    exact .str (Str.apart_map_scalar text)

/-- **The text of a payload value denotes what was encoded.** -/
theorem Plain.proper_encode {v : PyValue F} (hv : v.Plain) : v.encode.Proper := by
  induction hv with
  | none => exact .null
  | bool b => exact .bool b
  | int n => exact .int n
  | str h => exact .str h
  | decimal d => exact proper_tagged _ _
  | datetime h => exact proper_tagged _ _
  | uuid u => exact proper_tagged _ _
  | @list items _ ih =>
    rw [encode, encodeItems_eq_map]
    refine .arr fun item hitem => ?_
    obtain ⟨v, hv, rfl⟩ := List.mem_map.mp hitem
    exact ih v hv
  | @dict fields hkeys hapart _ _ ih =>
    rw [encode, encodeFields_eq_map]
    refine .obj (by rw [map_fst_encodeField]; exact hkeys) (fun field hfield => ?_)
      fun field hfield => ?_
    · obtain ⟨field, hmem, rfl⟩ := List.mem_map.mp hfield
      rw [encodeField_eq]
      exact hapart field hmem
    · obtain ⟨field, hmem, rfl⟩ := List.mem_map.mp hfield
      rw [encodeField_eq]
      exact ih field hmem

/-! ### What the encoder writes is decoded -/

section RoundTrip

variable (tables : UnicodeTables)

theorem decode_tagged (tag : String) (text : List Char) :
    decode tables (tagged tag text : JsonValue F) =
      decodeHook tables [(Str.ofString tag, .str (text.map .scalar))] := by
  rw [tagged, decode, decodeFields, decodeField, decode, decodeFields]
  rfl

/-- A dict with one key has no other key. -/
theorem lookup_tagged {key key' : Str} (h : key' ≠ key) (v : PyValue F) :
    [(key, v)].lookup key' = Option.none :=
  lookup_of_notMem (by simpa using h)

theorem decode_decimal (d : FiniteDecimal) :
    decode tables (encode (.decimal (.finite d) : PyValue F)) = some (.decimal (.finite d)) := by
  have hread : decimalOf tables (.str (d.text.map .scalar) : PyValue F) = some (.finite d) :=
    decimalOfText_text tables d
  rw [encode, decode_tagged, decodeHook, List.lookup_cons_self]
  simp only [DecimalValue.text, hread, Option.map_some]

theorem decode_datetime (d : DateTime) :
    decode tables (encode (.datetime d : PyValue F)) = some (.datetime d.fixed) := by
  have hread : datetimeOf (.str (d.isoformat.map .scalar) : PyValue F) = some d.fixed :=
    DateTime.fromisoformat_isoformat d
  have hother : Str.ofString "__decimal__" ≠ Str.ofString "__datetime__" := by decide
  rw [encode, decode_tagged, decodeHook, lookup_tagged hother, List.lookup_cons_self]
  simp only [hread, Option.map_some]

theorem decode_uuid (u : Uuid) :
    decode tables (encode (.uuid u : PyValue F)) = some (.uuid u) := by
  have hread : uuidOf tables (.str (u.text.map .scalar) : PyValue F) = some u :=
    u.uuidOfText_text tables
  have hdecimal : Str.ofString "__decimal__" ≠ Str.ofString "__uuid__" := by decide
  have hdatetime : Str.ofString "__datetime__" ≠ Str.ofString "__uuid__" := by decide
  rw [encode, decode_tagged, decodeHook, lookup_tagged hdecimal, lookup_tagged hdatetime,
    List.lookup_cons_self]
  simp only [hread, Option.map_some]

theorem decodeItems_map {items : List (PyValue F)}
    (h : ∀ v ∈ items, decode tables v.encode = some v) :
    decodeItems tables (items.map encode) = some items := by
  induction items with
  | nil => rfl
  | cons v items ih =>
    rw [List.map_cons, decodeItems, h v List.mem_cons_self, Option.bind_some,
      ih fun w hw => h w (List.mem_cons_of_mem _ hw), Option.map_some]

theorem decodeFields_map {fields : List (Str × PyValue F)}
    (h : ∀ field ∈ fields, decode tables field.2.encode = some field.2) :
    decodeFields tables (fields.map encodeField) = some fields := by
  induction fields with
  | nil => rfl
  | cons field fields ih =>
    have hfield : decodeField tables (encodeField field) = some field := by
      rw [encodeField_eq, decodeField, h field List.mem_cons_self, Option.map_some]
    rw [List.map_cons, decodeFields, hfield, Option.bind_some,
      ih fun g hg => h g (List.mem_cons_of_mem _ hg), Option.map_some]

/-- The hook leaves a dict alone that has none of the reserved keys. -/
theorem decodeHook_dict {fields : List (Str × PyValue F)}
    (h : ∀ key ∈ reservedKeys, key ∉ fields.map Prod.fst) :
    decodeHook tables fields = some (.dict fields) := by
  have hnone : ∀ key ∈ reservedKeys, fields.lookup key = Option.none := fun key hkey =>
    lookup_of_notMem (h key hkey)
  rw [decodeHook, hnone _ (by simp [reservedKeys]), hnone _ (by simp [reservedKeys]),
    hnone _ (by simp [reservedKeys])]

/-- **Decoding undoes encoding**, whatever the nesting. -/
theorem Plain.decode_encode {v : PyValue F} (hv : v.Plain) : decode tables v.encode = some v := by
  induction hv with
  | none => rfl
  | bool b => rfl
  | int n => rfl
  | str h => rfl
  | decimal d => exact decode_decimal tables d
  | @datetime d h =>
    have hfixed : d.fixed = d := by
      obtain ⟨date, time, offset, otherOffset⟩ := d
      obtain rfl : offset = otherOffset := h
      rfl
    rw [decode_datetime, hfixed]
  | uuid u => exact decode_uuid tables u
  | list _ ih =>
    rw [encode, encodeItems_eq_map, decode, decodeItems_map tables ih, Option.map_some]
  | dict _ _ hreserved _ ih =>
    rw [encode, encodeFields_eq_map, decode, decodeFields_map tables ih, Option.bind_some,
      decodeHook_dict tables hreserved]

end RoundTrip

/-! ### A value equals itself -/

section Equality

variable (ff : FloatFormat F)

end Equality

end PyValue

namespace OmsStore

variable (ff : FloatFormat F) (tables : UnicodeTables)

/-- The source's `dumps`. -/
def dumps (v : PyValue F) : List Char := TradingPlatform.dumps ff .compact v.encode

/-- The source's `loads`. -/
def loads (text : List Char) : Option (PyValue F) :=
  (TradingPlatform.loads ff text).bind (PyValue.decode tables)

/-- **Round trip of a payload value**: it is read back as it was. -/
theorem loads_dumps {v : PyValue F} (hv : v.Plain) : loads ff tables (dumps ff v) = some v := by
  rw [loads, dumps, TradingPlatform.loads_dumps ff .compact hv.proper_encode, Option.bind_some,
    hv.decode_encode]

end OmsStore

end TradingPlatform
