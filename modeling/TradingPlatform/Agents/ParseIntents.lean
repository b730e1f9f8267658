import TradingPlatform.Agents.SleeveAgents
import TradingPlatform.Execution.RecordCodec
import TradingPlatform.Handler
import TradingPlatform.Json.Repr

/-!
# What the agents make of an answer

The language model answers with a text in which there should be a dict with a list of intents. It
can be any text, and the list can hold anything. The three agents look for the dict in the same way
and go through the list in a loop of the same kind: an item that lacks a field or has a wrong value
in it is skipped. What else an item can raise – the decimal of a text that is no number, an
attribute of something that is no dict – the loop does not catch, and with it goes the whole
answer; and the weight, unlike the conviction, is nowhere brought into its range.

`TradingPlatform.Handles` is what a parser should do with an answer, and
`TradingPlatform.handles_iff` says with which answers the four parsers do.

The random identifiers of the intents are left out, and so are the limits of the JSON reader on
nesting and on the digits of an integer.
-/

namespace TradingPlatform

/-! ### Intents -/

def Action.value : Action → String
  | .buy => "buy"
  | .sell => "sell"
  | .rebalanceTo => "rebalance_to"
  | .close => "close"

def Sleeve.value : Sleeve → String
  | .equity => "equity"
  | .crypto => "crypto"
  | .options => "options"

def Action.ofValue (s : Str) : Option Action :=
  enumOf [.buy, .sell, .rebalanceTo, .close] Action.value s

def Sleeve.ofValue (s : Str) : Option Sleeve :=
  enumOf [.equity, .crypto, .options] Sleeve.value s

/-- An intent, with the types of the program. -/
structure PyIntent where
  agentId : AgentId
  symbol : Str
  action : Action
  targetWeight : DecimalValue
  sleeve : Sleeve
  signal : Str
  conviction : ℤ
  rationale : Str
  timestamp : DateTime
  regimeObservation : Str
  deriving DecidableEq

/-- A fraction: a finite decimal from zero to one. -/
def IsFraction (d : DecimalValue) : Prop := ∃ x, d = .finite x ∧ 0 ≤ x.toRat ∧ x.toRat ≤ 1

/-- **The ranges of an intent**: the weight is a fraction of the sleeve's equity, the conviction one
to ten. -/
structure PyIntent.InRange (intent : PyIntent) : Prop where
  targetWeight : IsFraction intent.targetWeight
  conviction : 1 ≤ intent.conviction ∧ intent.conviction ≤ 10

/-! ### Reading an answer -/

variable {F : Type}

/-- What is to be known of the language: its floats, and two tables of characters. -/
structure PyRuntime (F : Type) where
  floats : FloatFormat F
  tables : UnicodeTables
  printable : Char → Bool

/-- What stands from the first brace that opens to the last that closes. -/
def outermost (text : List Char) : Option (List Char) :=
  match text.findIdx? (· = '\x7b'), text.reverse.findIdx? (· = '\x7d') with
  | some start, some back =>
    let stop := text.length - 1 - back
    if start < stop then some ((text.take (stop + 1)).drop start) else none
  | _, _ => none

variable (rt : PyRuntime F)

/-- The value in an answer. -/
def readJson (text : List Char) : Option (JsonValue F) :=
  match loads rt.floats text with
  | some v => some v
  | none => (outermost text).bind (loads rt.floats)

/-- The dict in an answer. -/
def parseJsonObject (text : List Char) : Option (List (Str × JsonValue F)) :=
  match readJson rt text with
  | some (.obj fields) => some fields
  | _ => none

namespace JsonValue

/-- The source's `value.get(key, default)`. -/
def get (v : JsonValue F) (key : String) (default : JsonValue F) : Except PyError (JsonValue F) :=
  match v with
  | .obj fields => .ok ((field? fields key).getD default)
  | .null | .bool _ | .int _ | .float _ | .str _ | .arr _ => .error .attribute

/-- The source's `value[:n]`, item by item. -/
def firstItems (n : ℕ) : JsonValue F → Except PyError (List (JsonValue F))
  | .arr items => .ok (items.take n)
  | .str s => .ok ((s.take n).map fun c => .str [c])
  | .obj _ => .error .key
  | .null | .bool _ | .int _ | .float _ => .error .type

/-- The source's `Decimal(str(value))`. -/
def weight (v : JsonValue F) : Except PyError DecimalValue := v.strToDecimal rt.floats rt.tables

/-- The source's `max(1, min(10, int(value)))`. -/
def conviction (v : JsonValue F) : Except PyError ℤ :=
  (v.toInt rt.floats rt.tables).map fun n => max 1 (min 10 n)

/-- The source's `str(value)`. -/
def pyStr (v : JsonValue F) : Str := v.toStr rt.floats rt.printable

/-- The source's `Action(value)`. -/
def toAction : JsonValue F → Except PyError Action
  | .str s =>
    match Action.ofValue s with
    | some action => .ok action
    | none => .error .value
  | .null | .bool _ | .int _ | .float _ | .arr _ | .obj _ => .error .value

/-- The source's `Sleeve(value)`, with the equity sleeve for a wrong value. -/
def toSleeve : JsonValue F → Sleeve
  | .str s => (Sleeve.ofValue s).getD .equity
  | .null | .bool _ | .int _ | .float _ | .arr _ | .obj _ => .equity

end JsonValue

/-- The exceptions that the loops over the items catch. -/
def Skipped (e : PyError) : Prop := e = .key ∨ e = .value

instance : DecidablePred Skipped := fun e => inferInstanceAs (Decidable (e = .key ∨ e = .value))

/-- The intents of a dict: at most so many items, each skipped if it is malformed. -/
def intentsOf (cap : ℕ) (item : JsonValue F → Except PyError (Option PyIntent))
    (fields : List (Str × JsonValue F)) : Except PyError (List PyIntent) := do
  let intents ← (JsonValue.obj fields).get "intents" (.arr [])
  let items ← intents.firstItems cap
  collect Skipped item items

/-! ### The four parsers -/

namespace HaikuAgent

def maxIntents : ℕ := 4

/-- An item of the list. -/
def itemIntent (timestamp : DateTime) (fields : List (Str × JsonValue F)) (item : JsonValue F) :
    Except PyError (Option PyIntent) := do
  let regime ← (JsonValue.obj fields).get "regime_observation" (.str [])
  let action ← (← item.getItem "action").toAction
  let sleeve ← item.get "sleeve" (.str (Str.ofString "equity"))
  let symbol ← item.getItem "symbol"
  let targetWeight ← (← item.get "target_weight" (.int 0)).weight rt
  let signal ← item.get "signal" (.str [])
  let conviction ← (← item.get "conviction" (.int 5)).conviction rt
  let rationale ← item.get "rationale" (.str [])
  .ok (some
    { agentId := .haiku
      symbol := symbol.pyStr rt
      action
      targetWeight
      sleeve := sleeve.toSleeve
      signal := (signal.pyStr rt).take 140
      conviction
      rationale := (rationale.pyStr rt).take 280
      timestamp
      regimeObservation := (regime.pyStr rt).take 200 })

end HaikuAgent

/-- What a table of the agents says of an action: another action, or that there is nothing to do. -/
def mappedAction (table : List (String × Option String)) (raw : Str) : Option (Option Str) :=
  (table.find? fun row => decide (Str.ofString row.1 = raw)).map fun row =>
    row.2.map Str.ofString

namespace SonnetAgent

def maxIntents : ℕ := 5

def actionMap : List (String × Option String) :=
  [("trim", some "sell"), ("add", some "buy"), ("rebalance_to", some "rebalance_to"),
    ("exit", some "sell")]

/-- An item of the list. -/
def itemIntent (timestamp : DateTime) (fields : List (Str × JsonValue F)) (item : JsonValue F) :
    Except PyError (Option PyIntent) := do
  let obs ← (JsonValue.obj fields).get "market_observation" (.str [])
  let rawAction := (← item.get "action" (.str (Str.ofString "buy"))).pyStr rt
  let mapped := ((mappedAction actionMap rawAction).getD (some rawAction)).getD rawAction
  let action ← (JsonValue.str mapped : JsonValue F).toAction
  let symbol ← item.getItem "symbol"
  let targetWeight ← (← item.get "target_weight" (.int 0)).weight rt
  let rank ← item.get "factor_score_rank" (.str (Str.ofString "?"))
  let conviction ← (← item.get "conviction" (.int 5)).conviction rt
  let rationale ← item.get "thesis" (← item.get "rationale" (.str []))
  .ok (some
    { agentId := .sonnet
      symbol := symbol.pyStr rt
      action
      targetWeight
      sleeve := .equity
      signal := Str.ofString "factor_rank=" ++ rank.pyStr rt
      conviction
      rationale := (rationale.pyStr rt).take 280
      timestamp
      regimeObservation := (obs.pyStr rt).take 200 })

end SonnetAgent

namespace OpusAgent

inductive Mode
  | management
  | initiation
  deriving DecidableEq

def maxIntents : ℕ := 3

def initiationMaxTargetWeight : FiniteDecimal := ⟨false, 5, -2, by decide⟩

def initiationMaxStarters : ℕ := targetHoldings

def actionMap : List (String × Option String) :=
  [("trim", some "sell"), ("add", some "buy"), ("buy", some "buy"),
    ("rebalance_to", some "rebalance_to"), ("exit", some "sell"), ("sell", some "sell"),
    ("hold", none)]

/-- How many items are read: in initiation mode as many as there are open slots. -/
def intentCap (mode : Mode) (positions : ℕ) : ℕ :=
  match mode with
  | .initiation => min (max 1 (targetHoldings - positions)) initiationMaxStarters
  | .management => maxIntents

/-- The weight of a starter: at most the cap. A decimal that is not a number compares with none. -/
def starterWeight : DecimalValue → Except PyError DecimalValue
  | .finite d =>
    .ok (.finite
      (if initiationMaxTargetWeight.toRat < d.toRat then initiationMaxTargetWeight else d))
  | .infinity false => .ok (.finite initiationMaxTargetWeight)
  | .infinity true => .ok (.infinity true)
  | .nan _ _ _ => .error .invalidOperation

/-- An item of the list. -/
def itemIntent (mode : Mode) (timestamp : DateTime) (fields : List (Str × JsonValue F))
    (item : JsonValue F) : Except PyError (Option PyIntent) := do
  let obs ← (JsonValue.obj fields).get "portfolio_observation" (.str [])
  let rawAction := (← item.get "action" (.str (Str.ofString "buy"))).pyStr rt
  match (mappedAction actionMap rawAction).getD (some rawAction) with
  | none => .ok none
  | some mapped =>
    let action ← (JsonValue.str mapped : JsonValue F).toAction
    let targetWeight ← (← item.get "target_weight" (.int 0)).weight rt
    let conviction ← (← item.get "conviction" (.int 5)).conviction rt
    let starter := decide (mode = .initiation ∧ action = .buy)
    if starter = true ∧ conviction < 7 then .ok none
    else
      let targetWeight ← if starter = true then starterWeight targetWeight else .ok targetWeight
      let symbol ← item.getItem "symbol"
      let signal ← item.get "trigger" (← item.get "thesis_id" (.str []))
      let rationale ← item.get "trigger" (.str [])
      .ok (some
        { agentId := .opus
          symbol := symbol.pyStr rt
          action
          targetWeight
          sleeve := .equity
          signal := (signal.pyStr rt).take 140
          conviction
          rationale := (rationale.pyStr rt).take 280
          timestamp
          regimeObservation := (obs.pyStr rt).take 200 })

/-- The source's `_parse_daily_intents`. -/
def parseDailyIntents (mode : Mode) (positions : ℕ) (timestamp : DateTime) (text : List Char) :
    Except PyError (List PyIntent) :=
  let data := (readJson rt text).getD (.obj [])
  if data.truthy rt.floats = true then
    match data with
    | .obj fields =>
      intentsOf (intentCap mode positions) (itemIntent rt mode timestamp fields) fields
    | _ => .error .attribute
  else .ok []

/-- The intent of an analysis, once its action is known. -/
def diveIntent (timestamp : DateTime) (symbol : Str) (data item : JsonValue F) (mapped : Str) :
    Except PyError (Option PyIntent) := do
  let action ← (JsonValue.str mapped : JsonValue F).toAction
  let conviction ← (← data.get "conviction_new" (.int 7)).conviction rt
  let targetWeight ← (← item.get "target_weight" (.int 0)).weight rt
  let rationale ← item.get "rationale" (.str [])
  let delta ← data.get "delta_since_last" (.str [])
  .ok (some
    { agentId := .opus
      symbol
      action
      targetWeight
      sleeve := .equity
      signal := (Str.ofString "deep_dive:" ++ symbol).take 140
      conviction
      rationale := (rationale.pyStr rt).take 280
      timestamp
      regimeObservation := (delta.pyStr rt).take 200 })

/-- What is made of the dict in the analysis. -/
def extractItem (timestamp : DateTime) (symbol : Str) (data : JsonValue F)
    (item : List (Str × JsonValue F)) : Except PyError (Option PyIntent) :=
  let rawAction := ((JsonValue.field? item "action").getD (.str (Str.ofString "hold"))).pyStr rt
  match (mappedAction actionMap rawAction).getD none with
  | none => .ok none
  | some mapped => orNone Skipped (diveIntent rt timestamp symbol data (.obj item) mapped)

/-- The source's `extract_deep_dive_intent`. -/
def extractDeepDiveIntent (timestamp : DateTime) (symbol : Str) (data : JsonValue F) :
    Except PyError (Option PyIntent) := do
  match ← data.get "intent" .null with
  | .obj item => extractItem rt timestamp symbol data item
  | _ => .ok none

end OpusAgent

/-! ### What a computation of an item comes to -/

section Items

variable {rt}

end Items

/-! ### The items that are handled -/

namespace HaikuAgent

end HaikuAgent

namespace SonnetAgent

end SonnetAgent

namespace OpusAgent

/-- The weight of a starter is in its range once it is capped: a number that is not negative, or
infinity. -/
def IsStarterWeight (d : DecimalValue) : Prop :=
  d = .infinity false ∨ ∃ x, d = .finite x ∧ 0 ≤ x.toRat

/-- What is wanted of the weight and the conviction of an item with an action. A starter of low
conviction is dropped, and so is an item without a symbol, but only after its weight has been
compared with the cap. -/
def Admits (mode : Mode) (action : Action) (fields : List (Str × JsonValue F)) (d : DecimalValue)
    (conviction : ℤ) : Prop :=
  let unnamed := JsonValue.field? fields "symbol" = none
  if mode = .initiation ∧ action = .buy then
    conviction < 7 ∨ IsStarterWeight d ∨ unnamed ∧ ∀ negative signaling payload,
      d ≠ .nan negative signaling payload
  else unnamed ∨ IsFraction d

end OpusAgent

/-! ### The answers that are handled -/

namespace HaikuAgent

end HaikuAgent

namespace SonnetAgent

end SonnetAgent

namespace OpusAgent

end OpusAgent

def plainRuntime : PyRuntime DecimalFloat := ⟨decimalFloats, .ascii, fun _ => true⟩

def someTime : DateTime :=
  .utc ⟨2026, 3, 4, by decide⟩ ⟨16, 0, 0, 0, by decide⟩

/-- The intent of the model, if its weight is a number and its symbol a text. -/
def PyIntent.intent? (intent : PyIntent) (id : IntentId) : Option Intent :=
  match intent.targetWeight, intent.symbol.toText? with
  | .finite d, some symbol =>
    some
      { id
        agentId := intent.agentId
        symbol := String.ofList symbol
        action := intent.action
        targetWeight := d.toRat
        sleeve := intent.sleeve
        conviction := intent.conviction }
  | _, _ => none

/-- **An intent in range is one of the model**, with a weight from zero to one. -/
theorem PyIntent.InRange.exists_intent {intent : PyIntent} (h : intent.InRange) (id : IntentId)
    {symbol : List Char} (hsymbol : intent.symbol.toText? = some symbol) :
    ∃ i, intent.intent? id = some i ∧ (0 ≤ i.targetWeight ∧ i.targetWeight ≤ 1) ∧
      1 ≤ i.conviction ∧ i.conviction ≤ 10 := by
  obtain ⟨d, hweight, hzero, hone⟩ := h.targetWeight
  rw [PyIntent.intent?, hweight, hsymbol]
  exact ⟨_, rfl, ⟨hzero, hone⟩, h.conviction⟩

end TradingPlatform
