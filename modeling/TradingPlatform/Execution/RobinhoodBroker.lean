import TradingPlatform.Execution.RecoveryCells
import TradingPlatform.Execution.RecoverAgain

/-!
# Looking an order up at Robinhood

Robinhood cannot be asked for an order by our identifier. The adapter fetches the account's
whole list of orders and looks for the identifier in it
(`TradingPlatform.RobinhoodBroker.findOrderByClientId`). It has one answer, none, for two
situations: the list does not have the order, and there is no list – the call failed, the
response has no orders in it, or trading is not live.

Recovery takes this answer at its word and gives the order up. So it gives up no order that the
broker holds exactly when the list was obtained for every order that is open in the log
(`TradingPlatform.RobinhoodBroker.losesNoOrder_iff`).
-/

namespace TradingPlatform

/-! ### Responses -/

/-- A decoded response. Numbers and containers come with the text that `str` makes of them. -/
inductive Json
  | null
  | bool (value : Bool)
  | num (text : String)
  | str (text : String)
  | arr (text : String) (items : List Json)
  | obj (text : String) (fields : List (String × Json))

/-- The value of a run of decimal digits. -/
def digitsValue (digits : List Char) : ℕ :=
  digits.foldl (fun value c => 10 * value + (c.toNat - '0'.toNat)) 0

/-- An optional sign, and what follows it. -/
def splitSign : List Char → ℤ × List Char
  | '-' :: cs => (-1, cs)
  | '+' :: cs => (1, cs)
  | cs => (1, cs)

/-- The decimal a numeral stands for: a sign, digits with an optional point, an optional
exponent. The infinities and the undefined values, which are no quantities, are left out. -/
def decimalOfString (text : String) : Option Decimal :=
  let (sign, cs) := splitSign
    ((text.toList.dropWhile Char.isWhitespace).rdropWhile Char.isWhitespace)
  let (whole, cs) := cs.span Char.isDigit
  let (fraction, cs) := match cs with
    | '.' :: cs => cs.span Char.isDigit
    | cs => ([], cs)
  let value : Decimal := sign * digitsValue (whole ++ fraction) / 10 ^ fraction.length
  if whole ++ fraction = [] then none
  else
    match cs with
    | [] => some value
    | e :: cs =>
      let (expSign, exponent) := splitSign cs
      if e.toLower = 'e' ∧ exponent ≠ [] ∧ exponent.all Char.isDigit then
        some (value * (10 : Decimal) ^ (expSign * digitsValue exponent))
      else none

namespace Json

/-- The text of a value. -/
def text : Json → String
  | null => "None"
  | bool true => "True"
  | bool false => "False"
  | num text | str text | arr text _ | obj text _ => text

/-- The decimal a value stands for, zero if it stands for none. -/
def decimal (value : Json) : Decimal := (decimalOfString value.text).getD 0

def truthy : Json → Bool
  | null => false
  | bool value => value
  | num text => decimalOfString text ≠ some 0
  | str text => text ≠ ""
  | arr _ items => ¬items.isEmpty
  | obj _ fields => ¬fields.isEmpty

/-- The first value, unless it counts as absent. -/
def orElse (value other : Json) : Json := if value.truthy then value else other

end Json

/-- A field of a record, or a default. -/
def getField (fields : List (String × Json)) (key : String) (default : Json := .null) : Json :=
  (fields.lookup key).getD default

/-- Unwrap the envelope of a response, if it has one. -/
def responseData : Json → List (String × Json)
  | .obj _ fields =>
    match getField fields "data" with
    | .obj _ inner => inner
    | _ => fields
  | _ => []

/-- A list in the data of a response, if there is one under the key. -/
def dataList? (resp : Json) (key : String) : Option (List Json) :=
  match getField (responseData resp) key with
  | .arr _ items => some items
  | _ => none

/-- A list in the data of a response, empty if there is none. -/
def dataList (resp : Json) (key : String) : List Json := (dataList? resp key).getD []

/-! ### The adapter -/

/-- Robinhood's vocabulary for the state of an order. -/
def rhStateMap (state : String) : BrokerOrderState :=
  match state with
  | "new" | "queued" | "unconfirmed" => .new
  | "confirmed" => .accepted
  | "partially_filled" => .partiallyFilled
  | "filled" => .filled
  | "cancelled" | "voided" | "canceled" => .canceled
  | "rejected" | "failed" => .rejected
  | _ => .unknown

/-- What the translation of a record takes from outside: the time, the reading of a timestamp,
and an identifier for a record that has none of ours. -/
structure Translation where
  now : Time
  fromIsoFormat : String → Option Time
  freshId : OrderId

def Translation.parseTs (t : Translation) (value : Json) : Option Time :=
  if value.truthy then t.fromIsoFormat (value.text.replace "Z" "+00:00") else none

/-- One of our identifiers, or a fresh one if the value does not read as one. -/
def Translation.toUuid (t : Translation) (value : Json) : OrderId :=
  let digits := value.text.toList
  if digits ≠ [] ∧ digits.all Char.isDigit then digitsValue digits else t.freshId

/-- How a call of a tool came out. -/
inductive ToolCall
  | raised
  | returned (resp : Json)

structure RobinhoodBroker where
  live : Bool
  /-- Whether there is a client to call tools with. -/
  hasClient : Bool

namespace RobinhoodBroker

def translateOrder (t : Translation) (o : List (String × Json)) : BrokerOrderStatus where
  brokerOrderId := (getField o "id" (.str "")).text
  clientOrderId := t.toUuid (getField o "ref_id")
  symbol := (getField o "symbol" (.str "")).text
  side := if (getField o "side" (.str "buy")).text.toLower = "buy" then .buy else .sell
  qty := (getField o "quantity").decimal
  filledQty := ((getField o "cumulative_quantity").orElse (getField o "filled_quantity")).decimal
  avgFillPrice :=
    let price := (getField o "average_price").decimal
    if price = 0 then none else some price
  state := rhStateMap (getField o "state" (.str "")).text.toLower
  submittedAt := (t.parseTs (getField o "created_at")).getD t.now
  updatedAt :=
    (t.parseTs ((getField o "last_transaction_at").orElse (getField o "updated_at"))).getD t.now
  rejectionReason :=
    match getField o "reject_reason" with
    | .null => none
    | value => some value.text

/-- A record of the list under one of our identifiers. -/
def matchRef (clientOrderId : OrderId) : Json → Option (List (String × Json))
  | .obj _ o =>
    if (getField o "ref_id" (.str "")).text = toString clientOrderId then some o else none
  | _ => none

/-- Scan the account's orders for ours. -/
def findOrderByClientId (rb : RobinhoodBroker) (t : Translation) (clientOrderId : OrderId)
    (call : ToolCall) : Option BrokerOrderStatus :=
  if ¬rb.live ∨ ¬rb.hasClient then none
  else
    match call with
    | .raised => none
    | .returned resp =>
      match resp with
      | .obj .. => ((dataList resp "orders").findSome? (matchRef clientOrderId)).map
          (translateOrder t)
      | _ => none

/-- The list of orders that was obtained, if one was. -/
def orderList (rb : RobinhoodBroker) (call : ToolCall) : Option (List Json) :=
  if rb.live ∧ rb.hasClient then
    match call with
    | .raised => none
    | .returned resp => dataList? resp "orders"
  else none

/-- A list has one of our orders. -/
def Lists (orders : List Json) (clientOrderId : OrderId) : Prop :=
  ∃ o ∈ orders, (matchRef clientOrderId o).isSome

/-- **What no answer means**: no list, or a list without the order. -/
theorem findOrderByClientId_eq_none_iff (rb : RobinhoodBroker) (t : Translation)
    (clientOrderId : OrderId) (call : ToolCall) :
    rb.findOrderByClientId t clientOrderId call = none ↔
      ∀ orders, rb.orderList call = some orders → ¬Lists orders clientOrderId := by
  have hscan : ∀ orders : List Json,
      (orders.findSome? (matchRef clientOrderId)).map (translateOrder t) = none ↔
        ¬Lists orders clientOrderId := by
    intro orders
    rw [Option.map_eq_none_iff, List.findSome?_eq_none_iff, Lists]
    simp only [not_exists, not_and, Bool.not_eq_true, Option.isSome_eq_false_iff,
      Option.isNone_iff_eq_none]
  unfold findOrderByClientId orderList
  by_cases hlive : rb.live ∧ rb.hasClient
  · rw [if_pos hlive, if_neg (by simp [hlive])]
    rcases call with _ | resp
    · exact iff_of_true rfl (by rintro _ ⟨⟩)
    · dsimp only
      cases resp with
      | obj text fields =>
        rw [hscan, dataList]
        rcases dataList? (.obj text fields) "orders" with _ | orders
        · refine iff_of_true ?_ (by rintro _ ⟨⟩)
          rintro ⟨_, ho, -⟩
          exact List.not_mem_nil ho
        · simp
      | null | bool | num | str | arr => exact iff_of_true rfl (by rintro _ ⟨⟩)
  · rw [if_neg hlive, if_pos (not_and_or.mp hlive)]
    exact iff_of_true rfl (by rintro _ ⟨⟩)

/-! ### Recovery -/

/-- What a recovery draws from outside: one call of the tool for each order it asks about. -/
structure Lookups where
  calls : OrderId → ToolCall
  translation : Translation
  fillId : OrderId → FillId

/-- The environment of a recovery at Robinhood. -/
def recoveryEnv (rb : RobinhoodBroker) (lookups : Lookups) : RecoveryEnv where
  findOrderByClientId k := rb.findOrderByClientId lookups.translation k (lookups.calls k)
  fillId := lookups.fillId
  now := lookups.translation.now

/-- An order is given up. -/
def Abandons (log : List LoggedEvent) (k : OrderId) : Prop :=
  ∃ reason ts, ⟨.reconcileAbandoned reason, k, ts⟩ ∈ log

/-- **Recovery gives up no order the broker holds**: it gives up an order only if the list of
orders was obtained and does not have it. -/
def LosesNoOrder (rb : RobinhoodBroker) (lookups : Lookups) (held : OrderId → Prop)
    (log : List LoggedEvent) : Prop :=
  ∃ s summary appended, (Oms.reboot log).recover (rb.recoveryEnv lookups) = some (s, summary) ∧
    s.store = log ++ appended ∧
    (∀ k, held k → ¬Abandons appended k) ∧
    ∀ k, Abandons appended k → ∃ orders, rb.orderList (lookups.calls k) = some orders ∧
      ¬Lists orders k

section

variable {env : RecoveryEnv} {k : OrderId} {cell : Cell}

theorem abandons_append {log log' : List LoggedEvent} :
    Abandons (log ++ log') k ↔ Abandons log k ∨ Abandons log' k := by
  simp only [Abandons, List.mem_append, exists_or]

theorem abandons_andThen {effect : Cell.Effect} {action : Cell → Cell.Effect} :
    Abandons (effect.andThen action).2 k ↔ Abandons effect.2 k ∨ Abandons (action effect.1).2 k :=
  abandons_append

theorem not_abandons_nil : ¬Abandons [] k := by
  rintro ⟨_, _, he⟩
  exact List.not_mem_nil he

theorem not_abandons_singleton {e : LoggedEvent}
    (h : ∀ reason, e.kind ≠ .reconcileAbandoned reason) :
    ¬Abandons [e] k := by
  rintro ⟨reason, ts, he⟩
  exact h reason (congrArg LoggedEvent.kind (List.mem_singleton.mp he)).symm

/-- Catching up gives nothing up. -/
theorem not_abandons_catchUp (broker : BrokerOrderStatus) (fillId : FillId) (ts : Time) :
    ¬Abandons (cell.catchUp k broker fillId ts).2 k := by
  have hnil : ¬Abandons [] k := not_abandons_nil
  have hclosing : ∀ (c : Cell) kind update event, (∀ reason, kind ≠ .reconcileAbandoned reason) →
      ¬Abandons (c.handleClosing k kind update event ts).2 k := by
    intro c kind update event hkind
    rw [Cell.handleClosing]
    split_ifs
    · exact hnil
    · exact not_abandons_singleton hkind
  simp only [Cell.catchUp, abandons_andThen, abandons_append, not_or]
  refine ⟨⟨⟨?_, ?_⟩, ?_⟩, ?_⟩
  · rw [Cell.acknowledge]
    split_ifs
    · exact not_abandons_singleton (by rintro _ ⟨⟩)
    · exact hnil
  · rw [Cell.fillUp]
    split_ifs
    · exact not_abandons_singleton (by rintro _ ⟨⟩)
    · exact hnil
  · unfold Cell.catchUpTerminal
    cases broker.state with
    | canceled | rejected | expired => exact hclosing _ _ _ _ (by rintro _ ⟨⟩)
    | filled =>
      dsimp only [Cell.forceCloseFilled]
      split_ifs <;> exact hnil
    | new | accepted | partiallyFilled | unknown => exact hnil
  · refine not_abandons_singleton fun reason => ?_
    dsimp only
    split_ifs <;> rintro ⟨⟩

/-- **An order is given up exactly if it is open and there is no answer about it.** -/
theorem abandons_reconcile_iff :
    Abandons (cell.reconcile env k).2 k ↔
      cell.order.state.Open ∧ env.findOrderByClientId k = none := by
  rw [OrderState.open_iff_not_terminal, Cell.reconcile]
  by_cases ht : cell.order.state.Terminal
  · rw [if_pos ht]
    exact iff_of_false not_abandons_nil fun h => h.1 ht
  rw [if_neg ht]
  rcases env.findOrderByClientId k with _ | broker
  · exact iff_of_true ⟨_, _, List.mem_append_left _ List.mem_cons_self⟩ ⟨ht, rfl⟩
  · refine iff_of_false ?_ fun h => absurd h.2 (Option.some_ne_none _)
    dsimp only
    split_ifs
    · exact not_abandons_singleton (by rintro _ ⟨⟩)
    · exact not_abandons_catchUp _ _ _

end

/-- The orders a recovery gives up. -/
theorem exists_recover {log : List LoggedEvent} (hlog : ((Oms.reboot log).replayLog).isSome)
    (env : RecoveryEnv) :
    ∃ r, (Oms.reboot log).recover env = some r ∧ ∃ appended, r.1.store = log ++ appended ∧
      ∀ k, Abandons appended k ↔ ∃ cell, Book.replayCell k log none = some cell ∧
        cell.order.state.Open ∧ env.findOrderByClientId k = none := by
  obtain ⟨b, hb, hp, hcells⟩ := Oms.exists_book_of_replayLog hlog
  have hp : ({ Oms.reboot log with toBook := b } : Oms).Paired := hp
  refine ⟨_, Oms.recover_reboot hb env, _, (Oms.reconcileOpenOrders_spec env hp).1, fun k => ?_⟩
  constructor
  · rintro ⟨reason, ts, he⟩
    obtain ⟨k', cell, hc, he⟩ := (Oms.mem_flatMap_reconcileLog_iff hp).mp he
    obtain rfl : k = k' := ((Oms.reconcileOpenOrder_actsOn hp hc env).about _ he).1
    exact ⟨cell, hcells k ▸ hc, abandons_reconcile_iff.mp ⟨reason, ts, he⟩⟩
  · rintro ⟨cell, hc, hopen⟩
    obtain ⟨reason, ts, he⟩ := abandons_reconcile_iff.mpr hopen
    exact ⟨reason, ts, (Oms.mem_flatMap_reconcileLog_iff hp).mpr
      ⟨k, cell, (hcells k).trans hc, he⟩⟩

/-- **Recovery gives up no order the broker holds exactly when the list of orders was obtained
for every order that is open in the log**: for every log that can be replayed and every outcome
of the calls, if a list that is obtained has every order the broker holds. -/
theorem losesNoOrder_iff {rb : RobinhoodBroker} {lookups : Lookups} {held : OrderId → Prop}
    {log : List LoggedEvent} (hlog : ((Oms.reboot log).replayLog).isSome)
    (hcomplete : ∀ k orders, rb.orderList (lookups.calls k) = some orders →
      ∀ k', held k' → Lists orders k') :
    rb.LosesNoOrder lookups held log ↔
      ∀ k cell, Book.replayCell k log none = some cell → cell.order.state.Open →
        (rb.orderList (lookups.calls k)).isSome := by
  obtain ⟨⟨s, summary⟩, hr, appended, hstore, habandons⟩ :=
    exists_recover hlog (rb.recoveryEnv lookups)
  have hnone : ∀ k, (rb.recoveryEnv lookups).findOrderByClientId k = none ↔ _ := fun k =>
    findOrderByClientId_eq_none_iff rb lookups.translation k (lookups.calls k)
  constructor
  · rintro ⟨t, _, appended', ht, hstore', -, honly⟩ k cell hc hopen
    obtain rfl : s = t := congrArg Prod.fst (Option.some.inj (hr.symm.trans ht))
    obtain rfl : appended = appended' := List.append_cancel_left (hstore.symm.trans hstore')
    by_contra hlist
    have hlist : rb.orderList (lookups.calls k) = none := by simpa using hlist
    have hnothing : ∀ orders, rb.orderList (lookups.calls k) ≠ some orders := by
      rw [hlist]
      rintro _ ⟨⟩
    obtain ⟨orders, horders, -⟩ := honly k ((habandons k).mpr ⟨cell, hc, hopen, (hnone k).mpr
      fun orders horders => absurd horders (hnothing orders)⟩)
    exact hnothing orders horders
  · intro hlists
    have honly : ∀ k, Abandons appended k → ∃ orders,
        rb.orderList (lookups.calls k) = some orders ∧ ¬Lists orders k := by
      intro k hk
      obtain ⟨cell, hc, hopen, hfind⟩ := (habandons k).mp hk
      obtain ⟨orders, horders⟩ := Option.isSome_iff_exists.mp (hlists k cell hc hopen)
      exact ⟨orders, horders, (hnone k).mp hfind orders horders⟩
    refine ⟨s, summary, appended, hr, hstore, fun k hheld hk => ?_, honly⟩
    obtain ⟨orders, horders, hnot⟩ := honly k hk
    exact hnot (hcomplete k orders horders k hheld)

/-- The record of a filled order. -/
def filledRecord : Json :=
  .obj "..." [("id", .str "rh-1"), ("ref_id", .str "1"), ("symbol", .str "AAPL"),
    ("side", .str "buy"), ("quantity", .str "10"), ("cumulative_quantity", .str "10"),
    ("average_price", .str "100.5"), ("state", .str "filled")]

/-- The account's orders, in their envelope. -/
def ordersResponse (orders : List Json) : Json :=
  .obj "..." [("data", .obj "..." [("orders", .arr "..." orders)]), ("guide", .str "...")]

/-- Every call of a recovery comes out the same. -/
def uniform (call : ToolCall) : Lookups where
  calls _ := call
  translation := ⟨5, fun _ => none, 0⟩
  fillId _ := 7

example : translateOrder ⟨5, fun _ => none, 0⟩
      [("ref_id", .str "1"), ("quantity", .str "10"), ("cumulative_quantity", .str "2.50"),
        ("average_price", .null), ("state", .str "PARTIALLY_FILLED")] =
    { brokerOrderId := "", clientOrderId := 1, symbol := "", side := .buy, qty := 10,
      filledQty := 5 / 2, avgFillPrice := none, state := .partiallyFilled, submittedAt := 5,
      updatedAt := 5 } := by
  decide +kernel

/-- An order that was filled and one that never arrived, with the list at hand. -/
theorem losesNoOrder_downRun :
    RobinhoodBroker.LosesNoOrder ⟨true, true⟩
      (uniform (.returned (ordersResponse [filledRecord]))) (· = 1)
      (run Oms.step Oms.empty Oms.downRun).store := by
  refine (losesNoOrder_iff (by decide +kernel) fun k orders horders k' hheld => ?_).mpr
    fun k cell _ _ => rfl
  obtain rfl : [filledRecord] = orders := Option.some.inj horders
  subst hheld
  exact ⟨filledRecord, List.mem_singleton.mpr rfl, by decide +kernel⟩

/-- **A failed call is taken for an order that never arrived**: the order is rejected, although
the broker holds it. -/
theorem not_losesNoOrder_downRun :
    ((Oms.reboot (run Oms.step Oms.empty Oms.downRun).store).replayLog).isSome ∧
      (∀ orders, RobinhoodBroker.orderList ⟨true, true⟩ .raised ≠ some orders) ∧
      ¬RobinhoodBroker.LosesNoOrder ⟨true, true⟩ (uniform .raised) (· = 1)
        (run Oms.step Oms.empty Oms.downRun).store := by
  have habandoned : ((Oms.reboot (run Oms.step Oms.empty Oms.downRun).store).recover
      (RobinhoodBroker.recoveryEnv ⟨true, true⟩ (uniform .raised))).map (fun r =>
        decide (⟨.reconcileAbandoned "broker has no record after recovery", 1, 5⟩ ∈
          r.1.store.drop (run Oms.step Oms.empty Oms.downRun).store.length)) = some true := by
    decide +kernel
  refine ⟨by decide +kernel, by rintro _ ⟨⟩, ?_⟩
  rintro ⟨s, summary, appended, hr, hstore, hheld, -⟩
  rw [hr, Option.map_some, Option.some_inj, decide_eq_true_iff, hstore,
    List.drop_left] at habandoned
  exact hheld 1 rfl ⟨_, _, habandoned⟩

end RobinhoodBroker

end TradingPlatform
