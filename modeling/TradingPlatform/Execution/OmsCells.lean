import TradingPlatform.Execution.OmsRecovery

/-!
# What a log rebuilds

A replay touches one order at a time. What the maps hold of an order – the order itself and
its machine – is its *cell* (`TradingPlatform.Cell`), and an event of the log acts on the
cell of the order it is about (`TradingPlatform.LoggedEvent.onCell`) and on no other. Only an
intent makes a cell; every other event rewrites one that is there, and fails otherwise. The
fills accumulate beside the cells: a replay appends the logged fills to the ones the maps
already have, and resets nothing.

`TradingPlatform.Book.Paired.applyLog` says all of this of a whole log and of any maps it is
applied to, empty or not.
-/

namespace TradingPlatform

/-! ### Cells -/

/-- What the maps hold of one order. -/
structure Cell where
  order : Order
  fsm : OrderFsm

/-- Rewrite the order, drive its machine, and put the order where the event leads. -/
def Cell.advance (cell : Cell) (update : Order → Order) (event : OrderEvent) : Cell where
  order := { update cell.order with state := event.target }
  fsm := cell.fsm.after event

namespace LoggedEvent

/-- What an event of the log makes of the cell of its order. -/
def onCell (logged : LoggedEvent) (cell : Option Cell) : Option Cell :=
  match logged.kind with
  | .orderSubmitIntent payload =>
    some (Cell.advance ⟨deserializeOrder payload, buildOrderFsm .pending⟩ id .submit)
  | .orderAccepted brokerOrderId =>
    cell.map (·.advance (fun order =>
      { order with brokerOrderId := some brokerOrderId, submittedAt := some logged.ts }) .accept)
  | .orderRejected reason =>
    cell.map (·.advance (fun order => { order with rejectionReason := reason }) .reject)
  | .fillReceived payload =>
    cell.map fun cell => cell.advance (·.bookFill (deserializeFill payload) logged.ts)
      (cell.order.fillEvent (deserializeFill payload))
  | .orderCancelled _ => cell.map (·.advance id .cancel)
  | .orderExpired => cell.map (·.advance id .expire)
  | .orderCancelRequested _ | .reconcileNoop .. | .reconcileRecovered ..
  | .reconcileAbandoned _ => cell

/-- The fills an event of the log brings to an order. -/
def fillsFor (logged : LoggedEvent) (k : OrderId) : List Fill :=
  match logged.kind with
  | .fillReceived payload => if logged.orderId = k then [deserializeFill payload] else []
  | _ => []

/-- An event that introduces an order. -/
def IsIntent (logged : LoggedEvent) : Prop :=
  match logged.kind with
  | .orderSubmitIntent _ => True
  | _ => False

/-- An event the replay can apply: any event about a known order, and of the others the intents
and the audit records. -/
def Applies (logged : LoggedEvent) (known : Bool) : Prop :=
  match logged.kind with
  | .orderSubmitIntent _ | .orderCancelRequested _ | .reconcileNoop .. | .reconcileRecovered ..
  | .reconcileAbandoned _ => True
  | _ => known

theorem applies_of_known (logged : LoggedEvent) : logged.Applies true := by
  obtain ⟨kind, k, ts⟩ := logged
  cases kind <;> trivial

theorem Applies.mono {logged : LoggedEvent} {known known' : Bool} (h : logged.Applies known)
    (hle : known → known') : logged.Applies known' := by
  obtain ⟨kind, k, ts⟩ := logged
  cases kind <;> first | trivial | exact hle h

/-- An intent makes its cell anew. -/
theorem onCell_of_isIntent {logged : LoggedEvent} (h : logged.IsIntent) (cell cell' : Option Cell) :
    logged.onCell cell = logged.onCell cell' := by
  obtain ⟨kind, k, ts⟩ := logged
  cases kind <;> first | rfl | exact h.elim

/-- Nothing else makes a cell. -/
theorem onCell_none {logged : LoggedEvent} (h : ¬logged.IsIntent) : logged.onCell none = none := by
  obtain ⟨kind, k, ts⟩ := logged
  cases kind <;> first | rfl | exact absurd trivial h

/-- No event removes a cell. -/
theorem isSome_onCell {logged : LoggedEvent} {cell : Cell} :
    (logged.onCell (some cell)).isSome := by
  obtain ⟨kind, k, ts⟩ := logged
  cases kind <;> rfl

theorem isSome_onCell_mono (logged : LoggedEvent) {cell cell' : Option Cell}
    (hle : cell.isSome → cell'.isSome) :
    (logged.onCell cell).isSome → (logged.onCell cell').isSome := by
  by_cases hi : logged.IsIntent
  · rw [onCell_of_isIntent hi cell cell']
    exact id
  · rcases cell with _ | cell
    · rw [onCell_none hi]
      exact fun h => absurd h Bool.false_ne_true
    · obtain ⟨cell', rfl⟩ := Option.isSome_iff_exists.mp (hle rfl)
      exact fun _ => isSome_onCell

theorem Silent.not_isIntent {logged : LoggedEvent} (h : logged.Silent) : ¬logged.IsIntent := by
  obtain ⟨kind, k, ts⟩ := logged
  cases kind <;> first | exact fun hi => hi | exact h.elim

theorem Silent.fillsFor {logged : LoggedEvent} (h : logged.Silent) (k : OrderId) :
    logged.fillsFor k = [] := by
  obtain ⟨kind, k', ts⟩ := logged
  cases kind <;> first | rfl | exact h.elim

theorem fillsFor_fillReceived (payload : FillPayload) (k : OrderId) (ts : Time) :
    (⟨.fillReceived payload, k, ts⟩ : LoggedEvent).fillsFor k = [deserializeFill payload] :=
  if_pos rfl

theorem fillsFor_of_ne {logged : LoggedEvent} {k : OrderId} (h : logged.orderId ≠ k) :
    logged.fillsFor k = [] := by
  obtain ⟨kind, k', ts⟩ := logged
  cases kind <;> first | rfl | exact if_neg h

end LoggedEvent

/-- The fills a log holds for an order. -/
def loggedFills (log : List LoggedEvent) (k : OrderId) : List Fill := log.flatMap (·.fillsFor k)

@[simp] theorem loggedFills_append (log log' : List LoggedEvent) (k : OrderId) :
    loggedFills (log ++ log') k = loggedFills log k ++ loggedFills log' k :=
  List.flatMap_append

theorem loggedFills_singleton (logged : LoggedEvent) (k : OrderId) :
    loggedFills [logged] k = logged.fillsFor k := by
  simp [loggedFills]

/-- Silent events bring no fill. -/
theorem loggedFills_of_silent {log : List LoggedEvent} (h : ∀ e ∈ log, e.Silent) (k : OrderId) :
    loggedFills log k = [] :=
  List.flatMap_eq_nil_iff.mpr fun e he => (h e he).fillsFor k

namespace Book

/-- The cell of an order. -/
def cell (b : Book) (k : OrderId) : Option Cell :=
  match b.orders.get? k, b.fsms.get? k with
  | some order, some fsm => some ⟨order, fsm⟩
  | _, _ => none

/-- The fills of an order, none if it is unknown. -/
def fillsOf (b : Book) (k : OrderId) : List Fill := (b.fillsByOrder.get? k).getD []

/-- Every order has its machine and its fills. -/
structure Paired (b : Book) : Prop where
  fsms_isSome : ∀ k, (b.fsms.get? k).isSome = (b.orders.get? k).isSome
  fills_isSome : ∀ k, (b.fillsByOrder.get? k).isSome = (b.orders.get? k).isSome

theorem paired_empty : Book.empty.Paired := ⟨fun _ => rfl, fun _ => rfl⟩

section

variable {b b' : Book} {k : OrderId}

theorem cell_eq_some_iff {cell : Cell} :
    b.cell k = some cell ↔ b.orders.get? k = some cell.order ∧ b.fsms.get? k = some cell.fsm := by
  obtain ⟨order, fsm⟩ := cell
  rw [Book.cell]
  rcases b.orders.get? k with _ | o <;> rcases b.fsms.get? k with _ | m <;> simp

/-- In paired maps the order is the order of its cell. -/
theorem Paired.get?_orders (hb : b.Paired) (k : OrderId) :
    b.orders.get? k = (b.cell k).map (·.order) := by
  have hk := hb.fsms_isSome k
  rw [Book.cell]
  rcases ho : b.orders.get? k with _ | order <;> rcases hf : b.fsms.get? k with _ | fsm
  · rfl
  · rfl
  · rw [ho, hf] at hk
    exact absurd hk (by simp)
  · rfl

/-- An order without a cell has no fill. -/
theorem Paired.fillsOf_of_cell (hb : b.Paired) (h : b.cell k = none) : b.fillsOf k = [] := by
  have hk := hb.fills_isSome k
  rw [hb.get?_orders, h, Option.map_none, Option.isSome_none, Option.isSome_eq_false_iff,
    Option.isNone_iff_eq_none] at hk
  rw [fillsOf, hk]
  rfl

theorem Paired.mem_keys_fills (hb : b.Paired) (hk : k ∈ b.orders.keys) :
    k ∈ b.fillsByOrder.keys := by
  rw [Dict.mem_keys_iff, ← Option.isSome_iff_exists, hb.fills_isSome]
  exact Option.isSome_iff_exists.mpr (Dict.mem_keys_iff.mp hk)

/-- Books with the same orders have the same fills under an identifier if they list the same. -/
theorem Paired.get?_fillsByOrder (hb : b.Paired) (hb' : b'.Paired) (horders : b'.orders = b.orders)
    (h : b'.fillsOf k = b.fillsOf k) : b'.fillsByOrder.get? k = b.fillsByOrder.get? k := by
  have hsome : (b'.fillsByOrder.get? k).isSome = (b.fillsByOrder.get? k).isSome := by
    rw [hb'.fills_isSome, hb.fills_isSome, horders]
  rw [fillsOf, fillsOf] at h
  rcases hf' : b'.fillsByOrder.get? k with _ | fills' <;>
    rcases hf : b.fillsByOrder.get? k with _ | fills <;> simp_all

/-! ### One event of a replay -/

/-- What advancing a known order does: its cell advances, and nothing else changes. -/
theorem advance_eq_some {cell : Cell} (h : b.cell k = some cell) (update : Order → Order)
    (event : OrderEvent) :
    b.advance k update event = some { b with
      orders := b.orders.set k (cell.advance update event).order
      fsms := b.fsms.set k (cell.advance update event).fsm } := by
  obtain ⟨ho, hf⟩ := cell_eq_some_iff.mp h
  rw [advance, ho, hf]
  rfl

theorem advance_eq_none (h : b.cell k = none) (update : Order → Order) (event : OrderEvent) :
    b.advance k update event = none := by
  unfold advance
  split
  · next order fsm ho hf =>
    have hc : b.cell k = some ⟨order, fsm⟩ := cell_eq_some_iff.mpr ⟨ho, hf⟩
    rw [h] at hc
    cases hc
  · rfl

/-- **What an event does to the maps**: it acts on one cell, appends the fills it brings, and
adds no order where there is one. -/
structure Replays (b b' : Book) (logged : LoggedEvent) : Prop where
  paired : b'.Paired
  cell : ∀ k, b'.cell k = if k = logged.orderId then logged.onCell (b.cell k) else b.cell k
  fillsOf : ∀ k, b'.fillsOf k = b.fillsOf k ++ logged.fillsFor k
  keys : (logged.IsIntent → logged.orderId ∈ b.orders.keys) →
    b'.orders.keys = b.orders.keys ∧ b'.fillsByOrder.keys = b.fillsByOrder.keys

/-- Putting a cell and a list of fills under an identifier. -/
theorem Paired.put (hb : b.Paired) {cell : Cell} {fills : List Fill}
    (ho : ∀ k', b'.orders.get? k' = if k' = k then some cell.order else b.orders.get? k')
    (hf : ∀ k', b'.fsms.get? k' = if k' = k then some cell.fsm else b.fsms.get? k')
    (hfills : ∀ k', b'.fillsByOrder.get? k' = if k' = k then some fills
      else b.fillsByOrder.get? k') :
    b'.Paired ∧ (∀ k', b'.cell k' = if k' = k then some cell else b.cell k') ∧
      ∀ k', b'.fillsOf k' = if k' = k then fills else b.fillsOf k' := by
  refine ⟨⟨fun k' => ?_, fun k' => ?_⟩, fun k' => ?_, fun k' => ?_⟩
  · rw [hf, ho]
    split_ifs
    · rfl
    · exact hb.fsms_isSome k'
  · rw [hfills, ho]
    split_ifs
    · rfl
    · exact hb.fills_isSome k'
  · rw [Book.cell, ho, hf]
    split_ifs <;> rfl
  · rw [Book.fillsOf, hfills]
    split_ifs <;> rfl

/-- An event that advances a known order. -/
theorem Paired.replays_advance (hb : b.Paired) {b₀ : Book} {logged : LoggedEvent}
    {update : Order → Order} {event : OrderEvent} {cell : Cell}
    (hcell : b.cell logged.orderId = some cell) (ho : b₀.orders = b.orders)
    (hf : b₀.fsms = b.fsms)
    (hfills : b₀.fillsByOrder = b.fillsByOrder.set logged.orderId
      (b.fillsOf logged.orderId ++ logged.fillsFor logged.orderId))
    (hon : logged.onCell (some cell) = some (cell.advance update event)) :
    ∃ b', b₀.advance logged.orderId update event = some b' ∧ b.Replays b' logged := by
  have hcell₀ : b₀.cell logged.orderId = some cell := by
    rw [cell_eq_some_iff, ho, hf]
    exact cell_eq_some_iff.mp hcell
  obtain ⟨hpaired, hcells, hall⟩ := @Paired.put b { b₀ with
      orders := b₀.orders.set logged.orderId (cell.advance update event).order
      fsms := b₀.fsms.set logged.orderId (cell.advance update event).fsm } logged.orderId hb
    (cell.advance update event) (b.fillsOf logged.orderId ++ logged.fillsFor logged.orderId)
    (fun k' => by rw [ho, Dict.get?_set]) (fun k' => by rw [hf, Dict.get?_set])
    (fun k' => by rw [hfills, Dict.get?_set])
  have hk : logged.orderId ∈ b.orders.keys := Dict.mem_keys_of_get? (cell_eq_some_iff.mp hcell).1
  refine ⟨_, advance_eq_some hcell₀ update event, hpaired, fun k' => ?_, fun k' => ?_, fun _ => ?_⟩
  · rw [hcells]
    by_cases hk : k' = logged.orderId
    · rw [if_pos hk, if_pos hk, hk, hcell, hon]
    · rw [if_neg hk, if_neg hk]
  · rw [hall]
    by_cases hk : k' = logged.orderId
    · rw [if_pos hk, hk]
    · rw [if_neg hk, LoggedEvent.fillsFor_of_ne (Ne.symm hk), List.append_nil]
  · have hk' := hb.mem_keys_fills hk
    exact ⟨by rw [ho, Dict.keys_set_of_mem _ hk], by rw [hfills, Dict.keys_set_of_mem _ hk']⟩

/-- An event that leaves the maps alone. -/
theorem Paired.replays_refl (hb : b.Paired) {logged : LoggedEvent}
    (hon : logged.onCell (b.cell logged.orderId) = b.cell logged.orderId)
    (hfor : logged.fillsFor logged.orderId = []) : b.Replays b logged where
  paired := hb
  cell k := by
    split_ifs with hk
    · rw [hk, hon]
    · rfl
  fillsOf k := by
    by_cases hk : logged.orderId = k
    · rw [← hk, hfor, List.append_nil]
    · rw [LoggedEvent.fillsFor_of_ne hk, List.append_nil]
  keys _ := ⟨rfl, rfl⟩

/-- The fills of a known order, put back. -/
theorem Paired.set_fillsOf_nil (hb : b.Paired) {cell : Cell} (hcell : b.cell k = some cell) :
    b.fillsByOrder = b.fillsByOrder.set k (b.fillsOf k ++ []) := by
  have hk := hb.fills_isSome k
  rw [(cell_eq_some_iff.mp hcell).1] at hk
  obtain ⟨fills, hfills⟩ := Option.isSome_iff_exists.mp hk
  rw [List.append_nil, fillsOf, hfills]
  exact (Dict.set_eq_self hfills).symm

/-- **What applies can be replayed.** -/
theorem Paired.exists_replays (hb : b.Paired) {logged : LoggedEvent}
    (h : logged.Applies (b.cell logged.orderId).isSome) :
    ∃ b', b.applyLoggedEvent logged = some b' ∧ b.Replays b' logged := by
  obtain ⟨kind, k, ts⟩ := logged
  cases kind with
  | orderSubmitIntent payload =>
    let cell : Cell := ⟨deserializeOrder payload, buildOrderFsm .pending⟩
    obtain ⟨hpaired, hcells, hall⟩ := @Paired.put b { b with
        orders := (b.orders.set k cell.order).set k (cell.advance id .submit).order
        fsms := (b.fsms.set k cell.fsm).set k (cell.advance id .submit).fsm
        fillsByOrder := b.fillsByOrder.set k (b.fillsOf k) } k hb (cell.advance id .submit)
      (b.fillsOf k)
      (fun k' => by rw [Dict.get?_set, Dict.get?_set]; split_ifs <;> rfl)
      (fun k' => by rw [Dict.get?_set, Dict.get?_set]; split_ifs <;> rfl)
      (fun k' => by rw [Dict.get?_set])
    have hcell : ({ b with
        orders := b.orders.set k cell.order
        fsms := b.fsms.set k cell.fsm
        fillsByOrder := b.fillsByOrder.set k (b.fillsOf k) } : Book).cell k = some cell :=
      cell_eq_some_iff.mpr ⟨Dict.get?_set_self _ _ _, Dict.get?_set_self _ _ _⟩
    refine ⟨_, advance_eq_some hcell id .submit, hpaired, fun k' => ?_, fun k' => ?_, fun hk => ?_⟩
    · rw [hcells]
      rfl
    · rw [hall, show LoggedEvent.fillsFor _ k' = [] from rfl, List.append_nil]
      split_ifs with hk
      · rw [hk]
      · rfl
    · have hk : k ∈ b.orders.keys := hk trivial
      have hk' : k ∈ b.fillsByOrder.keys := hb.mem_keys_fills hk
      refine ⟨?_, Dict.keys_set_of_mem _ hk' _⟩
      have hset : k ∈ (b.orders.set k cell.order).keys := Dict.mem_keys_set.mpr (Or.inl rfl)
      exact (Dict.keys_set_of_mem _ hset _).trans (Dict.keys_set_of_mem _ hk _)
  | orderAccepted brokerOrderId =>
    obtain ⟨cell, hcell⟩ := Option.isSome_iff_exists.mp h
    exact hb.replays_advance hcell rfl rfl (hb.set_fillsOf_nil hcell) rfl
  | orderRejected reason =>
    obtain ⟨cell, hcell⟩ := Option.isSome_iff_exists.mp h
    exact hb.replays_advance hcell rfl rfl (hb.set_fillsOf_nil hcell) rfl
  | orderCancelled reason =>
    obtain ⟨cell, hcell⟩ := Option.isSome_iff_exists.mp h
    exact hb.replays_advance hcell rfl rfl (hb.set_fillsOf_nil hcell) rfl
  | orderExpired =>
    obtain ⟨cell, hcell⟩ := Option.isSome_iff_exists.mp h
    exact hb.replays_advance hcell rfl rfl (hb.set_fillsOf_nil hcell) rfl
  | fillReceived payload =>
    obtain ⟨cell, hcell⟩ := Option.isSome_iff_exists.mp h
    have happly : b.applyLoggedEvent ⟨.fillReceived payload, k, ts⟩ =
        { b with
          fillsByOrder := b.fillsByOrder.set k (b.fillsOf k ++ [deserializeFill payload])
          }.advance k (·.bookFill (deserializeFill payload) ts)
            (cell.order.fillEvent (deserializeFill payload)) := by
      simp only [applyLoggedEvent, (cell_eq_some_iff.mp hcell).1]
      rfl
    rw [happly]
    refine hb.replays_advance hcell rfl rfl ?_ rfl
    rw [LoggedEvent.fillsFor_fillReceived]
  | orderCancelRequested _ | reconcileNoop _ _ | reconcileRecovered _ _ | reconcileAbandoned _ =>
    exact ⟨b, rfl, hb.replays_refl rfl rfl⟩

/-- **What can be replayed applies.** -/
theorem Paired.applies (hb : b.Paired) {logged : LoggedEvent}
    (h : b.applyLoggedEvent logged = some b') : logged.Applies (b.cell logged.orderId).isSome := by
  rcases hcell : b.cell logged.orderId with _ | cell
  · obtain ⟨kind, k, ts⟩ := logged
    cases kind with
    | orderAccepted brokerOrderId =>
      have hnone : b.applyLoggedEvent ⟨.orderAccepted brokerOrderId, k, ts⟩ = none :=
        advance_eq_none (b := { b with
          brokerIdToOrder := b.brokerIdToOrder.set brokerOrderId k }) hcell _ _
      exact absurd (h.symm.trans hnone) (Option.some_ne_none _)
    | orderRejected _ | orderCancelled _ | orderExpired =>
      exact absurd (h.symm.trans (advance_eq_none hcell _ _)) (Option.some_ne_none _)
    | fillReceived payload =>
      have ho : b.orders.get? k = none := by
        rw [hb.get?_orders]
        exact congrArg (Option.map _) hcell
      simp only [applyLoggedEvent, ho] at h
      cases h
    | orderSubmitIntent _ | orderCancelRequested _ | reconcileNoop _ _ | reconcileRecovered _ _
    | reconcileAbandoned _ => trivial
  · exact logged.applies_of_known

theorem Paired.replays_of_eq_some (hb : b.Paired) {logged : LoggedEvent}
    (h : b.applyLoggedEvent logged = some b') : b.Replays b' logged := by
  obtain ⟨b'', hb'', hr⟩ := hb.exists_replays (hb.applies h)
  rw [h] at hb''
  exact Option.some.inj hb'' ▸ hr

/-! ### A whole replay -/

theorem applyLog_append (b : Book) (log log' : List LoggedEvent) :
    b.applyLog (log ++ log') = (b.applyLog log).bind (·.applyLog log') := by
  rw [applyLog, List.foldlM_append]
  rfl

/-- What a log makes of a cell. -/
def replayCell (k : OrderId) (log : List LoggedEvent) (cell : Option Cell) : Option Cell :=
  log.foldl (fun cell logged => if k = logged.orderId then logged.onCell cell else cell) cell

theorem replayCell_append (k : OrderId) (log log' : List LoggedEvent) (cell : Option Cell) :
    replayCell k (log ++ log') cell = replayCell k log' (replayCell k log cell) :=
  List.foldl_append

/-- A log makes no cell of an order it does not mention. -/
theorem mem_of_replayCell {k : OrderId} {log : List LoggedEvent} {cell : Cell}
    (h : replayCell k log none = some cell) : k ∈ log.map (·.orderId) := by
  induction log with
  | nil => cases h
  | cons logged log ih =>
    rw [List.map_cons, List.mem_cons]
    by_cases hk : k = logged.orderId
    · exact Or.inl hk
    · rw [replayCell, List.foldl_cons, if_neg hk, ← replayCell] at h
      exact Or.inr (ih h)

/-- **What a replay does**: it replays every cell by itself and appends the logged fills. -/
theorem Paired.applyLog (hb : b.Paired) {log : List LoggedEvent} (h : b.applyLog log = some b') :
    b'.Paired ∧ (∀ k, b'.cell k = replayCell k log (b.cell k)) ∧
      ∀ k, b'.fillsOf k = b.fillsOf k ++ loggedFills log k := by
  induction log generalizing b with
  | nil =>
    obtain rfl : b = b' := Option.some.inj h
    exact ⟨hb, fun k => rfl, fun k => (List.append_nil _).symm⟩
  | cons logged log ih =>
    rw [Book.applyLog, List.foldlM_cons] at h
    obtain ⟨b₁, h₁, h₂⟩ := Option.bind_eq_some_iff.mp h
    have hr := hb.replays_of_eq_some h₁
    obtain ⟨hp, hcell, hfills⟩ := ih hr.paired h₂
    refine ⟨hp, fun k => ?_, fun k => ?_⟩
    · rw [hcell, hr.cell]
      rfl
    · rw [hfills, hr.fillsOf, List.append_assoc]
      rfl

/-- A replay that introduces no order keeps the keys. -/
theorem Paired.keys_applyLog (hb : b.Paired) {log : List LoggedEvent}
    (h : b.applyLog log = some b') (hlog : ∀ e ∈ log, e.IsIntent → e.orderId ∈ b.orders.keys) :
    b'.orders.keys = b.orders.keys ∧ b'.fillsByOrder.keys = b.fillsByOrder.keys := by
  induction log generalizing b with
  | nil =>
    obtain rfl : b = b' := Option.some.inj h
    exact ⟨rfl, rfl⟩
  | cons logged log ih =>
    rw [Book.applyLog, List.foldlM_cons] at h
    obtain ⟨b₁, h₁, h₂⟩ := Option.bind_eq_some_iff.mp h
    have hr := hb.replays_of_eq_some h₁
    obtain ⟨hkeys, hfills⟩ := hr.keys (hlog logged List.mem_cons_self)
    obtain ⟨hkeys', hfills'⟩ := ih hr.paired h₂ fun e he hi =>
      hkeys ▸ hlog e (List.mem_cons_of_mem _ he) hi
    exact ⟨hkeys'.trans hkeys, hfills'.trans hfills⟩

/-- A replay removes no cell. -/
theorem isSome_replayCell {k : OrderId} {log : List LoggedEvent} {cell : Option Cell}
    (h : cell.isSome) : (replayCell k log cell).isSome := by
  induction log generalizing cell with
  | nil => exact h
  | cons e log ih =>
    rw [replayCell, List.foldl_cons, ← replayCell]
    refine ih ?_
    split_ifs
    · obtain ⟨c, rfl⟩ := Option.isSome_iff_exists.mp h
      exact LoggedEvent.isSome_onCell
    · exact h

/-- An intent in the log makes a cell. -/
theorem isSome_replayCell_of_intent {log : List LoggedEvent} {logged : LoggedEvent}
    (hmem : logged ∈ log) (hi : logged.IsIntent) (cell : Option Cell) :
    (replayCell logged.orderId log cell).isSome := by
  induction log generalizing cell with
  | nil => exact absurd hmem List.not_mem_nil
  | cons e log ih =>
    rw [replayCell, List.foldl_cons, ← replayCell]
    rcases List.mem_cons.mp hmem with rfl | hmem
    · refine isSome_replayCell ?_
      rw [if_pos rfl]
      obtain ⟨kind, k, ts⟩ := logged
      cases kind <;> first | rfl | exact hi.elim
    · exact ih hmem _

/-- **Maps that know more can replay what maps that know less can.** -/
theorem Paired.exists_applyLog_of_le (hb : b.Paired) {b₂ : Book} (hb₂ : b₂.Paired)
    (hle : ∀ k, (b.cell k).isSome → (b₂.cell k).isSome) {log : List LoggedEvent}
    (h : b.applyLog log = some b') : ∃ b₂', b₂.applyLog log = some b₂' := by
  induction log generalizing b b₂ with
  | nil => exact ⟨b₂, rfl⟩
  | cons logged log ih =>
    rw [Book.applyLog, List.foldlM_cons] at h
    obtain ⟨b₁, h₁, hrest⟩ := Option.bind_eq_some_iff.mp h
    have hr := hb.replays_of_eq_some h₁
    obtain ⟨b₃, h₃, hr₃⟩ := hb₂.exists_replays ((hb.applies h₁).mono (hle _))
    have hle' : ∀ k, (b₁.cell k).isSome → (b₃.cell k).isSome := by
      intro k
      rw [hr.cell, hr₃.cell]
      split_ifs
      · exact logged.isSome_onCell_mono (hle k)
      · exact hle k
    obtain ⟨b₂', hb₂'⟩ := ih hr.paired hr₃.paired hle' hrest
    refine ⟨b₂', ?_⟩
    rw [Book.applyLog, List.foldlM_cons, h₃]
    exact hb₂'

/-- A cell is what the last intent and what came after it made of it, whatever was there
before. -/
theorem replayCell_of_some {k : OrderId} {log : List LoggedEvent} {cell : Cell}
    (h : replayCell k log none = some cell) (old : Option Cell) :
    replayCell k log old = some cell := by
  induction log generalizing old with
  | nil => cases h
  | cons logged log ih =>
    rw [replayCell, List.foldl_cons, ← replayCell] at h ⊢
    by_cases hk : k = logged.orderId
    · rw [if_pos hk] at h ⊢
      by_cases hi : logged.IsIntent
      · rw [LoggedEvent.onCell_of_isIntent hi old none]
        exact h
      · rw [LoggedEvent.onCell_none hi] at h
        exact ih h _
    · rw [if_neg hk] at h ⊢
      exact ih h _

end

end Book

end TradingPlatform
