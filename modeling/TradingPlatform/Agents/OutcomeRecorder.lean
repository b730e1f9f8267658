import TradingPlatform.Execution.ClosedOrders

/-!
# The outcomes the agents remember

An agent logs every intent it emits, and the outcome recorder fills in what became of it. The
recorder hears the event bus: it notes which intent an order comes from, writes `filled` when a
fill arrives that is not marked partial, and writes why an order was closed when its state changes
to rejected, cancelled or expired. An intent that the system could not submit is stamped
`submit_error` by the application.

None of this looks at the state the order is in. A fill that completes an order may be marked
partial, an order may be closed as filled without any fill, a fill may come after the order was
cancelled, and a submission may fail after the broker has closed the order. A step that does none
of this is safe (`TradingPlatform.IntentDesk.Safe`, `TradingPlatform.IntentDesk.Meets`), and in a
run of safe steps every order that is terminal has the outcome that tells how it ended
(`TradingPlatform.IntentDesk.outcome_run`).

What carries the induction is that an order stays with the intent it came with, and that no two
orders come from one intent (`TradingPlatform.IntentDesk.Consistent`). So a write is about one
order.
-/

namespace TradingPlatform

/-! ### The memory -/

/-- The intent log of an agent: the outcome of each intent, once there is one. -/
abbrev AgentMemory := Dict IntentId (Option String)

namespace AgentMemory

/-- Log an intent, unless it is there already. -/
def recordIntent (mem : AgentMemory) (intentId : IntentId) : AgentMemory :=
  if intentId ∈ mem.keys then mem else mem.set intentId none

/-- Set the outcome of an intent that was logged. -/
def recordOutcome (mem : AgentMemory) (intentId : IntentId) (outcome : String) : AgentMemory :=
  mem.modify intentId fun _ => some outcome

end AgentMemory

/-! ### The recorder -/

def maxOutcomeLen : ℕ := 120

/-- What is written about an order that did not fill. -/
def terminalFailureOutcomes : OrderState → Option String
  | .rejected => some "rejected"
  | .cancelled => some "cancelled"
  | .expired => some "expired"
  | .pending | .submitted | .accepted | .partiallyFilled | .filled => none

structure OutcomeRecorder where
  memories : Dict AgentId AgentMemory
  intentIndex : Dict OrderId (IntentId × AgentId)

namespace OutcomeRecorder

/-- The first characters of an outcome. -/
def truncate (outcome : String) : String := String.ofList (outcome.toList.take maxOutcomeLen)

/-- The outcome goes to the agent's memory, if there is one. -/
def write (r : OutcomeRecorder) (intentId : IntentId) (agentId : AgentId) (outcome : String) :
    OutcomeRecorder :=
  { r with
    memories := r.memories.modify agentId fun mem =>
      mem.recordOutcome intentId (truncate outcome) }

/-- The outcome of an intent that never became an order, or could not be submitted. -/
def record (r : OutcomeRecorder) (intentId : IntentId) (agentId : AgentId) (outcome : String) :
    OutcomeRecorder := r.write intentId agentId outcome

/-- The agent logs an intent it emits. -/
def recordIntent (r : OutcomeRecorder) (intentId : IntentId) (agentId : AgentId) :
    OutcomeRecorder :=
  { r with memories := r.memories.modify agentId fun mem => mem.recordIntent intentId }

/-- Take an order off the index. An order that is not on it is asked for. -/
def popRef (r : OutcomeRecorder) (orderId : OrderId) (order : Option Order) :
    Option (IntentId × AgentId) × OutcomeRecorder :=
  ((r.intentIndex.get? orderId).or (order.map fun order => (order.intentId, order.agentId)),
    { r with intentIndex := r.intentIndex.erase orderId })

def onOrderPlaced (r : OutcomeRecorder) (order : Order) : OutcomeRecorder :=
  { r with intentIndex := r.intentIndex.set order.id (order.intentId, order.agentId) }

/-- Only a fill that is not marked partial becomes an outcome. -/
def onFill (r : OutcomeRecorder) (getOrder : OrderId → Option Order) (fill : Fill) :
    OutcomeRecorder :=
  if fill.isPartial then r
  else
    match r.popRef fill.orderId (getOrder fill.orderId) with
    | (none, r) => r
    | (some (intentId, agentId), r) => r.write intentId agentId "filled"

/-- The kind of an ending, with the reason if the order has one. -/
def failureOutcome (kind : String) (order : Option Order) : String :=
  let reason := (order.bind (·.rejectionReason)).getD ""
  if reason = "" then kind else kind ++ ":" ++ reason

def onStateChanged (r : OutcomeRecorder) (getOrder : OrderId → Option Order) (orderId : OrderId)
    (newState : OrderState) : OutcomeRecorder :=
  match terminalFailureOutcomes newState with
  | none => r
  | some kind =>
    match r.popRef orderId (getOrder orderId) with
    | (none, r) => r
    | (some (intentId, agentId), r) =>
      r.write intentId agentId (failureOutcome kind (getOrder orderId))

def onBusEvent (getOrder : OrderId → Option Order) (r : OutcomeRecorder) :
    BusEvent → OutcomeRecorder
  | .orderPlaced order => r.onOrderPlaced order
  | .fillReceived fill => r.onFill getOrder fill
  | .orderStateChanged orderId _ newState _ => r.onStateChanged getOrder orderId newState

/-- What an agent remembers of an intent. -/
def row? (r : OutcomeRecorder) (agentId : AgentId) (intentId : IntentId) :
    Option (Option String) := (r.memories.get? agentId).bind (·.get? intentId)

end OutcomeRecorder

/-! ### The desk -/

/-- The order management system and the recorder that hears it. -/
structure IntentDesk where
  oms : Oms
  recorder : OutcomeRecorder

/-- An intent becomes an order that is submitted, or it does not, or something else happens. -/
inductive IntentOp
  | dispatch (order : Order) (call : SubmitCall) (now : Time)
  | decline (intentId : IntentId) (agentId : AgentId) (outcome : String)
  | operate (op : OmsOp)

namespace IntentDesk

/-- Nothing has happened, and every agent has a memory. -/
def start : IntentDesk where
  oms := .empty
  recorder :=
    { memories := ⟨[(.haiku, .empty), (.sonnet, .empty), (.opus, .empty), (.manager, .empty)],
        by decide⟩
      intentIndex := .empty }

/-- The system is in a new state, and the recorder hears what was published on the way. A handler
publishes after it has written its order, so the recorder, which asks for the order, sees what
the handler leaves. -/
def hear (d : IntentDesk) (oms : Oms) : IntentDesk where
  oms := oms
  recorder := (oms.bus.drop d.oms.bus.length).foldl (.onBusEvent oms.orders.get?) d.recorder

def handle (d : IntentDesk) (h : Oms.Handler) : IntentDesk := d.hear (d.oms.handle h)

/-- An operation of the system, handler by handler. -/
def operate (d : IntentDesk) (op : OmsOp) : IntentDesk := run handle d (d.oms.handlers op)

def recordIntent (d : IntentDesk) (intentId : IntentId) (agentId : AgentId) : IntentDesk :=
  { d with recorder := d.recorder.recordIntent intentId agentId }

def record (d : IntentDesk) (intentId : IntentId) (agentId : AgentId) (outcome : String) :
    IntentDesk :=
  { d with recorder := d.recorder.record intentId agentId outcome }

/-- Log an intent and submit its order. A submission that raises is stamped. -/
def submitOneIntent (d : IntentDesk) (order : Order) (call : SubmitCall) (now : Time) :
    IntentDesk :=
  let d := d.recordIntent order.intentId order.agentId
  match (d.oms.submitOrder order call now).2 with
  | .ok _ => d.operate (.submitOrder order call now)
  | .error _ =>
    (d.operate (.submitOrder order call now)).record order.intentId order.agentId "submit_error"

def step (d : IntentDesk) : IntentOp → IntentDesk
  | .dispatch order call now => d.submitOneIntent order call now
  | .decline intentId agentId outcome =>
    (d.recordIntent intentId agentId).record intentId agentId outcome
  | .operate op => d.operate op

end IntentDesk

/-! ### What an outcome tells -/

/-- **The outcome tells how the order ended**: it is `filled` exactly if the order is filled, and
begins with one of the other endings exactly if the order ended so. -/
def OrderState.Tells (state : OrderState) (outcome : Option String) : Prop :=
  ∃ w, outcome = some w ∧ (w = "filled" ↔ state = .filled) ∧
    ∀ state' kind, terminalFailureOutcomes state' = some kind →
      (kind.toList <+: w.toList ↔ state = state')

/-- Two words that differ in the first letter do not begin one text. -/
theorem head?_eq_of_isPrefix {a b w : List Char} (ha : a <+: w) (hb : b <+: w) (ha' : a ≠ [])
    (hb' : b ≠ []) : a.head? = b.head? := by
  obtain ⟨u, rfl⟩ := ha
  obtain ⟨v, hv⟩ := hb
  rw [← List.head?_append_of_ne_nil _ ha', ← List.head?_append_of_ne_nil b hb', hv]

theorem OrderState.tells_filled : OrderState.filled.Tells (some "filled") := by
  refine ⟨_, rfl, by simp, fun state kind hkind => ?_⟩
  refine iff_of_false (fun hprefix => ?_) fun hc => ?_
  · have hne : kind ≠ "" ∧ kind.toList.head? ≠ "filled".toList.head? := by
      cases state <;> cases hkind <;> decide
    exact hne.2 (head?_eq_of_isPrefix hprefix (List.prefix_refl _) (by simpa using hne.1)
      (by decide))
  · subst hc
    cases hkind

/-- What begins with the kind of an ending tells that ending. -/
theorem OrderState.tells_of_isPrefix {state : OrderState} {kind w : String}
    (hkind : terminalFailureOutcomes state = some kind) (hw : kind.toList <+: w.toList) :
    state.Tells (some w) := by
  have hne : kind ≠ "" ∧ kind.toList.head? ≠ "filled".toList.head? ∧ state ≠ .filled := by
    cases state <;> cases hkind <;> decide
  refine ⟨w, rfl, iff_of_false ?_ hne.2.2, fun state' kind' hkind' => ?_⟩
  · rintro rfl
    exact hne.2.1 (head?_eq_of_isPrefix hw (List.prefix_refl _) (by simpa using hne.1)
      (by decide))
  · constructor
    · intro hw'
      have hhead := head?_eq_of_isPrefix hw hw' (by simpa using hne.1)
        (by cases state' <;> cases hkind' <;> decide)
      revert hhead
      cases state <;> cases hkind <;> cases state' <;> cases hkind' <;> decide
    · rintro rfl
      obtain rfl := Option.some.inj (hkind.symm.trans hkind')
      exact hw

/-- What is written about an ending tells it. -/
theorem OrderState.tells_failureOutcome {state : OrderState} {kind : String}
    (hkind : terminalFailureOutcomes state = some kind) (order : Option Order) :
    state.Tells (some (OutcomeRecorder.truncate (OutcomeRecorder.failureOutcome kind order))) := by
  refine OrderState.tells_of_isPrefix hkind ?_
  have hlen : kind.toList.length ≤ maxOutcomeLen := by
    cases state <;> cases hkind <;> decide
  have hbegin : kind.toList <+: (OutcomeRecorder.failureOutcome kind order).toList := by
    unfold OutcomeRecorder.failureOutcome
    dsimp only
    split_ifs
    · exact List.prefix_refl _
    · rw [String.toList_append, String.toList_append, List.append_assoc]
      exact List.prefix_append _ _
  have htake := hbegin.take maxOutcomeLen
  rw [List.take_of_length_le hlen] at htake
  rwa [OutcomeRecorder.truncate, String.toList_ofList]

/-! ### What the recorder writes -/

namespace OutcomeRecorder

/-- From one state to the other the row of one intent was rewritten, and no order was put on the
index. -/
structure Marks (r r' : OutcomeRecorder) (intentId : IntentId) (agentId : AgentId)
    (f : Option String → Option String) : Prop where
  keys : r'.memories.keys = r.memories.keys
  index : ∀ k ref, r'.intentIndex.get? k = some ref → r.intentIndex.get? k = some ref
  rows : ∀ a i, r'.row? a i =
    if a = agentId ∧ i = intentId then (r.row? a i).map f else r.row? a i

variable {r r' : OutcomeRecorder} {intentId : IntentId} {agentId : AgentId}

theorem marks_id (hkeys : r'.memories.keys = r.memories.keys)
    (hindex : ∀ k ref, r'.intentIndex.get? k = some ref → r.intentIndex.get? k = some ref)
    (hrows : ∀ a i, r'.row? a i = r.row? a i) :
    r.Marks r' intentId agentId id :=
  ⟨hkeys, hindex, fun a i => by rw [hrows, Option.map_id]; exact (ite_self _).symm⟩

theorem marks_write (r : OutcomeRecorder) (intentId : IntentId) (agentId : AgentId)
    (outcome : String) :
    r.Marks (r.write intentId agentId outcome) intentId agentId
      fun _ => some (truncate outcome) := by
  refine ⟨Dict.keys_modify _ _ _, fun _ _ => id, fun a i => ?_⟩
  rw [row?, row?, write, Dict.get?_modify]
  by_cases ha : a = agentId
  · rcases hmem : r.memories.get? a with _ | mem
    · simp
    · by_cases hi : i = intentId <;> simp [ha, hi, AgentMemory.recordOutcome]
  · simp [ha]

/-- What the pop of an order that came with an intent yields, and what it leaves. -/
theorem popRef_spec {k : OrderId} {order : Order}
    (hindex : ∀ ref, r.intentIndex.get? k = some ref → ref = (order.intentId, order.agentId)) :
    ∃ r₁, r.popRef k (some order) = (some (order.intentId, order.agentId), r₁) ∧
      r₁.memories = r.memories ∧
      ∀ k' ref, r₁.intentIndex.get? k' = some ref → r.intentIndex.get? k' = some ref := by
  refine ⟨{ r with intentIndex := r.intentIndex.erase k }, Prod.ext ?_ rfl, rfl, ?_⟩
  · rw [popRef]
    rcases href : r.intentIndex.get? k with _ | ref
    · rfl
    · exact congrArg some (hindex ref href)
  · intro k' ref hk'
    rw [Dict.get?_erase] at hk'
    split_ifs at hk'
    exact hk'

/-- A write after a pop. -/
theorem Marks.of_pop {r₁ : OutcomeRecorder} (hmem : r₁.memories = r.memories)
    (hindex : ∀ k ref, r₁.intentIndex.get? k = some ref → r.intentIndex.get? k = some ref)
    {f : Option String → Option String} (h : r₁.Marks r' intentId agentId f) :
    r.Marks r' intentId agentId f := by
  refine ⟨by rw [h.keys, hmem], fun k ref hk => hindex k ref (h.index k ref hk), fun a i => ?_⟩
  have hrow : r₁.row? a i = r.row? a i := by rw [row?, hmem, row?]
  rw [h.rows, hrow]

section Events

variable {getOrder : OrderId → Option Order} {k : OrderId} {order : Order}

/-- The recorder passes over a change to another state. -/
theorem onBusEvent_of_none (r : OutcomeRecorder) {oldState newState : OrderState} {ts : Time}
    (h : terminalFailureOutcomes newState = none) :
    onBusEvent getOrder r (.orderStateChanged k oldState newState ts) = r := by
  rw [onBusEvent, onStateChanged, h]

/-- An ending is written to the row of the order's intent. -/
theorem marks_onStateChanged
    (hindex : ∀ ref, r.intentIndex.get? k = some ref → ref = (order.intentId, order.agentId))
    (hget : getOrder k = some order) {newState : OrderState} {kind : String}
    (hkind : terminalFailureOutcomes newState = some kind) :
    r.Marks (r.onStateChanged getOrder k newState) order.intentId order.agentId
      fun _ => some (truncate (failureOutcome kind (some order))) := by
  obtain ⟨r₁, hpop, hmem, hindex₁⟩ := popRef_spec hindex
  rw [onStateChanged, hkind, hget]
  dsimp only
  rw [hpop]
  exact (marks_write r₁ _ _ _).of_pop hmem hindex₁

/-- A fill is written to the row of its order's intent, unless it is marked partial. -/
theorem marks_onFill
    (hindex : ∀ ref, r.intentIndex.get? k = some ref → ref = (order.intentId, order.agentId))
    (hget : getOrder k = some order) {fill : Fill} (hfill : fill.orderId = k) :
    r.Marks (r.onFill getOrder fill) order.intentId order.agentId
      (if fill.isPartial then id else fun _ => some "filled") := by
  obtain ⟨r₁, hpop, hmem, hindex₁⟩ := popRef_spec hindex
  rw [onFill]
  split_ifs
  · exact marks_id rfl (fun _ _ => id) fun _ _ => rfl
  · rw [hfill, hget, hpop]
    have hcut : truncate "filled" = "filled" := by decide
    exact hcut ▸ (marks_write r₁ _ _ "filled").of_pop hmem hindex₁

end Events

end OutcomeRecorder

/-! ### The invariant -/

namespace IntentDesk

/-- **An order stays with its intent.** Every agent has a memory, the orders of the index are orders
of the system, no two orders come from one intent, and the row of a terminal order's intent tells
how the order ended. -/
structure Consistent (d : IntentDesk) : Prop where
  wellFormed : d.oms.WellFormed
  remembers : ∀ a, a ∈ d.recorder.memories.keys
  indexed : ∀ k ref, d.recorder.intentIndex.get? k = some ref →
    ∃ order, d.oms.orders.get? k = some order ∧ ref = (order.intentId, order.agentId)
  distinct : ∀ k k' order order', d.oms.orders.get? k = some order →
    d.oms.orders.get? k' = some order' → order.intentId = order'.intentId → k = k'
  tells : ∀ k order, d.oms.orders.get? k = some order → order.state.Terminal →
    ∀ outcome, d.recorder.row? order.agentId order.intentId = some outcome →
      order.state.Tells outcome

/-- From one state to a later one: the orders keep their intents, and the intents their rows. -/
structure Evolves (d d' : IntentDesk) : Prop where
  consistent : d'.Consistent
  keeps : ∀ k order, d.oms.orders.get? k = some order →
    ∃ order', d'.oms.orders.get? k = some order' ∧ order'.intentId = order.intentId ∧
      order'.agentId = order.agentId
  rows : ∀ a i, (d.recorder.row? a i).isSome → (d'.recorder.row? a i).isSome

variable {d d' d'' : IntentDesk}

theorem Consistent.evolves_refl (hd : d.Consistent) : d.Evolves d :=
  ⟨hd, fun _ order ho => ⟨order, ho, rfl, rfl⟩, fun _ _ => id⟩

theorem Evolves.trans (h : d.Evolves d') (h' : d'.Evolves d'') : d.Evolves d'' where
  consistent := h'.consistent
  keeps k order ho := by
    obtain ⟨order', ho', hi, ha⟩ := h.keeps k order ho
    obtain ⟨order'', ho'', hi', ha'⟩ := h'.keeps k order' ho'
    exact ⟨order'', ho'', hi'.trans hi, ha'.trans ha⟩
  rows a i hrow := h'.rows a i (h.rows a i hrow)

theorem consistent_start : start.Consistent where
  wellFormed := .empty
  remembers a := by cases a <;> decide
  indexed _ _ h := absurd h (by simp [start])
  distinct _ _ _ _ h := absurd h (by simp [start, Oms.empty, Book.empty])
  tells _ _ h := absurd h (by simp [start, Oms.empty, Book.empty])

/-- The reference that the index has for an order. -/
theorem Consistent.ref_eq (hd : d.Consistent) {k : OrderId} {order : Order}
    (ho : d.oms.orders.get? k = some order) {ref : IntentId × AgentId}
    (href : d.recorder.intentIndex.get? k = some ref) : ref = (order.intentId, order.agentId) := by
  obtain ⟨order', ho', rfl⟩ := hd.indexed k ref href
  obtain rfl := Option.some.inj (ho.symm.trans ho')
  rfl

theorem marks_isSome {r r' : OutcomeRecorder} {intentId : IntentId} {agentId : AgentId}
    {f : Option String → Option String} (h : r.Marks r' intentId agentId f) (a : AgentId)
    (i : IntentId) : (r'.row? a i).isSome = (r.row? a i).isSome := by
  rw [h.rows]
  split_ifs
  · exact Option.isSome_map
  · rfl

/-- **One order changes, and the row of its intent.** What is left to show is that the row tells
how the order ended, if it has. -/
theorem Consistent.touch (hd : d.Consistent) {k : OrderId} {old new : Order}
    {f : Option String → Option String} (hold : d.oms.orders.get? k = some old)
    (horders : ∀ k', d'.oms.orders.get? k' = if k' = k then some new else d.oms.orders.get? k')
    (hintent : new.intentId = old.intentId) (hagent : new.agentId = old.agentId)
    (hwf : d'.oms.WellFormed) (hmarks : d.recorder.Marks d'.recorder old.intentId old.agentId f)
    (htells : new.state.Terminal → ∀ outcome,
      d.recorder.row? old.agentId old.intentId = some outcome → new.state.Tells (f outcome)) :
    d.Evolves d' := by
  have hkeeps : ∀ k' order, d.oms.orders.get? k' = some order →
      ∃ order', d'.oms.orders.get? k' = some order' ∧ order'.intentId = order.intentId ∧
        order'.agentId = order.agentId := by
    intro k' order ho
    rw [horders]
    by_cases hk : k' = k
    · subst hk
      obtain rfl := Option.some.inj (hold.symm.trans ho)
      exact ⟨new, if_pos rfl, hintent, hagent⟩
    · exact ⟨order, (if_neg hk).trans ho, rfl, rfl⟩
  -- an order of the new state is one of the old, with the same intent
  have hback : ∀ k' order', d'.oms.orders.get? k' = some order' →
      ∃ order, d.oms.orders.get? k' = some order ∧ order'.intentId = order.intentId := by
    intro k' order' ho'
    rw [horders] at ho'
    split_ifs at ho' with hk
    · exact ⟨old, hk ▸ hold, (Option.some.inj ho') ▸ hintent⟩
    · exact ⟨order', ho', rfl⟩
  refine ⟨⟨hwf, fun a => hmarks.keys ▸ hd.remembers a, fun k' ref href => ?_,
    fun k₁ k₂ o₁ o₂ h₁ h₂ heq => ?_, fun k' order ho ht out => ?_⟩, hkeeps,
    fun a i hrow => by rwa [marks_isSome hmarks]⟩
  · obtain ⟨order, ho, rfl⟩ := hd.indexed k' ref (hmarks.index k' ref href)
    obtain ⟨order', ho', hi, ha⟩ := hkeeps k' order ho
    exact ⟨order', ho', by rw [hi, ha]⟩
  · obtain ⟨p₁, hp₁, hi₁⟩ := hback k₁ o₁ h₁
    obtain ⟨p₂, hp₂, hi₂⟩ := hback k₂ o₂ h₂
    exact hd.distinct k₁ k₂ p₁ p₂ hp₁ hp₂ (hi₁.symm.trans (heq.trans hi₂))
  · rw [hmarks.rows]
    rw [horders] at ho
    split_ifs at ho with hk
    · obtain rfl := Option.some.inj ho
      rw [hintent, hagent, if_pos ⟨rfl, rfl⟩]
      intro hout
      obtain ⟨out', hout', rfl⟩ := Option.map_eq_some_iff.mp hout
      exact htells ht out' hout'
    · split_ifs with hrow
      · exact absurd (hd.distinct k' k order old ho hold hrow.2) hk
      · exact hd.tells k' order ho ht out

/-- What the recorder hears of events that were published one after the other. -/
theorem hear_eq {oms : Oms} {events : List BusEvent} (hbus : oms.bus = d.oms.bus ++ events) :
    d.hear oms = ⟨oms, events.foldl (.onBusEvent oms.orders.get?) d.recorder⟩ := by
  rw [hear, hbus, List.drop_left]

theorem hear_self (d : IntentDesk) : d.hear d.oms = d :=
  hear_eq (List.append_nil _).symm

/-- Nothing was published, and no order changed. -/
theorem Consistent.evolves_hear (hd : d.Consistent) {oms : Oms} (hwf : oms.WellFormed)
    (horders : ∀ k, oms.orders.get? k = d.oms.orders.get? k) (hbus : oms.bus = d.oms.bus) :
    d.Evolves (d.hear oms) := by
  rw [hear_eq (hbus.trans (List.append_nil _).symm)]
  refine ⟨⟨hwf, hd.remembers, fun k ref href => ?_, fun k k' o o' ho ho' => ?_,
    fun k order ho => ?_⟩,
    fun k order ho => ⟨order, (horders k).trans ho, rfl, rfl⟩, fun _ _ => id⟩
  · obtain ⟨order, ho, heq⟩ := hd.indexed k ref href
    exact ⟨order, (horders k).trans ho, heq⟩
  · exact hd.distinct k k' o o' ((horders k).symm.trans ho) ((horders k').symm.trans ho')
  · exact hd.tells k order ((horders k).symm.trans ho)

/-- **A new order.** Its intent is new, and the index may have it. -/
theorem Consistent.evolves_introduced (hd : d.Consistent) {k : OrderId} {new : Order}
    {f : Option String → Option String} (hnew : k ∉ d.oms.orders.keys)
    (horders : ∀ k', d'.oms.orders.get? k' = if k' = k then some new else d.oms.orders.get? k')
    (hintent : ∀ order ∈ d.oms.orders.values, order.intentId ≠ new.intentId)
    (hwf : d'.oms.WellFormed) (hkeys : d'.recorder.memories.keys = d.recorder.memories.keys)
    (hindex : ∀ k' ref, d'.recorder.intentIndex.get? k' = some ref →
      k' = k ∧ ref = (new.intentId, new.agentId) ∨ d.recorder.intentIndex.get? k' = some ref)
    (hrows : ∀ a i, d'.recorder.row? a i =
      if a = new.agentId ∧ i = new.intentId then (d.recorder.row? a i).map f
      else d.recorder.row? a i)
    (htells : new.state.Terminal → ∀ outcome, new.state.Tells (f outcome)) :
    d.Evolves d' := by
  have hne : ∀ k' order, d.oms.orders.get? k' = some order → k' ≠ k := by
    rintro k' order ho rfl
    exact hnew (Dict.mem_keys_of_get? ho)
  have hother : ∀ k' order, d.oms.orders.get? k' = some order → order.intentId ≠ new.intentId :=
    fun k' order ho => hintent order (Dict.mem_values_of_get? ho)
  have hkeeps : ∀ k' order, d.oms.orders.get? k' = some order →
      d'.oms.orders.get? k' = some order := by
    intro k' order ho
    rw [horders, if_neg (hne k' order ho), ho]
  refine ⟨⟨hwf, fun a => hkeys ▸ hd.remembers a, fun k' ref href => ?_,
    fun k₁ k₂ o₁ o₂ h₁ h₂ heq => ?_, fun k' order ho ht out hout => ?_⟩,
    fun k' order ho => ⟨order, hkeeps k' order ho, rfl, rfl⟩, fun a i hrow => ?_⟩
  · rcases hindex k' ref href with ⟨rfl, rfl⟩ | hold
    · exact ⟨new, (horders k').trans (if_pos rfl), rfl⟩
    · obtain ⟨order, ho, heq⟩ := hd.indexed k' ref hold
      exact ⟨order, hkeeps k' order ho, heq⟩
  · rw [horders] at h₁ h₂
    split_ifs at h₁ h₂ with hk₁ hk₂ hk₂
    · exact hk₁.trans hk₂.symm
    · obtain rfl := Option.some.inj h₁
      exact absurd heq.symm (hother k₂ o₂ h₂)
    · obtain rfl := Option.some.inj h₂
      exact absurd heq (hother k₁ o₁ h₁)
    · exact hd.distinct k₁ k₂ o₁ o₂ h₁ h₂ heq
  · rw [hrows] at hout
    rw [horders] at ho
    split_ifs at ho with hk
    · obtain rfl := Option.some.inj ho
      rw [if_pos ⟨rfl, rfl⟩] at hout
      obtain ⟨out', -, rfl⟩ := Option.map_eq_some_iff.mp hout
      exact htells ht out'
    · rw [if_neg fun hc => hother k' order ho hc.2] at hout
      exact hd.tells k' order ho ht out hout
  · rw [hrows]
    split_ifs
    · rwa [Option.isSome_map]
    · exact hrow

end IntentDesk

/-! ### An order that is driven -/

namespace Oms

/-- `s'` is `s` with an order driven by an event. -/
structure Drives (s s' : Oms) (k : OrderId) (old new : Order) (event : OrderEvent) : Prop where
  get?_old : s.orders.get? k = some old
  orders : ∀ k', s'.orders.get? k' = if k' = k then some new else s.orders.get? k'
  state : new.state = (orderTable.get? (old.state, event)).getD old.state
  intentId : new.intentId = old.intentId
  agentId : new.agentId = old.agentId
  wellFormed : s'.WellFormed

theorem Moves.drives {s s' : Oms} {k : OrderId} {old order : Order} {fsm : OrderFsm}
    {event : OrderEvent} {fills : List Fill} (h : s.Moves s' k order fsm event fills)
    (hs : s.WellFormed) (hold : s.orders.get? k = some old) (hf : s.fsms.get? k = some fsm)
    (hid : order.id = old.id) (hstate : order.state = old.state)
    (hintent : order.intentId = old.intentId) (hagent : order.agentId = old.agentId) :
    s.Drives s' k old (order.moved fsm event) event where
  get?_old := hold
  orders := h.orders
  state := Order.state_moved (hs.state_eq k fsm old hf hold) hstate event
  intentId := by
    rw [Order.moved]
    split_ifs <;> exact hintent
  agentId := (order.sameTrade_moved fsm event).agentId.trans hagent
  wellFormed := h.wellFormed hs hold hf hid hstate

end Oms

/-! ### Safe steps -/

namespace IntentDesk

/-- The row of the order's intent, if there is one, says `filled`. -/
def SaysFilled (d : IntentDesk) (order : Order) : Prop :=
  ∀ outcome ∈ d.recorder.row? order.agentId order.intentId, outcome = some "filled"

/-- **The fill may be booked**: if it comes after the order was closed otherwise it is marked
partial, and if it completes the order it is not, unless a fill was written already. -/
def MayBook (d : IntentDesk) (order : Order) (fill : Fill) : Prop :=
  (order.state.Terminal → order.state = .filled ∨ fill.isPartial = true) ∧
    (orderTable.get? (order.state, order.fillEvent fill) = some .filled → fill.isPartial = true →
      d.SaysFilled order)

/-- The identifiers of a new order are new. -/
def NewOrder (d : IntentDesk) (orderId : OrderId) (intentId : IntentId) : Prop :=
  orderId ∉ d.oms.orders.keys ∧ ∀ order ∈ d.oms.orders.values, order.intentId ≠ intentId

/-- **A handler that is safe to run**, in the state before it. Fills are stamped with the order
they are for, and an order is closed without a fill only if a fill was written already. -/
def Safe (d : IntentDesk) : Oms.Handler → Prop
  | .persistIntent order _ => d.NewOrder order.id order.intentId
  | .bookGhost ghost => d.NewOrder ghost.ids.order ghost.ids.intent
  | .forceCloseFilled orderId _ => ∀ order ∈ d.oms.orders.get? orderId,
    orderTable.get? (order.state, .fullFill) = some .filled → d.SaysFilled order
  | .brokerEvent event _ => ∀ order ∈ d.oms.orders.get? event.clientOrderId,
    ∀ fill ∈ event.fill, fill.orderId = event.clientOrderId ∧ d.MayBook order fill
  | .settleSubmit .. | .requestCancel .. => True

/-- **An operation that is safe.** Its handlers are; an order comes pending from the planner; when
a submission raises, the order is not terminal yet; and what is declined has no order. -/
def Meets (d : IntentDesk) : IntentOp → Prop
  | .dispatch order call now =>
    order.state = .pending ∧
      Along handle Safe (d.recordIntent order.intentId order.agentId)
        (d.oms.handlers (.submitOrder order call now)) ∧
      (call.outcome = .unavailable →
        ∀ placed ∈ (d.oms.submitOrder order call now).1.orders.get? order.id,
          ¬placed.state.Terminal)
  | .decline intentId _ _ => ∀ order ∈ d.oms.orders.values, order.intentId ≠ intentId
  | .operate op => Along handle Safe d (d.oms.handlers op)

instance (d : IntentDesk) (order : Order) : Decidable (d.SaysFilled order) :=
  inferInstanceAs (Decidable (∀ outcome ∈ d.recorder.row? order.agentId order.intentId,
    outcome = some "filled"))

instance (d : IntentDesk) (order : Order) (fill : Fill) : Decidable (d.MayBook order fill) :=
  inferInstanceAs (Decidable (_ ∧ _))

instance (d : IntentDesk) (orderId : OrderId) (intentId : IntentId) :
    Decidable (d.NewOrder orderId intentId) := inferInstanceAs (Decidable (_ ∧ _))

instance (d : IntentDesk) : (h : Oms.Handler) → Decidable (d.Safe h)
  | .persistIntent order _ => inferInstanceAs (Decidable (d.NewOrder order.id order.intentId))
  | .bookGhost ghost => inferInstanceAs (Decidable (d.NewOrder ghost.ids.order ghost.ids.intent))
  | .forceCloseFilled orderId _ => inferInstanceAs (Decidable (∀ order ∈ d.oms.orders.get? orderId,
      orderTable.get? (order.state, .fullFill) = some .filled → d.SaysFilled order))
  | .brokerEvent event _ =>
    inferInstanceAs (Decidable (∀ order ∈ d.oms.orders.get? event.clientOrderId,
      ∀ fill ∈ event.fill, fill.orderId = event.clientOrderId ∧ d.MayBook order fill))
  | .settleSubmit .. | .requestCancel .. => isTrue trivial

instance (d : IntentDesk) : (op : IntentOp) → Decidable (d.Meets op)
  | .dispatch order call now =>
    inferInstanceAs (Decidable (order.state = .pending ∧
      Along handle Safe (d.recordIntent order.intentId order.agentId)
        (d.oms.handlers (.submitOrder order call now)) ∧
      (call.outcome = .unavailable →
        ∀ placed ∈ (d.oms.submitOrder order call now).1.orders.get? order.id,
          ¬placed.state.Terminal)))
  | .decline intentId _ _ =>
    inferInstanceAs (Decidable (∀ order ∈ d.oms.orders.values, order.intentId ≠ intentId))
  | .operate op => inferInstanceAs (Decidable (Along handle Safe d (d.oms.handlers op)))

/-! ### What a safe handler keeps -/

variable {d d' : IntentDesk}

/-- Driving an order, the change published and nothing else. Only an order that ends up filled
must have been written about before. -/
theorem Consistent.evolves_drives (hd : d.Consistent) {oms : Oms} {k : OrderId} {old new : Order}
    {event : OrderEvent} (h : d.oms.Drives oms k old new event) {ts : Time}
    (hbus : oms.bus = d.oms.bus ++ Oms.changeEvents k old.state event ts)
    (hfill : orderTable.get? (old.state, event) = some .filled → d.SaysFilled old) :
    d.Evolves (d.hear oms) := by
  have hstate := h.state
  rw [hear_eq hbus, Oms.changeEvents]
  rcases harc : orderTable.get? (old.state, event) with _ | toState
  · rw [harc] at hstate
    have hsame : new.state = old.state := hstate
    refine hd.touch h.get?_old h.orders h.intentId h.agentId h.wellFormed
      (OutcomeRecorder.marks_id rfl (fun _ _ => id) fun _ _ => rfl) fun ht out hout => ?_
    rw [hsame] at ht ⊢
    exact hd.tells k old h.get?_old ht out hout
  · rw [harc] at hstate
    obtain rfl : new.state = toState := hstate
    have hget : oms.orders.get? k = some new := (h.orders k).trans (if_pos rfl)
    rcases hkind : terminalFailureOutcomes new.state with _ | kind
    · -- the recorder passes over the change, and the order is open or filled
      refine hd.touch h.get?_old h.orders h.intentId h.agentId h.wellFormed
        (OutcomeRecorder.marks_id ?_ ?_ ?_) fun ht out hout => ?_
      · rw [Option.toList_some, List.map_singleton, List.foldl_cons, List.foldl_nil,
          OutcomeRecorder.onBusEvent_of_none _ hkind]
      · intro k' ref href
        rwa [Option.toList_some, List.map_singleton, List.foldl_cons, List.foldl_nil,
          OutcomeRecorder.onBusEvent_of_none _ hkind] at href
      · intro a i
        rw [Option.toList_some, List.map_singleton, List.foldl_cons, List.foldl_nil,
          OutcomeRecorder.onBusEvent_of_none _ hkind]
      · have hfilled : new.state = .filled := by
          revert ht hkind
          cases new.state <;> decide
        rw [hfilled] at harc ⊢
        obtain rfl := hfill harc out hout
        exact OrderState.tells_filled
    · have hmarks : d.recorder.Marks (d.recorder.onStateChanged oms.orders.get? k new.state)
          new.intentId new.agentId fun _ =>
            some (OutcomeRecorder.truncate (OutcomeRecorder.failureOutcome kind (some new))) := by
        refine OutcomeRecorder.marks_onStateChanged (fun ref href => ?_) hget hkind
        rw [h.intentId, h.agentId]
        exact hd.ref_eq h.get?_old href
      rw [h.intentId, h.agentId] at hmarks
      exact hd.touch h.get?_old h.orders h.intentId h.agentId h.wellFormed hmarks
        fun _ _ _ => OrderState.tells_failureOutcome hkind (some new)

/-- The recorder passes over the changes that fills make. -/
theorem foldl_changeEvents (getOrder : OrderId → Option Order) (r : OutcomeRecorder)
    {k : OrderId} {state : OrderState} {event : OrderEvent} {ts : Time}
    (h : terminalFailureOutcomes event.target = none) :
    (Oms.changeEvents k state event ts).foldl (.onBusEvent getOrder) r = r := by
  rw [Oms.changeEvents]
  rcases harc : orderTable.get? (state, event) with _ | toState
  · rfl
  · rw [← orderTable_get?_eq_some harc] at h
    rw [Option.toList_some, List.map_singleton, List.foldl_cons, List.foldl_nil,
      OutcomeRecorder.onBusEvent_of_none r h]

/-- **A fill that may be booked.** -/
theorem Consistent.evolves_handleFill (hd : d.Consistent) {k : OrderId} {order : Order}
    (ho : d.oms.orders.get? k = some order) {fill : Fill} (hid : fill.orderId = k)
    (hbook : d.MayBook order fill) (ts : Time) :
    d.Evolves (d.hear (d.oms.handleFill k fill ts)) := by
  obtain ⟨fsm, hf, hfsm⟩ := hd.wellFormed.exists_fsm ho
  have hdrives := (Oms.handleFill_advances ho hf fill ts).toMoves.drives hd.wellFormed ho hf rfl rfl
    rfl rfl
  have hbus := Oms.bus_handleFill ho hf fill ts
  generalize d.oms.handleFill k fill ts = oms at hdrives hbus ⊢
  generalize ((order.bookFill (fill.correctedFor order) ts).moved fsm
    (order.fillEvent (fill.correctedFor order))) = new at hdrives
  have hevent : order.fillEvent (fill.correctedFor order) = order.fillEvent fill := rfl
  have hstate := hdrives.state
  rw [hevent] at hstate
  have hnone : terminalFailureOutcomes (order.fillEvent fill).target = none := by
    rw [Order.fillEvent]
    split_ifs <;> rfl
  have hget : oms.orders.get? k = some new := (hdrives.orders k).trans (if_pos rfl)
  rw [hear_eq hbus, List.foldl_append, foldl_changeEvents _ _ hnone]
  have hmarks : d.recorder.Marks
      (d.recorder.onFill oms.orders.get? (fill.correctedFor order)) new.intentId new.agentId
      (if fill.isPartial then id else fun _ => some "filled") := by
    refine OutcomeRecorder.marks_onFill (fun ref href => ?_) hget hid
    rw [hdrives.intentId, hdrives.agentId]
    exact hd.ref_eq ho href
  rw [hdrives.intentId, hdrives.agentId] at hmarks
  refine hd.touch ho hdrives.orders hdrives.intentId hdrives.agentId hdrives.wellFormed hmarks
    fun ht out hout => ?_
  change new.state.Tells ((if fill.isPartial = true then id else fun _ => some "filled") out)
  rcases harc : orderTable.get? (order.state, order.fillEvent fill) with _ | toState
  · -- nothing moved
    rw [harc, Option.getD_none] at hstate
    rw [hstate] at ht ⊢
    split_ifs with hp
    · exact hd.tells k order ho ht out hout
    · rw [(hbook.1 ht).resolve_right hp]
      exact OrderState.tells_filled
  · rw [harc, Option.getD_some] at hstate
    obtain rfl := hstate
    have hfilled : new.state = .filled := by
      have htarget := orderTable_get?_eq_some harc
      revert ht htarget
      rw [Order.fillEvent]
      split_ifs
      · exact fun _ heq => heq
      · intro ht heq
        rw [heq] at ht
        exact absurd ht (by decide)
    rw [hfilled] at harc ⊢
    split_ifs with hp
    · obtain rfl := hbook.2 harc hp out hout
      exact OrderState.tells_filled
    · exact OrderState.tells_filled

theorem Consistent.evolves_recordAccepted (hd : d.Consistent) (k : OrderId)
    (brokerOrderId : String) (ts : Time) :
    d.Evolves (d.hear (d.oms.recordAccepted k brokerOrderId ts)) := by
  rcases ho : d.oms.orders.get? k with _ | order
  · rw [Oms.recordAccepted, ho, hear_self]
    exact hd.evolves_refl
  by_cases hb : order.brokerOrderId = some brokerOrderId
  · rw [Oms.recordAccepted_eq_self ho hb, hear_self]
    exact hd.evolves_refl
  obtain ⟨fsm, hf, hfsm⟩ := hd.wellFormed.exists_fsm ho
  refine hd.evolves_drives ((Oms.recordAccepted_advances ho hf hb ts).toMoves.drives hd.wellFormed
    ho hf rfl rfl rfl rfl) (hfsm ▸ Oms.bus_recordAccepted ho hf hb ts) fun harc => ?_
  exact absurd (orderTable_get?_eq_some harc) (by decide)

theorem Consistent.evolves_handleClosing (hd : d.Consistent) (k : OrderId) (kind : EventKind)
    {update : Order → Order} {event : OrderEvent} (ts : Time)
    (hid : ∀ order, (update order).id = order.id)
    (hstate : ∀ order, (update order).state = order.state)
    (hintent : ∀ order, (update order).intentId = order.intentId)
    (hagent : ∀ order, (update order).agentId = order.agentId) (hevent : event.target ≠ .filled) :
    d.Evolves (d.hear (d.oms.handleClosing k kind update event ts)) := by
  rcases ho : d.oms.orders.get? k with _ | order
  · rw [Oms.handleClosing, ho, hear_self]
    exact hd.evolves_refl
  by_cases ht : order.state.Terminal
  · rw [Oms.handleClosing_eq_self ho ht, hear_self]
    exact hd.evolves_refl
  obtain ⟨fsm, hf, hfsm⟩ := hd.wellFormed.exists_fsm ho
  have hmoves := (Oms.handleClosing_advances ho hf ht kind update event ts).toMoves
  refine hd.evolves_drives
    (hmoves.drives hd.wellFormed ho hf (hid _) (hstate _) (hintent _) (hagent _))
    (hfsm ▸ Oms.bus_handleClosing ho hf ht kind update event ts) fun harc => ?_
  exact absurd (orderTable_get?_eq_some harc).symm hevent

theorem Consistent.evolves_handleRejection (hd : d.Consistent) (k : OrderId) (reason : String)
    (ts : Time) : d.Evolves (d.hear (d.oms.handleRejection k reason ts)) :=
  hd.evolves_handleClosing k _ ts (fun _ => rfl) (fun _ => rfl) (fun _ => rfl) (fun _ => rfl)
    (by decide)

theorem Consistent.evolves_settleSubmit (hd : d.Consistent) (k : OrderId)
    (outcome : SubmitOutcome) (now : Time) :
    d.Evolves (d.hear (d.oms.settleSubmit k outcome now)) := by
  cases outcome with
  | returned brokerOrderId =>
    rw [Oms.settleSubmit]
    split_ifs
    · rw [hear_self]
      exact hd.evolves_refl
    · exact hd.evolves_recordAccepted k brokerOrderId now
  | rejected reason => exact hd.evolves_handleRejection k reason now
  | unavailable =>
    rw [Oms.settleSubmit, hear_self]
    exact hd.evolves_refl

theorem Consistent.evolves_requestCancel (hd : d.Consistent) (k : OrderId) (now : Time) :
    d.Evolves (d.hear (d.oms.requestCancel k now)) := by
  rcases ho : d.oms.orders.get? k with _ | order
  · rw [Oms.requestCancel, ho, hear_self]
    exact hd.evolves_refl
  by_cases ht : order.state.Terminal
  · rw [Oms.requestCancel_eq_self ho ht, hear_self]
    exact hd.evolves_refl
  obtain ⟨fsm, hf, hfsm⟩ := hd.wellFormed.exists_fsm ho
  rcases hb : order.brokerOrderId with _ | brokerOrderId
  · refine hd.evolves_drives ((Oms.requestCancel_advances ho hf ht hb now).toMoves.drives
      hd.wellFormed ho hf rfl rfl rfl rfl) (hfsm ▸ Oms.bus_requestCancel ho hf ht hb now)
      fun harc => ?_
    exact absurd (orderTable_get?_eq_some harc) (by decide)
  · have haudits := Oms.requestCancel_audits ho ht hb now
    refine hd.evolves_hear (hd.wellFormed.handle (.requestCancel k now)) (fun k' => ?_)
      (Oms.bus_requestCancel_of_accepted ho ht hb now)
    rw [haudits.book]

/-- A forced close of an order that a fill was written about. -/
theorem Consistent.evolves_forceCloseFilled (hd : d.Consistent) {k : OrderId}
    (hwritten : ∀ order ∈ d.oms.orders.get? k,
      orderTable.get? (order.state, .fullFill) = some .filled → d.SaysFilled order) (ts : Time) :
    d.Evolves (d.hear (d.oms.forceCloseFilled k ts)) := by
  rcases ho : d.oms.orders.get? k with _ | order
  · rw [Oms.forceCloseFilled, ho, hear_self]
    exact hd.evolves_refl
  by_cases ht : order.state.Terminal
  · rw [Oms.forceCloseFilled_eq_self ho ht, hear_self]
    exact hd.evolves_refl
  obtain ⟨fsm, hf, hfsm⟩ := hd.wellFormed.exists_fsm ho
  exact hd.evolves_drives ((Oms.forceCloseFilled_moves ho hf ht ts).drives hd.wellFormed ho hf rfl
    rfl rfl rfl) (hfsm ▸ Oms.bus_forceCloseFilled ho hf ht ts) (hwritten order ho)

theorem Consistent.evolves_onBrokerEvent (hd : d.Consistent) {event : BrokerOrderEvent}
    (hevent : ∀ order ∈ d.oms.orders.get? event.clientOrderId, ∀ fill ∈ event.fill,
      fill.orderId = event.clientOrderId ∧ d.MayBook order fill) (now : Time) :
    d.Evolves (d.hear (d.oms.onBrokerEvent event now)) := by
  have hself : d.Evolves (d.hear d.oms) := by
    rw [hear_self]
    exact hd.evolves_refl
  rcases ho : d.oms.orders.get? event.clientOrderId with _ | order
  · rwa [Oms.onBrokerEvent, if_neg (Dict.get?_eq_none_iff.mp ho)]
  rw [Oms.onBrokerEvent, if_pos (Dict.mem_keys_of_get? ho)]
  cases hst : event.newState with
  | accepted =>
    dsimp only
    split_ifs
    · exact hself
    · exact hd.evolves_recordAccepted _ _ _
  | partiallyFilled | filled =>
    cases hfill : event.fill with
    | none => exact hself
    | some fill =>
      obtain ⟨hid, hbook⟩ := hevent order ho fill hfill
      exact hd.evolves_handleFill ho hid hbook _
  | canceled | expired =>
    exact hd.evolves_handleClosing _ _ _ (fun _ => rfl) (fun _ => rfl) (fun _ => rfl)
      (fun _ => rfl) (by decide)
  | rejected => exact hd.evolves_handleRejection _ _ _
  | new | unknown => exact hself

/-- A new order goes on the index. -/
theorem Consistent.evolves_persistIntent (hd : d.Consistent) {order : Order}
    (hp : order.state = .pending) (hnew : d.NewOrder order.id order.intentId) (now : Time) :
    d.Evolves (d.hear (d.oms.persistIntent order now)) := by
  have hi := d.oms.persistIntent_introduces hp now
  rw [hear_eq (d.oms.bus_persistIntent hp now), List.foldl_cons,
    OutcomeRecorder.onBusEvent_of_none d.recorder rfl]
  refine @Consistent.evolves_introduced d _ hd order.id { order with state := .submitted } id
    hnew.1 hi.orders hnew.2 (hi.wellFormed hd.wellFormed) rfl (fun k' ref href => ?_)
    (fun a i => ?_) fun ht => absurd (show OrderState.submitted.Terminal from ht) (by decide)
  · change (d.recorder.intentIndex.set order.id (order.intentId, order.agentId)).get? k' =
      some ref at href
    rw [Dict.get?_set] at href
    split_ifs at href with hk
    · exact Or.inl ⟨hk, (Option.some.inj href).symm⟩
    · exact Or.inr href
  · rw [Option.map_id]
    exact (ite_self _).symm

/-- A synthetic order is not on the index, and its fill is written to the row of its intent if it
has one. -/
theorem Consistent.evolves_bookGhost (hd : d.Consistent) {ghost : Ghost}
    (hnew : d.NewOrder ghost.ids.order ghost.ids.intent) :
    d.Evolves (d.hear (d.oms.bookGhost ghost)) := by
  obtain ⟨new, hget, hfilled, hintent, hagent, hbus⟩ := d.oms.bookGhost_spec ghost
  have hwf := hd.wellFormed.handle (.bookGhost ghost)
  have hmarks : d.recorder.Marks
      (d.recorder.onFill (d.oms.bookGhost ghost).orders.get? ghost.fill) new.intentId new.agentId
      fun _ => some "filled" := by
    refine OutcomeRecorder.marks_onFill (k := ghost.ids.order) (fun ref href => ?_) hget rfl
    obtain ⟨order, ho, -⟩ := hd.indexed _ ref href
    exact absurd (Dict.mem_keys_of_get? ho) hnew.1
  rw [hear_eq hbus, List.foldl_cons, OutcomeRecorder.onBusEvent_of_none d.recorder rfl]
  refine @Consistent.evolves_introduced d _ hd ghost.ids.order new (fun _ => some "filled")
    hnew.1 (fun k' => ?_) (fun order ho => hintent ▸ hnew.2 order ho) hwf hmarks.keys
    (fun k' ref href => Or.inr (hmarks.index k' ref href)) hmarks.rows fun _ _ => ?_
  · split_ifs with hk
    · rw [hk]
      exact hget
    · exact (Oms.bookGhost_of_ne hd.wellFormed.toKeyed hk).1
  · rw [hfilled]
    exact OrderState.tells_filled

/-- **A safe handler keeps every order with its intent.** -/
theorem Consistent.evolves_handle (hd : d.Consistent) {h : Oms.Handler} (hsafe : d.Safe h) :
    d.Evolves (d.handle h) := by
  cases h with
  | persistIntent order now =>
    rw [handle, Oms.handle]
    split_ifs with hp
    · exact hd.evolves_persistIntent hp hsafe now
    · rw [hear_self]
      exact hd.evolves_refl
  | settleSubmit orderId outcome now => exact hd.evolves_settleSubmit _ _ _
  | requestCancel orderId now => exact hd.evolves_requestCancel _ _
  | forceCloseFilled orderId ts => exact hd.evolves_forceCloseFilled hsafe ts
  | bookGhost ghost => exact hd.evolves_bookGhost hsafe
  | brokerEvent event now => exact hd.evolves_onBrokerEvent hsafe now

/-! ### Runs -/

theorem oms_handle (d : IntentDesk) (h : Oms.Handler) : (d.handle h).oms = d.oms.handle h := rfl

/-- The system at the desk takes the step it takes alone. -/
theorem oms_operate (d : IntentDesk) (op : OmsOp) : (d.operate op).oms = d.oms.step op := by
  have hrun : ∀ (hs : List Oms.Handler) (d : IntentDesk),
      (run handle d hs).oms = run Oms.handle d.oms hs := by
    intro hs
    induction hs with
    | nil => exact fun _ => rfl
    | cons h hs ih => exact fun d => ih (d.handle h)
  rw [operate, hrun, Oms.step_eq_run]

theorem Consistent.evolves_operate (hd : d.Consistent) {hs : List Oms.Handler}
    (hsafe : Along handle Safe d hs) : d.Evolves (run handle d hs) := by
  refine hsafe.invariant (fun d' h hd' hh => ?_) hd.evolves_refl
  exact hd'.trans (hd'.consistent.evolves_handle hh)

/-- Logging an intent leaves the rows there are alone. -/
theorem row?_recordIntent (r : OutcomeRecorder) (intentId : IntentId) (agentId : AgentId)
    {a : AgentId} {i : IntentId} (h : i ≠ intentId ∨ (r.row? a i).isSome) :
    (r.recordIntent intentId agentId).row? a i = r.row? a i := by
  rw [OutcomeRecorder.row?] at h
  rw [OutcomeRecorder.row?, OutcomeRecorder.row?, OutcomeRecorder.recordIntent, Dict.get?_modify]
  split_ifs
  · rcases hmem : r.memories.get? a with _ | mem
    · rfl
    · rw [hmem, Option.bind_some] at h
      rw [Option.map_some, Option.bind_some, Option.bind_some, AgentMemory.recordIntent]
      split_ifs with hkey
      · rfl
      · have hi : i ≠ intentId := by
          refine h.elim id fun hsome => ?_
          rintro rfl
          exact hkey (Dict.mem_keys_iff.mpr (Option.isSome_iff_exists.mp hsome))
        exact Dict.get?_set_of_ne _ hi _
  · rfl

/-- An intent that was logged has a row. -/
theorem row?_recordIntent_self {r : OutcomeRecorder} {agentId : AgentId}
    (hmem : agentId ∈ r.memories.keys) (intentId : IntentId) :
    ((r.recordIntent intentId agentId).row? agentId intentId).isSome := by
  obtain ⟨mem, hmem⟩ := Dict.mem_keys_iff.mp hmem
  rw [OutcomeRecorder.row?, OutcomeRecorder.recordIntent, Dict.get?_modify, if_pos rfl, hmem,
    Option.map_some, Option.bind_some, AgentMemory.recordIntent]
  split_ifs with hkey
  · obtain ⟨outcome, hrow⟩ := Dict.mem_keys_iff.mp hkey
    rw [hrow]
    rfl
  · rw [Dict.get?_set_self]
    rfl

/-- Logging an intent that has no order. -/
theorem Consistent.evolves_recordIntent (hd : d.Consistent) {intentId : IntentId}
    (hnew : ∀ order ∈ d.oms.orders.values, order.intentId ≠ intentId) (agentId : AgentId) :
    d.Evolves (d.recordIntent intentId agentId) := by
  refine ⟨⟨hd.wellFormed, fun a => ?_, hd.indexed, hd.distinct, fun k order ho ht out hout => ?_⟩,
    fun k order ho => ⟨order, ho, rfl, rfl⟩, fun a i hsome => ?_⟩
  · change a ∈ (d.recorder.memories.modify agentId fun mem => mem.recordIntent intentId).keys
    rw [Dict.keys_modify]
    exact hd.remembers a
  · refine hd.tells k order ho ht out ((row?_recordIntent d.recorder intentId agentId
      (Or.inl (hnew order (Dict.mem_values_of_get? ho)))).symm.trans hout)
  · rwa [recordIntent, row?_recordIntent d.recorder intentId agentId (Or.inr hsome)]

/-- Writing about an intent whose order, if it has one, is not terminal. -/
theorem Consistent.evolves_record (hd : d.Consistent) {intentId : IntentId}
    (hopen : ∀ k order, d.oms.orders.get? k = some order → order.intentId = intentId →
      ¬order.state.Terminal) (agentId : AgentId) (outcome : String) :
    d.Evolves (d.record intentId agentId outcome) := by
  have hmarks := OutcomeRecorder.marks_write d.recorder intentId agentId outcome
  refine ⟨⟨hd.wellFormed, fun a => hmarks.keys ▸ hd.remembers a, hd.indexed, hd.distinct,
    fun k order ho ht out hout => ?_⟩, fun k order ho => ⟨order, ho, rfl, rfl⟩, fun a i hrow => ?_⟩
  · refine hd.tells k order ho ht out ?_
    have hrow := hmarks.rows order.agentId order.intentId
    rw [if_neg fun hc => hopen k order ho hc.2 ht] at hrow
    exact hrow.symm.trans hout
  · exact (marks_isSome hmarks a i).trans hrow

/-- What a dispatch leaves: an order of the intent, and a row for it. -/
theorem Consistent.evolves_dispatch (hd : d.Consistent) {order : Order} {call : SubmitCall}
    {now : Time} (h : d.Meets (.dispatch order call now)) :
    d.Evolves (d.step (.dispatch order call now)) ∧
      (∃ placed, (d.step (.dispatch order call now)).oms.orders.get? order.id = some placed ∧
        placed.intentId = order.intentId ∧ placed.agentId = order.agentId) ∧
      ((d.step (.dispatch order call now)).recorder.row? order.agentId order.intentId).isSome := by
  obtain ⟨hp, hsafe, hraise⟩ := h
  have hhandlers : d.oms.handlers (.submitOrder order call now) =
      .persistIntent order now :: (call.callbacks.map (.brokerEvent · now) ++
        [.settleSubmit order.id call.outcome now]) := if_pos hp
  rw [hhandlers] at hsafe
  obtain ⟨hnew, hrest⟩ := hsafe
  -- the intent is logged, the order persisted, and then the broker is called
  have hlogged := hd.evolves_recordIntent hnew.2 order.agentId
  have hrow := row?_recordIntent_self (hd.remembers order.agentId) order.intentId
  set d₁ := d.recordIntent order.intentId order.agentId with hd₁
  have hpersist := hlogged.consistent.evolves_handle (h := .persistIntent order now) hnew
  have hget : (d₁.handle (.persistIntent order now)).oms.orders.get? order.id =
      some { order with state := .submitted } := by
    rw [oms_handle, Oms.handle, if_pos hp]
    exact (Oms.persistIntent_introduces _ hp now).get?_self
  have hcalled := hpersist.consistent.evolves_operate hrest
  have hoperate : d₁.operate (.submitOrder order call now) =
      run handle (d₁.handle (.persistIntent order now))
        (call.callbacks.map (.brokerEvent · now) ++
          [.settleSubmit order.id call.outcome now]) := by
    rw [operate, show d₁.oms = d.oms from rfl, hhandlers, run_cons]
  rw [← hoperate] at hcalled
  obtain ⟨placed, hplaced, hintent, hagent⟩ := hcalled.keeps _ _ hget
  have hsome := (hpersist.trans hcalled).rows _ _ hrow
  have hevolves := hlogged.trans (hpersist.trans hcalled)
  have homs : (d₁.operate (.submitOrder order call now)).oms =
      (d.oms.submitOrder order call now).1 := oms_operate _ _
  have hstep : d.step (.dispatch order call now) =
      if call.outcome = .unavailable then
        (d₁.operate (.submitOrder order call now)).record order.intentId order.agentId
          "submit_error"
      else d₁.operate (.submitOrder order call now) := by
    rw [step, submitOneIntent, Oms.submitOrder, if_pos hp]
    cases call.outcome <;> rfl
  rw [hstep]
  split_ifs with hout
  · -- the submission raised, and the order is open
    have hopen : ¬placed.state.Terminal := hraise hout placed (homs ▸ hplaced)
    have hrecord : (d₁.operate (.submitOrder order call now)).Evolves
        ((d₁.operate (.submitOrder order call now)).record order.intentId order.agentId
          "submit_error") := by
      refine hevolves.consistent.evolves_record (fun k order' ho' hi => ?_) _ _
      obtain rfl := hevolves.consistent.distinct k order.id order' placed ho' hplaced
        (hi.trans hintent.symm)
      obtain rfl := Option.some.inj (hplaced.symm.trans ho')
      exact hopen
    exact ⟨hevolves.trans hrecord, ⟨placed, hplaced, hintent, hagent⟩, hrecord.rows _ _ hsome⟩
  · exact ⟨hevolves, ⟨placed, hplaced, hintent, hagent⟩, hsome⟩

theorem Consistent.evolves_step (hd : d.Consistent) {op : IntentOp} (hop : d.Meets op) :
    d.Evolves (d.step op) := by
  cases op with
  | dispatch order call now => exact (hd.evolves_dispatch hop).1
  | decline intentId agentId outcome =>
    have hlogged := hd.evolves_recordIntent hop agentId
    refine hlogged.trans (hlogged.consistent.evolves_record (fun k order ho hi => ?_) agentId
      outcome)
    exact absurd hi (hop order (Dict.mem_values_of_get? ho))
  | operate op => exact hd.evolves_operate hop

theorem Consistent.evolves_run (hd : d.Consistent) {ops : List IntentOp}
    (hops : Along step Meets d ops) : d.Evolves (run step d ops) :=
  hops.invariant (fun _ _ h hop => h.trans (h.consistent.evolves_step hop)) hd.evolves_refl

/-- **The outcomes tell the truth.** In a run whose steps are safe, the order of every intent that
was dispatched is there, and once it is terminal the agent remembers an outcome that tells how it
ended. -/
theorem outcome_run {ops : List IntentOp} (hops : Along step Meets start ops) {order : Order}
    {call : SubmitCall} {now : Time} (hmem : .dispatch order call now ∈ ops) :
    ∃ placed, (run step start ops).oms.orders.get? order.id = some placed ∧
      (placed.state.Terminal → ∃ outcome,
        (run step start ops).recorder.row? order.agentId order.intentId = some outcome ∧
          placed.state.Tells outcome) := by
  obtain ⟨before, after, rfl⟩ := List.append_of_mem hmem
  obtain ⟨hbefore, hdispatch, hafter⟩ := along_append.mp hops
  have h₁ := consistent_start.evolves_run hbefore
  obtain ⟨h₂, ⟨first, hfirst, hintent, hagent⟩, hrow⟩ := h₁.consistent.evolves_dispatch hdispatch
  have h₃ := h₂.consistent.evolves_run hafter
  rw [run_append, run_cons]
  obtain ⟨placed, hplaced, hintent', hagent'⟩ := h₃.keeps _ first hfirst
  obtain ⟨outcome, houtcome⟩ := Option.isSome_iff_exists.mp (h₃.rows _ _ hrow)
  refine ⟨placed, hplaced, fun ht => ⟨outcome, houtcome, ?_⟩⟩
  refine h₃.consistent.tells _ placed hplaced ht outcome ?_
  rw [hintent', hagent', hintent, hagent]
  exact houtcome

/-- Two intents become orders. One is filled; the submission of the other raises, but the broker
has the order, and fills it. -/
def retriedIntents : List IntentOp :=
  [.dispatch (Oms.marketOrder 1 .buy 10) ⟨[], .returned "b-1"⟩ 0,
    .operate (.brokerEvent (Oms.fillEventFor 7 1 .buy 10 .filled) 1),
    .dispatch (Oms.marketOrder 2 .buy 5) ⟨[], .unavailable⟩ 2,
    .operate (.brokerEvent { brokerOrderId := "b-2", clientOrderId := 2, newState := .accepted } 3),
    .operate (.brokerEvent (Oms.fillEventFor 8 2 .buy 5 .filled) 4)]

theorem outcome_retriedIntents :
    ∃ placed, (run step start retriedIntents).oms.orders.get? 2 = some placed ∧
      (placed.state.Terminal → ∃ outcome,
        (run step start retriedIntents).recorder.row? .sonnet 2 = some outcome ∧
          placed.state.Tells outcome) :=
  @outcome_run retriedIntents (by decide +kernel) (Oms.marketOrder 2 .buy 5) ⟨[], .unavailable⟩ 2
    (by simp [retriedIntents])

/-- The order of an intent is cancelled, and its fill comes after that. -/
def lateIntents : List IntentOp :=
  [.dispatch (Oms.marketOrder 1 .buy 10) ⟨[], .returned "b-1"⟩ 0,
    .operate (.brokerEvent { brokerOrderId := "b-1", clientOrderId := 1, newState := .canceled } 1),
    .operate (.brokerEvent (Oms.fillEventFor 7 1 .buy 10 .filled) 2)]

/-- A late fill overwrites the outcome of a cancelled order, and every order is terminal. -/
theorem not_tells_lateIntents :
    (∀ order ∈ (run step start lateIntents).oms.orders.values, order.state.Terminal) ∧
      ∃ placed, (run step start lateIntents).oms.orders.get? 1 = some placed ∧
        placed.state = .cancelled ∧
          ¬∃ outcome, (run step start lateIntents).recorder.row? .sonnet 1 = some outcome ∧
            placed.state.Tells outcome := by
  have hrow : (run step start lateIntents).recorder.row? .sonnet 1 = some (some "filled") := by
    decide +kernel
  have hstate : ((run step start lateIntents).oms.orders.get? 1).map (·.state) =
      some .cancelled := by
    decide +kernel
  obtain ⟨placed, hplaced, hcancelled⟩ := Option.map_eq_some_iff.mp hstate
  refine ⟨by decide +kernel, placed, hplaced, hcancelled, ?_⟩
  rintro ⟨outcome, hout, w, rfl, hfilled, -⟩
  obtain rfl : "filled" = w := by simpa [hrow] using hout
  exact absurd (hcancelled.symm.trans (hfilled.mp rfl)) (by decide)

end IntentDesk

end TradingPlatform
