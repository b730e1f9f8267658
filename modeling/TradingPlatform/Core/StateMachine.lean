import TradingPlatform.Core.Types
import TradingPlatform.Dict

/-!
# Finite-state machines, and the order lifecycle

A machine is a current state and a history over a fixed table of arcs. The table is
a dictionary, so two arcs out of one state on one event cannot coexist: the error
the source raises for such a table is a value that cannot be built here.

The source's arcs may carry guards and actions; no machine it builds uses either,
and they are left out.

`TradingPlatform.orderTable` is the order lifecycle. What the rest of the
development uses of it is that an event determines where its arcs lead
(`TradingPlatform.orderTable_get?_eq_some`): a state assigned after an event is
either the state the machine moved to or one it refused to move to.
-/

namespace TradingPlatform

/-- A machine over a table of arcs. -/
structure StateMachine {σ ε : Type} (table : Dict (σ × ε) σ) where
  state : σ
  /-- The transitions made, oldest first. -/
  history : List (σ × ε × σ)

namespace StateMachine

variable {σ ε : Type} [DecidableEq σ] [DecidableEq ε] {table : Dict (σ × ε) σ}

/-- Whether the event has an arc from the current state. -/
def canTrigger (m : StateMachine table) (event : ε) : Bool :=
  (table.get? (m.state, event)).isSome

/-- Attempt a transition: whether it was made, and the machine afterwards. -/
def trigger (m : StateMachine table) (event : ε) : Bool × StateMachine table :=
  match table.get? (m.state, event) with
  | none => (false, m)
  | some toState =>
    (true, { state := toState, history := m.history ++ [(m.state, event, toState)] })

/-- The machine after an attempted transition. -/
def after (m : StateMachine table) (event : ε) : StateMachine table := (m.trigger event).2

theorem trigger_of_get?_eq_none {m : StateMachine table} {event : ε}
    (h : table.get? (m.state, event) = none) : m.trigger event = (false, m) := by
  rw [trigger, h]

theorem trigger_of_get?_eq_some {m : StateMachine table} {event : ε} {toState : σ}
    (h : table.get? (m.state, event) = some toState) :
    m.trigger event =
      (true, { state := toState, history := m.history ++ [(m.state, event, toState)] }) := by
  rw [trigger, h]

/-- A transition is made exactly when there is an arc for it. -/
theorem trigger_fst (m : StateMachine table) (event : ε) :
    (m.trigger event).1 = m.canTrigger event := by
  rw [canTrigger]
  rcases h : table.get? (m.state, event) with _ | toState
  · rw [trigger_of_get?_eq_none h]
    rfl
  · rw [trigger_of_get?_eq_some h]
    rfl

/-- The state after an attempt: where the arc leads, or the old state. -/
theorem state_after (m : StateMachine table) (event : ε) :
    (m.after event).state = (table.get? (m.state, event)).getD m.state := by
  rw [after]
  rcases h : table.get? (m.state, event) with _ | toState
  · rw [trigger_of_get?_eq_none h]
    rfl
  · rw [trigger_of_get?_eq_some h]
    rfl

/-- Two machines in one state stay in one state. -/
theorem state_after_congr {m m' : StateMachine table} (h : m.state = m'.state) (event : ε) :
    (m.after event).state = (m'.after event).state := by
  rw [state_after, state_after, h]

end StateMachine

/-! ### The order lifecycle -/

/-- The arcs of the order lifecycle. -/
def orderTable : Dict (OrderState × OrderEvent) OrderState where
  entries := [
    ((.pending, .submit), .submitted),
    ((.submitted, .accept), .accepted),
    ((.accepted, .partialFill), .partiallyFilled),
    ((.accepted, .fullFill), .filled),
    ((.partiallyFilled, .fullFill), .filled),
    ((.partiallyFilled, .partialFill), .partiallyFilled),
    ((.submitted, .cancel), .cancelled),
    ((.accepted, .cancel), .cancelled),
    ((.partiallyFilled, .cancel), .cancelled),
    ((.pending, .reject), .rejected),
    ((.submitted, .reject), .rejected),
    ((.accepted, .reject), .rejected),
    ((.accepted, .expire), .expired),
    ((.partiallyFilled, .expire), .expired)]
  nodup := by decide

/-- The machine that drives one order. -/
abbrev OrderFsm := StateMachine orderTable

/-- A fully wired order machine. -/
def buildOrderFsm (initialState : OrderState) : OrderFsm := ⟨initialState, []⟩

/-- Where an event leads, from whichever state it has an arc. -/
def OrderEvent.target : OrderEvent → OrderState
  | .submit => .submitted
  | .accept => .accepted
  | .partialFill => .partiallyFilled
  | .fullFill => .filled
  | .cancel => .cancelled
  | .reject => .rejected
  | .expire => .expired

/-- **An event determines where its arcs lead.** -/
theorem orderTable_get?_eq_some {state toState : OrderState} {event : OrderEvent}
    (h : orderTable.get? (state, event) = some toState) : toState = event.target := by
  revert h
  cases state <;> cases event <;> cases toState <;> decide

/-- No arc leaves a terminal state. -/
theorem orderTable_get?_of_terminal {state : OrderState} (h : state.Terminal)
    (event : OrderEvent) : orderTable.get? (state, event) = none := by
  rcases h with rfl | rfl | rfl | rfl <;> cases event <;> rfl

/-- **An event settles an order**: the lifecycle has an arc for it, or the order is
already where the event leads. -/
def OrderState.Settles (state : OrderState) (event : OrderEvent) : Prop :=
  orderTable.get? (state, event) ≠ none ∨ state = event.target

instance (state : OrderState) (event : OrderEvent) : Decidable (state.Settles event) :=
  inferInstanceAs (Decidable (_ ∨ _))

/-- **What settling is for**: the machine ends where the event leads exactly when
the event settles the order. -/
theorem OrderState.settles_iff {m : OrderFsm} {event : OrderEvent} :
    m.state.Settles event ↔ (m.after event).state = event.target := by
  rw [StateMachine.state_after, OrderState.Settles]
  rcases h : orderTable.get? (m.state, event) with _ | toState
  · simp
  · simpa using orderTable_get?_eq_some h

end TradingPlatform
