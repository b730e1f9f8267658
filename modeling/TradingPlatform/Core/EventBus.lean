import Mathlib

/-!
# A synchronous event bus

An event is dispatched to its handlers one after the other, in the thread that publishes it. A
handler that raises ends the dispatch, and its exception ends what its publisher was doing: the
handlers that come later are not called, and what the publisher had left to publish is not
published. Nothing here is about any one publisher.

What a handler receives is compared with what it would receive if all handlers returned
(`TradingPlatform.EventBus.silenced`). A dispatch gives them the same, apart from those it does not
reach (`TradingPlatform.EventBus.dispatch_append_unreached`). For some events published in
sequence `TradingPlatform.EventBus.spares_iff` says when nobody misses anything: the first
exception comes when all handlers that never raise have been served.
-/

namespace TradingPlatform

/-- An event has a name, by which one subscribes to it. -/
class Event (ε : Type*) where
  name : ε → String

/-- The subscriptions of a bus, and the handlers as far as their exceptions go. -/
structure EventBus (ε : Type*) where
  /-- The names and the handlers subscribed to them, oldest first. The name `"*"` stands for
  every event. -/
  subscriptions : List (String × ℕ)
  /-- Whether a handler raises on an event, given what it received before. -/
  raises : ℕ → List ε → ε → Bool

namespace EventBus

variable {ε : Type*}

/-- What every handler has received. -/
abbrev Inboxes (ε : Type*) := ℕ → List ε

/-- The inboxes once a handler received an event. -/
def Inboxes.put (inboxes : Inboxes ε) (handler : ℕ) (event : ε) : Inboxes ε :=
  Function.update inboxes handler (inboxes handler ++ [event])

variable (bus : EventBus ε)

/-- Call the handlers one after the other. The result says whether one has raised. -/
def dispatch (event : ε) : List ℕ → Inboxes ε → Inboxes ε × Bool
  | [], inboxes => (inboxes, false)
  | handler :: handlers, inboxes =>
    if bus.raises handler (inboxes handler) event then (inboxes.put handler event, true)
    else dispatch event handlers (inboxes.put handler event)

/-- The handlers a dispatch does not reach. -/
def unreached (event : ε) : List ℕ → Inboxes ε → List ℕ
  | [], _ => []
  | handler :: handlers, inboxes =>
    if bus.raises handler (inboxes handler) event then handlers
    else unreached event handlers (inboxes.put handler event)

/-- The same subscriptions, and all handlers return. -/
def silenced : EventBus ε := { bus with raises := fun _ _ _ => false }

/-- The handler never raises. -/
def Returns (handler : ℕ) : Prop := ∀ received event, bus.raises handler received event = false

/-! ### One dispatch -/

section Dispatch

variable {bus} {event : ε} {k : ℕ}

theorem Inboxes.put_apply (inboxes : Inboxes ε) (handler : ℕ) (event : ε) (k : ℕ) :
    inboxes.put handler event k = inboxes k ++ List.replicate ([handler].count k) event := by
  by_cases hk : k = handler
  · subst hk
    simp [Inboxes.put]
  · have hne : ¬handler = k := fun hc => hk hc.symm
    simp [Inboxes.put, hk, hne]

/-- **What a dispatch leaves out**: with the events of the handlers that are not reached, every
handler has received the event as often as it is in the list. -/
theorem dispatch_append_unreached (handlers : List ℕ) (inboxes : Inboxes ε) :
    (bus.dispatch event handlers inboxes).1 k ++
        List.replicate ((bus.unreached event handlers inboxes).count k) event =
      inboxes k ++ List.replicate (handlers.count k) event := by
  induction handlers generalizing inboxes with
  | nil => rfl
  | cons handler handlers ih =>
    have hput : inboxes.put handler event k ++ List.replicate (handlers.count k) event =
        inboxes k ++ List.replicate ((handler :: handlers).count k) event := by
      rw [Inboxes.put_apply, List.append_assoc, List.replicate_append_replicate,
        ← List.count_append]
      rfl
    rw [dispatch, unreached]
    split_ifs
    · exact hput
    · exact (ih _).trans hput

theorem unreached_of_not_raised {handlers : List ℕ} {inboxes : Inboxes ε}
    (h : (bus.dispatch event handlers inboxes).2 = false) :
    bus.unreached event handlers inboxes = [] := by
  induction handlers generalizing inboxes with
  | nil => rfl
  | cons handler handlers ih =>
    rw [dispatch] at h
    rw [unreached]
    split_ifs at h ⊢
    · exact ih h

theorem dispatch_silenced (handlers : List ℕ) (inboxes : Inboxes ε) :
    (bus.silenced.dispatch event handlers inboxes).2 = false := by
  induction handlers generalizing inboxes with
  | nil => rfl
  | cons handler handlers ih => exact ih _

/-- A dispatch without an exception reaches every handler. -/
theorem dispatch_of_not_raised {handlers : List ℕ} {inboxes : Inboxes ε}
    (h : (bus.dispatch event handlers inboxes).2 = false) :
    (bus.dispatch event handlers inboxes).1 k =
      inboxes k ++ List.replicate (handlers.count k) event := by
  rw [← dispatch_append_unreached, unreached_of_not_raised h]
  exact (List.append_nil _).symm

end Dispatch

/-! ### Some events in sequence -/

variable [Event ε]

/-- The handlers of an event: those subscribed to its name, then those subscribed to all. -/
def recipients (event : ε) : List ℕ :=
  (bus.subscriptions.filter fun s => s.1 = Event.name event).map Prod.snd ++
    (bus.subscriptions.filter fun s => s.1 = "*").map Prod.snd

def publish (event : ε) (inboxes : Inboxes ε) : Inboxes ε × Bool :=
  bus.dispatch event (bus.recipients event) inboxes

/-- Publish one event after the other. An exception ends it. -/
def publishAll : List ε → Inboxes ε → Inboxes ε × Bool
  | [], inboxes => (inboxes, false)
  | event :: events, inboxes =>
    if (bus.publish event inboxes).2 then bus.publish event inboxes
    else publishAll events (bus.publish event inboxes).1

/-- **Nobody misses anything**: when a handler raises, the handlers that never do have all received
the event, and are not subscribed to what was to follow. -/
def Spares : List ε → Inboxes ε → Prop
  | [], _ => True
  | event :: events, inboxes =>
    if (bus.publish event inboxes).2 then
      ∀ k, bus.Returns k → k ∉ bus.unreached event (bus.recipients event) inboxes ∧
        ∀ event' ∈ events, k ∉ bus.recipients event'
    else Spares events (bus.publish event inboxes).1

section Sequence

variable {bus} {event : ε} {k : ℕ}

theorem publish_silenced (event : ε) (inboxes : Inboxes ε) :
    (bus.silenced.publish event inboxes).2 = false :=
  dispatch_silenced _ _

theorem publish_silenced_apply (event : ε) (inboxes : Inboxes ε) (k : ℕ) :
    (bus.silenced.publish event inboxes).1 k =
      inboxes k ++ List.replicate ((bus.recipients event).count k) event :=
  dispatch_of_not_raised (dispatch_silenced _ _)

/-- Where nobody raises it makes no difference whether anybody can. -/
theorem publish_of_not_raised {inboxes : Inboxes ε} (h : (bus.publish event inboxes).2 = false) :
    (bus.publish event inboxes).1 = (bus.silenced.publish event inboxes).1 := by
  funext k
  rw [publish_silenced_apply]
  exact dispatch_of_not_raised h

theorem publishAll_silenced_cons (event : ε) (events : List ε) (inboxes : Inboxes ε) :
    bus.silenced.publishAll (event :: events) inboxes =
      bus.silenced.publishAll events (bus.silenced.publish event inboxes).1 := by
  rw [publishAll, publish_silenced]
  rfl

theorem publishAll_silenced (events : List ε) (inboxes : Inboxes ε) :
    (bus.silenced.publishAll events inboxes).2 = false ∧
      ∀ k, (bus.silenced.publishAll events inboxes).1 k = inboxes k ++
        events.flatMap fun event => List.replicate ((bus.recipients event).count k) event := by
  induction events generalizing inboxes with
  | nil => exact ⟨rfl, fun k => (List.append_nil _).symm⟩
  | cons event events ih =>
    obtain ⟨hnot, hget⟩ := ih (bus.silenced.publish event inboxes).1
    rw [publishAll_silenced_cons]
    refine ⟨hnot, fun k => ?_⟩
    rw [hget, publish_silenced_apply, List.append_assoc, List.flatMap_cons]

theorem publishAll_of_not_raised {events : List ε} {inboxes : Inboxes ε}
    (h : (bus.publishAll events inboxes).2 = false) :
    (bus.publishAll events inboxes).1 = (bus.silenced.publishAll events inboxes).1 := by
  induction events generalizing inboxes with
  | nil => rfl
  | cons event events ih =>
    rw [publishAll_silenced_cons]
    rw [publishAll] at h ⊢
    by_cases hraised : (bus.publish event inboxes).2 = true
    · rw [if_pos hraised, hraised] at h
      exact absurd h (Bool.false_ne_true ∘ Eq.symm)
    · rw [if_neg hraised] at h ⊢
      rw [ih h, publish_of_not_raised (Bool.eq_false_of_not_eq_true hraised)]

theorem publishAll_singleton (event : ε) (inboxes : Inboxes ε) :
    bus.publishAll [event] inboxes = bus.publish event inboxes := by
  rw [publishAll, publishAll]
  split_ifs with h
  · rfl
  · exact Prod.ext rfl (Bool.eq_false_of_not_eq_true h).symm

theorem publishAll_append (events events' : List ε) (inboxes : Inboxes ε) :
    bus.publishAll (events ++ events') inboxes =
      if (bus.publishAll events inboxes).2 then bus.publishAll events inboxes
      else bus.publishAll events' (bus.publishAll events inboxes).1 := by
  induction events generalizing inboxes with
  | nil => rfl
  | cons event events ih =>
    rw [List.cons_append, publishAll, publishAll]
    by_cases h : (bus.publish event inboxes).2 = true
    · rw [if_pos h, if_pos h, if_pos h]
    · rw [if_neg h, if_neg h, ih]

/-- **When nobody misses anything.** -/
theorem spares_iff {events : List ε} {inboxes : Inboxes ε} :
    bus.Spares events inboxes ↔ ∀ k, bus.Returns k →
      (bus.publishAll events inboxes).1 k = (bus.silenced.publishAll events inboxes).1 k := by
  induction events generalizing inboxes with
  | nil => exact iff_of_true trivial fun _ _ => rfl
  | cons event events ih =>
    by_cases hraised : (bus.publish event inboxes).2 = true
    · rw [Spares, if_pos hraised]
      refine forall_congr' fun k => imp_congr_right fun _ => ?_
      have hmissed : _ = inboxes k ++ List.replicate ((bus.recipients event).count k) event :=
        @dispatch_append_unreached _ bus event k (bus.recipients event) inboxes
      rw [publishAll, if_pos hraised, (publishAll_silenced _ _).2, List.flatMap_cons,
        ← List.append_assoc, ← hmissed, List.append_assoc]
      change _ ↔ (bus.publish event inboxes).1 k = (bus.publish event inboxes).1 k ++ _
      rw [List.self_eq_append_right, List.append_eq_nil_iff, List.flatMap_eq_nil_iff,
        List.replicate_eq_nil_iff, List.count_eq_zero]
      simp only [List.replicate_eq_nil_iff, List.count_eq_zero]
    · rw [Spares, if_neg hraised, ih, publishAll, if_neg hraised, publishAll_silenced_cons,
        publish_of_not_raised (Bool.eq_false_of_not_eq_true hraised)]

end Sequence

end EventBus

end TradingPlatform
