import TradingPlatform.Execution.LifeCycle
import TradingPlatform.Execution.OmsBus

/-!
# A crash loses no fill

What a replay gets wrong about an order's state it does not get wrong about its fills. A fill is
written to the log in the same step that puts it on the books, whatever the state of its order,
and the replay puts it back in the same place: so the log replays to the fills there are, order
by order (`TradingPlatform.Oms.Mirrors`), as long as an identifier is used for one order. A
second submission under an old identifier would clear the fills in memory, and not in the log.

The orders come back in the order they came in. So what the reconciler computes from the fills
comes back too, entry by entry (`TradingPlatform.Oms.computeExpectedPositions_congr`).
-/

namespace TradingPlatform

/-- A replay adds an order under a new identifier after the others. -/
theorem Book.exists_applyLoggedEvent_intent (b : Book) (payload : OrderPayload) {k : OrderId}
    (ts : Time) (hk : k ∉ b.orders.keys) :
    ∃ b', b.applyLoggedEvent ⟨.orderSubmitIntent payload, k, ts⟩ = some b' ∧
      b'.orders.keys = b.orders.keys ++ [k] := by
  have hmem : k ∈ (b.orders.set k (deserializeOrder payload)).keys :=
    Dict.mem_keys_set.mpr (Or.inl rfl)
  simp only [applyLoggedEvent, advance, Dict.get?_set_self, Option.some.injEq, exists_eq_left']
  rw [Dict.keys_set_of_mem _ hmem, Dict.keys_set_of_notMem _ hk]

namespace Oms

/-- **The log replays to the fills there are**, of the orders there are, in the same order. -/
structure Mirrors (s : Oms) (b : Book) : Prop where
  replays : Book.empty.applyLog s.store = some b
  fills : ∀ k, b.fillsOf k = s.getFills k
  keys : b.orders.keys = s.orders.keys

section Mirrors

variable {s s' : Oms} {b : Book}

theorem mirrors_empty : Oms.empty.Mirrors Book.empty := ⟨rfl, fun _ => rfl, rfl⟩

theorem Mirrors.paired (h : s.Mirrors b) : b.Paired := (Book.paired_empty.applyLog h.replays).1

theorem Mirrors.isSome_cell (h : s.Mirrors b) {k : OrderId} (hk : k ∈ s.orders.keys) :
    (b.cell k).isSome := by
  rw [← h.keys, Dict.mem_keys_iff] at hk
  obtain ⟨order, ho⟩ := hk
  rw [h.paired.get?_orders, Option.map_eq_some_iff] at ho
  obtain ⟨cell, hcell, -⟩ := ho
  rw [hcell]
  rfl

/-- Logging events about known orders, and putting the fills among them on the books. -/
theorem Mirrors.append (h : s.Mirrors b) {log : List LoggedEvent}
    (hstore : s'.store = s.store ++ log)
    (hlog : ∀ e ∈ log, ¬e.IsIntent ∧ e.orderId ∈ s.orders.keys)
    (hfills : ∀ k, s'.getFills k = s.getFills k ++ loggedFills log k)
    (hkeys : s'.orders.keys = s.orders.keys) : ∃ b', s'.Mirrors b' := by
  obtain ⟨b', hb', -⟩ := h.paired.exists_applyLog fun e he =>
    ⟨(hlog e he).1, h.isSome_cell (hlog e he).2⟩
  refine ⟨b', ?_, fun k => ?_, ?_⟩
  · rw [hstore, Book.applyLog_append, h.replays]
    exact hb'
  · rw [(h.paired.applyLog hb').2.2, h.fills, hfills]
  · rw [hkeys, ← h.keys]
    exact (h.paired.keys_applyLog hb' fun e he hi => absurd hi (hlog e he).1).1

/-- Introducing an order under a new identifier: there was no fill to clear. -/
theorem Mirrors.introduces (h : s.Mirrors b) (hs : s.Keyed) {order : Order} {ts : Time}
    (hi : s.Introduces s' order ts) (hfresh : order.id ∉ s.orders.keys) : ∃ b', s'.Mirrors b' := by
  have hnone : s.getFills order.id = [] := by
    have hk := hs.fills_isSome order.id
    rw [Dict.get?_eq_none_iff.mpr hfresh, Option.isSome_none, Option.isSome_eq_false_iff,
      Option.isNone_iff_eq_none] at hk
    rw [getFills, hk]
    rfl
  obtain ⟨b', happ, hkeys⟩ := b.exists_applyLoggedEvent_intent (serializeOrder order) ts
    (h.keys ▸ hfresh)
  have hr := h.paired.replays_of_eq_some happ
  refine ⟨b', ?_, fun k => ?_, ?_⟩
  · rw [hi.store, Book.applyLog_concat, h.replays, Option.bind_some, happ]
  · rw [hr.fillsOf, hi.getFills, h.fills]
    refine (List.append_nil _).trans ?_
    split_ifs with hk
    · rw [hk, hnone]
    · rfl
  · rw [hi.keys, Dict.keys_set_of_notMem _ hfresh, hkeys, h.keys]

theorem Mirrors.quiet (h : s.Mirrors b) (hs : s.Keyed) (hq : s.Quiet s') :
    ∃ b', s'.Mirrors b' := by
  obtain ⟨log, hstore, hlog⟩ := hq.store
  refine h.append hstore (fun e he => ⟨(hlog e he).1.not_isIntent, (hlog e he).2⟩)
    (fun k => ?_) hq.keys
  rw [hq.getFills hs, loggedFills_of_silent fun e he => (hlog e he).1, List.append_nil]

/-- **A fill goes to the log and to the books**, whatever the state of its order. -/
theorem Mirrors.handleFill (h : s.Mirrors b) (hs : s.Keyed) (k : OrderId) (fill : Fill)
    (ts : Time) : ∃ b', (s.handleFill k fill ts).Mirrors b' := by
  rcases ho : s.orders.get? k with _ | order
  · rw [Oms.handleFill, ho]
    exact ⟨b, h⟩
  obtain ⟨fsm, hf⟩ := hs.exists_fsm ho
  have hadv := handleFill_advances ho hf fill ts
  refine h.append hadv.store (fun e he => ?_) (fun k' => ?_) hadv.keys
  · obtain rfl := List.mem_singleton.mp he
    exact ⟨id, Dict.mem_keys_of_get? ho⟩
  · rw [getFills_handleFill hs ho, loggedFills_singleton]
    split_ifs with hk
    · rw [hk, LoggedEvent.fillsFor_fillReceived, deserializeFill_serializeFill]
    · rw [LoggedEvent.fillsFor_of_ne (Ne.symm hk), List.append_nil]

theorem Mirrors.bookGhost (h : s.Mirrors b) (hs : s.Keyed) {ghost : Ghost}
    (hfresh : ghost.ids.order ∉ s.orders.keys) : ∃ b', (s.bookGhost ghost).Mirrors b' := by
  obtain ⟨s₁, s₂, fsm, h₁, -, hf₁, h₂, h₃⟩ := s.bookGhost_steps ghost
  have hq : s₁.Quiet s₂ := h₂.quiet h₁.get?_self hf₁ ⟨rfl, rfl, rfl, rfl, rfl⟩ rfl trivial
  obtain ⟨b₁, hb₁⟩ := h.introduces hs h₁ hfresh
  obtain ⟨b₂, hb₂⟩ := hb₁.quiet (h₁.keyed hs) hq
  rw [h₃]
  exact hb₂.handleFill (hq.keyed (h₁.keyed hs)) _ _ _

/-- **Every handler keeps the log and the books together.** -/
theorem Mirrors.handle (h : s.Mirrors b) (hs : s.Keyed) {hd : Handler}
    (hfresh : s.FreshHandler hd) : ∃ b', (s.handle hd).Mirrors b' := by
  rcases handle_cases hs hd with hq | ⟨order, now, rfl, -, hi⟩ | ⟨ghost, rfl, heq⟩ |
    ⟨event, now, order, fill, rfl, -, -, -, heq⟩
  · exact h.quiet hs hq
  · exact h.introduces hs hi hfresh
  · rw [heq]
    exact h.bookGhost hs hfresh
  · rw [heq]
    exact h.handleFill hs _ _ _

end Mirrors

/-- A run under distinct identifiers leaves a log that replays to its fills. -/
theorem exists_mirrors_run {ops : List OmsOp} (hops : Along step Fresh Oms.empty ops) :
    (run step Oms.empty ops).Durable ∧ ∃ b, (run step Oms.empty ops).Mirrors b := by
  refine invariant_of_fresh (fun s => s.Durable ∧ ∃ b, s.Mirrors b) ?_
    ⟨durable_empty, Book.empty, mirrors_empty⟩ hops
  rintro s h ⟨hd, b, hb⟩ hh
  exact ⟨hd.handle h, hb.handle hd.keyed hh⟩

end Oms

end TradingPlatform
