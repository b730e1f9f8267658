import TradingPlatform.Execution.Reconciler

/-!
# Totals over the fills on the books

A position is a sum over all fills, and so is the quantity recorded for a symbol. Both are
instances of one total (`TradingPlatform.Oms.total`): the sum of a weight over the fills of
every order. What matters about it is what each step of the order management system does to
it: a quiet step nothing, a fill its weight, a new order nothing, a synthetic order the
weight of its one fill.

The net position the reconciler computes is the total of the signed quantities
(`TradingPlatform.Oms.ourQty_computeExpectedPositions`).
-/

namespace TradingPlatform

namespace Oms

/-- The sum of a weight over all fills. -/
def total (w : Fill → Decimal) (s : Oms) : Decimal :=
  (s.orders.keys.map fun k => ((s.getFills k).map w).sum).sum

/-- The effect of a fill on the position in a symbol. -/
def signedFor (sym : String) (fill : Fill) : Decimal :=
  if fill.symbol = sym then fill.signedQty else 0

/-- The net position in a symbol. -/
def netQty (s : Oms) (sym : String) : Decimal := s.total (signedFor sym)

section Total

variable {s s' : Oms} {k : OrderId} (w : Fill → Decimal)

theorem getFills_of_get? {fills : List Fill} (h : s.fillsByOrder.get? k = some fills) :
    s.getFills k = fills := by
  rw [getFills, h]
  rfl

theorem getFills_congr (h : s'.fillsByOrder.get? k = s.fillsByOrder.get? k) :
    s'.getFills k = s.getFills k := by
  rw [getFills, getFills, h]

/-- The fills of each order after an order moved. -/
theorem Moves.getFills {order : Order} {fsm : OrderFsm} {event : OrderEvent} {fills : List Fill}
    (h : s.Moves s' k order fsm event fills) (hs : s.Keyed) {old : Order}
    (hold : s.orders.get? k = some old) (k' : OrderId) :
    s'.getFills k' = if k' = k then s.getFills k' ++ fills else s.getFills k' := by
  by_cases hk : k' = k
  · subst hk
    obtain ⟨old', hf⟩ := hs.exists_fills hold
    rw [if_pos rfl, getFills_of_get? hf]
    refine getFills_of_get? ?_
    rw [h.fills, if_pos rfl, hf]
    rfl
  · rw [if_neg hk]
    exact getFills_congr (by rw [h.fills, if_neg hk])

/-- Moving an order adds the weight of the fills that came with the move. -/
theorem Moves.total {order : Order} {fsm : OrderFsm} {event : OrderEvent} {fills : List Fill}
    (h : s.Moves s' k order fsm event fills) (hs : s.Keyed) {old : Order}
    (hold : s.orders.get? k = some old) : s'.total w = s.total w + (fills.map w).sum := by
  rw [Oms.total, Oms.total, h.keys]
  refine Dict.sum_map_add_at s.orders.nodup_keys (Dict.mem_keys_of_get? hold) ?_ fun k' hk => ?_
  · rw [h.getFills hs hold, if_pos rfl, List.map_append, List.sum_append]
  · rw [h.getFills hs hold, if_neg hk]

/-- A quiet step brings no fill. -/
theorem Quiet.getFills (h : s.Quiet s') (hs : s.Keyed) (k : OrderId) :
    s'.getFills k = s.getFills k := by
  rcases h.maps with hbook | ⟨k', old, order, fsm, event, hold, -, -, -, hmove⟩
  · exact getFills_congr (by rw [hbook])
  · rw [hmove.getFills hs hold, List.append_nil, ite_self]

/-- A quiet step changes no total. -/
theorem Quiet.total (h : s.Quiet s') (hs : s.Keyed) : s'.total w = s.total w := by
  rw [Oms.total, Oms.total, h.keys]
  exact congrArg List.sum (List.map_congr_left fun k _ => by rw [h.getFills hs])

/-- The fills of each order after a fill. -/
theorem getFills_handleFill (hs : s.Keyed) {order : Order} (h : s.orders.get? k = some order)
    (fill : Fill) (ts : Time) (k' : OrderId) :
    (s.handleFill k fill ts).getFills k' =
      if k' = k then s.getFills k' ++ [fill.correctedFor order] else s.getFills k' := by
  obtain ⟨fsm, hf⟩ := hs.exists_fsm h
  exact (handleFill_advances h hf fill ts).getFills hs h k'

/-- The fills of each order after an order was introduced. -/
theorem Introduces.getFills {order : Order} {ts : Time} (h : s.Introduces s' order ts)
    (k' : OrderId) : s'.getFills k' = if k' = order.id then [] else s.getFills k' := by
  by_cases hk : k' = order.id
  · rw [if_pos hk]
    exact getFills_of_get? (by rw [h.fills, if_pos hk])
  · rw [if_neg hk]
    exact getFills_congr (by rw [h.fills, if_neg hk])

/-- A fill adds its weight, with the agent and the symbol of its order. -/
theorem total_handleFill (hs : s.Keyed) {order : Order} (h : s.orders.get? k = some order)
    (fill : Fill) (ts : Time) :
    (s.handleFill k fill ts).total w = s.total w + w (fill.correctedFor order) := by
  obtain ⟨fsm, hf⟩ := hs.exists_fsm h
  rw [(handleFill_advances h hf fill ts).total w hs h]
  simp

/-- A new order has no fill. -/
theorem Introduces.total {order : Order} {ts : Time} (h : s.Introduces s' order ts)
    (hfresh : order.id ∉ s.orders.keys) : s'.total w = s.total w := by
  have hself : s'.getFills order.id = [] := by rw [h.getFills, if_pos rfl]
  have hne : ∀ k ∈ s.orders.keys, s'.getFills k = s.getFills k := by
    intro k hk
    have hkk : k ≠ order.id := fun hc => hfresh (hc ▸ hk)
    rw [h.getFills, if_neg hkk]
  rw [Oms.total, Oms.total, h.keys, Dict.keys_set_of_notMem _ hfresh, List.map_append,
    List.sum_append]
  simp only [List.map_cons, List.map_nil, hself, List.sum_nil, List.sum_cons, add_zero]
  exact congrArg List.sum (List.map_congr_left fun k hk => by rw [hne k hk])

/-- A synthetic order adds the weight of its one fill. -/
theorem total_bookGhost (hs : s.Keyed) {ghost : Ghost} (hfresh : ghost.ids.order ∉ s.orders.keys) :
    (s.bookGhost ghost).total w = s.total w + w ghost.fill := by
  obtain ⟨s₁, s₂, fsm, h₁, -, hf₁, h₂, h₃⟩ := s.bookGhost_steps ghost
  have hk₁ := h₁.keyed hs
  have hk₂ := h₂.keyed hk₁ h₁.get?_self rfl
  have ho₂ := (h₂.orders ghost.ids.order).trans (if_pos rfl)
  rw [h₃, total_handleFill w hk₂ ho₂, h₂.total w hk₁ h₁.get?_self, h₁.total w hfresh]
  have hcor : ghost.fill.correctedFor
      (Order.moved { ghost.order with
        state := .submitted, brokerOrderId := some ghost.brokerOrderId
        submittedAt := some ghost.ts } fsm .accept) = ghost.fill :=
    (Order.sameTrade_moved _ _ _).correctedFor_eq ghost.fill
  simp [hcor]

theorem keys_bookGhost (hs : s.Keyed) (ghost : Ghost) (k : OrderId) :
    k ∈ (s.bookGhost ghost).orders.keys ↔ k = ghost.ids.order ∨ k ∈ s.orders.keys := by
  obtain ⟨s₁, s₂, fsm, h₁, -, hf₁, h₂, h₃⟩ := s.bookGhost_steps ghost
  have hk₂ := h₂.keyed (h₁.keyed hs) h₁.get?_self rfl
  have ho₂ := (h₂.orders ghost.ids.order).trans (if_pos rfl)
  obtain ⟨fsm', hf'⟩ := hk₂.exists_fsm ho₂
  rw [h₃, (handleFill_advances ho₂ hf' _ _).keys, h₂.keys, h₁.keys]
  exact Dict.mem_keys_set

/-- A synthetic order moves the position in its symbol, and no other. -/
theorem netQty_bookGhost (hs : s.Keyed) {ghost : Ghost} (hfresh : ghost.ids.order ∉ s.orders.keys)
    (sym : String) :
    (s.bookGhost ghost).netQty sym =
      s.netQty sym + if sym = ghost.symbol then ghost.fill.signedQty else 0 := by
  rw [netQty, total_bookGhost _ hs hfresh, netQty, signedFor]
  exact congrArg _ (if_congr eq_comm rfl rfl)

end Total

/-! ### Adopting a position -/

section Adopt

variable {s : Oms} {ids : GhostIds} (symbol : String) (qty price : Decimal) (agentId : AgentId)
  (ts : Time)

theorem Keyed.adoptOrphanPosition (hs : s.Keyed) :
    (s.adoptOrphanPosition ids symbol qty price agentId ts).Keyed := by
  rw [Oms.adoptOrphanPosition]
  exact hs.bookGhost _

theorem keys_adoptOrphanPosition (hs : s.Keyed) (k : OrderId) :
    k ∈ (s.adoptOrphanPosition ids symbol qty price agentId ts).orders.keys ↔
      k = ids.order ∨ k ∈ s.orders.keys := by
  rw [adoptOrphanPosition, keys_bookGhost hs]

/-- Adopting a position adds it to its symbol, and nothing to the others. -/
theorem netQty_adoptOrphanPosition (hs : s.Keyed) (hfresh : ids.order ∉ s.orders.keys)
    (sym : String) :
    (s.adoptOrphanPosition ids symbol qty price agentId ts).netQty sym =
      s.netQty sym + if sym = symbol then qty else 0 := by
  rw [adoptOrphanPosition, netQty_bookGhost hs hfresh]
  rfl

end Adopt

/-! ### The net position the reconciler computes -/

theorem sum_flatMap {κ : Type*} (l : List κ) (g : κ → List Decimal) :
    (l.flatMap g).sum = (l.map fun k => (g k).sum).sum := by
  rw [List.flatMap, List.sum_flatten, List.map_map]
  rfl

/-- Folding fills into a dictionary of positions. -/
theorem getD_foldl_positions (fills : List Fill) (d : Dict String Decimal) (sym : String) :
    ((fills.foldl (fun positions fill =>
      positions.set fill.symbol ((positions.get? fill.symbol).getD 0 + fill.signedQty))
      d).get? sym).getD 0 = (d.get? sym).getD 0 + (fills.map (signedFor sym)).sum := by
  induction fills generalizing d with
  | nil => simp
  | cons fill fills ih =>
    rw [List.foldl_cons, ih, List.map_cons, List.sum_cons, ← add_assoc, Dict.get?_set, signedFor]
    by_cases h : sym = fill.symbol
    · rw [if_pos h, if_pos h.symm, h]
      rfl
    · rw [if_neg h, if_neg fun hc => h hc.symm, add_zero]

/-- The orders are kept under their own identifiers. -/
theorem Keyed.map_id_values {s : Oms} (hs : s.Keyed) :
    s.orders.values.map (·.id) = s.orders.keys := by
  rw [Dict.values, Dict.keys, List.map_map]
  refine List.map_congr_left fun e he => ?_
  exact hs.id_eq e.1 e.2 (Dict.get?_eq_some_iff.mpr he)

/-- The fills of all orders, order by order. -/
theorem Keyed.flatMap_getFills {s : Oms} (hs : s.Keyed) :
    (s.listOrders.flatMap fun order => s.getFills order.id) =
      s.orders.keys.flatMap s.getFills := by
  rw [← hs.map_id_values, List.flatMap_map]
  rfl

/-- **The reconciler's net position is the total of the signed quantities.** -/
theorem ourQty_computeExpectedPositions {s : Oms} (hs : s.Keyed) (sym : String) :
    Reconciler.ourQty s.computeExpectedPositions sym = s.netQty sym := by
  rw [Reconciler.ourQty, computeExpectedPositions, Dict.get?_filter, hs.flatMap_getFills, netQty,
    total]
  have hfold := getD_foldl_positions (s.orders.keys.flatMap s.getFills) .empty sym
  rw [Dict.get?_empty, Option.getD_none, zero_add, List.map_flatMap,
    sum_flatMap] at hfold
  refine Eq.trans ?_ hfold
  generalize (List.foldl _ _ _ : Dict String Decimal).get? sym = o
  rcases o with _ | q
  · rfl
  · by_cases hq : q = 0 <;> simp [Option.filter, hq]

end Oms

end TradingPlatform
