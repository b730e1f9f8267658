import TradingPlatform.Execution.OmsCells
import TradingPlatform.Execution.Positions

/-!
# Fills that agree with their orders

The live system relies on its log. It can always be replayed, and the replay knows the same
orders, for the same agent, in the same symbol, on the same side
(`TradingPlatform.Oms.Recorded`). So the property that every fill has the agent, the symbol
and the side of its order (`TradingPlatform.Oms.FillsAgree`), once it holds of the live maps
and of the log, survives a restart and the recovery that follows one
(`TradingPlatform.Oms.Consistent.recover`).

What can break it is a fill with the wrong side stamped on it, and nothing else
(`TradingPlatform.Oms.fillsAgree_handleFill_iff`): the system repairs the agent and the symbol
of a fill, and leaves the side as it came.
-/

namespace TradingPlatform

/-! ### What an order and its fills have in common -/

/-- What identifies an order's trades. The broker adapter remembers the same four things. -/
structure OrderMeta where
  agentId : AgentId
  orderId : OrderId
  symbol : String
  side : OrderSide
  deriving DecidableEq

def Order.orderMeta (order : Order) : OrderMeta :=
  ⟨order.agentId, order.id, order.symbol, order.side⟩

/-- The fill has the agent, the symbol and the side of the order. -/
def Fill.AgreesWith (fill : Fill) (order : Order) : Prop :=
  fill.side = order.side ∧ fill.agentId = order.agentId ∧ fill.symbol = order.symbol

theorem Order.SameTrade.orderMeta {order order' : Order} (h : order.SameTrade order') :
    order.orderMeta = order'.orderMeta := by
  rw [Order.orderMeta, h.agentId, h.id, h.symbol, h.side, Order.orderMeta]

theorem Fill.agreesWith_congr {order order' : Order} (h : order.orderMeta = order'.orderMeta)
    (fill : Fill) : fill.AgreesWith order ↔ fill.AgreesWith order' := by
  obtain ⟨ha, -, hs, hd⟩ := OrderMeta.mk.inj h
  rw [Fill.AgreesWith, Fill.AgreesWith, ha, hs, hd]

/-- The system puts the agent and the symbol right, so a fill agrees with its order exactly
when the adapter stamped the right side on it. -/
theorem Fill.correctedFor_agreesWith (fill : Fill) (order : Order) :
    (fill.correctedFor order).AgreesWith order ↔ fill.side = order.side :=
  ⟨fun h => h.1, fun h => ⟨h, rfl, rfl⟩⟩

namespace Book

section

variable {b b' : Book} {k : OrderId}

/-- An event that is no intent leaves the order of a cell what it was. -/
theorem orderMeta_onCell {logged : LoggedEvent} (h : ¬logged.IsIntent) (cell : Option Cell) :
    (logged.onCell cell).map (·.order.orderMeta) = cell.map (·.order.orderMeta) := by
  obtain ⟨kind, k, ts⟩ := logged
  cases kind with
  | orderSubmitIntent payload => exact absurd trivial h
  | orderAccepted _ | orderRejected _ | fillReceived _ | orderCancelled _ | orderExpired =>
    rcases cell with _ | cell <;> rfl
  | orderCancelRequested _ | reconcileNoop _ _ | reconcileRecovered _ _ | reconcileAbandoned _ =>
    rfl

/-- **Events about known orders can be replayed**, and leave the orders what they were. -/
theorem Paired.exists_applyLog (hb : b.Paired) {log : List LoggedEvent}
    (hlog : ∀ e ∈ log, ¬e.IsIntent ∧ (b.cell e.orderId).isSome) :
    ∃ b', b.applyLog log = some b' ∧
      ∀ k, (b'.cell k).map (·.order.orderMeta) = (b.cell k).map (·.order.orderMeta) := by
  induction log generalizing b with
  | nil => exact ⟨b, rfl, fun _ => rfl⟩
  | cons logged log ih =>
    obtain ⟨hi, hk⟩ := hlog logged List.mem_cons_self
    obtain ⟨b₁, h₁, hr⟩ := hb.exists_replays (hk ▸ logged.applies_of_known)
    have hmeta : ∀ k, (b₁.cell k).map (·.order.orderMeta) = (b.cell k).map (·.order.orderMeta) := by
      intro k
      rw [hr.cell]
      split_ifs
      · exact orderMeta_onCell hi _
      · rfl
    obtain ⟨b', h', hmeta'⟩ := ih hr.paired fun e he => by
      obtain ⟨hi', hk'⟩ := hlog e (List.mem_cons_of_mem _ he)
      refine ⟨hi', ?_⟩
      rw [← Option.isSome_map, hmeta, Option.isSome_map]
      exact hk'
    refine ⟨b', ?_, fun k => (hmeta' k).trans (hmeta k)⟩
    rw [Book.applyLog, List.foldlM_cons, h₁]
    exact h'

end

end Book

namespace Oms

/-- **What the log of the system replays to**: the same orders, as far as their trades go. -/
structure Recorded (s : Oms) (b : Book) : Prop where
  replays : Book.empty.applyLog s.store = some b
  orderMeta : ∀ k, (b.cell k).map (·.order.orderMeta) = (s.orders.get? k).map Order.orderMeta

section Recorded

variable {s s' : Oms} {b : Book}

theorem Recorded.paired (h : s.Recorded b) : b.Paired :=
  (Book.paired_empty.applyLog h.replays).1

/-- The fills of the replay are the fills of the log. -/
theorem Recorded.fillsOf (h : s.Recorded b) (k : OrderId) :
    b.fillsOf k = loggedFills s.store k :=
  (Book.paired_empty.applyLog h.replays).2.2 k

/-- The log has no fill of an order the system does not know. -/
theorem Recorded.loggedFills_of_get? (h : s.Recorded b) {k : OrderId}
    (hk : s.orders.get? k = none) : loggedFills s.store k = [] := by
  have hcell := h.orderMeta k
  rw [hk, Option.map_none, Option.map_eq_none_iff] at hcell
  rw [← h.fillsOf, h.paired.fillsOf_of_cell hcell]

theorem Recorded.isSome_cell (h : s.Recorded b) {k : OrderId} (hk : k ∈ s.orders.keys) :
    (b.cell k).isSome := by
  rw [← Option.isSome_map, h.orderMeta, Option.isSome_map]
  exact Option.isSome_iff_exists.mpr (Dict.mem_keys_iff.mp hk)

/-- An order of the replay is an order of the system. -/
theorem Recorded.exists_order (h : s.Recorded b) {k : OrderId} {order : Order}
    (ho : b.orders.get? k = some order) :
    ∃ old, s.orders.get? k = some old ∧ order.orderMeta = old.orderMeta := by
  have hk := h.orderMeta k
  rw [h.paired.get?_orders, Option.map_eq_some_iff] at ho
  obtain ⟨cell, hcell, rfl⟩ := ho
  rw [hcell, Option.map_some] at hk
  obtain ⟨old, hold, heq⟩ := Option.map_eq_some_iff.mp hk.symm
  exact ⟨old, hold, heq.symm⟩

/-- Logging events about known orders. -/
theorem Recorded.append (h : s.Recorded b) {log : List LoggedEvent}
    (hstore : s'.store = s.store ++ log)
    (hlog : ∀ e ∈ log, ¬e.IsIntent ∧ e.orderId ∈ s.orders.keys)
    (hmeta : ∀ k, (s'.orders.get? k).map Order.orderMeta = (s.orders.get? k).map Order.orderMeta) :
    ∃ b', s'.Recorded b' := by
  obtain ⟨b', hb', hcell⟩ := h.paired.exists_applyLog fun e he =>
    ⟨(hlog e he).1, h.isSome_cell (hlog e he).2⟩
  refine ⟨b', ?_, fun k => (hcell k).trans ((h.orderMeta k).trans (hmeta k).symm)⟩
  rw [hstore, Book.applyLog_append, h.replays]
  exact hb'

/-- Introducing an order. -/
theorem Recorded.introduces (h : s.Recorded b) {order : Order} {ts : Time}
    (hi : s.Introduces s' order ts) : ∃ b', s'.Recorded b' := by
  obtain ⟨b', hb', hr⟩ := h.paired.exists_replays
    (show LoggedEvent.Applies ⟨.orderSubmitIntent (serializeOrder order), order.id, ts⟩ _ from
      trivial)
  refine ⟨b', ?_, fun k => ?_⟩
  · rw [hi.store, Book.applyLog_append, h.replays, Option.bind_some, Book.applyLog,
      List.foldlM_cons, hb']
    rfl
  · rw [hr.cell, hi.orders]
    split_ifs
    · rfl
    · exact h.orderMeta k

end Recorded

/-! ### Orders stay what they are -/

section Keeps

variable {s s' : Oms}

/-- No order is forgotten, or turned into another. -/
def KeepsOrders (s s' : Oms) : Prop :=
  ∀ k m, (s.orders.get? k).map Order.orderMeta = some m →
    (s'.orders.get? k).map Order.orderMeta = some m

theorem KeepsOrders.refl (s : Oms) : s.KeepsOrders s := fun _ _ h => h

theorem KeepsOrders.trans {s₁ s₂ s₃ : Oms} (h : s₁.KeepsOrders s₂) (h' : s₂.KeepsOrders s₃) :
    s₁.KeepsOrders s₃ := fun k m hk => h' k m (h k m hk)

theorem keepsOrders_of_eq (h : ∀ k, (s'.orders.get? k).map Order.orderMeta =
    (s.orders.get? k).map Order.orderMeta) : s.KeepsOrders s' := fun k _ hk => (h k).trans hk

/-- Quiet steps leave the orders what they are. -/
theorem Quiet.orderMeta (h : s.Quiet s') (k : OrderId) :
    (s'.orders.get? k).map Order.orderMeta = (s.orders.get? k).map Order.orderMeta := by
  rcases ho : s.orders.get? k with _ | order
  · rw [Dict.get?_eq_none_iff, ← h.keys, ← Dict.get?_eq_none_iff] at ho
    rw [ho]
  · obtain ⟨order', ho', hsame⟩ := h.exists_order ho
    rw [ho', Option.map_some, Option.map_some, hsame.orderMeta]

theorem Quiet.keepsOrders (h : s.Quiet s') : s.KeepsOrders s' := keepsOrders_of_eq h.orderMeta

/-- A fill leaves the orders what they are. -/
theorem orderMeta_handleFill (hs : s.Keyed) (k : OrderId) (fill : Fill) (ts : Time)
    (k' : OrderId) :
    ((s.handleFill k fill ts).orders.get? k').map Order.orderMeta =
      (s.orders.get? k').map Order.orderMeta := by
  rcases h : s.orders.get? k with _ | order
  · rw [handleFill, h]
  · obtain ⟨fsm, hf⟩ := hs.exists_fsm h
    rw [(handleFill_advances h hf fill ts).orders]
    split_ifs with hk
    · rw [hk, h, Option.map_some, Option.map_some, (Order.sameTrade_moved _ _ _).orderMeta]
      rfl
    · rfl

theorem Introduces.keepsOrders {order : Order} {ts : Time} (h : s.Introduces s' order ts)
    (hid : ∀ old, s.orders.get? order.id = some old → old.orderMeta = order.orderMeta) :
    s.KeepsOrders s' := by
  intro k m hk
  rw [h.orders]
  split_ifs with hkk
  · subst hkk
    obtain ⟨old, hold, rfl⟩ := Option.map_eq_some_iff.mp hk
    exact congrArg some (hid old hold).symm
  · exact hk

end Keeps

/-! ### What a restart relies on -/

/-- **What a restart relies on**: the log replays to the orders there are. -/
structure Durable (s : Oms) : Prop where
  keyed : s.Keyed
  recorded : ∃ b, s.Recorded b

theorem durable_empty : Oms.empty.Durable where
  keyed := WellFormed.empty.toKeyed
  recorded := ⟨Book.empty, rfl, fun _ => rfl⟩

/-- A system that can be restarted goes on to be one, with the orders it has. -/
structure Evolves (s s' : Oms) : Prop where
  durable : s'.Durable
  keepsOrders : s.KeepsOrders s'

theorem Evolves.trans {s₁ s₂ s₃ : Oms} (h : s₁.Evolves s₂) (h' : s₂.Evolves s₃) :
    s₁.Evolves s₃ := ⟨h'.durable, h.keepsOrders.trans h'.keepsOrders⟩

section Evolves

variable {s s' : Oms}

theorem Durable.evolves_refl (hs : s.Durable) : s.Evolves s := ⟨hs, KeepsOrders.refl s⟩

theorem Quiet.evolves (h : s.Quiet s') (hs : s.Durable) : s.Evolves s' := by
  obtain ⟨b, hb⟩ := hs.recorded
  obtain ⟨log, hstore, hlog⟩ := h.store
  refine ⟨⟨h.keyed hs.keyed, ?_⟩, h.keepsOrders⟩
  exact hb.append hstore (fun e he => ⟨(hlog e he).1.not_isIntent, (hlog e he).2⟩) h.orderMeta

/-- An order may be introduced under a new identifier, or again as what it was. -/
theorem Introduces.evolves {order : Order} {ts : Time} (h : s.Introduces s' order ts)
    (hs : s.Durable)
    (hid : ∀ old, s.orders.get? order.id = some old → old.orderMeta = order.orderMeta) :
    s.Evolves s' := by
  obtain ⟨b, hb⟩ := hs.recorded
  exact ⟨⟨h.keyed hs.keyed, hb.introduces h⟩, h.keepsOrders hid⟩

theorem evolves_handleFill (hs : s.Durable) (k : OrderId) (fill : Fill) (ts : Time) :
    s.Evolves (s.handleFill k fill ts) := by
  rcases h : s.orders.get? k with _ | order
  · rw [handleFill, h]
    exact hs.evolves_refl
  obtain ⟨b, hb⟩ := hs.recorded
  obtain ⟨fsm, hf⟩ := hs.keyed.exists_fsm h
  have hmeta := orderMeta_handleFill hs.keyed k fill ts
  refine ⟨⟨hs.keyed.handleFill _ _ _, ?_⟩, keepsOrders_of_eq hmeta⟩
  refine hb.append (handleFill_advances h hf fill ts).store (fun e he => ?_) hmeta
  obtain rfl := List.mem_singleton.mp he
  exact ⟨id, Dict.mem_keys_of_get? h⟩

theorem evolves_bookGhost (hs : s.Durable) {ghost : Ghost}
    (hid : ∀ old, s.orders.get? ghost.ids.order = some old →
      old.orderMeta = ghost.order.orderMeta) : s.Evolves (s.bookGhost ghost) := by
  obtain ⟨s₁, s₂, fsm, h₁, -, hf₁, h₂, h₃⟩ := s.bookGhost_steps ghost
  have hq : s₁.Quiet s₂ := h₂.quiet h₁.get?_self hf₁ ⟨rfl, rfl, rfl, rfl, rfl⟩ rfl trivial
  have he := (h₁.evolves hs hid).trans (hq.evolves (h₁.evolves hs hid).durable)
  rw [h₃]
  exact he.trans (evolves_handleFill he.durable _ _ _)

/-- **A restart forgets no order**: the log can be replayed, and what it rebuilds knows the same
orders. -/
theorem Durable.exists_replay (hs : s.Durable) :
    ∃ r, (reboot s.store).replayLog = some r ∧ r.store = s.store ∧ r.Durable ∧
      (∀ k, (r.orders.get? k).map Order.orderMeta = (s.orders.get? k).map Order.orderMeta) ∧
      ∀ k, r.getFills k = loggedFills s.store k := by
  obtain ⟨b, hb⟩ := hs.recorded
  have hp := hb.paired
  have hmeta : ∀ k, (b.orders.get? k).map Order.orderMeta =
      (s.orders.get? k).map Order.orderMeta := by
    intro k
    rw [hp.get?_orders, Option.map_map, ← hb.orderMeta]
    rfl
  refine ⟨{ reboot s.store with toBook := b }, ?_, rfl, ⟨⟨hp.fsms_isSome, hp.fills_isSome, ?_⟩,
    b, hb.replays, fun k => ?_⟩, hmeta, hb.fillsOf⟩
  · exact Option.map_eq_some_iff.mpr ⟨b, hb.replays, rfl⟩
  · intro k order ho
    obtain ⟨old, hold, heq⟩ := hb.exists_order ho
    rw [← hs.keyed.id_eq k old hold]
    exact (OrderMeta.mk.inj heq).2.1
  · exact (hb.orderMeta k).trans (hmeta k).symm

/-- Catching up with the broker. -/
theorem evolves_catchUpFromBroker (hs : s.Durable) (k : OrderId) (broker : BrokerOrderStatus)
    (fillId : FillId) (ts : Time) : s.Evolves (s.catchUpFromBroker k broker fillId ts) := by
  rcases h : s.orders.get? k with _ | order
  · rw [Oms.catchUpFromBroker, h]
    exact hs.evolves_refl
  obtain ⟨s₁, s₂, s₃, h₁, h₂, h₃, h₄⟩ := catchUpFromBroker_steps hs.keyed h broker fillId ts
  have he₁ := h₁.evolves hs
  have he₂ : s₁.Evolves s₂ := by
    rw [h₂]
    split_ifs
    · exact evolves_handleFill he₁.durable _ _ _
    · exact he₁.durable.evolves_refl
  have he₃ := h₃.evolves he₂.durable
  exact ((he₁.trans he₂).trans he₃).trans (h₄.evolves he₃.durable)

theorem evolves_reconcileOpenOrder (hs : s.Durable) (env : RecoveryEnv) (k : OrderId) :
    s.Evolves (reconcileOpenOrder env s k).1 := by
  unfold Oms.reconcileOpenOrder
  rcases h : s.orders.get? k with _ | order
  · exact hs.evolves_refl
  have happend : ∀ kind : EventKind, (⟨kind, k, env.now⟩ : LoggedEvent).Silent →
      s.Evolves (s.append kind k env.now) := fun kind hk =>
    (quiet_append (Dict.mem_keys_of_get? h) hk).evolves hs
  dsimp only
  split_ifs
  · exact hs.evolves_refl
  · rcases env.findOrderByClientId k with _ | broker
    · have he := happend (.reconcileAbandoned "broker has no record after recovery") trivial
      exact he.trans ((quiet_handleRejection he.durable.keyed _ _ _).evolves he.durable)
    · dsimp only
      split_ifs
      · exact happend _ trivial
      · exact evolves_catchUpFromBroker hs _ _ _ _

/-- **Recovery forgets no order.** -/
theorem Durable.exists_recover (hs : s.Durable) (env : RecoveryEnv) :
    ∃ r, (reboot s.store).recover env = some r ∧ s.Evolves r.1 := by
  obtain ⟨r, hr, -, hd, hmeta, -⟩ := hs.exists_replay
  refine ⟨r.reconcileOpenOrders env, by rw [Oms.recover, hr, Option.map_some], ?_⟩
  rw [fst_reconcileOpenOrders]
  refine run_invariant (fun r' k (he' : s.Evolves r') => ?_) ⟨hd, keepsOrders_of_eq hmeta⟩ _
  exact he'.trans (evolves_reconcileOpenOrder he'.durable env k)

end Evolves

/-! ### Fills that agree with their orders -/

/-- **Every fill agrees with its order**, in the maps and in the log. -/
def FillsAgree (s : Oms) : Prop :=
  ∀ k order, s.orders.get? k = some order →
    ∀ fill ∈ s.getFills k ++ loggedFills s.store k, fill.AgreesWith order

/-- **The invariant behind it**: the log can be replayed, and rebuilds the orders. -/
structure Consistent (s : Oms) : Prop where
  keyed : s.Keyed
  recorded : ∃ b, s.Recorded b
  fillsAgree : s.FillsAgree

theorem consistent_empty : Oms.empty.Consistent where
  keyed := durable_empty.keyed
  recorded := durable_empty.recorded
  fillsAgree _ _ h := absurd h (by simp [Oms.empty, Book.empty])

section Consistent

variable {s s' : Oms}

theorem Consistent.durable (hs : s.Consistent) : s.Durable := ⟨hs.keyed, hs.recorded⟩

theorem Evolves.consistent (h : s.Evolves s') (hf : s'.FillsAgree) : s'.Consistent :=
  ⟨h.durable.keyed, h.durable.recorded, hf⟩

/-- Orders that are what they were, with no fill added to them. -/
theorem FillsAgree.mono (h : s.FillsAgree)
    (hmeta : ∀ k, (s'.orders.get? k).map Order.orderMeta = (s.orders.get? k).map Order.orderMeta)
    (hfills : ∀ k, s'.getFills k ++ loggedFills s'.store k ⊆
      s.getFills k ++ loggedFills s.store k) : s'.FillsAgree := by
  intro k order' ho' fill hfill
  have hk := hmeta k
  rw [ho', Option.map_some] at hk
  obtain ⟨order, ho, heq⟩ := Option.map_eq_some_iff.mp hk.symm
  exact (fill.agreesWith_congr heq).mp (h k order ho fill (hfills k hfill))

theorem Consistent.quiet (hs : s.Consistent) (h : s.Quiet s') : s'.Consistent := by
  obtain ⟨log, hstore, hlog⟩ := h.store
  refine (h.evolves hs.durable).consistent (hs.fillsAgree.mono h.orderMeta fun k => ?_)
  rw [h.getFills hs.keyed, hstore, loggedFills_append,
    loggedFills_of_silent fun e he => (hlog e he).1, List.append_nil]
  exact List.Subset.refl _

/-- An order may be introduced under a new identifier, or again as what it was. -/
theorem Consistent.introduces (hs : s.Consistent) {order : Order} {ts : Time}
    (h : s.Introduces s' order ts)
    (hid : ∀ old, s.orders.get? order.id = some old → old.orderMeta = order.orderMeta) :
    s'.Consistent := by
  obtain ⟨b, hb⟩ := hs.recorded
  refine (h.evolves hs.durable hid).consistent fun k order' ho' fill hfill => ?_
  have hlog : loggedFills s'.store k = loggedFills s.store k := by
    rw [h.store, loggedFills_append, loggedFills_singleton]
    exact List.append_nil _
  rw [h.getFills, hlog] at hfill
  rw [h.orders] at ho'
  by_cases hk : k = order.id
  · rw [if_pos hk, List.nil_append] at hfill
    rw [if_pos hk] at ho'
    cases ho'
    rcases hold : s.orders.get? k with _ | old
    · rw [hb.loggedFills_of_get? hold] at hfill
      cases hfill
    · have hmeta : old.orderMeta = order.orderMeta := hid old (hk ▸ hold)
      exact (fill.agreesWith_congr hmeta).mp
        (hs.fillsAgree k old hold fill (List.mem_append_right _ hfill))
  · rw [if_neg hk] at hfill ho'
    exact hs.fillsAgree k order' ho' fill hfill

/-- The fills of an order, in the maps and in the log, after a fill. -/
theorem mem_fills_handleFill (hs : s.Keyed) {k : OrderId} {order : Order}
    (h : s.orders.get? k = some order) (fill : Fill) (ts : Time) (k' : OrderId) (fill' : Fill) :
    fill' ∈ (s.handleFill k fill ts).getFills k' ++
        loggedFills (s.handleFill k fill ts).store k' ↔
      fill' ∈ s.getFills k' ++ loggedFills s.store k' ∨
        k' = k ∧ fill' = fill.correctedFor order := by
  obtain ⟨fsm, hf⟩ := hs.exists_fsm h
  rw [getFills_handleFill hs h, (handleFill_advances h hf fill ts).store, loggedFills_append,
    loggedFills_singleton]
  by_cases hk : k' = k
  · subst hk
    rw [LoggedEvent.fillsFor_fillReceived, deserializeFill_serializeFill]
    simp
    tauto
  · rw [LoggedEvent.fillsFor_of_ne (Ne.symm hk)]
    simp [hk]

/-- **A fill agrees with its order exactly when the right side is stamped on it.** -/
theorem fillsAgree_handleFill_iff (hs : s.Consistent) {k : OrderId} {order : Order}
    (h : s.orders.get? k = some order) (fill : Fill) (ts : Time) :
    (s.handleFill k fill ts).FillsAgree ↔ fill.side = order.side := by
  have hmeta := orderMeta_handleFill hs.keyed k fill ts
  constructor
  · intro hagree
    have hk := hmeta k
    rw [h, Option.map_some] at hk
    obtain ⟨order', ho', heq⟩ := Option.map_eq_some_iff.mp hk
    have hfill := hagree k order' ho' (fill.correctedFor order)
      ((mem_fills_handleFill hs.keyed h fill ts _ _).mpr (Or.inr ⟨rfl, rfl⟩))
    exact (fill.correctedFor_agreesWith order).mp ((Fill.agreesWith_congr heq _).mp hfill)
  · intro hside k' order' ho' fill' hfill'
    have hk := hmeta k'
    rw [ho', Option.map_some] at hk
    obtain ⟨old, ho, heq⟩ := Option.map_eq_some_iff.mp hk.symm
    refine (fill'.agreesWith_congr heq).mp ?_
    rcases (mem_fills_handleFill hs.keyed h fill ts _ _).mp hfill' with hfill' | ⟨rfl, rfl⟩
    · exact hs.fillsAgree k' old ho fill' hfill'
    · obtain rfl : order = old := Option.some.inj (h.symm.trans ho)
      exact (fill.correctedFor_agreesWith order).mpr hside

theorem Consistent.handleFill (hs : s.Consistent) {k : OrderId} {order : Order}
    (h : s.orders.get? k = some order) {fill : Fill} (hside : fill.side = order.side)
    (ts : Time) : (s.handleFill k fill ts).Consistent :=
  (evolves_handleFill hs.durable k fill ts).consistent
    ((fillsAgree_handleFill_iff hs h fill ts).mpr hside)

theorem Consistent.bookGhost (hs : s.Consistent) {ghost : Ghost}
    (hid : ∀ old, s.orders.get? ghost.ids.order = some old →
      old.orderMeta = ghost.order.orderMeta) : (s.bookGhost ghost).Consistent := by
  obtain ⟨s₁, s₂, fsm, h₁, -, hf₁, h₂, h₃⟩ := s.bookGhost_steps ghost
  have hq : s₁.Quiet s₂ := h₂.quiet h₁.get?_self hf₁ ⟨rfl, rfl, rfl, rfl, rfl⟩ rfl trivial
  rw [h₃]
  refine ((hs.introduces h₁ hid).quiet hq).handleFill ((h₂.orders _).trans (if_pos rfl)) ?_ _
  rw [(Order.sameTrade_moved _ _ _).side]
  rfl

/-! ### Restart and recovery -/

/-- **A restart loses no consistency**: the log of a consistent system can be replayed, and
what it rebuilds is consistent again. -/
theorem Consistent.replayLog (hs : s.Consistent) :
    ∃ r, (reboot s.store).replayLog = some r ∧ r.store = s.store ∧ r.Consistent := by
  obtain ⟨r, hr, hstore, hd, hmeta, hfills⟩ := hs.durable.exists_replay
  refine ⟨r, hr, hstore, hd.keyed, hd.recorded, hs.fillsAgree.mono hmeta fun k => ?_⟩
  rw [hfills, hstore]
  exact List.append_subset.mpr ⟨List.subset_append_right _ _, List.subset_append_right _ _⟩

/-- Catching up with the broker makes up a fill on the side of the order. -/
theorem Consistent.catchUpFromBroker (hs : s.Consistent) (k : OrderId)
    (broker : BrokerOrderStatus) (fillId : FillId) (ts : Time) :
    (s.catchUpFromBroker k broker fillId ts).Consistent := by
  rcases h : s.orders.get? k with _ | order
  · rwa [Oms.catchUpFromBroker, h]
  obtain ⟨s₁, s₂, s₃, h₁, h₂, h₃, h₄⟩ := catchUpFromBroker_steps hs.keyed h broker fillId ts
  obtain ⟨order₁, ho₁, hsame⟩ := h₁.exists_order h
  have hs₁ := hs.quiet h₁
  have hs₂ : s₂.Consistent := by
    rw [h₂]
    split_ifs
    · exact hs₁.handleFill ho₁ hsame.side.symm _
    · exact hs₁
  exact (hs₂.quiet h₃).quiet h₄

theorem Consistent.reconcileOpenOrder (hs : s.Consistent) (env : RecoveryEnv) (k : OrderId) :
    (reconcileOpenOrder env s k).1.Consistent := by
  unfold Oms.reconcileOpenOrder
  rcases h : s.orders.get? k with _ | order
  · exact hs
  have happend : ∀ kind : EventKind, (⟨kind, k, env.now⟩ : LoggedEvent).Silent →
      (s.append kind k env.now).Consistent := fun kind hk =>
    hs.quiet (quiet_append (Dict.mem_keys_of_get? h) hk)
  dsimp only
  split_ifs
  · exact hs
  · rcases env.findOrderByClientId k with _ | broker
    · have hs' := happend (.reconcileAbandoned "broker has no record after recovery") trivial
      exact hs'.quiet (quiet_handleRejection hs'.keyed _ _ _)
    · dsimp only
      split_ifs
      · exact happend _ trivial
      · exact hs.catchUpFromBroker _ _ _ _

theorem Consistent.reconcileOpenOrders (hs : s.Consistent) (env : RecoveryEnv) :
    (s.reconcileOpenOrders env).1.Consistent := by
  rw [fst_reconcileOpenOrders]
  exact run_invariant (fun s k (hs : s.Consistent) => hs.reconcileOpenOrder env k) hs _

/-- **Recovery keeps every fill in agreement with its order.** -/
theorem Consistent.recover (hs : s.Consistent) (env : RecoveryEnv) :
    ∃ r, (reboot s.store).recover env = some r ∧ r.1.Consistent := by
  obtain ⟨r, hr, -, hc⟩ := hs.replayLog
  refine ⟨r.reconcileOpenOrders env, ?_, hc.reconcileOpenOrders env⟩
  rw [Oms.recover, hr, Option.map_some]

end Consistent

end Oms

end TradingPlatform
