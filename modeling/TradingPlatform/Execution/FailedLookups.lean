import TradingPlatform.Execution.FakeBroker
import TradingPlatform.Execution.ReconcileCells

/-!
# Recovery when a lookup fails

Recovery asks the broker about one open order after the other, and a lookup may raise. Nothing
catches it on the way: the loop ends there, the application logs the error and goes on trading
with what was done so far (`TradingPlatform.Oms.recoverUntilRaise`). The periodic pass over the
orders, on the other hand, catches the errors of each order by itself.

So an order the broker would have answered for is left as it was, if an order before it could not
be looked up. It ends as if that lookup had concerned no order exactly if the answer has nothing
new (`TradingPlatform.Oms.isolates_iff`).
-/

namespace TradingPlatform

/-- What a recovery draws from outside, when a lookup may raise. -/
structure LookupEnv where
  findOrderByClientId : OrderId → Except BrokerError (Option BrokerOrderStatus)
  fillId : OrderId → FillId
  now : Time

namespace LookupEnv

/-- A lookup raises. -/
def Raises (env : LookupEnv) (k : OrderId) : Prop :=
  ∃ error, env.findOrderByClientId k = .error error

/-- The environment of a recovery in which a lookup was answered. -/
def answering (env : LookupEnv) (answer : Option BrokerOrderStatus) : RecoveryEnv :=
  ⟨fun _ => answer, env.fillId, env.now⟩

end LookupEnv

namespace Cell

/-- The event that follows a broker to the end of an order. -/
def closingEvent : BrokerOrderState → Option OrderEvent
  | .canceled => some .cancel
  | .rejected => some .reject
  | .expired => some .expire
  | .filled => some .fullFill
  | .new | .accepted | .partiallyFilled | .unknown => none

/-- **An answer has nothing new**: the broker has no record of an order that cannot be rejected
any more, or its record has no identifier and no fill that are missing here, and no end that the
machine would follow. -/
def NothingNew (cell : Cell) : Option BrokerOrderStatus → Prop
  | none => ¬cell.fsm.state.Takes .reject
  | some broker => cell.order.brokerOrderId ≠ none ∧ broker.filledQty ≤ cell.order.filledQty ∧
      ∀ event ∈ closingEvent broker.state, ¬cell.fsm.state.Takes event

/-- What recovery is for, of an order: its state, its filled quantity, its identifier at the
broker. -/
def outcome (cell : Cell) : OrderState × Decimal × Option String :=
  (cell.order.state, cell.order.filledQty, cell.order.brokerOrderId)

/-- What recovery does to an order whose lookup may raise, if the error is caught. -/
def reconcileCatching (env : LookupEnv) (k : OrderId) (cell : Cell) : Effect :=
  match env.findOrderByClientId k with
  | .error _ => (cell, [])
  | .ok answer => cell.reconcile (env.answering answer) k

end Cell

namespace Oms

/-- Ask the broker about one order, if it is open. -/
def reconcileOrRaise (env : LookupEnv) (s : Oms) (k : OrderId) : Except BrokerError Oms :=
  match s.orders.get? k with
  | none => .ok s
  | some order =>
    if order.state.Terminal then .ok s
    else (env.findOrderByClientId k).map fun answer =>
      (s.reconcileOpenOrder (env.answering answer) k).1

/-- Ask about one order after the other, until a lookup raises. -/
def reconcileUntilRaise (env : LookupEnv) (s : Oms) : List OrderId → Oms
  | [] => s
  | k :: keys =>
    match s.reconcileOrRaise env k with
    | .error _ => s
    | .ok s' => s'.reconcileUntilRaise env keys

/-- Ask about one order, and go on if the lookup raises. -/
def reconcileCatching (env : LookupEnv) (s : Oms) (k : OrderId) : Oms :=
  match s.reconcileOrRaise env k with
  | .error _ => s
  | .ok s' => s'

/-- What a recovery leaves that ends with the first lookup that raises. -/
def recoverUntilRaise (env : LookupEnv) (s : Oms) : Option Oms :=
  s.replayLog.map fun s => s.reconcileUntilRaise env s.orders.keys

/-- What a recovery leaves for which the lookups that raise concern no order. -/
def recoverAround (env : LookupEnv) (s : Oms) : Option Oms :=
  s.replayLog.map fun s => run (reconcileCatching env) s s.orders.keys

/-- **Recovery isolates failures**: every open order of the log that the broker answers for ends
as if the lookups that raise concerned no order. -/
def Isolates (log : List LoggedEvent) (env : LookupEnv) : Prop :=
  ∃ s s', (reboot log).recoverUntilRaise env = some s ∧ (reboot log).recoverAround env = some s' ∧
    ∀ k cell, Book.replayCell k log none = some cell → cell.order.state.Open →
      ¬env.Raises k → (s.cell k).map Cell.outcome = (s'.cell k).map Cell.outcome

end Oms

/-! ### What an answer changes -/

namespace Cell

variable {cell : Cell} {k : OrderId} {env : LookupEnv}

/-- An event that closes an order changes its outcome exactly if the machine takes it. -/
theorem outcome_drive_iff (hopen : cell.order.state.Open) {order : Order} (event : OrderEvent)
    (hevent : event.target.Terminal)
    (horder : (⟨order, cell.fsm⟩ : Cell).outcome = cell.outcome) :
    (cell.drive order event).outcome = cell.outcome ↔ ¬cell.fsm.state.Takes event := by
  constructor
  · intro h htakes
    have hstate : (cell.drive order event).order.state = cell.order.state :=
      congrArg Prod.fst h
    rw [state_drive, if_pos htakes] at hstate
    exact (OrderState.open_iff_not_terminal _).mp hopen (hstate ▸ hevent)
  · intro htakes
    rw [drive_of_not_takes htakes, horder]

/-- Following the broker to the end of an order. -/
theorem outcome_catchUpTerminal_iff (hopen : cell.order.state.Open) (broker : BrokerOrderStatus)
    (ts : Time) :
    (cell.catchUpTerminal k broker ts).1.outcome = cell.outcome ↔
      ∀ event ∈ closingEvent broker.state, ¬cell.fsm.state.Takes event := by
  have ht : ¬cell.order.state.Terminal := (OrderState.open_iff_not_terminal _).mp hopen
  have hone : ∀ event : OrderEvent, (∀ e ∈ some event, ¬cell.fsm.state.Takes e) ↔
      ¬cell.fsm.state.Takes event := by simp
  unfold catchUpTerminal closingEvent
  cases broker.state with
  | canceled =>
    rw [hone]
    dsimp only
    rw [handleClosing, if_neg ht]
    exact outcome_drive_iff hopen .cancel (by decide) rfl
  | rejected =>
    rw [hone]
    dsimp only
    rw [handleRejection, handleClosing, if_neg ht]
    exact outcome_drive_iff hopen .reject (by decide) rfl
  | expired =>
    rw [hone]
    dsimp only
    rw [handleClosing, if_neg ht]
    exact outcome_drive_iff hopen .expire (by decide) rfl
  | filled =>
    rw [hone]
    dsimp only
    rw [forceCloseFilled, if_neg ht]
    exact outcome_drive_iff hopen .fullFill (by decide) rfl
  | new | accepted | partiallyFilled | unknown =>
    exact iff_of_true rfl fun _ h => absurd h (Option.not_mem_none _)

/-- A fill leaves the identifier of an order alone. -/
theorem brokerOrderId_fillUp (broker : BrokerOrderStatus) (fillId : FillId) (ts : Time) :
    (cell.fillUp k broker fillId ts).1.order.brokerOrderId = cell.order.brokerOrderId := by
  rw [fillUp]
  split_ifs
  · exact Order.brokerOrderId_moved _ _ _
  · rfl

/-- What catching up leaves of the identifier and the filled quantity of an order. -/
theorem catchUp_order (broker : BrokerOrderStatus) (fillId : FillId) (ts : Time) :
    (cell.catchUp k broker fillId ts).1.order.brokerOrderId =
        (cell.acknowledge k broker ts).1.order.brokerOrderId ∧
      (cell.catchUp k broker fillId ts).1.order.filledQty =
        max cell.order.filledQty broker.filledQty := by
  obtain ⟨hid, hqty⟩ := catchUpTerminal_order k broker ts (cell.filled k broker fillId ts).1
  refine ⟨hid.trans (brokerOrderId_fillUp _ _ _), hqty.trans (filledQty_fillUp.trans ?_)⟩
  rw [(cell.acknowledge_sameTrade k broker ts).1.filledQty]

/-- **Catching up changes nothing exactly if the broker has nothing new.** -/
theorem outcome_catchUp_iff (hopen : cell.order.state.Open) (broker : BrokerOrderStatus)
    (fillId : FillId) (ts : Time) :
    (cell.catchUp k broker fillId ts).1.outcome = cell.outcome ↔
      cell.NothingNew (some broker) := by
  obtain ⟨hid, hqty⟩ := cell.catchUp_order broker fillId ts (k := k)
  by_cases hack : cell.order.brokerOrderId = none
  · refine iff_of_false (fun h => ?_) fun h => h.1 hack
    have hsame := congrArg (fun o : OrderState × Decimal × Option String => o.2.2) h
    rw [acknowledge, if_pos hack] at hid
    have hgot : (cell.catchUp k broker fillId ts).1.order.brokerOrderId =
        some broker.brokerOrderId := hid.trans (Order.brokerOrderId_moved _ _ _)
    exact Option.some_ne_none _ (hgot.symm.trans (hsame.trans hack))
  by_cases hfill : broker.filledQty ≤ cell.order.filledQty
  · have hkept : cell.acknowledge k broker ts = (cell, []) := if_neg hack
    have hquiet : cell.fillUp k broker fillId ts = (cell, []) :=
      if_neg (not_lt.mpr (sub_nonpos.mpr hfill))
    have hcatch : (cell.catchUp k broker fillId ts).1 = (cell.catchUpTerminal k broker ts).1 := by
      rw [catchUp, hkept]
      dsimp only [Effect.andThen]
      rw [hquiet]
    rw [hcatch, outcome_catchUpTerminal_iff hopen]
    exact ⟨fun h => ⟨hack, hfill, h⟩, fun h => h.2.2⟩
  · refine iff_of_false (fun h => ?_) fun h => hfill h.2.1
    have hsame := congrArg (fun o : OrderState × Decimal × Option String => o.2.1) h
    exact (lt_max_of_lt_right (not_le.mp hfill)).ne' (hqty.symm.trans hsame)

/-- A record that agrees with an open order has nothing new. -/
theorem nothingNew_of_matches (hopen : cell.order.state.Open) {broker : BrokerOrderStatus}
    (h : brokerStateMatches cell.order broker) : cell.NothingNew (some broker) := by
  obtain ⟨hid, hqty, hstate⟩ := h
  refine ⟨hid ▸ Option.some_ne_none _, hqty.ge, fun event hevent => ?_⟩
  have hterminal : ∀ state : OrderState, cell.order.state = state → ¬state.Terminal :=
    fun state hs => hs ▸ (OrderState.open_iff_not_terminal _).mp hopen
  revert hstate hevent
  cases broker.state with
  | canceled | rejected | expired | filled =>
    exact fun hstate _ => absurd (by decide) (hterminal _ hstate.symm)
  | new | accepted | partiallyFilled | unknown =>
    exact fun _ hevent => absurd hevent (Option.not_mem_none _)

/-- **Recovery changes nothing about an open order exactly if the answer has nothing new.** -/
theorem outcome_reconcile_iff (hopen : cell.order.state.Open) (answer : Option BrokerOrderStatus) :
    (cell.reconcile (env.answering answer) k).1.outcome = cell.outcome ↔
      cell.NothingNew answer := by
  have ht : ¬cell.order.state.Terminal := (OrderState.open_iff_not_terminal _).mp hopen
  rw [reconcile, if_neg ht]
  rcases answer with _ | broker
  · change (cell.handleRejection k "abandoned_during_recovery" env.now).1.outcome = cell.outcome ↔ _
    rw [handleRejection, handleClosing, if_neg ht]
    exact outcome_drive_iff hopen .reject (by decide) rfl
  · change (if brokerStateMatches cell.order broker then _ else _ : Effect).1.outcome = _ ↔ _
    split_ifs with hmatch
    · exact iff_of_true rfl (nothingNew_of_matches hopen hmatch)
    · exact outcome_catchUp_iff hopen broker _ _

end Cell

/-! ### How far the loop gets -/

namespace LookupEnv

/-- The lookup of an open order raises. -/
def Stops (env : LookupEnv) (b : Book) (k : OrderId) : Prop :=
  ∃ cell, b.cell k = some cell ∧ cell.order.state.Open ∧ env.Raises k

end LookupEnv

namespace Oms

variable {env : LookupEnv} {s : Oms} {k : OrderId} {cell : Cell}

theorem reconcileOrRaise_of_stops (h : env.Stops s.toBook k) :
    ∃ error, s.reconcileOrRaise env k = .error error := by
  obtain ⟨cell, hcell, hopen, error, herror⟩ := h
  refine ⟨error, ?_⟩
  rw [reconcileOrRaise, (Book.cell_eq_some_iff.mp hcell).1]
  dsimp only
  rw [if_neg ((OrderState.open_iff_not_terminal _).mp hopen), herror]
  rfl

/-- An order whose lookup does not end the recovery is looked at as if errors were caught. -/
theorem reconcileOrRaise_of_not_stops (hs : s.Paired) (h : ¬env.Stops s.toBook k) :
    s.reconcileOrRaise env k = .ok (s.reconcileCatching env k) := by
  rw [reconcileCatching]
  rcases hraise : s.reconcileOrRaise env k with error | s'
  · refine absurd ?_ h
    rcases ho : s.orders.get? k with _ | order
    · rw [reconcileOrRaise, ho] at hraise
      cases hraise
    · rw [reconcileOrRaise, ho] at hraise
      dsimp only at hraise
      split_ifs at hraise with ht
      obtain ⟨cell, hcell⟩ := Option.isSome_iff_exists.mp
        ((mem_keys_iff_isSome_cell hs k).mp (Dict.mem_keys_of_get? ho))
      obtain rfl := Option.some.inj (ho.symm.trans (Book.cell_eq_some_iff.mp hcell).1)
      refine ⟨cell, hcell, (OrderState.open_iff_not_terminal _).mpr ht, ?_⟩
      rcases hf : env.findOrderByClientId k with error' | answer
      · exact ⟨error', hf⟩
      · rw [hf] at hraise
        cases hraise
  · rfl

/-- **Looking at one order acts on its cell**, if errors are caught. -/
theorem reconcileCatching_actsOn (hs : s.Paired) (h : s.cell k = some cell) (env : LookupEnv) :
    s.ActsOn (s.reconcileCatching env k) k (cell.reconcileCatching env k) := by
  have ho := (Book.cell_eq_some_iff.mp h).1
  rw [reconcileCatching, reconcileOrRaise, ho, Cell.reconcileCatching]
  dsimp only
  by_cases ht : cell.order.state.Terminal
  · rw [if_pos ht]
    rcases env.findOrderByClientId k with error | answer
    · exact actsOn_refl hs h
    · dsimp only
      rw [Cell.reconcile, if_pos ht]
      exact actsOn_refl hs h
  · rw [if_neg ht]
    rcases env.findOrderByClientId k with error | answer
    · exact actsOn_refl hs h
    · exact reconcileOpenOrder_actsOn hs h (env.answering answer)

/-- The orders before the first whose lookup raises are looked at, and no others. -/
theorem reconcileUntilRaise_eq (env : LookupEnv) {s₀ s : Oms} [DecidablePred (env.Stops s₀.toBook)]
    (hs : s.Paired) {keys : List OrderId} (hnd : keys.Nodup)
    (hsame : ∀ k ∈ keys, s.cell k = s₀.cell k) (hkeys : ∀ k ∈ keys, (s.cell k).isSome) :
    s.reconcileUntilRaise env keys =
      run (reconcileCatching env) s (keys.takeWhile fun k => ¬env.Stops s₀.toBook k) := by
  induction keys generalizing s with
  | nil => rfl
  | cons k keys ih =>
    have hstops : env.Stops s.toBook k ↔ env.Stops s₀.toBook k := by
      rw [LookupEnv.Stops, hsame k List.mem_cons_self, LookupEnv.Stops]
    rw [reconcileUntilRaise, List.takeWhile_cons]
    by_cases h : env.Stops s.toBook k
    · obtain ⟨error, herror⟩ := reconcileOrRaise_of_stops h
      rw [herror, if_neg (by simpa using hstops.mp h)]
      rfl
    · obtain ⟨hk, hnd'⟩ := List.nodup_cons.mp hnd
      obtain ⟨cell, hcell⟩ := Option.isSome_iff_exists.mp (hkeys k List.mem_cons_self)
      have hact := reconcileCatching_actsOn hs hcell env
      have hother : ∀ k' ∈ keys, (s.reconcileCatching env k).cell k' = s.cell k' :=
        fun k' hk' => (hact.cell k').trans (if_neg fun hc : k' = k => hk (hc ▸ hk'))
      rw [reconcileOrRaise_of_not_stops hs h, if_pos (by simpa using mt hstops.mpr h)]
      refine ih hact.paired hnd' (fun k' hk' => ?_) fun k' hk' => ?_
      · exact (hother k' hk').trans (hsame k' (List.mem_cons_of_mem _ hk'))
      · exact hother k' hk' ▸ hkeys k' (List.mem_cons_of_mem _ hk')

/-- **Looking at some orders** does to each cell what looking at that order does. -/
theorem cell_run_reconcileCatching (env : LookupEnv) (hs : s.Paired) {keys : List OrderId}
    (hnd : keys.Nodup) (hkeys : ∀ k ∈ keys, (s.cell k).isSome) (k : OrderId) :
    (run (reconcileCatching env) s keys).cell k =
      if k ∈ keys then (s.cell k).map fun cell => (cell.reconcileCatching env k).1
      else s.cell k := by
  have h := @actsOnAll_run OrderId id (reconcileCatching env)
    (fun k => Cell.reconcileCatching env k) keys (by rwa [List.map_id]) s hs hkeys
    fun k _ s' hs' _ cell hcell => reconcileCatching_actsOn hs' hcell env
  rw [List.map_id] at h
  exact h.cell k

end Oms

/-- In a list without repetitions, the part before the first element that fails has the elements
that neither fail nor come after one that does. -/
theorem mem_takeWhile_iff {α : Type} {p : α → Bool} {l : List α} (hnd : l.Nodup) {a : α}
    (ha : a ∈ l) : a ∈ l.takeWhile p ↔ p a ∧ ∀ b, [b, a].Sublist l → p b := by
  induction l with
  | nil => exact absurd ha List.not_mem_nil
  | cons c l ih =>
    obtain ⟨hc, hnd'⟩ := List.nodup_cons.mp hnd
    have hpair : ∀ b, [b, a].Sublist (c :: l) ↔ [b, a].Sublist l ∨ b = c ∧ a ∈ l := by
      intro b
      rw [List.cons_sublist_cons']
      simp
    rw [List.takeWhile_cons]
    by_cases hp : p c
    · rw [if_pos hp]
      by_cases hac : a = c
      · subst hac
        refine iff_of_true List.mem_cons_self ⟨hp, fun b hb => ?_⟩
        rcases (hpair b).mp hb with hb | ⟨-, hmem⟩
        · exact absurd (hb.subset (by simp)) hc
        · exact absurd hmem hc
      · have hmem : a ∈ l := (List.mem_cons.mp ha).resolve_left hac
        rw [List.mem_cons, or_iff_right hac, ih hnd' hmem]
        refine and_congr_right fun _ => forall_congr' fun b => ?_
        rw [hpair b]
        constructor
        · rintro h (hb | ⟨rfl, -⟩)
          · exact h hb
          · exact hp
        · exact fun h hb => h (Or.inl hb)
    · rw [if_neg hp]
      refine iff_of_false List.not_mem_nil fun h => ?_
      by_cases hac : a = c
      · exact hp (hac ▸ h.1)
      · exact hp (h.2 c ((hpair c).mpr (Or.inr ⟨rfl, (List.mem_cons.mp ha).resolve_left hac⟩)))

namespace Oms

variable {log : List LoggedEvent} {b : Book}

/-- **An order that is answered for** has the outcome it would have, just when no lookup before it
raises or the answer changes nothing. -/
theorem outcome_reached_iff (env : LookupEnv) {r : Oms} [DecidablePred (env.Stops r.toBook)]
    (hr : r.Paired) {k : OrderId} {cell : Cell} {answer : Option BrokerOrderStatus}
    (hcell : r.cell k = some cell) (hopen : cell.order.state.Open)
    (hfind : env.findOrderByClientId k = .ok answer) :
    ((run (reconcileCatching env) r (r.orders.keys.takeWhile fun k =>
        ¬env.Stops r.toBook k)).cell k).map Cell.outcome =
      ((run (reconcileCatching env) r r.orders.keys).cell k).map Cell.outcome ↔
        ∀ k', [k', k].Sublist r.orders.keys → env.Stops r.toBook k' →
          cell.NothingNew answer := by
  have hnd : r.orders.keys.Nodup := r.orders.nodup_keys
  have hkeys : ∀ k ∈ r.orders.keys, (r.cell k).isSome :=
    fun k => (mem_keys_iff_isSome_cell hr k).mp
  set reached := r.orders.keys.takeWhile fun k => ¬env.Stops r.toBook k
  have hreached : reached.Sublist r.orders.keys := List.takeWhile_sublist _
  have hk : k ∈ r.orders.keys := mem_keys_of_cell hr hcell
  have hnot : ¬env.Stops r.toBook k := by
    rintro ⟨_, _, _, error, herror⟩
    cases hfind.symm.trans herror
  have hcatch : cell.reconcileCatching env k = cell.reconcile (env.answering answer) k := by
    rw [Cell.reconcileCatching, hfind]
  rw [cell_run_reconcileCatching env hr (hnd.sublist hreached)
    (fun k hk => hkeys k (hreached.subset hk)),
    cell_run_reconcileCatching env hr hnd hkeys, if_pos hk, hcell, Option.map_some, hcatch]
  have hmem : k ∈ reached ↔ ∀ k', [k', k].Sublist r.orders.keys → ¬env.Stops r.toBook k' := by
    rw [mem_takeWhile_iff hnd hk]
    simp [hnot]
  by_cases hbefore : ∀ k', [k', k].Sublist r.orders.keys → ¬env.Stops r.toBook k'
  · rw [if_pos (hmem.mpr hbefore)]
    exact iff_of_true rfl fun k' hk' hstops => absurd hstops (hbefore k' hk')
  · -- the loop has ended before it comes to the order, which is left as it was
    rw [if_neg (mt hmem.mp hbefore), Option.map_some, Option.map_some, Option.some.injEq,
      eq_comm, Cell.outcome_reconcile_iff hopen]
    push Not at hbefore
    obtain ⟨k', hk', hstops⟩ := hbefore
    exact ⟨fun h _ _ _ => h, fun h => h k' hk' hstops⟩

/-- **When recovery isolates failures**: for every log that can be replayed and every outcome of
the lookups, every open order that the broker answers for ends as if the lookups that raise
concerned no order, exactly if the answer has nothing new for every order that comes after an open
order whose lookup raises. -/
theorem isolates_iff (hb : Book.empty.applyLog log = some b) (env : LookupEnv) :
    Isolates log env ↔ ∀ k' k, [k', k].Sublist b.orders.keys → env.Stops b k' → ∀ cell answer,
      b.cell k = some cell → cell.order.state.Open → env.findOrderByClientId k = .ok answer →
        cell.NothingNew answer := by
  classical
  obtain ⟨hp, hcells, -⟩ := Book.paired_empty.applyLog hb
  let r : Oms := { reboot log with toBook := b }
  have hr : (reboot log).replayLog = some r := Option.map_eq_some_iff.mpr ⟨b, hb, rfl⟩
  have hpaired : r.Paired := hp
  have huntil : (reboot log).recoverUntilRaise env = some (run (reconcileCatching env) r
      (r.orders.keys.takeWhile fun k => ¬env.Stops r.toBook k)) := by
    rw [recoverUntilRaise, hr, Option.map_some, reconcileUntilRaise_eq env hpaired
      r.orders.nodup_keys (fun _ _ => rfl) fun k => (mem_keys_iff_isSome_cell hpaired k).mp]
  have haround : (reboot log).recoverAround env =
      some (run (reconcileCatching env) r r.orders.keys) := by
    rw [recoverAround, hr, Option.map_some]
  constructor
  · rintro ⟨s, s', hs, hs', h⟩ k' k hk' hstops cell answer hcell hopen hfind
    obtain rfl := Option.some.inj (huntil.symm.trans hs)
    obtain rfl := Option.some.inj (haround.symm.trans hs')
    -- the order is answered for, so its outcome is the one it would have
    refine (outcome_reached_iff env hpaired hcell hopen hfind).mp ?_ k' hk' hstops
    refine h k cell ((hcells k).symm.trans hcell) hopen ?_
    rintro ⟨error, herror⟩
    cases hfind.symm.trans herror
  · intro h
    refine ⟨_, _, huntil, haround, fun k cell hcell hopen hanswered => ?_⟩
    rcases hfind : env.findOrderByClientId k with error | answer
    · exact absurd ⟨error, hfind⟩ hanswered
    · have hcell : r.cell k = some cell := (hcells k).trans hcell
      exact (outcome_reached_iff env hpaired hcell hopen hfind).mpr fun k' hk' hstops =>
        h k' k hk' hstops cell answer hcell hopen hfind

/-- The second order reached the broker, and the lookup of one of the two fails. -/
def outageEnv (failing : OrderId) : LookupEnv where
  findOrderByClientId k :=
    if k = failing then .error .unavailable
    else if k = 1 then .ok (some (statusOf (marketOrder 1 .buy 10) 10 .filled))
    else .ok (some (statusOf (marketOrder 2 .sell 3) 3 .filled))
  fillId _ := 7
  now := 5

/-- An outage that begins when the first order has been looked up. -/
theorem isolates_lateOutage : Isolates (run step Oms.empty downRun).store (outageEnv 2) := by
  obtain ⟨b, hb, -, -⟩ := exists_book_of_replayLog
    (by decide +kernel : ((reboot (run step Oms.empty downRun).store).replayLog).isSome)
  have hkeys : b.orders.keys = [1, 2] := by
    have hmap : (Book.empty.applyLog (run step Oms.empty downRun).store).map
        (fun b => b.orders.keys) = some [1, 2] := by
      decide +kernel
    rw [hb] at hmap
    exact Option.some.inj hmap
  refine (isolates_iff hb (outageEnv 2)).mpr fun k' k hsub hstops => ?_
  obtain ⟨_, _, _, error, herror⟩ := hstops
  rw [hkeys] at hsub
  -- the first order was answered for, and nothing comes after the second
  rcases List.mem_pair.mp (hsub.subset List.mem_cons_self) with rfl | rfl
  · cases herror
  · have hlt : 2 < k := by
      simpa using List.Pairwise.sublist hsub (by decide : [1, 2].Pairwise (· < ·))
    have hk : k = 1 ∨ k = 2 := List.mem_pair.mp (hsub.subset (List.mem_cons_of_mem _ (by simp)))
    rcases hk with rfl | rfl <;> exact absurd hlt (by decide)

/-- **One order that cannot be looked up leaves the rest unreconciled**: the second order was
filled while the system was down, and stays as it was submitted. -/
theorem not_isolates_outage :
    ((reboot (run step Oms.empty downRun).store).replayLog).isSome ∧
      ¬Isolates (run step Oms.empty downRun).store (outageEnv 1) := by
  refine ⟨by decide +kernel, ?_⟩
  rintro ⟨s, s', hs, hs', h⟩
  have hleft : ((reboot (run step Oms.empty downRun).store).recoverUntilRaise
      (outageEnv 1)).map (fun s => (s.cell 2).map Cell.outcome) =
        some (some (.submitted, 0, none)) := by
    decide +kernel
  have hdone : ((reboot (run step Oms.empty downRun).store).recoverAround
      (outageEnv 1)).map (fun s => (s.cell 2).map Cell.outcome) =
        some (some (.filled, 3, some "b-2")) := by
    decide +kernel
  rw [hs, Option.map_some, Option.some.injEq] at hleft
  rw [hs', Option.map_some, Option.some.injEq] at hdone
  have hopen : ∃ cell, Book.replayCell 2 (run step Oms.empty downRun).store none = some cell ∧
      cell.order.state.Open := by
    have hmap : (Book.replayCell 2 (run step Oms.empty downRun).store none).map
        (fun cell => cell.order.state) = some .submitted := by
      decide +kernel
    obtain ⟨cell, hcell, hstate⟩ := Option.map_eq_some_iff.mp hmap
    exact ⟨cell, hcell, hstate ▸ by decide⟩
  obtain ⟨cell, hcell, hopen⟩ := hopen
  have hsame := h 2 cell hcell hopen (by rintro ⟨error, ⟨⟩⟩)
  rw [hleft, hdone] at hsame
  exact absurd hsame (by decide)

end Oms

end TradingPlatform
