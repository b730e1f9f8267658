import TradingPlatform.Execution.Adoption

/-!
# The books after a flatten

When positions are closed at the broker by hand, the order management system never hears of it, and
its log still says that it holds them. A script that runs while the system is down writes into the
log, for every position it finds there, an order that sells all of it. Before that it takes out what
it wrote in earlier runs.

The log is replayed at the next start. The script takes out whole orders and puts in whole orders,
so what it leaves can be replayed (`TradingPlatform.Book.exists_applyLog_filter`), and the
positions the reconciler computes from it are the old ones, with zero for every one that was long
(`TradingPlatform.ReconcileOms.reconcile_flattens`). However often it runs, only the last run counts
(`TradingPlatform.ReconcileOms.last_run_counts`) – and a dry run counts too: it writes nothing, but
it takes out.

Identifiers are drawn at random, so they are new: that is a hypothesis.
-/

namespace TradingPlatform

namespace Book

/-- **Whole orders can be taken out**: what is left of the log can be replayed, and rebuilds the
orders that are left, and their fills. -/
theorem exists_applyLog_filter (keep : OrderId → Bool) {log : List LoggedEvent} {b₁ b₂ b₁' : Book}
    (h₁ : b₁.Paired) (h₂ : b₂.Paired)
    (hcells : ∀ k, keep k = true → b₁.cell k = b₂.cell k) (h : b₁.applyLog log = some b₁') :
    ∃ b₂', b₂.applyLog (log.filter fun e => keep e.orderId) = some b₂' ∧ b₂'.Paired ∧
      ∀ k, keep k = true → b₁'.cell k = b₂'.cell k := by
  induction log generalizing b₁ b₂ with
  | nil =>
    obtain rfl : b₁ = b₁' := Option.some.inj h
    exact ⟨b₂, rfl, h₂, hcells⟩
  | cons e log ih =>
    obtain ⟨b, hb, hlog⟩ := Option.bind_eq_some_iff.mp h
    have hr := h₁.replays_of_eq_some hb
    by_cases hkeep : keep e.orderId = true
    · obtain ⟨c, hc, hr'⟩ := h₂.exists_replays (hcells _ hkeep ▸ h₁.applies hb)
      have hsame : ∀ k, keep k = true → b.cell k = c.cell k := by
        intro k hk
        rw [hr.cell, hr'.cell, hcells _ hk]
      obtain ⟨b₂', hb₂', hrest⟩ := ih hr.paired hr'.paired hsame hlog
      refine ⟨b₂', ?_, hrest⟩
      rw [List.filter_cons, if_pos hkeep]
      exact Option.bind_eq_some_iff.mpr ⟨c, hc, hb₂'⟩
    · -- the event is left out, and acts on no cell that is kept
      have hsame : ∀ k, keep k = true → b.cell k = b₂.cell k := by
        intro k hk
        have hne : k ≠ e.orderId := by
          rintro rfl
          exact hkeep hk
        rw [hr.cell, if_neg hne, hcells _ hk]
      obtain ⟨b₂', hb₂', hrest⟩ := ih hr.paired h₂ hsame hlog
      refine ⟨b₂', ?_, hrest⟩
      rw [List.filter_cons, if_neg hkeep]
      exact hb₂'

end Book

/-! ### The position that a log says -/

/-- The net position in a symbol, by the fills of a log. -/
def loggedNet (log : List LoggedEvent) (sym : String) : Decimal :=
  ((fillsLogged log).map (Oms.signedFor sym)).sum

@[simp] theorem loggedNet_append (log log' : List LoggedEvent) (sym : String) :
    loggedNet (log ++ log') sym = loggedNet log sym + loggedNet log' sym := by
  simp [loggedNet, fillsLogged]

/-- The system that has replayed a log. -/
def rebuilt (log : List LoggedEvent) (b : Book) : Oms := { Oms.reboot log with toBook := b }

theorem replayLog_eq {log : List LoggedEvent} {b : Book} (h : Book.empty.applyLog log = some b) :
    (Oms.reboot log).replayLog = some (rebuilt log b) :=
  Option.map_eq_some_iff.mpr ⟨b, h, rfl⟩

/-- **The positions after a replay** are what the fills of the log say. -/
theorem ourQty_rebuilt {log : List LoggedEvent} (hlog : Oms.Restartable log) {b : Book}
    (h : Book.empty.applyLog log = some b) (sym : String) :
    Reconciler.ourQty (rebuilt log b).computeExpectedPositions sym = loggedNet log sym := by
  have hkeyed : (rebuilt log b).Keyed := (hlog.durable h).keyed
  have hsound : (rebuilt log b).Sound := ⟨hkeyed, ⟨b, h, fun _ => rfl, rfl⟩, hlog.idAgrees⟩
  rw [Oms.ourQty_computeExpectedPositions hkeyed, Oms.netQty, hsound.total_eq]
  rfl

/-! ### The script -/

namespace ReconcileOms

def ghostBrokerPrefix : String := "ghost-flatten-"

def qtyThreshold : Decimal := 1 / 1000000

/-- The identifier at the broker is one that the script makes up. The database compares letters
without their case. -/
def HasGhostPrefix (brokerOrderId : String) : Prop :=
  ghostBrokerPrefix.toList <+: brokerOrderId.toList.map Char.toLower

instance : DecidablePred HasGhostPrefix := fun _ => inferInstanceAs (Decidable (_ <+: _))

/-- The orders of earlier runs. -/
def poisonIds (log : List LoggedEvent) : List OrderId :=
  log.filterMap fun e =>
    match e.kind with
    | .orderAccepted brokerOrderId => if HasGhostPrefix brokerOrderId then some e.orderId else none
    | _ => none

/-- Take out what earlier runs wrote. -/
def rollBack (log : List LoggedEvent) : List LoggedEvent :=
  log.filter fun e => e.orderId ∉ poisonIds log

/-- The fills of a log add up to a position in each symbol; only the long ones are kept. -/
def computeNetPositions (log : List LoggedEvent) : Dict String Decimal :=
  let net : Dict String Decimal := (fillsLogged log).foldl
    (fun net fill => net.set fill.symbol ((net.get? fill.symbol).getD 0 + fill.signedQty)) .empty
  net.filter fun _ qty => qtyThreshold < qty

/-- The order that sells a position. -/
def ghost (ids : GhostIds) (symbol : String) (netQty price : Decimal) (ts : Time) : Ghost where
  ids := ids
  brokerOrderId := ghostBrokerPrefix ++ toString ids.order
  side := .sell
  symbol := symbol
  qty := netQty
  price := price
  agentId := .manager
  ts := ts

def ghostEvents (ghost : Ghost) : List LoggedEvent :=
  [⟨.orderSubmitIntent (serializeOrder ghost.order), ghost.ids.order, ghost.ts⟩,
    ⟨.orderAccepted ghost.brokerOrderId, ghost.ids.order, ghost.ts⟩,
    ⟨.fillReceived (serializeFill ghost.fill), ghost.ids.order, ghost.ts⟩]

/-- What a run of the script is given: whether it writes, the identifiers it draws for each symbol,
the prices it finds, and the time. -/
structure Run where
  execute : Bool
  ids : String → GhostIds
  price : String → Decimal
  ts : Time

/-- The orders a run writes, symbol by symbol. -/
def Run.ghosts (r : Run) (log : List LoggedEvent) : List Ghost :=
  ((computeNetPositions log).entries.mergeSort fun e e' => e.1 ≤ e'.1).map fun e =>
    ghost (r.ids e.1) e.1 e.2 (r.price e.1) r.ts

/-- The source's `main`: what is in the log afterwards. -/
def main (log : List LoggedEvent) (r : Run) : List LoggedEvent :=
  let log := rollBack log
  if r.execute then log ++ (r.ghosts log).flatMap ghostEvents else log

/-- The identifiers that a run draws for the orders it may write are new, and different from each
other. -/
def Run.Fresh (r : Run) (log : List LoggedEvent) : Prop :=
  ((computeNetPositions log).keys.map fun sym => (r.ids sym).order).Nodup ∧
    ∀ sym ∈ (computeNetPositions log).keys, (r.ids sym).order ∉ log.map (·.orderId)

instance (r : Run) (log : List LoggedEvent) : Decidable (r.Fresh log) :=
  inferInstanceAs (Decidable (_ ∧ _))

/-- The identifiers of the orders of a run. -/
theorem Run.perm_orders (r : Run) (log : List LoggedEvent) :
    ((r.ghosts log).map fun g => g.ids.order).Perm
      ((computeNetPositions log).keys.map fun sym => (r.ids sym).order) := by
  rw [Run.ghosts, List.map_map, Dict.keys, List.map_map]
  exact (List.mergeSort_perm _ _).map _

theorem Run.Fresh.notMem {r : Run} {log : List LoggedEvent} (h : r.Fresh log) {g : Ghost}
    (hg : g ∈ r.ghosts log) : g.ids.order ∉ log.map (·.orderId) := by
  have hmem := (r.perm_orders log).subset (List.mem_map_of_mem (f := fun g => g.ids.order) hg)
  obtain ⟨sym, hsym, heq⟩ := List.mem_map.mp hmem
  exact heq ▸ h.2 sym hsym

/-! ### What is taken out -/

section RollBack

variable {log : List LoggedEvent} {r : Run}

theorem mem_poisonIds {k : OrderId} :
    k ∈ poisonIds log ↔ ∃ e ∈ log, e.orderId = k ∧
      ∃ brokerOrderId, e.kind = .orderAccepted brokerOrderId ∧ HasGhostPrefix brokerOrderId := by
  rw [poisonIds, List.mem_filterMap]
  refine exists_congr fun e => and_congr_right fun _ => ?_
  obtain ⟨kind, k', ts⟩ := e
  cases kind with
  | orderAccepted brokerOrderId =>
    by_cases hp : HasGhostPrefix brokerOrderId <;> simp [hp]
  | _ => simp

theorem mem_rollBack {e : LoggedEvent} :
    e ∈ rollBack log ↔ e ∈ log ∧ e.orderId ∉ poisonIds log := by
  rw [rollBack, List.mem_filter, decide_eq_true_iff]

/-- Nothing of an earlier run is left. -/
theorem poisonIds_rollBack (log : List LoggedEvent) : poisonIds (rollBack log) = [] := by
  refine List.eq_nil_iff_forall_not_mem.mpr fun k hk => ?_
  obtain ⟨e, he, rfl, brokerOrderId, hkind, hp⟩ := mem_poisonIds.mp hk
  obtain ⟨hmem, hnot⟩ := mem_rollBack.mp he
  exact hnot (mem_poisonIds.mpr ⟨e, hmem, rfl, brokerOrderId, hkind, hp⟩)

theorem rollBack_rollBack (log : List LoggedEvent) : rollBack (rollBack log) = rollBack log := by
  rw [rollBack, poisonIds_rollBack]
  exact List.filter_eq_self.mpr fun _ _ => by simp

theorem hasGhostPrefix_ghost (ids : GhostIds) (symbol : String) (netQty price : Decimal)
    (ts : Time) : HasGhostPrefix (ghost ids symbol netQty price ts).brokerOrderId := by
  have hlower : ghostBrokerPrefix.toList.map Char.toLower = ghostBrokerPrefix.toList := by decide
  change ghostBrokerPrefix.toList <+: (ghostBrokerPrefix ++ toString ids.order).toList.map _
  rw [String.toList_append, List.map_append, hlower]
  exact List.prefix_append _ _

theorem poisonIds_append (log log' : List LoggedEvent) :
    poisonIds (log ++ log') = poisonIds log ++ poisonIds log' := List.filterMap_append

/-- The orders a run writes are orders that the next one takes out. -/
theorem mem_poisonIds_ghosts {k : OrderId} (log : List LoggedEvent) (r : Run) :
    k ∈ poisonIds ((r.ghosts log).flatMap ghostEvents) ↔
      ∃ g ∈ r.ghosts log, g.ids.order = k := by
  rw [mem_poisonIds]
  constructor
  · rintro ⟨e, he, rfl, -⟩
    obtain ⟨g, hg, he⟩ := List.mem_flatMap.mp he
    refine ⟨g, hg, ?_⟩
    simp only [ghostEvents, List.mem_cons, List.not_mem_nil, or_false] at he
    rcases he with rfl | rfl | rfl <;> rfl
  · rintro ⟨g, hg, rfl⟩
    obtain ⟨x, -, rfl⟩ := List.mem_map.mp hg
    set g := ghost (r.ids x.1) x.1 x.2 (r.price x.1) r.ts
    have he : (⟨.orderAccepted g.brokerOrderId, g.ids.order, g.ts⟩ : LoggedEvent) ∈
        ghostEvents g := by simp [ghostEvents]
    exact ⟨_, List.mem_flatMap.mpr ⟨g, hg, he⟩, rfl, _, rfl, hasGhostPrefix_ghost _ _ _ _ _⟩

theorem orderId_of_mem_ghostEvents {g : Ghost} {e : LoggedEvent} (he : e ∈ ghostEvents g) :
    e.orderId = g.ids.order := by
  simp only [ghostEvents, List.mem_cons, List.not_mem_nil, or_false] at he
  rcases he with rfl | rfl | rfl <;> rfl

/-- **A run is undone by the next**, whether or not that one writes. -/
theorem rollBack_main (hfresh : r.Fresh (rollBack log)) :
    rollBack (main log r) = rollBack log := by
  rw [main]
  split_ifs with hexecute
  · set new := (r.ghosts (rollBack log)).flatMap ghostEvents
    have hpoison : ∀ k, k ∈ poisonIds (rollBack log ++ new) ↔
        ∃ g ∈ r.ghosts (rollBack log), g.ids.order = k := by
      intro k
      rw [poisonIds_append, poisonIds_rollBack, List.nil_append, mem_poisonIds_ghosts]
    have hold : ∀ e ∈ rollBack log, e.orderId ∉ poisonIds (rollBack log ++ new) := by
      intro e he hmem
      obtain ⟨g, hg, hid⟩ := (hpoison _).mp hmem
      exact hfresh.notMem hg (hid ▸ List.mem_map_of_mem he)
    have hnew : ∀ e ∈ new, e.orderId ∈ poisonIds (rollBack log ++ new) := by
      intro e he
      obtain ⟨g, hg, he⟩ := List.mem_flatMap.mp he
      exact (hpoison _).mpr ⟨g, hg, (orderId_of_mem_ghostEvents he).symm⟩
    -- what was there stays, and what the run wrote goes
    rw [rollBack, List.filter_append, List.filter_eq_self.mpr fun e he => by simpa using hold e he,
      List.filter_eq_nil_iff.mpr fun e he => by simpa using hnew e he, List.append_nil]
  · exact rollBack_rollBack log

/-- **Only the last run counts**: what is in the log after a run is what would be there if there had
been no other run before. A dry run takes out what the runs before it wrote. -/
theorem last_run_counts {runs : List Run} (hfresh : ∀ r ∈ runs, r.Fresh (rollBack log))
    (last : Run) : main (runs.foldl main log) last = main log last := by
  have hroll : rollBack (runs.foldl main log) = rollBack log := by
    induction runs generalizing log with
    | nil => rfl
    | cons r runs ih =>
      obtain ⟨hr, hruns⟩ := List.forall_mem_cons.mp hfresh
      have hmain := rollBack_main hr
      rw [List.foldl_cons, ih fun r' hr' => hmain.symm ▸ hruns r' hr', hmain]
  rw [main, hroll, main]

end RollBack

/-! ### What is put in -/

section Ghosts

variable {log : List LoggedEvent} {r : Run} {b : Book}

/-- A position the script finds is what the log says, if that is enough. -/
theorem getD_computeNetPositions (log : List LoggedEvent) (sym : String) :
    ((computeNetPositions log).get? sym).getD 0 =
      if qtyThreshold < loggedNet log sym then loggedNet log sym else 0 := by
  have hfold := Oms.getD_foldl_positions (fillsLogged log) .empty sym
  rw [Dict.get?_empty, Option.getD_none, zero_add] at hfold
  rw [computeNetPositions, Dict.get?_filter, loggedNet, ← hfold]
  generalize (List.foldl _ _ _ : Dict String Decimal).get? sym = o
  rcases o with _ | q
  · simp [qtyThreshold]
  · by_cases hq : qtyThreshold < q <;> simp [Option.filter, hq]

theorem fillsLogged_ghostEvents (ghosts : List Ghost) :
    fillsLogged (ghosts.flatMap ghostEvents) = ghosts.map Ghost.fill := by
  induction ghosts with
  | nil => rfl
  | cons g ghosts ih =>
    rw [List.flatMap_cons, fillsLogged_append, ih, List.map_cons]
    rfl

/-- The sum over a dictionary of what it has under one key. -/
theorem sum_entries_ite (d : Dict String Decimal) (sym : String) :
    (d.entries.map fun e => if e.1 = sym then -e.2 else 0).sum = -(d.get? sym).getD 0 := by
  have hfilter : ∀ l : List (String × Decimal),
      (l.map fun e => if e.1 = sym then -e.2 else 0).sum =
        ((l.filter fun e => e.1 = sym).map fun e => -e.2).sum := by
    intro l
    induction l with
    | nil => rfl
    | cons e l ih =>
      by_cases he : e.1 = sym
      · simp [he, ih]
      · simp [he, ih]
  rw [hfilter, Dict.filter_key_eq]
  rcases d.get? sym with _ | q
  · simp
  · simp

/-- **What a run sells** is what it finds. -/
theorem loggedNet_ghosts (log : List LoggedEvent) (r : Run) (sym : String) :
    loggedNet ((r.ghosts log).flatMap ghostEvents) sym =
      -((computeNetPositions log).get? sym).getD 0 := by
  rw [← sum_entries_ite, loggedNet, fillsLogged_ghostEvents, Run.ghosts, List.map_map, List.map_map]
  exact ((List.mergeSort_perm _ _).map _).sum_eq

/-- The orders that are written can be replayed after anything. -/
theorem exists_applyLog_ghosts (hb : b.Paired) (ghosts : List Ghost) :
    ∃ b', b.applyLog (ghosts.flatMap ghostEvents) = some b' := by
  induction ghosts generalizing b with
  | nil => exact ⟨b, rfl⟩
  | cons g ghosts ih =>
    -- the intent makes the order, and the other two events are about it
    let intent : LoggedEvent :=
      ⟨.orderSubmitIntent (serializeOrder g.order), g.ids.order, g.ts⟩
    have happlies : intent.Applies (b.cell intent.orderId).isSome := trivial
    obtain ⟨b₁, hb₁, h₁⟩ := hb.exists_replays happlies
    have hcell : (b₁.cell g.ids.order).isSome := by
      rw [h₁.cell, if_pos rfl]
      rfl
    have hrest : ∀ e ∈ (ghostEvents g).tail, ¬e.IsIntent ∧ (b₁.cell e.orderId).isSome := by
      intro e he
      simp only [ghostEvents, List.tail_cons, List.mem_cons, List.not_mem_nil, or_false] at he
      rcases he with rfl | rfl
      · exact ⟨id, hcell⟩
      · exact ⟨id, hcell⟩
    obtain ⟨b₂, hb₂, -⟩ := h₁.paired.exists_applyLog hrest
    obtain ⟨b₃, hb₃⟩ := ih (h₁.paired.applyLog hb₂).1
    refine ⟨b₃, ?_⟩
    rw [List.flatMap_cons, Book.applyLog_append]
    refine Option.bind_eq_some_iff.mpr ⟨b₂, ?_, hb₃⟩
    exact Option.bind_eq_some_iff.mpr ⟨b₁, hb₁, hb₂⟩

theorem restartable_rollBack (h : Oms.Restartable log) : Oms.Restartable (rollBack log) := by
  obtain ⟨b, hb⟩ := h.replays
  obtain ⟨b', hb', -⟩ := Book.exists_applyLog_filter (fun k => decide (k ∉ poisonIds log))
    Book.paired_empty Book.paired_empty (fun _ _ => rfl) hb
  exact ⟨⟨b', hb'⟩, fun e he => h.idAgrees e (mem_rollBack.mp he).1⟩

theorem idAgrees_ghostEvents (g : Ghost) : ∀ e ∈ ghostEvents g, e.IdAgrees := by
  intro e he
  simp only [ghostEvents, List.mem_cons, List.not_mem_nil, or_false] at he
  rcases he with rfl | rfl | rfl
  · exact rfl
  · trivial
  · trivial

theorem restartable_main (h : Oms.Restartable log) (r : Run) : Oms.Restartable (main log r) := by
  have hroll := restartable_rollBack h
  rw [main]
  split_ifs
  · obtain ⟨b, hb⟩ := hroll.replays
    obtain ⟨b', hb'⟩ := exists_applyLog_ghosts (Book.paired_empty.applyLog hb).1
      (r.ghosts (rollBack log))
    refine ⟨⟨b', ?_⟩, fun e he => ?_⟩
    · rw [Book.applyLog_append, hb]
      exact hb'
    · rcases List.mem_append.mp he with he | he
      · exact hroll.idAgrees e he
      · obtain ⟨g, -, he⟩ := List.mem_flatMap.mp he
        exact idAgrees_ghostEvents g e he
  · exact hroll

/-- Events about other orders leave a cell alone. -/
theorem replayCell_of_notMem {k : OrderId} {log : List LoggedEvent}
    (h : k ∉ log.map (·.orderId)) (cell : Option Cell) : Book.replayCell k log cell = cell := by
  induction log generalizing cell with
  | nil => rfl
  | cons e log ih =>
    rw [List.map_cons, List.mem_cons, not_or] at h
    rw [Book.replayCell, List.foldl_cons, if_neg h.1]
    exact ih h.2 cell

/-- **A written order comes back filled.** -/
theorem replayCell_ghostEvents (g : Ghost) (cell : Option Cell) :
    ∃ c, Book.replayCell g.ids.order (ghostEvents g) cell = some c ∧ c.order.state = .filled := by
  have hfilled : isFullyFilled g.qty (0 + g.qty) = true := by
    simp [isFullyFilled, fillQtyTolerance]
  have hstate : (if isFullyFilled g.qty (0 + g.qty) then OrderEvent.fullFill
      else .partialFill).target = .filled := by
    rw [hfilled]
    rfl
  obtain ⟨c, hc⟩ : ∃ c, Book.replayCell g.ids.order (ghostEvents g) cell = some c := by
    simp only [Book.replayCell, ghostEvents, List.foldl_cons, List.foldl_nil, if_true]
    exact ⟨_, rfl⟩
  refine ⟨c, hc, ?_⟩
  simp only [Book.replayCell, ghostEvents, List.foldl_cons, List.foldl_nil, if_true] at hc
  obtain rfl := Option.some.inj hc
  exact hstate

theorem orderId_of_mem_ghosts {ghosts : List Ghost} {k : OrderId} :
    k ∈ (ghosts.flatMap ghostEvents).map (·.orderId) → k ∈ ghosts.map fun g => g.ids.order := by
  intro h
  obtain ⟨e, he, rfl⟩ := List.mem_map.mp h
  obtain ⟨g, hg, he⟩ := List.mem_flatMap.mp he
  rw [orderId_of_mem_ghostEvents he]
  exact List.mem_map_of_mem hg

theorem replayCell_ghosts {ghosts : List Ghost} (hnd : (ghosts.map fun g => g.ids.order).Nodup)
    {g : Ghost} (hg : g ∈ ghosts) (cell : Option Cell) :
    ∃ c, Book.replayCell g.ids.order (ghosts.flatMap ghostEvents) cell = some c ∧
      c.order.state = .filled := by
  obtain ⟨before, after, rfl⟩ := List.append_of_mem hg
  rw [List.map_append, List.map_cons, List.nodup_append, List.nodup_cons] at hnd
  have hafter : g.ids.order ∉ (after.flatMap ghostEvents).map (·.orderId) :=
    fun h => hnd.2.1.1 (orderId_of_mem_ghosts h)
  rw [List.flatMap_append, List.flatMap_cons, Book.replayCell_append, Book.replayCell_append,
    replayCell_of_notMem hafter]
  exact replayCell_ghostEvents g _

end Ghosts

/-- **After the script, nothing is long.** A log that can be replayed can be replayed after a run
that writes, and the system that restarts on it has zero in every symbol in which it was long by
more than the threshold, and what it had in the others – except for what earlier runs wrote, which
is gone. The orders that are open are the same. -/
theorem reconcile_flattens {log : List LoggedEvent} (hlog : Oms.Restartable log) {r : Run}
    (hexecute : r.execute = true) (hfresh : r.Fresh (rollBack log)) :
    ∃ before after, (Oms.reboot (rollBack log)).replayLog = some before ∧
      (Oms.reboot (main log r)).replayLog = some after ∧
      (∀ sym, Reconciler.ourQty after.computeExpectedPositions sym =
        if qtyThreshold < Reconciler.ourQty before.computeExpectedPositions sym then 0
        else Reconciler.ourQty before.computeExpectedPositions sym) ∧
      ∀ k order, order.state.Open →
        (after.orders.get? k = some order ↔ before.orders.get? k = some order) := by
  have hroll := restartable_rollBack hlog
  have hmain := restartable_main hlog r
  obtain ⟨b, hb⟩ := hroll.replays
  obtain ⟨b', hb'⟩ := hmain.replays
  refine ⟨_, _, replayLog_eq hb, replayLog_eq hb', fun sym => ?_, fun k order hopen => ?_⟩
  · rw [ourQty_rebuilt hmain hb', ourQty_rebuilt hroll hb, main, if_pos hexecute, loggedNet_append,
      loggedNet_ghosts, getD_computeNetPositions]
    split_ifs
    · exact add_neg_cancel _
    · rw [neg_zero, add_zero]
  · obtain ⟨hp, hcell, -⟩ := Book.paired_empty.applyLog hb
    obtain ⟨hp', hcell', -⟩ := Book.paired_empty.applyLog hb'
    change b'.orders.get? k = some order ↔ b.orders.get? k = some order
    rw [hp'.get?_orders, hp.get?_orders, hcell', hcell, main, if_pos hexecute,
      Book.replayCell_append]
    by_cases hk : k ∈ (r.ghosts (rollBack log)).map fun g => g.ids.order
    · -- an order of the script: it was not there, and it comes back filled
      obtain ⟨g, hg, rfl⟩ := List.mem_map.mp hk
      have hnd := (r.perm_orders (rollBack log)).nodup_iff.mpr hfresh.1
      obtain ⟨c, hc, hfilled⟩ := replayCell_ghosts hnd hg
        (Book.replayCell g.ids.order (rollBack log) (Book.empty.cell g.ids.order))
      have hnone : Book.replayCell g.ids.order (rollBack log) (Book.empty.cell g.ids.order) =
          none := replayCell_of_notMem (hfresh.notMem hg) _
      rw [hc, hnone]
      refine iff_of_false (fun h => ?_) (by simp)
      obtain rfl := Option.some.inj h
      rw [hfilled] at hopen
      exact absurd hopen (by decide)
    · rw [replayCell_of_notMem fun h => hk (orderId_of_mem_ghosts h)]

/-- A purchase of ten. -/
def boughtLog : List LoggedEvent :=
  ghostEvents { ids := ⟨1, 2, 3⟩, brokerOrderId := "b-1", side := .buy, symbol := "AAPL", qty := 10,
                price := 100, agentId := .sonnet, ts := 0 }

/-- A run, with identifiers above a number. -/
def runFrom (n : ℕ) (execute : Bool) : Run :=
  ⟨execute, fun _ => ⟨n, n + 1, n + 2⟩, fun _ => 120, 5⟩

theorem restartable_boughtLog : Oms.Restartable boughtLog :=
  ⟨Option.isSome_iff_exists.mp (by decide +kernel), idAgrees_ghostEvents _⟩

theorem reconcile_flattens_boughtLog :
    ∃ after, (Oms.reboot (main boughtLog (runFrom 10 true))).replayLog = some after ∧
      Reconciler.ourQty after.computeExpectedPositions "AAPL" = 0 := by
  obtain ⟨before, after, hbefore, hafter, hqty, -⟩ :=
    reconcile_flattens restartable_boughtLog (r := runFrom 10 true) rfl (by decide +kernel)
  refine ⟨after, hafter, ?_⟩
  have hten : ((Oms.reboot (rollBack boughtLog)).replayLog.map fun s =>
      Reconciler.ourQty s.computeExpectedPositions "AAPL") = some 10 := by decide +kernel
  rw [hbefore, Option.map_some, Option.some_inj] at hten
  rw [hqty, hten]
  decide +kernel

/-- **A dry run undoes the run before it.** -/
theorem last_run_counts_boughtLog :
    main ([runFrom 10 true].foldl main boughtLog) (runFrom 20 false) = boughtLog := by
  have hfresh : ∀ r ∈ [runFrom 10 true], r.Fresh (rollBack boughtLog) := by decide +kernel
  rw [last_run_counts hfresh]
  decide +kernel

end ReconcileOms

end TradingPlatform
