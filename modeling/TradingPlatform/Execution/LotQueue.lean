import TradingPlatform.Execution.Lots
import TradingPlatform.StableSort

/-!
# What a sell does to every lot

A sell goes through the lots of its agent in its symbol in the order of their entry dates and
takes from each what it still needs. This file says so without the loop. The lots after a sell are
the lots before it, each with what the sell takes from it (`TradingPlatform.LotLedger.afterSale`),
and what it takes from a lot is the smaller of what the lot has and what the lots before it in the
queue leave to close.

`TradingPlatform.LotLedger.closeLots_inOrder` is the whole of it: the order, the quantities, the
one residual that may be snapped to zero, the exit fields, and the lots that are left alone.
-/

namespace TradingPlatform

/-- What a lot records of the buy that opened it. -/
structure LotEntry where
  agentId : AgentId
  symbol : String
  qty : Decimal
  entryPrice : Decimal
  entryDate : Date
  entryFillId : FillId
  deriving DecidableEq

def Lot.entry (lot : Lot) : LotEntry where
  agentId := lot.agentId
  symbol := lot.symbol
  qty := lot.qty
  entryPrice := lot.entryPrice
  entryDate := lot.entryDate
  entryFillId := lot.entryFillId

@[simp] theorem Lot.entry_consume (lot : Lot) (taken : Decimal) (exitFill : Fill) :
    (lot.consume taken exitFill).entry = lot.entry := rfl

/-- Which of two entry dates a method sells first. -/
def LotMethod.Precedes (method : LotMethod) (date date' : Date) : Prop :=
  if method = .fifo then date ≤ date' else date' ≤ date

/-- **The order of a queue**: by entry date, and in the order of the container on one date. -/
structure LotMethod.InOrder (method : LotMethod) (lots queue : List Lot) : Prop where
  perm : queue.Perm lots
  sorted : queue.Pairwise fun lot lot' => method.Precedes lot.entryDate lot'.entryDate
  ties : ∀ date : Date, queue.filter (fun lot => lot.entryDate = date) =
    lots.filter fun lot => lot.entryDate = date

/-- **What a sell does to one lot**: the lot loses a quantity. Of a lot that keeps less than a cent
nothing is kept, and a lot that keeps nothing gets its exit fields. -/
structure Lot.Loses (lot lot' : Lot) (loss : Decimal) (exitFill : Fill) : Prop where
  id : lot'.id = lot.id
  entry : lot'.entry = lot.entry
  rest : lot'.remainingQty =
    if 0 < loss ∧ loss < lot.remainingQty ∧
        (lot.remainingQty - loss) * exitFill.price < dustNotionalUsd then 0
    else lot.remainingQty - loss
  closed : lot'.remainingQty = 0 → lot'.isClosed = true ∧ lot'.exitFillId = some exitFill.id ∧
    lot'.exitDate = some exitFill.timestamp.date ∧ lot'.exitPrice = some exitFill.price
  stillOpen : lot'.remainingQty ≠ 0 → lot'.isClosed = false ∧ lot'.exitFillId = lot.exitFillId ∧
    lot'.exitDate = lot.exitDate ∧ lot'.exitPrice = lot.exitPrice

namespace LotLedger

/-- The lots of an agent in a symbol that have something to sell, as the container has them. -/
def sellable (l : LotLedger) (agentId : AgentId) (symbol : String) : List Lot :=
  l.allLots.filter fun lot =>
    lot.agentId = agentId ∧ lot.symbol = normalizeSymbol symbol ∧ lot.isClosed = false ∧
      0 < lot.remainingQty

/-- How much of a symbol an agent has to sell. -/
def availableQty (l : LotLedger) (agentId : AgentId) (symbol : String) : Decimal :=
  ((l.sellable agentId symbol).map (·.remainingQty)).sum

/-- **A queue is consumed in order**: from `l` to `l'`, a quantity is taken from the lots of a
queue. -/
structure ClosesInOrder (l l' : LotLedger) (queue : List Lot) (qty : Decimal) (exitFill : Fill) :
    Prop where
  booked : l'.booked = l.booked
  keys : l'.lots.keys = l.lots.keys
  /-- The whole quantity is taken, and nothing beyond it. -/
  exhausts : unmet (·.remainingQty) queue qty = 0
  /-- A lot loses the smaller of what it has and what is left to close when its turn comes. -/
  taken : ∀ before lot after, queue = before ++ lot :: after →
    ∃ lot', l'.lots.get? lot.id = some lot' ∧
      lot.Loses lot' (min lot.remainingQty (unmet (·.remainingQty) before qty)) exitFill
  /-- At most one lot is left with a part of what it had. -/
  split : ∃ last : Option LotId, ∀ before lot after, queue = before ++ lot :: after →
    0 < unmet (·.remainingQty) before qty →
      unmet (·.remainingQty) before qty < lot.remainingQty → last = some lot.id
  others : ∀ lot ∈ l.allLots, lot ∉ queue → l'.lots.get? lot.id = some lot

/-! ### The lots after a sale -/

/-- A lot once some quantities are consumed. -/
def afterSale (consumed : List (Lot × Decimal)) (exitFill : Fill) (lot : Lot) : Lot :=
  ((consumed.find? fun p => p.1.id = lot.id).map fun p => lot.consume p.2 exitFill).getD lot

section AfterSale

variable {consumed : List (Lot × Decimal)} {exitFill : Fill} {lot : Lot} {taken : Decimal}

theorem afterSale_of_mem (hnd : (consumed.map fun p => p.1.id).Nodup)
    (h : (lot, taken) ∈ consumed) :
    afterSale consumed exitFill lot = lot.consume taken exitFill := by
  have hfind : (consumed.find? fun p => p.1.id = lot.id) = some (lot, taken) := by
    cases hf : consumed.find? fun p => p.1.id = lot.id with
    | none => exact absurd (decide_eq_true rfl) (List.find?_eq_none.mp hf _ h)
    | some p =>
      have hp : p.1.id = lot.id := by simpa using List.find?_some hf
      exact congrArg some (List.inj_on_of_nodup_map hnd (List.mem_of_find?_eq_some hf) h hp)
  rw [afterSale, hfind]
  rfl

theorem afterSale_of_forall_ne (h : ∀ p ∈ consumed, p.1.id ≠ lot.id) :
    afterSale consumed exitFill lot = lot := by
  have hfind : (consumed.find? fun p => p.1.id = lot.id) = none :=
    List.find?_eq_none.mpr fun p hp => by simpa using h p hp
  rw [afterSale, hfind]
  rfl

/-- What holds of a lot and of what consuming leaves of it holds of a lot after a sale. -/
theorem afterSale_cases {P : Lot → Prop} (hsame : P lot)
    (hconsume : ∀ taken, P (lot.consume taken exitFill)) :
    P (afterSale consumed exitFill lot) := by
  unfold afterSale
  cases consumed.find? fun p => p.1.id = lot.id with
  | none => exact hsame
  | some p => exact hconsume p.2

variable {lots : Dict LotId Lot} (hkeyed : ∀ k lot, lots.get? k = some lot → lot.id = k)
  (hnd : (consumed.map fun p => p.1.id).Nodup)
  (hmem : ∀ p ∈ consumed, lots.get? p.1.id = some p.1)

include hmem in
theorem keys_consumed (exitFill : Fill) :
    ((consumed.map fun p => p.1.consume p.2 exitFill).foldl
      (fun lots lot => lots.set lot.id lot) lots).keys = lots.keys := by
  have hpairs : (consumed.map fun p => p.1.consume p.2 exitFill) =
      (consumed.map fun p => (p.1, p.1.consume p.2 exitFill)).map Prod.snd := by
    rw [List.map_map]
    rfl
  rw [hpairs]
  refine keys_replace (fun p hp => ?_) fun p hp => ?_
  · obtain ⟨q, -, rfl⟩ := List.mem_map.mp hp
    rfl
  · obtain ⟨q, hq, rfl⟩ := List.mem_map.mp hp
    exact hmem q hq

/-- A lot that is not consumed has none of the identifiers that are. -/
theorem forall_ne_of_not_consumed {lots : Dict LotId Lot} {consumed : List (Lot × Decimal)}
    {lot : Lot} (hmem : ∀ p ∈ consumed, lots.get? p.1.id = some p.1)
    (hlot : lots.get? lot.id = some lot) (hnot : ¬∃ taken, (lot, taken) ∈ consumed) :
    ∀ p ∈ consumed, p.1.id ≠ lot.id := by
  intro p hp hid
  have hget := hmem p hp
  rw [hid, hlot] at hget
  obtain rfl : lot = p.1 := Option.some.inj hget
  exact hnot ⟨p.2, hp⟩

include hkeyed hnd hmem in
/-- **Every lot is looked up as it is after the sale.** -/
theorem get?_consumed (exitFill : Fill) (k : LotId) :
    ((consumed.map fun p => p.1.consume p.2 exitFill).foldl
      (fun lots lot => lots.set lot.id lot) lots).get? k =
        (lots.get? k).map (afterSale consumed exitFill) := by
  have hinj : ∀ a ∈ consumed.map (fun p => p.1.consume p.2 exitFill),
      ∀ b ∈ consumed.map (fun p => p.1.consume p.2 exitFill), a.id = b.id → a = b := by
    intro a ha b hb hid
    obtain ⟨p, hp, rfl⟩ := List.mem_map.mp ha
    obtain ⟨q, hq, rfl⟩ := List.mem_map.mp hb
    rw [List.inj_on_of_nodup_map hnd hp hq hid]
  cases hk : lots.get? k with
  | none =>
    rw [Option.map_none, Dict.get?_eq_none_iff, keys_consumed hmem]
    exact Dict.get?_eq_none_iff.mp hk
  | some lot =>
    obtain rfl := hkeyed k lot hk
    rw [Option.map_some, Dict.get?_foldl_set_eq_some_iff hinj]
    by_cases hc : ∃ taken, (lot, taken) ∈ consumed
    · obtain ⟨taken, ht⟩ := hc
      rw [afterSale_of_mem hnd ht]
      exact Or.inl ⟨List.mem_map.mpr ⟨_, ht, rfl⟩, rfl⟩
    · have hne := forall_ne_of_not_consumed hmem hk hc
      rw [afterSale_of_forall_ne hne]
      refine Or.inr ⟨hk, fun a ha => ?_⟩
      obtain ⟨p, hp, rfl⟩ := List.mem_map.mp ha
      exact hne p hp

include hkeyed hnd hmem in
/-- **The container after a sale**: every lot in its place. -/
theorem values_consumed (exitFill : Fill) :
    ((consumed.map fun p => p.1.consume p.2 exitFill).foldl
      (fun lots lot => lots.set lot.id lot) lots).values =
        lots.values.map (afterSale consumed exitFill) := by
  rw [Dict.values_eq_filterMap, keys_consumed hmem, lots.values_eq_filterMap, List.map_filterMap]
  exact List.filterMap_congr fun k _ => get?_consumed hkeyed hnd hmem exitFill k

end AfterSale

variable {l : LotLedger} {agentId : AgentId} {symbol : String} {method : LotMethod}

/-! ### The queue of a sell -/

variable (l agentId symbol method) in
/-- The lots a sell may consume are in the order of its method. -/
theorem inOrder_candidates :
    method.InOrder (l.sellable agentId symbol)
      (l.candidates agentId (normalizeSymbol symbol) method) := by
  refine ⟨List.mergeSort_perm _ _, ?_, fun date => ?_⟩ <;> cases method <;> unfold candidates
  · refine (@pairwise_mergeSort_key _ _ _ Lot.entryDate _).imp fun h => ?_
    exact (if_pos rfl).mpr h
  · -- newest first is by the opposite of the entry date
    have hneg : ∀ lot lot' : Lot,
        decide (lot'.entryDate ≤ lot.entryDate) = decide (-lot.entryDate ≤ -lot'.entryDate) :=
      fun lot lot' => decide_eq_decide.mpr neg_le_neg_iff.symm
    simp only [hneg]
    refine (@pairwise_mergeSort_key _ _ _ (fun lot : Lot => -lot.entryDate) _).imp fun h => ?_
    exact (if_neg (by decide)).mpr (neg_le_neg_iff.mp h)
  · exact filter_mergeSort _ date
  · have hneg : ∀ lot lot' : Lot,
        decide (lot'.entryDate ≤ lot.entryDate) = decide (-lot.entryDate ≤ -lot'.entryDate) :=
      fun lot lot' => decide_eq_decide.mpr neg_le_neg_iff.symm
    have hdate : ∀ lot : Lot, decide (lot.entryDate = date) = decide (-lot.entryDate = -date) :=
      fun lot => decide_eq_decide.mpr neg_inj.symm
    simp only [hneg, hdate]
    exact @filter_mergeSort _ _ _ (fun lot : Lot => -lot.entryDate) _ (-date)

theorem sum_candidates_eq_availableQty :
    ((l.candidates agentId (normalizeSymbol symbol) method).map (·.remainingQty)).sum =
      l.availableQty agentId symbol :=
  ((inOrder_candidates l agentId symbol method).perm.map _).sum_eq

/-- In a ledger without negative lots what can be sold is what is open. -/
theorem availableQty_eq_totalOpenQty (h : ∀ lot ∈ l.allLots, 0 ≤ lot.remainingQty) :
    l.availableQty agentId symbol = l.totalOpenQty agentId symbol := by
  unfold availableQty totalOpenQty sellable openLots
  generalize l.allLots = lots at h
  induction lots with
  | nil => rfl
  | cons lot lots ih =>
    have ih' := ih fun lot' h' => h lot' (List.mem_cons_of_mem _ h')
    have hlot := h lot List.mem_cons_self
    rw [List.filter_cons, List.filter_cons]
    split_ifs with hsell hopen hopen
    · rw [List.map_cons, List.sum_cons, ih', List.map_cons, List.sum_cons]
    · simp only [decide_eq_true_eq] at hsell hopen
      exact absurd ⟨hsell.1, hsell.2.1, hsell.2.2.1⟩ hopen
    · simp only [decide_eq_true_eq, not_and, not_lt] at hsell hopen
      have hzero : lot.remainingQty = 0 := le_antisymm (hsell hopen.1 hopen.2.1 hopen.2.2) hlot
      rw [List.map_cons, List.sum_cons, hzero, zero_add, ih']
    · exact ih'

/-- What consuming a part of a lot is. -/
theorem loses_consume {lot : Lot} {taken : Decimal} {exitFill : Fill} (hprice : 0 < exitFill.price)
    (hpos : 0 < taken) :
    lot.Loses (lot.consume taken exitFill) taken exitFill := by
  have hrest : (lot.consume taken exitFill).remainingQty =
      if 0 < taken ∧ taken < lot.remainingQty ∧
        (lot.remainingQty - taken) * exitFill.price < dustNotionalUsd then 0
      else lot.remainingQty - taken := by
    refine if_congr ?_ rfl rfl
    rw [sub_pos]
    tauto
  have hclosed : (lot.consume taken exitFill).isClosed =
      decide ((lot.consume taken exitFill).remainingQty = 0) := rfl
  refine ⟨rfl, rfl, hrest, fun h => ?_, fun h => ?_⟩
  · have hc : (lot.consume taken exitFill).isClosed = true := by rw [hclosed, decide_eq_true h]
    exact ⟨hc, if_pos hc, if_pos hc, if_pos hc⟩
  · have hc : (lot.consume taken exitFill).isClosed = false := by rw [hclosed, decide_eq_false h]
    have hn : ¬(lot.consume taken exitFill).isClosed = true := by rw [hc]; exact Bool.false_ne_true
    exact ⟨hc, if_neg hn, if_neg hn, if_neg hn⟩

/-- A lot from which nothing is taken. -/
theorem loses_zero {lot : Lot} (hopen : lot.isClosed = false) (hpos : 0 < lot.remainingQty)
    (exitFill : Fill) : lot.Loses lot 0 exitFill where
  id := rfl
  entry := rfl
  rest := by rw [if_neg fun h => lt_irrefl _ h.1, sub_zero]
  closed h := absurd h hpos.ne'
  stillOpen _ := ⟨hopen, rfl, rfl, rfl⟩

section Consumption

variable {queue : List Lot} (hpos : ∀ lot ∈ queue, 0 < lot.remainingQty) {qty : Decimal}

include hpos in
/-- What a lot of the queue gives, by what the lots before it leave to close. -/
theorem mem_allocate_of_split (h₀ : 0 ≤ qty) {before after : List Lot} {lot : Lot}
    (hsplit : queue = before ++ lot :: after) (hleft : 0 < unmet (·.remainingQty) before qty) :
    (lot, min lot.remainingQty (unmet (·.remainingQty) before qty)) ∈
      allocate (·.remainingQty) queue qty := by
  subst hsplit
  rw [allocate_append (fun lot' h => hpos lot' (List.mem_append_left _ h)) h₀,
    allocate_cons_of_pos hleft]
  exact List.mem_append_right _ List.mem_cons_self

include hpos in
/-- Once nothing is left to close, no lot gives anything. -/
theorem notMem_allocate_of_split (h₀ : 0 ≤ qty) (hnd : (queue.map (·.id)).Nodup)
    {before after : List Lot} {lot : Lot} (hsplit : queue = before ++ lot :: after)
    (hleft : unmet (·.remainingQty) before qty ≤ 0) {p : Lot × Decimal}
    (hp : p ∈ allocate (·.remainingQty) queue qty) : p.1.id ≠ lot.id := by
  subst hsplit
  rw [allocate_append (fun lot' h => hpos lot' (List.mem_append_left _ h)) h₀,
    allocate_of_nonpos hleft, List.append_nil] at hp
  have hbefore : p.1 ∈ before :=
    (sublist_allocate _ before qty).subset (List.mem_map_of_mem (f := Prod.fst) hp)
  rw [List.map_append, List.map_cons] at hnd
  exact (List.nodup_append.mp hnd).2.2 _ (List.mem_map_of_mem hbefore) _ List.mem_cons_self

include hpos in
/-- At most one lot is left with a part of what it had. -/
theorem exists_last_of_split (h₀ : 0 ≤ qty) :
    ∃ last : Option LotId, ∀ before lot after, queue = before ++ lot :: after →
      0 < unmet (·.remainingQty) before qty →
        unmet (·.remainingQty) before qty < lot.remainingQty → last = some lot.id := by
  -- of two lots that give a part, the first would have given everything
  have hone : ∀ p ∈ allocate (·.remainingQty) queue qty, ∀ q ∈ allocate (·.remainingQty) queue qty,
      p.2 < p.1.remainingQty → q.2 < q.1.remainingQty → p = q := by
    have hall : (allocate (·.remainingQty) queue qty).Pairwise fun p q =>
        ¬(p.2 < p.1.remainingQty ∧ q.2 < q.1.remainingQty) :=
      (pairwise_allocate queue qty).imp fun heq h => h.1.ne heq
    intro p hp q hq hpp hqq
    by_contra hne
    have hsymm : Std.Symm fun p q : Lot × Decimal =>
        ¬(p.2 < p.1.remainingQty ∧ q.2 < q.1.remainingQty) := ⟨fun _ _ h hc => h hc.symm⟩
    exact hall.forall hp hq hne ⟨hpp, hqq⟩
  have hgives : ∀ before lot after, queue = before ++ lot :: after →
      0 < unmet (·.remainingQty) before qty →
        unmet (·.remainingQty) before qty < lot.remainingQty →
          (lot, unmet (·.remainingQty) before qty) ∈ allocate (·.remainingQty) queue qty := by
    intro before lot after hsplit hleft hlt
    have hmem := mem_allocate_of_split hpos h₀ hsplit hleft
    rwa [min_eq_right hlt.le] at hmem
  by_cases hpart : ∃ p ∈ allocate (·.remainingQty) queue qty, p.2 < p.1.remainingQty
  · obtain ⟨p, hp, hpp⟩ := hpart
    refine ⟨some p.1.id, fun before lot after hsplit hleft hlt => ?_⟩
    rw [hone p hp _ (hgives before lot after hsplit hleft hlt) hpp hlt]
  · refine ⟨none, fun before lot after hsplit hleft hlt => ?_⟩
    exact absurd ⟨_, hgives before lot after hsplit hleft hlt, hlt⟩ hpart

end Consumption

/-- **What a lot of the queue loses**: the smaller of what it has and what is left to close when its
turn comes, which may be nothing. -/
theorem exists_loses_of_split (hl : l.Keyed) {qty : Decimal} (hqty : 0 < qty) {exitFill : Fill}
    (hprice : 0 < exitFill.price) {before after : List Lot} {lot : Lot}
    (hsplit : l.candidates agentId (normalizeSymbol symbol) method = before ++ lot :: after) :
    lot.Loses (afterSale (l.consumption agentId symbol qty method) exitFill lot)
      (min lot.remainingQty (unmet (·.remainingQty) before qty)) exitFill := by
  set queue := l.candidates agentId (normalizeSymbol symbol) method with hqueue
  have hpos : ∀ lot ∈ queue, 0 < lot.remainingQty :=
    fun lot hlot => ((mem_candidates _ _ _).mp hlot).2.2.2.2
  have hids : (queue.map (·.id)).Nodup := by
    refine ((List.mergeSort_perm _ _).map _).nodup_iff.mpr ?_
    exact hl.nodup_ids.sublist (List.filter_sublist.map _)
  have hlot : lot ∈ queue := hsplit ▸ List.mem_append_right _ List.mem_cons_self
  have hcand := (mem_candidates _ _ _).mp hlot
  rcases (@unmet_nonneg _ _ _ _ (fun lot : Lot => lot.remainingQty) _ _ before
    hqty.le).eq_or_lt with hzero | hleft
  · -- the quantity is used up before the turn of the lot
    have hne : ∀ p ∈ l.consumption agentId symbol qty method, p.1.id ≠ lot.id :=
      fun p hp => notMem_allocate_of_split hpos hqty.le hids hsplit hzero.ge hp
    rw [← hzero, min_eq_right (hpos lot hlot).le, afterSale_of_forall_ne hne]
    exact loses_zero hcand.2.2.2.1 (hpos lot hlot) exitFill
  · have htaken : (lot, min lot.remainingQty (unmet (·.remainingQty) before qty)) ∈
        l.consumption agentId symbol qty method :=
      mem_allocate_of_split hpos hqty.le hsplit hleft
    rw [afterSale_of_mem (nodup_consumption hl qty) htaken]
    exact loses_consume hprice (lt_min (hpos lot hlot) hleft)

/-- **Lot closing**: in every ledger, of every agent and symbol and for every method, a sell of more
than there is to sell is refused, and any other takes its quantity from the agent's lots of that
symbol in the order of the method, each lot losing what it has or what is left to close. Of the one
lot that may be left with a part of what it had, a residual of less than a cent is dropped; the lots
that keep nothing get their exit fields; every other lot is as it was. -/
theorem closeLots_inOrder (hl : l.Keyed) (agentId : AgentId) (symbol : String) (method : LotMethod)
    {qty : Decimal} (hqty : 0 < qty) {exitFill : Fill} (hside : exitFill.side = .sell)
    (hprice : 0 < exitFill.price) :
    (l.availableQty agentId symbol < qty →
        l.closeLots agentId symbol qty exitFill method = none) ∧
      (qty ≤ l.availableQty agentId symbol →
        ∃ l' affected queue, l.closeLots agentId symbol qty exitFill method = some (l', affected) ∧
          method.InOrder (l.sellable agentId symbol) queue ∧
          l.ClosesInOrder l' queue qty exitFill) := by
  rw [← @sum_candidates_eq_availableQty l agentId symbol method]
  refine ⟨closeLots_of_lt hside, fun h => ?_⟩
  set queue := l.candidates agentId (normalizeSymbol symbol) method with hqueue
  have hpos : ∀ lot ∈ queue, 0 < lot.remainingQty :=
    fun lot hlot => ((mem_candidates _ _ _).mp hlot).2.2.2.2
  have hnd := @nodup_consumption l agentId symbol method hl qty
  have hmem : ∀ p ∈ l.consumption agentId symbol qty method, l.lots.get? p.1.id = some p.1 :=
    fun p hp => hl.get?_of_mem (of_mem_consumption hp).1.1
  have hget := get?_consumed hl hnd hmem exitFill
  refine ⟨_, _, queue, closeLots_of_le hside h, inOrder_candidates l agentId symbol method, rfl,
    keys_consumed hmem exitFill, ?_, ?_, exists_last_of_split hpos hqty.le, ?_⟩
  · have hsum := sum_allocate_add_unmet hpos hqty.le
    rw [sum_allocate hpos hqty.le h] at hsum
    exact add_eq_left.mp hsum
  · intro before lot after hsplit
    have hlot : lot ∈ queue := hsplit ▸ List.mem_append_right _ List.mem_cons_self
    refine ⟨_, ?_, exists_loses_of_split hl hqty hprice hsplit⟩
    rw [hget, hl.get?_of_mem ((mem_candidates _ _ _).mp hlot).1, Option.map_some]
  · intro lot hlot hnot
    rw [hget, hl.get?_of_mem hlot, Option.map_some, afterSale_of_forall_ne]
    refine forall_ne_of_not_consumed hmem (hl.get?_of_mem hlot) ?_
    -- what is consumed comes from the queue
    rintro ⟨taken, htaken⟩
    exact hnot ((sublist_allocate _ queue qty).subset (List.mem_map_of_mem (f := Prod.fst) htaken))

/-- A fill of some shares of one agent, at a dollar a share. -/
def dollarFill (id : FillId) (side : OrderSide) (qty : Decimal) (day : ℤ) : Fill where
  id := id
  orderId := id
  agentId := .haiku
  symbol := "BTC/USD"
  side := side
  qty := qty
  price := 1
  timestamp := day * microsPerDay

/-- Three lots; the second was opened before the first, and the third on the day of the first. -/
def threeLots : LotLedger :=
  let two := (empty.bookFill (dollarFill 1 .buy 2 5) 1 .fifo).bookFill (dollarFill 2 .buy 2 3) 2
    .fifo
  two.bookFill (dollarFill 3 .buy 2 5) 3 .fifo

theorem keyed_threeLots : threeLots.Keyed := by
  have hempty : empty.Keyed := fun k lot h => absurd h (by simp [empty])
  exact ((hempty.openLot _).openLot _).openLot _

/-- The oldest lot goes first, and then the first of the two of one day; of that one less than a
cent is left. -/
theorem closeLots_threeLots :
    (threeLots.availableQty .haiku "BTCUSD" < 3995 / 1000 →
        threeLots.closeLots .haiku "BTCUSD" (3995 / 1000) (dollarFill 4 .sell 1 6) .fifo = none) ∧
      (3995 / 1000 ≤ threeLots.availableQty .haiku "BTCUSD" →
        ∃ l' affected queue, threeLots.closeLots .haiku "BTCUSD" (3995 / 1000)
            (dollarFill 4 .sell 1 6) .fifo = some (l', affected) ∧
          LotMethod.fifo.InOrder (threeLots.sellable .haiku "BTCUSD") queue ∧
          threeLots.ClosesInOrder l' queue (3995 / 1000) (dollarFill 4 .sell 1 6)) :=
  closeLots_inOrder keyed_threeLots .haiku "BTCUSD" .fifo (by norm_num) rfl (by decide)

end LotLedger

end TradingPlatform
