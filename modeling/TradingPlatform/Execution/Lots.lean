import TradingPlatform.Allocate
import TradingPlatform.Core.Types
import TradingPlatform.Dict

/-!
# The tax lot ledger

A buy opens a lot, a sell consumes lots: the oldest first, or the newest first. Consuming is a
greedy allocation (`TradingPlatform.allocate`) of the quantity sold over the candidates. A fill
is booked once; a sell that finds too little to consume is noted as booked and changes no lot.

What the profit and loss of an agent is computed from is the state of its lots after some
sells. `TradingPlatform.LotLedger.sum_closeLots` is all that has to be known about a sell for
that: it says how any sum over the lots changes.
-/

namespace TradingPlatform

/-- A fill to book, with the identifier the ledger draws for a new lot. -/
structure Booking where
  fill : Fill
  lotId : LotId
  deriving DecidableEq

/-- The ledger of all tax lots across all agents. -/
structure LotLedger where
  lots : Dict LotId Lot
  booked : List FillId

/-- What a sell leaves of a lot. A residual that is not a real holding is snapped to zero, and
only a lot with nothing left in it is closed and gets its exit fields. -/
def Lot.consume (lot : Lot) (taken : Decimal) (exitFill : Fill) : Lot :=
  let newRemaining := lot.remainingQty - taken
  let newRemaining :=
    if 0 < newRemaining ∧ 0 < exitFill.price ∧ newRemaining * exitFill.price < dustNotionalUsd
    then 0 else newRemaining
  let isClosed : Bool := newRemaining = 0
  { lot with
    remainingQty := newRemaining
    isClosed := isClosed
    exitFillId := if isClosed then some exitFill.id else lot.exitFillId
    exitDate := if isClosed then some exitFill.timestamp.date else lot.exitDate
    exitPrice := if isClosed then some exitFill.price else lot.exitPrice }

/-- The lot a buy opens. -/
def Lot.ofFill (fill : Fill) (lotId : LotId) : Lot where
  id := lotId
  agentId := fill.agentId
  symbol := normalizeSymbol fill.symbol
  qty := fill.qty
  entryPrice := fill.price
  entryDate := fill.timestamp.date
  entryFillId := fill.id
  remainingQty := fill.qty

theorem normalizeSymbol_idem (symbol : String) :
    normalizeSymbol (normalizeSymbol symbol) = normalizeSymbol symbol := by
  simp [normalizeSymbol]

namespace LotLedger

/-- A ledger that has just been constructed. -/
def empty : LotLedger := ⟨.empty, []⟩

/-! ### Reading -/

def allLots (l : LotLedger) : List Lot := l.lots.values

/-- The open lots of an agent in a symbol, which may be written in either form. -/
def openLots (l : LotLedger) (agentId : AgentId) (symbol : String) : List Lot :=
  l.allLots.filter fun lot =>
    lot.agentId = agentId ∧ lot.symbol = normalizeSymbol symbol ∧ lot.isClosed = false

def totalOpenQty (l : LotLedger) (agentId : AgentId) (symbol : String) : Decimal :=
  ((l.openLots agentId symbol).map (·.remainingQty)).sum

/-! ### Writing -/

/-- Create and register a lot from a buy fill, under a new identifier. -/
def openLot (l : LotLedger) (fill : Fill) (lotId : LotId) : LotLedger :=
  { l with lots := l.lots.set lotId (.ofFill fill lotId) }

/-- The lots a sell may consume, in the order in which it consumes them. -/
def candidates (l : LotLedger) (agentId : AgentId) (symbol : String) (method : LotMethod) :
    List Lot :=
  (l.allLots.filter fun lot =>
    lot.agentId = agentId ∧ lot.symbol = symbol ∧ lot.isClosed = false ∧
      0 < lot.remainingQty).mergeSort
    fun lot lot' =>
      match method with
      | .fifo => lot.entryDate ≤ lot'.entryDate
      | .lifo => lot'.entryDate ≤ lot.entryDate

/-- What a sell takes from which lot. -/
def consumption (l : LotLedger) (agentId : AgentId) (symbol : String) (qty : Decimal)
    (method : LotMethod) : List (Lot × Decimal) :=
  allocate (·.remainingQty) (l.candidates agentId (normalizeSymbol symbol) method) qty

/-- Consume a quantity from the open lots. The result has the lots that were affected too; there
is none for a fill that is no sell, and none when there is too little to consume. -/
def closeLots (l : LotLedger) (agentId : AgentId) (symbol : String) (qty : Decimal)
    (exitFill : Fill) (method : LotMethod) : Option (LotLedger × List Lot) :=
  if exitFill.side ≠ .sell then none
  else if ((l.candidates agentId (normalizeSymbol symbol) method).map (·.remainingQty)).sum < qty
  then none
  else
    let affected := (l.consumption agentId symbol qty method).map
      fun (lot, taken) => lot.consume taken exitFill
    some ({ l with lots := affected.foldl (fun lots lot => lots.set lot.id lot) l.lots }, affected)

/-- Note a fill as booked. -/
def markBooked (l : LotLedger) (fillId : FillId) : LotLedger :=
  { l with booked := l.booked ++ [fillId] }

/-- Book a fill, once. -/
def bookFill (l : LotLedger) (fill : Fill) (lotId : LotId) (method : LotMethod) : LotLedger :=
  if fill.id ∈ l.booked then l
  else
    let l := l.markBooked fill.id
    match fill.side with
    | .buy => l.openLot fill lotId
    | .sell =>
      match l.closeLots fill.agentId fill.symbol fill.qty fill method with
      | some (l, _) => l
      -- too little to consume: not tried again
      | none => l

/-! ### Sums over the lots -/

/-- A sum over all lots. -/
def total (w : Lot → Decimal) (l : LotLedger) : Decimal := (l.allLots.map w).sum

/-- Every lot is under its own identifier. -/
def Keyed (l : LotLedger) : Prop := ∀ k lot, l.lots.get? k = some lot → lot.id = k

theorem total_eq (w : Lot → Decimal) (l : LotLedger) :
    l.total w = (l.lots.entries.map fun e => w e.2).sum := by
  rw [total, allLots, Dict.values, List.map_map]
  rfl

theorem mem_allLots {l : LotLedger} {lot : Lot} :
    lot ∈ l.allLots ↔ ∃ k, l.lots.get? k = some lot :=
  Dict.mem_values_iff

/-- In a keyed ledger a lot is found under its identifier. -/
theorem Keyed.get?_of_mem {l : LotLedger} (hl : l.Keyed) {lot : Lot} (h : lot ∈ l.allLots) :
    l.lots.get? lot.id = some lot := by
  obtain ⟨k, hk⟩ := mem_allLots.mp h
  rwa [hl k lot hk]

/-- In a keyed ledger no two lots have one identifier. -/
theorem Keyed.nodup_ids {l : LotLedger} (hl : l.Keyed) : (l.allLots.map (·.id)).Nodup := by
  have hids : l.allLots.map (·.id) = l.lots.keys := by
    rw [allLots, Dict.values, Dict.keys, List.map_map]
    exact List.map_congr_left fun e he => hl e.1 e.2 (Dict.get?_eq_some_iff.mpr he)
  exact hids ▸ l.lots.nodup_keys

section Open

variable {l : LotLedger} (fill : Fill) {lotId : LotId}

theorem total_openLot (w : Lot → Decimal) (hfresh : lotId ∉ l.lots.keys) :
    (l.openLot fill lotId).total w = l.total w + w (.ofFill fill lotId) := by
  rw [total_eq, total_eq, openLot, Dict.sum_set_of_notMem _ hfresh]

theorem Keyed.openLot (hl : l.Keyed) : (l.openLot fill lotId).Keyed := by
  intro k lot hk
  rw [LotLedger.openLot, Dict.get?_set] at hk
  split_ifs at hk with hkk
  · cases hk
    exact hkk.symm
  · exact hl k lot hk

theorem mem_openLot {lot : Lot} (h : lot ∈ (l.openLot fill lotId).allLots) :
    lot = .ofFill fill lotId ∨ lot ∈ l.allLots := by
  obtain ⟨k, hk⟩ := mem_allLots.mp h
  rw [openLot, Dict.get?_set] at hk
  split_ifs at hk
  · exact Or.inl (Option.some.inj hk).symm
  · exact Or.inr (mem_allLots.mpr ⟨k, hk⟩)

end Open

/-- Replacing some lots by others of the same identifiers exchanges their terms. -/
theorem sum_replace (w : Lot → Decimal) {pairs : List (Lot × Lot)}
    (hnd : (pairs.map fun p => p.1.id).Nodup) (hid : ∀ p ∈ pairs, p.2.id = p.1.id)
    {lots : Dict LotId Lot} (hmem : ∀ p ∈ pairs, lots.get? p.1.id = some p.1) :
    (((pairs.map Prod.snd).foldl (fun lots lot => lots.set lot.id lot) lots).entries.map
        fun e => w e.2).sum =
      (lots.entries.map fun e => w e.2).sum + (pairs.map fun p => w p.2 - w p.1).sum := by
  induction pairs generalizing lots with
  | nil => simp
  | cons p pairs ih =>
    obtain ⟨hnot, hnd'⟩ := List.nodup_cons.mp hnd
    have hp := hmem p List.mem_cons_self
    have hpid := hid p List.mem_cons_self
    rw [List.map_cons, List.foldl_cons, ih hnd' (fun q hq => hid q (List.mem_cons_of_mem _ hq)),
      hpid, Dict.sum_set_of_get? lots hp, List.map_cons, List.sum_cons, add_assoc]
    intro q hq
    have hne : q.1.id ≠ p.1.id := fun hc =>
      hnot (List.mem_map.mpr ⟨q, hq, hc⟩)
    rw [hpid, Dict.get?_set_of_ne _ hne]
    exact hmem q (List.mem_cons_of_mem _ hq)

/-- Looking a lot up after some lots were replaced. -/
theorem get?_replace {pairs : List (Lot × Lot)} (hid : ∀ p ∈ pairs, p.2.id = p.1.id)
    {lots : Dict LotId Lot} {k : LotId} {lot : Lot}
    (h : ((pairs.map Prod.snd).foldl (fun lots lot => lots.set lot.id lot) lots).get? k =
      some lot) :
    lots.get? k = some lot ∨ ∃ p ∈ pairs, p.2 = lot ∧ p.1.id = k := by
  induction pairs generalizing lots with
  | nil => exact Or.inl h
  | cons p pairs ih =>
    rcases ih (fun q hq => hid q (List.mem_cons_of_mem _ hq)) h with hget | ⟨q, hq, heq⟩
    · have hpid := hid p List.mem_cons_self
      dsimp only at hget
      rw [hpid, Dict.get?_set] at hget
      split_ifs at hget with hk
      · exact Or.inr ⟨p, List.mem_cons_self, Option.some.inj hget, hk.symm⟩
      · exact Or.inl hget
    · exact Or.inr ⟨q, List.mem_cons_of_mem _ hq, heq⟩

/-- Replacing lots adds no key. -/
theorem keys_replace {pairs : List (Lot × Lot)} (hid : ∀ p ∈ pairs, p.2.id = p.1.id)
    {lots : Dict LotId Lot} (hmem : ∀ p ∈ pairs, lots.get? p.1.id = some p.1) :
    ((pairs.map Prod.snd).foldl (fun lots lot => lots.set lot.id lot) lots).keys = lots.keys := by
  have hfold : ∀ (affected : List Lot) (lots : Dict LotId Lot),
      (∀ lot ∈ affected, lot.id ∈ lots.keys) →
      (affected.foldl (fun lots lot => lots.set lot.id lot) lots).keys = lots.keys := by
    intro affected
    induction affected with
    | nil => exact fun lots _ => rfl
    | cons lot affected ih =>
      intro lots hkeys
      have hset := Dict.keys_set_of_mem lots (hkeys lot List.mem_cons_self) lot
      rw [List.foldl_cons, ih _ fun lot' h => hset ▸ hkeys lot' (List.mem_cons_of_mem _ h), hset]
  refine hfold _ _ fun lot hlot => ?_
  obtain ⟨p, hp, rfl⟩ := List.mem_map.mp hlot
  exact hid p hp ▸ Dict.mem_keys_of_get? (hmem p hp)

/-! ### What a sell does to the lots -/

section Sell

variable {l : LotLedger} (agentId : AgentId) (symbol : String) (method : LotMethod)

theorem mem_candidates {lot : Lot} :
    lot ∈ l.candidates agentId symbol method ↔
      lot ∈ l.allLots ∧ lot.agentId = agentId ∧ lot.symbol = symbol ∧ lot.isClosed = false ∧
        0 < lot.remainingQty := by
  rw [candidates, List.mem_mergeSort, List.mem_filter, decide_eq_true_eq]

/-- How much there is to consume. -/
theorem sum_candidates :
    ((l.candidates agentId symbol method).map (·.remainingQty)).sum =
      l.total fun lot => if lot.agentId = agentId ∧ lot.symbol = symbol ∧ lot.isClosed = false ∧
        0 < lot.remainingQty then lot.remainingQty else 0 := by
  have hperm : (l.candidates agentId symbol method).Perm (l.allLots.filter fun lot =>
      lot.agentId = agentId ∧ lot.symbol = symbol ∧ lot.isClosed = false ∧
        0 < lot.remainingQty) := List.mergeSort_perm _ _
  rw [(hperm.map _).sum_eq, total]
  induction l.allLots with
  | nil => rfl
  | cons lot lots ih =>
    rw [List.filter_cons, List.map_cons, List.sum_cons, ← ih]
    split_ifs with h₁ h₂ h₂
    · rw [List.map_cons, List.sum_cons]
    · exact absurd (of_decide_eq_true h₁) h₂
    · exact absurd (decide_eq_true h₂) h₁
    · rw [zero_add]

@[simp] theorem id_consume (lot : Lot) (taken : Decimal) (exitFill : Fill) :
    (lot.consume taken exitFill).id = lot.id := rfl

variable {agentId symbol method}

/-- What is consumed comes from candidates, and is there. -/
theorem of_mem_consumption {qty : Decimal} {lot : Lot} {taken : Decimal}
    (h : (lot, taken) ∈ l.consumption agentId symbol qty method) :
    (lot ∈ l.allLots ∧ lot.agentId = agentId ∧ lot.symbol = normalizeSymbol symbol ∧
        lot.isClosed = false) ∧ 0 < taken ∧ taken ≤ lot.remainingQty := by
  have hpos : ∀ lot ∈ l.candidates agentId (normalizeSymbol symbol) method,
      0 < lot.remainingQty := fun lot hlot => ((mem_candidates _ _ _).mp hlot).2.2.2.2
  obtain ⟨hmem, ht⟩ := allocate_pos_le hpos h
  obtain ⟨hlot, ha, hs, hc, -⟩ := (mem_candidates _ _ _).mp hmem
  exact ⟨⟨hlot, ha, hs, hc⟩, ht⟩

/-- No lot is consumed twice in one sell. -/
theorem nodup_consumption (hl : l.Keyed) (qty : Decimal) :
    ((l.consumption agentId symbol qty method).map fun p => p.1.id).Nodup := by
  have hcand : ((l.candidates agentId (normalizeSymbol symbol) method).map (·.id)).Nodup := by
    have hperm := List.mergeSort_perm (l.allLots.filter fun lot =>
      lot.agentId = agentId ∧ lot.symbol = normalizeSymbol symbol ∧ lot.isClosed = false ∧
        0 < lot.remainingQty)
    exact ((hperm _).map _).nodup_iff.mpr (hl.nodup_ids.sublist (List.filter_sublist.map _))
  have hsub := (sublist_allocate (·.remainingQty)
    (l.candidates agentId (normalizeSymbol symbol) method) qty).map (·.id)
  rw [List.map_map] at hsub
  exact hcand.sublist hsub

/-- A sell that finds enough consumes all it sells. -/
theorem sum_consumption {qty : Decimal} (h₀ : 0 ≤ qty)
    (h : qty ≤ ((l.candidates agentId (normalizeSymbol symbol) method).map (·.remainingQty)).sum) :
    ((l.consumption agentId symbol qty method).map Prod.snd).sum = qty :=
  sum_allocate (fun _ hlot => ((mem_candidates _ _ _).mp hlot).2.2.2.2) h₀ h

/-- `l'` is `l` with some quantities consumed. -/
structure Sells (l l' : LotLedger) (consumed : List (Lot × Decimal)) (exitFill : Fill) : Prop where
  booked : l'.booked = l.booked
  keys : l'.lots.keys = l.lots.keys
  keyed : l'.Keyed
  mem : ∀ lot' ∈ l'.allLots, lot' ∈ l.allLots ∨ ∃ p ∈ consumed, lot' = p.1.consume p.2 exitFill
  /-- A consumed lot exchanges its term. -/
  total : ∀ w : Lot → Decimal, l'.total w =
    l.total w + (consumed.map fun p => w (p.1.consume p.2 exitFill) - w p.1).sum

/-- A sell that finds enough consumes lots and puts what is left of them in their place. -/
theorem closeLots_of_le {qty : Decimal} {exitFill : Fill} (hside : exitFill.side = .sell)
    (h : qty ≤ ((l.candidates agentId (normalizeSymbol symbol) method).map (·.remainingQty)).sum) :
    l.closeLots agentId symbol qty exitFill method =
      some ({ l with
          lots := ((l.consumption agentId symbol qty method).map fun p =>
            p.1.consume p.2 exitFill).foldl (fun lots lot => lots.set lot.id lot) l.lots },
        (l.consumption agentId symbol qty method).map fun p => p.1.consume p.2 exitFill) := by
  rw [closeLots, if_neg (not_not.mpr hside), if_neg h.not_gt]

theorem closeLots_of_lt {qty : Decimal} {exitFill : Fill} (hside : exitFill.side = .sell)
    (h : ((l.candidates agentId (normalizeSymbol symbol) method).map (·.remainingQty)).sum < qty) :
    l.closeLots agentId symbol qty exitFill method = none := by
  rw [closeLots, if_neg (not_not.mpr hside), if_pos h]

/-- **What a sell does**: it replaces the lots it consumes, and nothing else. -/
theorem closeLots_sells (hl : l.Keyed) {qty : Decimal} {exitFill : Fill}
    (hside : exitFill.side = .sell)
    (h : qty ≤ ((l.candidates agentId (normalizeSymbol symbol) method).map (·.remainingQty)).sum) :
    ∃ l' affected, l.closeLots agentId symbol qty exitFill method = some (l', affected) ∧
      l.Sells l' (l.consumption agentId symbol qty method) exitFill := by
  let pairs := (l.consumption agentId symbol qty method).map fun p =>
    (p.1, p.1.consume p.2 exitFill)
  have haff : (l.consumption agentId symbol qty method).map
      (fun p => p.1.consume p.2 exitFill) = pairs.map Prod.snd := by
    rw [List.map_map]
    rfl
  have hclose := closeLots_of_le hside h
  rw [haff] at hclose
  have hid : ∀ p ∈ pairs, p.2.id = p.1.id := by
    intro p hp
    obtain ⟨q, -, rfl⟩ := List.mem_map.mp hp
    rfl
  have hmem : ∀ p ∈ pairs, l.lots.get? p.1.id = some p.1 := by
    intro p hp
    obtain ⟨q, hq, rfl⟩ := List.mem_map.mp hp
    exact hl.get?_of_mem (of_mem_consumption hq).1.1
  have hnd : (pairs.map fun p => p.1.id).Nodup := by
    rw [List.map_map]
    exact nodup_consumption hl qty
  refine ⟨_, _, hclose, rfl, keys_replace hid hmem, fun k lot hk => ?_, fun lot' hlot' => ?_,
    fun w => ?_⟩
  · rcases get?_replace hid hk with hk' | ⟨p, hp, rfl, hpk⟩
    · exact hl k lot hk'
    · exact (hid p hp).trans hpk
  · obtain ⟨k, hk⟩ := mem_allLots.mp hlot'
    rcases get?_replace hid hk with hk' | ⟨p, hp, heq, -⟩
    · exact Or.inl (mem_allLots.mpr ⟨k, hk'⟩)
    · obtain ⟨q, hq, rfl⟩ := List.mem_map.mp hp
      exact Or.inr ⟨q, hq, heq.symm⟩
  · rw [total_eq, total_eq, sum_replace w hnd hid hmem, List.map_map]
    rfl

/-! ### What booking a fill is -/

theorem bookFill_of_buy {fill : Fill} (hnew : fill.id ∉ l.booked) (hside : fill.side = .buy)
    (lotId : LotId) :
    l.bookFill fill lotId method =
      (l.markBooked fill.id).openLot fill lotId := by
  rw [bookFill, if_neg hnew]
  dsimp only
  rw [hside]

/-- Booking a sell that finds enough, by the lots it finds. -/
theorem bookFill_of_candidates {fill : Fill} (hnew : fill.id ∉ l.booked) (hside : fill.side = .sell)
    {lots : List Lot}
    (hcand : l.candidates fill.agentId (normalizeSymbol fill.symbol) method = lots)
    (hqty : fill.qty ≤ (lots.map (·.remainingQty)).sum) (lotId : LotId) :
    l.bookFill fill lotId method =
      { lots := ((allocate (·.remainingQty) lots fill.qty).map fun p =>
          p.1.consume p.2 fill).foldl (fun lots lot => lots.set lot.id lot) l.lots
        booked := l.booked ++ [fill.id] } := by
  subst hcand
  have hclose : (l.markBooked fill.id).closeLots fill.agentId fill.symbol fill.qty fill method =
      _ := closeLots_of_le hside hqty
  rw [bookFill, if_neg hnew]
  dsimp only
  rw [hside, hclose]
  rfl

/-- A sell that finds too little is noted, and changes no lot. -/
theorem bookFill_of_lt {fill : Fill} (hnew : fill.id ∉ l.booked) (hside : fill.side = .sell)
    (hless : ((l.candidates fill.agentId (normalizeSymbol fill.symbol) method).map
      (·.remainingQty)).sum < fill.qty) (lotId : LotId) :
    l.bookFill fill lotId method = l.markBooked fill.id := by
  have hclose : (l.markBooked fill.id).closeLots fill.agentId fill.symbol fill.qty fill method =
      none := closeLots_of_lt hside hless
  rw [bookFill, if_neg hnew]
  dsimp only
  rw [hside, hclose]

/-- Booking a sell that finds enough consumes what it sells. -/
theorem bookFill_of_sell (hl : l.Keyed) {fill : Fill} (hnew : fill.id ∉ l.booked)
    (hside : fill.side = .sell)
    (h : fill.qty ≤ ((l.candidates fill.agentId (normalizeSymbol fill.symbol) method).map
      (·.remainingQty)).sum) (lotId : LotId) :
    (l.markBooked fill.id).Sells (l.bookFill fill lotId method)
      (l.consumption fill.agentId fill.symbol fill.qty method) fill := by
  obtain ⟨l', affected, hclose, hsells⟩ := closeLots_sells (l := l.markBooked fill.id) hl hside h
  have hbook : l.bookFill fill lotId method = l' := by
    rw [bookFill, if_neg hnew]
    dsimp only
    rw [hside, hclose]
  rw [hbook]
  exact hsells

end Sell

section BookFill

variable {l : LotLedger} {fill : Fill} {lotId : LotId} {method : LotMethod}

/-- **What booking a fill does**: nothing, if it was booked; otherwise a buy opens a lot, and a sell
consumes what it sells, or nothing if it finds too little. -/
theorem bookFill_cases (hl : l.Keyed) (fill : Fill) (lotId : LotId) (method : LotMethod) :
    fill.id ∈ l.booked ∧ l.bookFill fill lotId method = l ∨
      fill.id ∉ l.booked ∧ fill.side = .buy ∧
        l.bookFill fill lotId method = (l.markBooked fill.id).openLot fill lotId ∨
      fill.id ∉ l.booked ∧ fill.side = .sell ∧
        l.bookFill fill lotId method = l.markBooked fill.id ∨
      fill.id ∉ l.booked ∧ fill.side = .sell ∧
        (l.markBooked fill.id).Sells (l.bookFill fill lotId method)
          (l.consumption fill.agentId fill.symbol fill.qty method) fill := by
  by_cases hnew : fill.id ∈ l.booked
  · exact Or.inl ⟨hnew, if_pos hnew⟩
  refine Or.inr ?_
  cases hside : fill.side with
  | buy => exact Or.inl ⟨hnew, rfl, bookFill_of_buy hnew hside lotId⟩
  | sell =>
    refine Or.inr ?_
    rcases lt_or_ge ((l.candidates fill.agentId (normalizeSymbol fill.symbol) method).map
      (·.remainingQty)).sum fill.qty with hless | hqty
    · exact Or.inl ⟨hnew, rfl, bookFill_of_lt hnew hside hless lotId⟩
    · exact Or.inr ⟨hnew, rfl, bookFill_of_sell hl hnew hside hqty lotId⟩

/-- A booking leaves every lot under its identifier. -/
theorem Keyed.bookFill (hl : l.Keyed) : (l.bookFill fill lotId method).Keyed := by
  rcases bookFill_cases hl fill lotId method with ⟨-, heq⟩ | ⟨-, -, heq⟩ | ⟨-, -, heq⟩ |
    ⟨-, -, hsells⟩
  · rwa [heq]
  · rw [heq]
    exact Keyed.openLot fill hl
  · rw [heq]
    exact hl
  · exact hsells.keyed

/-- A booking notes the fill. -/
theorem booked_bookFill (l : LotLedger) (fill : Fill) (lotId : LotId) (method : LotMethod) :
    (l.bookFill fill lotId method).booked =
      if fill.id ∈ l.booked then l.booked else l.booked ++ [fill.id] := by
  by_cases hnew : fill.id ∈ l.booked
  · rw [LotLedger.bookFill, if_pos hnew, if_pos hnew]
  rw [if_neg hnew]
  cases hside : fill.side with
  | buy =>
    rw [bookFill_of_buy hnew hside]
    rfl
  | sell =>
    rcases le_or_gt fill.qty ((l.candidates fill.agentId (normalizeSymbol fill.symbol)
      method).map (·.remainingQty)).sum with hqty | hless
    · rw [bookFill_of_candidates hnew hside rfl hqty]
    · rw [bookFill_of_lt hnew hside hless]
      rfl

end BookFill

end LotLedger

end TradingPlatform
