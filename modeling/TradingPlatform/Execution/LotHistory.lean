import TradingPlatform.Execution.LotQueue
import TradingPlatform.Execution.LotRestart

/-!
# Histories of bookings

What a ledger is after any sequence of fills, each booked by its own method. Two laws are read off
one description of a booking (`TradingPlatform.LotLedger.allLots_book_of_sell` and its companions):
a buy adds a lot at the end of the container, and a sell maps what it takes over the lots.

* `TradingPlatform.LotLedger.regular_run`: every lot is regular, and the lots are, one for one and
  in their order, the buys that were not repetitions of a fill booked before.
* `TradingPlatform.LotLedger.run_separates`: a repetition can be left out, and the lots of an agent
  in a symbol are what its own fills make of them.

The second law has one exception, which it names. The ledger remembers the identifiers of fills and
not whose they were, so a fill that carries the identifier of an earlier fill of another agent is
taken for a repetition of that one.
-/

namespace TradingPlatform

/-! ### Lots -/

/-- `Lot.__post_init__`: an open lot that is constructed with nothing left has all of it left. -/
def Lot.postInit (lot : Lot) : Lot :=
  if lot.remainingQty = 0 ∧ lot.isClosed = false then { lot with remainingQty := lot.qty } else lot

/-- The lot of a buy is constructed without a quantity that is left. -/
theorem Lot.ofFill_eq_postInit (fill : Fill) (lotId : LotId) :
    Lot.ofFill fill lotId = { Lot.ofFill fill lotId with remainingQty := 0 }.postInit :=
  (if_pos ⟨rfl, rfl⟩).symm

/-- What is left of a lot is not refilled when the lot is constructed again. -/
theorem Lot.postInit_consume (lot : Lot) (taken : Decimal) (exitFill : Fill) :
    (lot.consume taken exitFill).postInit = lot.consume taken exitFill := by
  refine if_neg fun h => ?_
  have hclosed : (lot.consume taken exitFill).isClosed = true := decide_eq_true h.1
  rw [h.2] at hclosed
  exact Bool.false_ne_true hclosed

/-- **A regular lot.** -/
structure Lot.Regular (lot : Lot) : Prop where
  nonneg : 0 ≤ lot.remainingQty
  le_qty : lot.remainingQty ≤ lot.qty
  closed : lot.isClosed = true ↔ lot.remainingQty = 0
  exitFillId : lot.exitFillId.isSome = lot.isClosed
  exitDate : lot.exitDate.isSome = lot.isClosed
  exitPrice : lot.exitPrice.isSome = lot.isClosed
  canonical : normalizeSymbol lot.symbol = lot.symbol

theorem Lot.regular_ofFill {fill : Fill} (hqty : 0 < fill.qty) (lotId : LotId) :
    (Lot.ofFill fill lotId).Regular where
  nonneg := hqty.le
  le_qty := le_rfl
  closed := iff_of_false Bool.false_ne_true hqty.ne'
  exitFillId := rfl
  exitDate := rfl
  exitPrice := rfl
  canonical := normalizeSymbol_idem fill.symbol

/-- Consuming a part of an open lot leaves a regular one. -/
theorem Lot.Regular.consume {lot : Lot} (h : lot.Regular) (hopen : lot.isClosed = false)
    {taken : Decimal} (hpos : 0 < taken) (hle : taken ≤ lot.remainingQty) (exitFill : Fill) :
    (lot.consume taken exitFill).Regular := by
  have hrest : (lot.consume taken exitFill).remainingQty = 0 ∨
      (lot.consume taken exitFill).remainingQty = lot.remainingQty - taken := by
    unfold Lot.consume
    dsimp only
    split_ifs
    · exact Or.inl rfl
    · exact Or.inr rfl
  have hqty : (lot.consume taken exitFill).qty = lot.qty := rfl
  -- an open lot has no exit fields, so they are set just when the lot is closed here
  have hstamp : ∀ {α : Type} (old : Option α) (new : α), old.isSome = lot.isClosed →
      (if (lot.consume taken exitFill).isClosed = true then some new else old).isSome =
        (lot.consume taken exitFill).isClosed := by
    intro α old new hold
    cases hc : (lot.consume taken exitFill).isClosed with
    | true => rfl
    | false => exact hold.trans hopen
  refine ⟨?_, ?_, decide_eq_true_iff, hstamp _ _ h.exitFillId, hstamp _ _ h.exitDate,
    hstamp _ _ h.exitPrice, h.canonical⟩
  · rcases hrest with heq | heq <;> rw [heq]
    exact sub_nonneg.mpr hle
  · rw [hqty]
    rcases hrest with heq | heq <;> rw [heq]
    · exact h.nonneg.trans h.le_qty
    · linarith [h.le_qty]

/-- The entry that a buy makes. -/
def Fill.entry (fill : Fill) : LotEntry where
  agentId := fill.agentId
  symbol := normalizeSymbol fill.symbol
  qty := fill.qty
  entryPrice := fill.price
  entryDate := fill.timestamp.date
  entryFillId := fill.id

/-! ### One booking -/

/-- Leave out the fills whose identifiers have been seen. -/
def newFills : List FillId → List Fill → List Fill
  | _, [] => []
  | seen, fill :: fills =>
    if fill.id ∈ seen then newFills seen fills else fill :: newFills (seen ++ [fill.id]) fills

namespace LotLedger

/-- Book a fill by a method. -/
def book (l : LotLedger) (op : Booking × LotMethod) : LotLedger :=
  l.bookFill op.1.fill op.1.lotId op.2

variable {l : LotLedger} {op : Booking × LotMethod}

theorem book_of_booked (h : op.1.fill.id ∈ l.booked) : l.book op = l := if_pos h

theorem booked_book (l : LotLedger) (op : Booking × LotMethod) :
    (l.book op).booked =
      if op.1.fill.id ∈ l.booked then l.booked else l.booked ++ [op.1.fill.id] :=
  booked_bookFill l op.1.fill op.1.lotId op.2

/-- A buy adds its lot at the end. -/
theorem allLots_book_of_buy (hnew : op.1.fill.id ∉ l.booked) (hside : op.1.fill.side = .buy)
    (hfresh : op.1.lotId ∉ l.lots.keys) :
    (l.book op).allLots = l.allLots ++ [.ofFill op.1.fill op.1.lotId] := by
  rw [book, bookFill_of_buy hnew hside]
  exact allLots_openLot op.1.fill hfresh

/-- What a fill consumes: of a sell that finds too little, nothing. -/
def consumedBy (l : LotLedger) (op : Booking × LotMethod) : List (Lot × Decimal) :=
  if op.1.fill.qty ≤ ((l.candidates op.1.fill.agentId (normalizeSymbol op.1.fill.symbol)
    op.2).map (·.remainingQty)).sum
  then l.consumption op.1.fill.agentId op.1.fill.symbol op.1.fill.qty op.2 else []

theorem of_mem_consumedBy {lot : Lot} {taken : Decimal} (h : (lot, taken) ∈ l.consumedBy op) :
    (lot ∈ l.allLots ∧ lot.agentId = op.1.fill.agentId ∧
        lot.symbol = normalizeSymbol op.1.fill.symbol ∧ lot.isClosed = false) ∧
      0 < taken ∧ taken ≤ lot.remainingQty := by
  unfold consumedBy at h
  split_ifs at h
  · exact of_mem_consumption h
  · exact absurd h List.not_mem_nil

theorem nodup_consumedBy (hl : l.Keyed) : ((l.consumedBy op).map fun p => p.1.id).Nodup := by
  unfold consumedBy
  split_ifs
  · exact nodup_consumption hl _
  · exact List.nodup_nil

/-- A sell maps what it takes over the lots. -/
theorem lots_book_of_sell (hl : l.Keyed) (hnew : op.1.fill.id ∉ l.booked)
    (hside : op.1.fill.side = .sell) :
    (l.book op).lots.keys = l.lots.keys ∧
      (∀ k, (l.book op).lots.get? k =
        (l.lots.get? k).map (afterSale (l.consumedBy op) op.1.fill)) ∧
      (l.book op).allLots = l.allLots.map (afterSale (l.consumedBy op) op.1.fill) := by
  rcases le_or_gt op.1.fill.qty ((l.candidates op.1.fill.agentId
    (normalizeSymbol op.1.fill.symbol) op.2).map (·.remainingQty)).sum with hle | hlt
  · have hmem : ∀ p ∈ l.consumption op.1.fill.agentId op.1.fill.symbol op.1.fill.qty op.2,
        l.lots.get? p.1.id = some p.1 :=
      fun p hp => hl.get?_of_mem (of_mem_consumption hp).1.1
    have hnd := @nodup_consumption l op.1.fill.agentId op.1.fill.symbol op.2 hl op.1.fill.qty
    rw [consumedBy, if_pos hle, book, bookFill_of_candidates hnew hside rfl hle]
    exact ⟨keys_consumed hmem op.1.fill, get?_consumed hl hnd hmem op.1.fill,
      values_consumed hl hnd hmem op.1.fill⟩
  · have hid : afterSale [] op.1.fill = id := rfl
    rw [consumedBy, if_neg hlt.not_ge, book, bookFill_of_lt hnew hside hlt, hid]
    exact ⟨rfl, fun k => Option.map_id.symm ▸ rfl, (List.map_id _).symm⟩

theorem Keyed.book (hl : l.Keyed) (op : Booking × LotMethod) : (l.book op).Keyed := hl.bookFill

/-- A booking adds no lot but under the identifier drawn for it. -/
theorem mem_keys_book (hl : l.Keyed) {k : LotId} (h : k ∈ (l.book op).lots.keys) :
    k ∈ l.lots.keys ∨ k = op.1.lotId := by
  by_cases hnew : op.1.fill.id ∈ l.booked
  · rw [book_of_booked hnew] at h
    exact Or.inl h
  cases hside : op.1.fill.side with
  | buy =>
    rw [book, bookFill_of_buy hnew hside] at h
    exact (Dict.mem_keys_set.mp h).symm
  | sell => exact Or.inl ((lots_book_of_sell hl hnew hside).1 ▸ h)

/-! ### The representation of the ledger -/

/-- Every lot of the ledger is regular. -/
def AllRegular (l : LotLedger) : Prop := ∀ lot ∈ l.allLots, lot.Regular

theorem AllRegular.book (h : l.AllRegular) (hl : l.Keyed) (hqty : 0 < op.1.fill.qty)
    (hfresh : op.1.lotId ∉ l.lots.keys) : (l.book op).AllRegular := by
  by_cases hnew : op.1.fill.id ∈ l.booked
  · rwa [book_of_booked hnew]
  intro lot hlot
  cases hside : op.1.fill.side with
  | buy =>
    rw [allLots_book_of_buy hnew hside hfresh] at hlot
    rcases List.mem_append.mp hlot with hold | hadded
    · exact h lot hold
    · rw [List.mem_singleton.mp hadded]
      exact Lot.regular_ofFill hqty _
  | sell =>
    rw [(lots_book_of_sell hl hnew hside).2.2] at hlot
    obtain ⟨old, hold, rfl⟩ := List.mem_map.mp hlot
    by_cases hc : ∃ taken, (old, taken) ∈ l.consumedBy op
    · obtain ⟨taken, ht⟩ := hc
      obtain ⟨⟨-, -, -, hopen⟩, hpos, hle⟩ := of_mem_consumedBy ht
      rw [afterSale_of_mem (nodup_consumedBy hl) ht]
      exact (h old hold).consume hopen hpos hle _
    · have hmem : ∀ p ∈ l.consumedBy op, l.lots.get? p.1.id = some p.1 :=
        fun p hp => hl.get?_of_mem (of_mem_consumedBy hp).1.1
      rw [afterSale_of_forall_ne (forall_ne_of_not_consumed hmem (hl.get?_of_mem hold) hc)]
      exact h old hold

/-- What the lots record of the buys, after one more fill. -/
theorem entries_book (hl : l.Keyed) (hfresh : op.1.lotId ∉ l.lots.keys) :
    (l.book op).allLots.map Lot.entry = l.allLots.map Lot.entry ++
      ((newFills l.booked [op.1.fill]).filter fun fill => fill.side = .buy).map Fill.entry := by
  by_cases hnew : op.1.fill.id ∈ l.booked
  · rw [book_of_booked hnew, newFills, if_pos hnew]
    exact (List.append_nil _).symm
  rw [newFills, if_neg hnew, newFills]
  cases hside : op.1.fill.side with
  | buy =>
    rw [allLots_book_of_buy hnew hside hfresh, List.map_append,
      List.filter_cons_of_pos (by simp [hside])]
    rfl
  | sell =>
    rw [(lots_book_of_sell hl hnew hside).2.2, List.filter_cons_of_neg (by simp [hside]),
      List.filter_nil, List.map_nil, List.append_nil, List.map_map]
    refine List.map_congr_left fun lot _ => ?_
    exact afterSale_cases (P := fun lot' => lot'.entry = lot.entry) rfl fun _ => rfl

theorem newFills_cons (seen : List FillId) (fill : Fill) (fills : List Fill) :
    newFills seen (fill :: fills) = newFills seen [fill] ++
      newFills (if fill.id ∈ seen then seen else seen ++ [fill.id]) fills := by
  rw [newFills, newFills]
  split_ifs <;> rfl

/-- A fill whose identifier has been seen is not new. -/
theorem notMem_newFills {seen : List FillId} {fills : List Fill} {fill : Fill}
    (h : fill ∈ newFills seen fills) : fill.id ∉ seen := by
  induction fills generalizing seen with
  | nil => exact absurd h List.not_mem_nil
  | cons first fills ih =>
    rw [newFills] at h
    split_ifs at h with hseen
    · exact ih h
    · rcases List.mem_cons.mp h with rfl | hmem
      · exact hseen
      · exact fun hc => ih hmem (List.mem_append_left _ hc)

/-- The new fills have different identifiers. -/
theorem nodup_newFills (seen : List FillId) (fills : List Fill) :
    ((newFills seen fills).map (·.id)).Nodup := by
  induction fills generalizing seen with
  | nil => exact List.nodup_nil
  | cons first fills ih =>
    rw [newFills]
    split_ifs with hseen
    · exact ih seen
    · refine List.nodup_cons.mpr ⟨fun hc => ?_, ih _⟩
      obtain ⟨fill, hfill, hid⟩ := List.mem_map.mp hc
      exact notMem_newFills hfill (hid ▸ List.mem_append_right _ (List.mem_singleton_self _))

/-- The run of the ledger: regular lots, and an entry for every new buy. -/
theorem allRegular_bookAll (h : l.AllRegular) (hl : l.Keyed) {ops : List (Booking × LotMethod)}
    (hqty : ∀ op ∈ ops, 0 < op.1.fill.qty) (hnd : (ops.map fun op => op.1.lotId).Nodup)
    (hfresh : ∀ op ∈ ops, op.1.lotId ∉ l.lots.keys) :
    (run book l ops).AllRegular ∧
      (run book l ops).allLots.map Lot.entry = l.allLots.map Lot.entry ++
        ((newFills l.booked (ops.map fun op => op.1.fill)).filter
          fun fill => fill.side = .buy).map Fill.entry := by
  induction ops generalizing l with
  | nil => exact ⟨h, (List.append_nil _).symm⟩
  | cons op ops ih =>
    obtain ⟨hnot, hnd'⟩ := List.nodup_cons.mp hnd
    have hop := hfresh op List.mem_cons_self
    have hrest : ∀ op' ∈ ops, op'.1.lotId ∉ (l.book op).lots.keys := by
      intro op' hop' hkeys
      rcases mem_keys_book hl hkeys with hold | heq
      · exact hfresh op' (List.mem_cons_of_mem _ hop') hold
      · exact hnot (List.mem_map.mpr ⟨op', hop', heq⟩)
    obtain ⟨hregular, hentries⟩ := ih (h.book hl (hqty op List.mem_cons_self) hop) (hl.book op)
      (fun op' h' => hqty op' (List.mem_cons_of_mem _ h')) hnd' hrest
    refine ⟨hregular, ?_⟩
    rw [run_cons, hentries, entries_book hl hop, booked_book, List.map_cons,
      newFills_cons l.booked op.1.fill (ops.map fun op => op.1.fill), List.filter_append,
      List.map_append, List.append_assoc]

theorem keyed_empty : empty.Keyed := fun _ _ h => absurd h (by simp [empty])

/-- **The lots are the buys**: in every ledger that bookings of positive quantities lead to, every
lot is regular, and the lots are one for one, and in this order, the buys among the fills whose
identifiers no fill before them has. -/
theorem regular_run {ops : List (Booking × LotMethod)} (hqty : ∀ op ∈ ops, 0 < op.1.fill.qty)
    (hfresh : (ops.map fun op => op.1.lotId).Nodup) :
    (∀ lot ∈ (run book empty ops).allLots, lot.Regular) ∧
      (run book empty ops).allLots.map Lot.entry =
        ((newFills [] (ops.map fun op => op.1.fill)).filter
          fun fill => fill.side = .buy).map Fill.entry ∧
      ((run book empty ops).allLots.map (·.id)).Nodup ∧
      ((run book empty ops).allLots.map (·.entryFillId)).Nodup := by
  have hempty : empty.AllRegular := fun lot h => absurd h List.not_mem_nil
  obtain ⟨hregular, hentries⟩ :=
    allRegular_bookAll hempty keyed_empty hqty hfresh fun _ _ => List.not_mem_nil
  have hkeyed : (run book empty ops).Keyed :=
    run_invariant (fun l op hl => hl.book op) keyed_empty ops
  refine ⟨hregular, hentries, hkeyed.nodup_ids, ?_⟩
  have hids : (run book empty ops).allLots.map (·.entryFillId) =
      ((newFills [] (ops.map fun op => op.1.fill)).filter fun fill => fill.side = .buy).map
        (·.id) := by
    have h := congrArg (List.map LotEntry.entryFillId) hentries
    rw [List.map_map, List.map_append, List.map_map, List.map_map] at h
    exact h
  rw [hids]
  exact (nodup_newFills _ _).sublist (List.filter_sublist.map _)

/-- A fill of some shares, a dollar each, booked under its own identifier. -/
def dollarOp (id : FillId) (lotId : LotId) (agentId : AgentId) (side : OrderSide) (qty : Decimal) :
    Booking × LotMethod :=
  (⟨{ id := id, orderId := id, agentId := agentId, symbol := "BTC/USD", side := side, qty := qty,
      price := 1, timestamp := 0 }, lotId⟩, .lifo)

/-- Two buys, one of them delivered twice, and a sell that closes one lot and a part of another. -/
def twoBuys : List (Booking × LotMethod) :=
  [dollarOp 1 1 .haiku .buy 2, dollarOp 2 2 .haiku .buy 3, dollarOp 1 3 .haiku .buy 2,
    dollarOp 3 4 .haiku .sell 3]

theorem regular_twoBuys :
    (∀ lot ∈ (run book empty twoBuys).allLots, lot.Regular) ∧
      (run book empty twoBuys).allLots.map Lot.entry =
        ((newFills [] (twoBuys.map fun op => op.1.fill)).filter
          fun fill => fill.side = .buy).map Fill.entry ∧
      ((run book empty twoBuys).allLots.map (·.id)).Nodup ∧
      ((run book empty twoBuys).allLots.map (·.entryFillId)).Nodup :=
  regular_run (by decide) (by decide)

/-! ### Agents and symbols are apart -/

/-- The fill is one of an agent in a symbol, in either spelling. -/
def Concerns (agentId : AgentId) (sym : String) (op : Booking × LotMethod) : Prop :=
  op.1.fill.agentId = agentId ∧ normalizeSymbol op.1.fill.symbol = sym

instance (agentId : AgentId) (sym : String) (op : Booking × LotMethod) :
    Decidable (Concerns agentId sym op) :=
  inferInstanceAs (Decidable (_ ∧ _))

/-- The lots of an agent in a symbol. -/
def lotsOf (l : LotLedger) (agentId : AgentId) (sym : String) : List Lot :=
  l.allLots.filter fun lot => lot.agentId = agentId ∧ lot.symbol = sym

/-- The fills of an agent in a symbol, but for those that carry the identifier of an earlier fill of
another agent or symbol; `others` are the identifiers of these so far. -/
def ownOps (agentId : AgentId) (sym : String) :
    List FillId → List (Booking × LotMethod) → List (Booking × LotMethod)
  | _, [] => []
  | others, op :: ops =>
    if Concerns agentId sym op then
      if op.1.fill.id ∈ others then ownOps agentId sym others ops
      else op :: ownOps agentId sym others ops
    else ownOps agentId sym (op.1.fill.id :: others) ops

variable {agentId : AgentId} {sym : String} {own : LotLedger} {others : List FillId}

/-- **The ledger of one agent and symbol beside the whole ledger.** -/
structure Mirrors (l own : LotLedger) (agentId : AgentId) (sym : String) (others : List FillId) :
    Prop where
  keyed : l.Keyed
  keyedOwn : own.Keyed
  lots : own.allLots = l.lotsOf agentId sym
  booked : ∀ id, id ∈ l.booked ↔ id ∈ own.booked ∨ id ∈ others

theorem Mirrors.mem_keys (h : l.Mirrors own agentId sym others) {k : LotId}
    (hk : k ∈ own.lots.keys) : k ∈ l.lots.keys := by
  obtain ⟨lot, hlot⟩ := Dict.mem_keys_iff.mp hk
  have hmem : lot ∈ own.allLots := mem_allLots.mpr ⟨k, hlot⟩
  rw [h.lots] at hmem
  have hget := h.keyed.get?_of_mem (List.mem_filter.mp hmem).1
  rw [h.keyedOwn k lot hlot] at hget
  exact Dict.mem_keys_of_get? hget

/-- The two ledgers offer a sell the same lots. -/
theorem Mirrors.candidates (h : l.Mirrors own agentId sym others) (method : LotMethod) :
    own.candidates agentId sym method = l.candidates agentId sym method := by
  have hfilter : own.allLots.filter (fun lot => lot.agentId = agentId ∧ lot.symbol = sym ∧
        lot.isClosed = false ∧ 0 < lot.remainingQty) =
      l.allLots.filter fun lot => lot.agentId = agentId ∧ lot.symbol = sym ∧
        lot.isClosed = false ∧ 0 < lot.remainingQty := by
    rw [h.lots, lotsOf, List.filter_filter]
    refine List.filter_congr fun lot _ => ?_
    rw [← Bool.decide_and]
    exact decide_eq_decide.mpr (by tauto)
  unfold LotLedger.candidates
  rw [hfilter]

theorem Mirrors.consumedBy (h : l.Mirrors own agentId sym others) (hop : Concerns agentId sym op) :
    own.consumedBy op = l.consumedBy op := by
  obtain ⟨rfl, rfl⟩ := hop
  unfold LotLedger.consumedBy LotLedger.consumption
  rw [h.candidates]

/-- What a sell takes from some lots keeps them with their agent and symbol. -/
theorem filter_map_afterSale (consumed : List (Lot × Decimal)) (exitFill : Fill) (lots : List Lot) :
    (lots.map (afterSale consumed exitFill)).filter
        (fun lot => lot.agentId = agentId ∧ lot.symbol = sym) =
      (lots.filter fun lot => lot.agentId = agentId ∧ lot.symbol = sym).map
        (afterSale consumed exitFill) := by
  rw [List.filter_map]
  refine congrArg _ (List.filter_congr fun lot _ => ?_)
  exact afterSale_cases (P := fun lot' => decide (lot'.agentId = agentId ∧ lot'.symbol = sym) =
    decide (lot.agentId = agentId ∧ lot.symbol = sym)) rfl fun _ => rfl

/-- **A fill of the agent in the symbol**: both ledgers book it, or neither does. -/
theorem Mirrors.book_own (h : l.Mirrors own agentId sym others) (hop : Concerns agentId sym op)
    (hnot : op.1.fill.id ∉ others) (hfresh : op.1.lotId ∉ l.lots.keys) :
    (l.book op).Mirrors (own.book op) agentId sym others := by
  have hiff : op.1.fill.id ∈ l.booked ↔ op.1.fill.id ∈ own.booked :=
    (h.booked _).trans (or_iff_left hnot)
  refine ⟨h.keyed.book op, h.keyedOwn.book op, ?_, fun id => ?_⟩
  · by_cases hnew : op.1.fill.id ∈ l.booked
    · rw [book_of_booked hnew, book_of_booked (hiff.mp hnew)]
      exact h.lots
    have hnew' : op.1.fill.id ∉ own.booked := fun hc => hnew (hiff.mpr hc)
    cases hside : op.1.fill.side with
    | buy =>
      have hfresh' : op.1.lotId ∉ own.lots.keys := fun hk => hfresh (h.mem_keys hk)
      rw [allLots_book_of_buy hnew' hside hfresh', lotsOf, allLots_book_of_buy hnew hside hfresh,
        List.filter_append, List.filter_singleton, h.lots, lotsOf, decide_eq_true (by exact hop)]
      rfl
    | sell =>
      -- what the sell takes is decided by the lots of this agent and symbol alone
      rw [(lots_book_of_sell h.keyedOwn hnew' hside).2.2, lotsOf,
        (lots_book_of_sell h.keyed hnew hside).2.2, filter_map_afterSale, h.consumedBy hop, h.lots,
        lotsOf]
  · rw [booked_book, booked_book]
    by_cases hnew : op.1.fill.id ∈ l.booked
    · rw [if_pos hnew, if_pos (hiff.mp hnew)]
      exact h.booked id
    · rw [if_neg hnew, if_neg fun hc => hnew (hiff.mpr hc), List.mem_append, List.mem_append,
        h.booked]
      tauto

/-- A fill that carries the identifier of an earlier one of another agent or symbol is not
booked. -/
theorem Mirrors.book_skipped (h : l.Mirrors own agentId sym others)
    (hmem : op.1.fill.id ∈ others) : (l.book op).Mirrors own agentId sym others := by
  rwa [book_of_booked ((h.booked _).mpr (Or.inr hmem))]

/-- **A fill of another agent or symbol** touches no lot of this one. -/
theorem Mirrors.book_other (h : l.Mirrors own agentId sym others) (hop : ¬Concerns agentId sym op)
    (hfresh : op.1.lotId ∉ l.lots.keys) :
    (l.book op).Mirrors own agentId sym (op.1.fill.id :: others) := by
  refine ⟨h.keyed.book op, h.keyedOwn, ?_, fun id => ?_⟩
  · rw [h.lots]
    by_cases hnew : op.1.fill.id ∈ l.booked
    · rw [book_of_booked hnew]
    cases hside : op.1.fill.side with
    | buy =>
      rw [lotsOf, lotsOf, allLots_book_of_buy hnew hside hfresh, List.filter_append,
        List.filter_singleton, decide_eq_false (by exact hop)]
      exact (List.append_nil _).symm
    | sell =>
      rw [lotsOf, lotsOf, (lots_book_of_sell h.keyed hnew hside).2.2, filter_map_afterSale]
      symm
      refine (List.map_congr_left fun lot hlot => ?_).trans (List.map_id _)
      obtain ⟨hmem, hpair⟩ := List.mem_filter.mp hlot
      refine afterSale_of_forall_ne (forall_ne_of_not_consumed
        (fun p hp => h.keyed.get?_of_mem (of_mem_consumedBy hp).1.1) (h.keyed.get?_of_mem hmem) ?_)
      -- a lot of this agent and symbol is none that the sell consumes
      rintro ⟨taken, htaken⟩
      obtain ⟨⟨-, hagent, hsymbol, -⟩, -⟩ := of_mem_consumedBy htaken
      have hpair' := of_decide_eq_true hpair
      exact hop ⟨hagent.symm.trans hpair'.1, hsymbol.symm.trans hpair'.2⟩
  · rw [booked_book, List.mem_cons]
    by_cases hnew : op.1.fill.id ∈ l.booked
    · rw [if_pos hnew]
      constructor
      · exact fun hid => ((h.booked id).mp hid).imp_right Or.inr
      · rintro (hid | rfl | hid)
        · exact (h.booked id).mpr (Or.inl hid)
        · exact hnew
        · exact (h.booked id).mpr (Or.inr hid)
    · rw [if_neg hnew, List.mem_append, List.mem_singleton, h.booked]
      tauto

/-- The whole run, beside the run of the agent's own fills. -/
theorem Mirrors.bookAll (h : l.Mirrors own agentId sym others) {ops : List (Booking × LotMethod)}
    (hnd : (ops.map fun op => op.1.lotId).Nodup)
    (hfresh : ∀ op ∈ ops, op.1.lotId ∉ l.lots.keys) :
    (run book l ops).lotsOf agentId sym =
      (run book own (ownOps agentId sym others ops)).allLots := by
  induction ops generalizing l own others with
  | nil => exact h.lots.symm
  | cons op ops ih =>
    obtain ⟨hnot, hnd'⟩ := List.nodup_cons.mp hnd
    have hop := hfresh op List.mem_cons_self
    have hrest : ∀ op' ∈ ops, op'.1.lotId ∉ (l.book op).lots.keys := by
      intro op' hop' hkeys
      rcases mem_keys_book h.keyed hkeys with hold | heq
      · exact hfresh op' (List.mem_cons_of_mem _ hop') hold
      · exact hnot (List.mem_map.mpr ⟨op', hop', heq⟩)
    rw [run_cons, ownOps]
    split_ifs with hconcerns hother
    · exact ih (h.book_skipped hother) hnd' hrest
    · exact ih (h.book_own hconcerns hother hop) hnd' hrest
    · exact ih (h.book_other hconcerns hop) hnd' hrest

/-- What was booked stays booked. -/
theorem booked_run {id : FillId} (h : id ∈ l.booked) (ops : List (Booking × LotMethod)) :
    id ∈ (run book l ops).booked := by
  have hstep : ∀ (l : LotLedger) (op : Booking × LotMethod), id ∈ l.booked →
      id ∈ (l.book op).booked := by
    intro l op hid
    rw [booked_book]
    split_ifs
    · exact hid
    · exact List.mem_append_left _ hid
  exact run_invariant hstep h ops

/-- **Booking is idempotent and separates agents**: a later fill with the identifier of an earlier
one can be left out, and the lots of an agent in a symbol are those that its own fills lead to, but
for those that carry the identifier of an earlier fill of another agent or symbol. -/
theorem run_separates {ops : List (Booking × LotMethod)}
    (hfresh : (ops.map fun op => op.1.lotId).Nodup) :
    (∀ pre op mid op' post, ops = pre ++ op :: mid ++ op' :: post →
        op'.1.fill.id = op.1.fill.id →
          run book empty ops = run book empty (pre ++ op :: mid ++ post)) ∧
      ∀ agentId sym, (run book empty ops).lotsOf agentId sym =
        (run book empty (ownOps agentId sym [] ops)).allLots := by
  refine ⟨?_, fun agentId sym => ?_⟩
  · rintro pre op mid op' post rfl hid
    have hmem : op'.1.fill.id ∈ (run book empty (pre ++ op :: mid)).booked := by
      rw [run_append, run_cons, hid]
      refine booked_run ?_ mid
      rw [booked_book]
      split_ifs with hbooked
      · exact hbooked
      · exact List.mem_append_right _ (List.mem_singleton_self _)
    rw [run_append (pre ++ op :: mid) (op' :: post), run_append (pre ++ op :: mid) post, run_cons,
      book_of_booked hmem]
  · have hempty : empty.Mirrors empty agentId sym [] :=
      ⟨keyed_empty, keyed_empty, rfl, fun id => (or_iff_left List.not_mem_nil).symm⟩
    exact hempty.bookAll hfresh fun _ _ => List.not_mem_nil

/-- Two agents trade the same pair, and one of the fills is delivered twice. -/
def twoAgents : List (Booking × LotMethod) :=
  [dollarOp 1 1 .haiku .buy 2, dollarOp 2 2 .sonnet .buy 3, dollarOp 1 3 .haiku .buy 2,
    dollarOp 3 4 .sonnet .sell 1]

theorem separates_twoAgents :
    (∀ pre op mid op' post, twoAgents = pre ++ op :: mid ++ op' :: post →
        op'.1.fill.id = op.1.fill.id →
          run book empty twoAgents = run book empty (pre ++ op :: mid ++ post)) ∧
      ∀ agentId sym, (run book empty twoAgents).lotsOf agentId sym =
        (run book empty (ownOps agentId sym [] twoAgents)).allLots :=
  run_separates (by decide)

/-- Two fills of one identifier, of two agents. -/
def sharedId : List (Booking × LotMethod) :=
  [dollarOp 1 1 .haiku .buy 2, dollarOp 1 2 .sonnet .buy 3]

/-- **The fill of the second agent is taken for a repetition**: on its own it opens a lot, after
that of the first it opens none. -/
theorem not_separates_sharedId :
    (sharedId.map fun op => op.1.lotId).Nodup ∧
      (run book empty sharedId).lotsOf .sonnet "BTCUSD" = [] ∧
      (run book empty (sharedId.filter (Concerns .sonnet "BTCUSD"))).lotsOf .sonnet "BTCUSD" ≠
        [] := by
  decide +kernel

end LotLedger

end TradingPlatform
