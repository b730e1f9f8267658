import TradingPlatform.Execution.LotHistory

/-!
# Scoring the trades

What an agent was convinced of is compared with what came of it. The recorder hears every fill after
the ledger has booked it. For every lot that a sell has closed it looks for the intent that the lot
was opened for, and writes whether the lot was a win, a loss, or neither, in place of what was
written for that intent before.

A lot has one exit price, that of the sell that closed it, so neither the earlier parts of a lot nor
the earlier lots of an order are in what is stored. It is the verdict on the last slice of the trade
(`TradingPlatform.CalibrationDesk.Inv.outcome_eq`). So it is that of the whole trade exactly if the
two agree (`TradingPlatform.CalibrationDesk.calibrated_iff`).

What carries the induction is that the slices of a lot end with the lot as it is, and that the table
has, for every intent, the verdict on the last slice that closed one of its lots
(`TradingPlatform.CalibrationDesk.Inv`).
-/

namespace TradingPlatform

/-! ### The tracker and the recorder -/

inductive TradeOutcome
  | win | loss | flat
  deriving DecidableEq

structure CalibrationRow where
  agentId : AgentId
  conviction : ℤ
  outcome : TradeOutcome
  deriving DecidableEq

/-- The table of the tracker: one row for each intent. -/
abbrev CalibrationTable := Dict IntentId CalibrationRow

def flatDeadbandPct : Decimal := 5 / 1000

/-- What a return is. -/
def verdict (pct : Decimal) : TradeOutcome :=
  if flatDeadbandPct < pct then .win else if pct < -flatDeadbandPct then .loss else .flat

/-- What the log and the memories know of the orders: the intent and the agent that the submission
of an order names, and how convinced the agent was. No intent is submitted as two orders. -/
structure OpeningIntents where
  submitted : OrderId → Option (IntentId × AgentId)
  conviction : AgentId → IntentId → Option ℤ
  one_order : ∀ {o o' i a a'}, submitted o = some (i, a) → submitted o' = some (i, a') → o = o'

namespace OpeningIntents

variable (log : OpeningIntents)

/-- The intent of an order, if the agent's conviction is on record. -/
def ofOrder (orderId : OrderId) : Option (IntentId × ℤ) :=
  (log.submitted orderId).bind fun (intentId, agentId) =>
    let conviction := (log.conviction agentId intentId).getD 0
    if conviction ≤ 0 then none else some (intentId, conviction)

/-- Find the order of the fill that opened a lot, and its intent. -/
def lookupOpeningIntent (fills : List Fill) (entryFillId : FillId) : Option (IntentId × ℤ) :=
  (fills.find? fun fill => fill.id = entryFillId).bind fun fill => log.ofOrder fill.orderId

/-- Score a lot that was closed. -/
def recordForLot (fills : List Fill) (table : CalibrationTable) (lot : Lot) : CalibrationTable :=
  match lot.exitPrice with
  | none => table
  | some exitPrice =>
    if lot.entryPrice ≤ 0 then table
    else
      match log.lookupOpeningIntent fills lot.entryFillId with
      | none => table
      | some (intentId, conviction) =>
        table.set intentId
          ⟨lot.agentId, conviction, verdict ((exitPrice - lot.entryPrice) / lot.entryPrice)⟩

/-- The recorder hears a fill. -/
def onFill (fills : List Fill) (ledger : LotLedger) (table : CalibrationTable) (fill : Fill) :
    CalibrationTable :=
  match fill.side with
  | .buy => table
  | .sell =>
    (ledger.allLots.filter fun lot => lot.exitFillId = some fill.id).foldl (log.recordForLot fills)
      table

end OpeningIntents

/-! ### The desk -/

/-- A part of a lot that was sold: the lot as the sell leaves it, how much was taken of it, and the
sell. -/
structure ExitSlice where
  lot : Lot
  taken : Decimal
  exitFill : Fill

/-- The return of a slice. -/
def ExitSlice.pct (x : ExitSlice) : Decimal :=
  (x.exitFill.price - x.lot.entryPrice) / x.lot.entryPrice

/-- The slices of a sell, in the order in which their lots were booked. -/
def LotLedger.slices (l : LotLedger) (op : Booking × LotMethod) : List ExitSlice :=
  match op.1.fill.side with
  | .buy => []
  | .sell => l.allLots.filterMap fun lot =>
    ((l.consumedBy op).find? fun p => p.1.id = lot.id).map fun p =>
      ⟨lot.consume p.2 op.1.fill, p.2, op.1.fill⟩

/-- The ledger, the fills in the log, the slices of all sells, and the table. -/
structure CalibrationDesk where
  ledger : LotLedger
  fills : List Fill
  slices : List ExitSlice
  table : CalibrationTable

namespace CalibrationDesk

def empty : CalibrationDesk := ⟨.empty, [], [], .empty⟩

/-- The ledger books a fill, and then the recorder hears it. -/
def step (log : OpeningIntents) (s : CalibrationDesk) (b : Booking) : CalibrationDesk :=
  let ledger := s.ledger.book (b, .fifo)
  let fills := s.fills ++ [b.fill]
  { ledger := ledger
    fills := fills
    slices := s.slices ++ s.ledger.slices (b, .fifo)
    table := log.onFill fills ledger s.table b.fill }

/-- **A fill under an identifier of its own**, at a positive price. -/
structure Fresh (s : CalibrationDesk) (b : Booking) : Prop where
  price_pos : 0 < b.fill.price
  fresh_fill : b.fill.id ∉ s.fills.map (·.id)
  fresh_lot : b.lotId ∉ s.ledger.lots.keys

/-- The lot was opened by a fill of the order. -/
def OfOrder (s : CalibrationDesk) (orderId : OrderId) (lot : Lot) : Prop :=
  (s.fills.find? fun fill => fill.id = lot.entryFillId).map (·.orderId) = some orderId

instance (s : CalibrationDesk) (orderId : OrderId) : DecidablePred (s.OfOrder orderId) :=
  fun _ => inferInstanceAs (Decidable (_ = _))

def lotsOf (s : CalibrationDesk) (orderId : OrderId) : List Lot :=
  s.ledger.allLots.filter fun lot => s.OfOrder orderId lot

def slicesOf (s : CalibrationDesk) (orderId : OrderId) : List ExitSlice :=
  s.slices.filter fun x => s.OfOrder orderId x.lot

/-- **The total return of an order**: what every part of its lots brought in, less what they cost,
over what they cost. -/
def returnOf (s : CalibrationDesk) (orderId : OrderId) : Decimal :=
  let cost := ((s.lotsOf orderId).map fun lot => lot.qty * lot.entryPrice).sum
  (((s.slicesOf orderId).map fun x => x.taken * x.exitFill.price).sum - cost) / cost

/-- The order opened lots, and all of them are closed. -/
def Complete (s : CalibrationDesk) (orderId : OrderId) : Prop :=
  s.lotsOf orderId ≠ [] ∧ ∀ lot ∈ s.lotsOf orderId, lot.isClosed = true

/-- **The trade is scored, not its last slice**: once all lots of an order are closed, what is
stored for its intent is the verdict on the total return. -/
def Calibrated (log : OpeningIntents) (s : CalibrationDesk) : Prop :=
  ∀ orderId intentId conviction, log.ofOrder orderId = some (intentId, conviction) →
    s.Complete orderId →
      ∃ row, s.table.get? intentId = some row ∧ row.outcome = verdict (s.returnOf orderId)

/-- **The condition**: the last slice of a complete order was as good as the whole. -/
def LastSliceTells (log : OpeningIntents) (s : CalibrationDesk) : Prop :=
  ∀ orderId intentId conviction, log.ofOrder orderId = some (intentId, conviction) →
    s.Complete orderId → ∀ x, (s.slicesOf orderId).getLast? = some x →
      verdict x.pct = verdict (s.returnOf orderId)

end CalibrationDesk

/-! ### What the recorder writes -/

/-- The last element that meets a condition is the last that meets a stronger one, if it does. -/
theorem getLast?_filter_of_imp {α : Type} {p q : α → Bool} {l : List α} {a : α}
    (h : (l.filter p).getLast? = some a) (ha : q a = true)
    (hqp : ∀ x ∈ l, q x = true → p x = true) : (l.filter q).getLast? = some a := by
  obtain ⟨init, hinit⟩ := List.getLast?_eq_some_iff.mp h
  have hfilter : l.filter q = (l.filter p).filter q := by
    rw [List.filter_filter]
    refine List.filter_congr fun x hx => ?_
    cases hq : q x with
    | false => rfl
    | true => rw [hqp x hx hq, Bool.and_self]
  rw [hfilter, hinit, List.filter_append, List.filter_cons_of_pos ha, List.filter_nil,
    List.getLast?_concat]

/-- A fill is found as before among more fills. -/
theorem find?_concat_of_mem {fills : List Fill} {id : FillId} (h : id ∈ fills.map (·.id))
    (fill : Fill) :
    ((fills ++ [fill]).find? fun f => f.id = id) = fills.find? fun f => f.id = id := by
  obtain ⟨f, hf, rfl⟩ := List.mem_map.mp h
  have hsome : (fills.find? fun f' => f'.id = f.id).isSome :=
    List.find?_isSome.mpr ⟨f, hf, decide_eq_true rfl⟩
  rw [List.find?_append, Option.or_of_isSome hsome]

theorem exitFillId_consume (lot : Lot) (taken : Decimal) (fill : Fill) :
    (lot.consume taken fill).exitFillId =
      if (lot.consume taken fill).isClosed then some fill.id else lot.exitFillId := rfl

theorem exitPrice_consume {lot : Lot} {taken : Decimal} {fill : Fill}
    (h : (lot.consume taken fill).isClosed = true) :
    (lot.consume taken fill).exitPrice = some fill.price := if_pos h

section Records

variable {log : OpeningIntents} {fills : List Fill}

/-- The intent that a slice is of. -/
def OpeningIntents.intentOf (log : OpeningIntents) (fills : List Fill) (x : ExitSlice) :
    Option IntentId := (log.lookupOpeningIntent fills x.lot.entryFillId).map Prod.fst

/-- A slice that closed its lot is written to the row of its intent. -/
theorem get?_recordForLot {x : ExitSlice} (hexit : x.lot.exitPrice = some x.exitFill.price)
    (hentry : 0 < x.lot.entryPrice) (table : CalibrationTable) (i : IntentId) :
    ((log.recordForLot fills table x.lot).get? i).map CalibrationRow.outcome =
      if log.intentOf fills x = some i then some (verdict x.pct)
      else (table.get? i).map CalibrationRow.outcome := by
  rw [OpeningIntents.recordForLot, hexit, OpeningIntents.intentOf]
  dsimp only
  rw [if_neg hentry.not_ge]
  rcases log.lookupOpeningIntent fills x.lot.entryFillId with _ | ⟨intentId, conviction⟩
  · rfl
  · dsimp only
    by_cases hi : i = intentId
    · subst hi
      have hself : (some (i, conviction)).map Prod.fst = some i := rfl
      rw [Dict.get?_set_self, if_pos hself]
      rfl
    · have hother : (some (intentId, conviction)).map Prod.fst ≠ some i :=
        fun hc => hi (Option.some.inj hc).symm
      rw [Dict.get?_set_of_ne _ hi, if_neg hother]

/-- **Of the slices that close lots of one intent the last one stays.** -/
theorem get?_foldl_recordForLot {xs : List ExitSlice}
    (hexit : ∀ x ∈ xs, x.lot.exitPrice = some x.exitFill.price)
    (hentry : ∀ x ∈ xs, 0 < x.lot.entryPrice) (table : CalibrationTable) (i : IntentId) :
    (((xs.map ExitSlice.lot).foldl (log.recordForLot fills) table).get? i).map
        CalibrationRow.outcome =
      ((xs.filter fun x => log.intentOf fills x = some i).getLast?.map
        fun x => verdict x.pct).or ((table.get? i).map CalibrationRow.outcome) := by
  induction xs generalizing table with
  | nil => rfl
  | cons x xs ih =>
    rw [List.map_cons, List.foldl_cons, ih (fun y hy => hexit y (List.mem_cons_of_mem x hy))
      fun y hy => hentry y (List.mem_cons_of_mem x hy),
      get?_recordForLot (hexit x List.mem_cons_self) (hentry x List.mem_cons_self)]
    by_cases hi : log.intentOf fills x = some i
    · rw [if_pos hi, List.filter_cons_of_pos (by simpa using hi), List.getLast?_cons]
      cases (xs.filter fun x => log.intentOf fills x = some i).getLast? <;> rfl
    · rw [if_neg hi, List.filter_cons_of_neg (by simpa using hi)]

end Records

section Slices

variable {l : LotLedger} {op : Booking × LotMethod}

/-- The slice that a sell takes of a lot. -/
theorem mem_slices (hside : op.1.fill.side = .sell) {x : ExitSlice} :
    x ∈ l.slices op ↔ ∃ lot ∈ l.allLots, ∃ p,
      ((l.consumedBy op).find? fun p => p.1.id = lot.id) = some p ∧
        x = ⟨lot.consume p.2 op.1.fill, p.2, op.1.fill⟩ := by
  rw [LotLedger.slices, hside]
  simp only [List.mem_filterMap, Option.map_eq_some_iff]
  refine exists_congr fun lot => and_congr_right fun _ => exists_congr fun p =>
    and_congr_right fun _ => eq_comm

theorem afterSale_of_find? {consumed : List (Lot × Decimal)} {fill : Fill} {lot : Lot}
    {p : Lot × Decimal} (h : (consumed.find? fun p => p.1.id = lot.id) = some p) :
    LotLedger.afterSale consumed fill lot = lot.consume p.2 fill := by
  rw [LotLedger.afterSale, h]
  rfl

theorem afterSale_of_find?_none {consumed : List (Lot × Decimal)} {fill : Fill} {lot : Lot}
    (h : (consumed.find? fun p => p.1.id = lot.id) = none) :
    LotLedger.afterSale consumed fill lot = lot := by
  rw [LotLedger.afterSale, h]
  rfl

/-- What a sell leaves of a lot as it was. -/
theorem afterSale_keeps (consumed : List (Lot × Decimal)) (fill : Fill) (lot : Lot) :
    (LotLedger.afterSale consumed fill lot).id = lot.id ∧
      (LotLedger.afterSale consumed fill lot).entryFillId = lot.entryFillId ∧
      (LotLedger.afterSale consumed fill lot).entryPrice = lot.entryPrice ∧
      ((LotLedger.afterSale consumed fill lot).exitFillId = some fill.id ∨
        (LotLedger.afterSale consumed fill lot).exitFillId = lot.exitFillId) := by
  refine LotLedger.afterSale_cases (P := fun lot' => lot'.id = lot.id ∧
    lot'.entryFillId = lot.entryFillId ∧ lot'.entryPrice = lot.entryPrice ∧
    (lot'.exitFillId = some fill.id ∨ lot'.exitFillId = lot.exitFillId))
    ⟨rfl, rfl, rfl, Or.inr rfl⟩ fun taken => ⟨rfl, rfl, rfl, ?_⟩
  rw [exitFillId_consume]
  split_ifs
  · exact Or.inl rfl
  · exact Or.inr rfl

/-- **The lots that a sell closes** are those of its slices that are closed. -/
theorem filter_exitFillId_eq (consumed : List (Lot × Decimal)) (fill : Fill) {lots : List Lot}
    (hnew : ∀ lot ∈ lots, lot.exitFillId ≠ some fill.id) :
    (lots.map (LotLedger.afterSale consumed fill)).filter
        (fun lot => lot.exitFillId = some fill.id) =
      ((lots.filterMap fun lot => (consumed.find? fun p => p.1.id = lot.id).map fun p =>
        (⟨lot.consume p.2 fill, p.2, fill⟩ : ExitSlice)).filter fun x => x.lot.isClosed).map
          ExitSlice.lot := by
  induction lots with
  | nil => rfl
  | cons lot lots ih =>
    have ih := ih fun lot' h => hnew lot' (List.mem_cons_of_mem lot h)
    have hlot := hnew lot List.mem_cons_self
    rw [List.map_cons, List.filterMap_cons]
    cases hfind : consumed.find? fun p => p.1.id = lot.id with
    | none =>
      -- the sell does not touch the lot
      rw [afterSale_of_find?_none hfind, List.filter_cons_of_neg (by simpa using hlot), ih]
      rfl
    | some p =>
      rw [afterSale_of_find? hfind, Option.map_some]
      cases hclosed : (lot.consume p.2 fill).isClosed with
      | true =>
        have hexit : (lot.consume p.2 fill).exitFillId = some fill.id := if_pos hclosed
        rw [List.filter_cons_of_pos (by simpa using hexit), ih]
        dsimp only
        rw [List.filter_cons_of_pos (by simpa using hclosed), List.map_cons]
      | false =>
        have hexit : (lot.consume p.2 fill).exitFillId = lot.exitFillId := by
          rw [exitFillId_consume, hclosed]
          rfl
        rw [List.filter_cons_of_neg (by simpa [hexit] using hlot), ih]
        dsimp only
        rw [List.filter_cons_of_neg (by simp [hclosed])]

end Slices

/-! ### The invariant -/

namespace CalibrationDesk

variable {log : OpeningIntents} {s : CalibrationDesk} {b : Booking}

/-- **The invariant**: every lot was opened by a fill of the log, the slices of a lot end with the
lot as it is, and what is stored for an intent is the verdict on the last slice that closed one of
its lots. -/
structure Inv (log : OpeningIntents) (s : CalibrationDesk) : Prop where
  keyed : s.ledger.Keyed
  booked : s.ledger.booked = s.fills.map (·.id)
  entry_pos : ∀ lot ∈ s.ledger.allLots, 0 < lot.entryPrice
  entry_mem : ∀ lot ∈ s.ledger.allLots, lot.entryFillId ∈ s.fills.map (·.id)
  exit_mem : ∀ lot ∈ s.ledger.allLots, ∀ id, lot.exitFillId = some id → id ∈ s.fills.map (·.id)
  slice_of : ∀ x ∈ s.slices, ∃ lot ∈ s.ledger.allLots,
    lot.id = x.lot.id ∧ lot.entryFillId = x.lot.entryFillId
  last_slice : ∀ lot ∈ s.ledger.allLots, ∀ x,
    (s.slices.filter fun x => x.lot.id = lot.id).getLast? = some x → x.lot = lot
  closed_sliced : ∀ lot ∈ s.ledger.allLots, lot.isClosed = true →
    ∃ x ∈ s.slices, x.lot.id = lot.id
  outcome : ∀ i, (s.table.get? i).map CalibrationRow.outcome =
    (s.slices.filter fun x =>
      x.lot.isClosed ∧ log.intentOf s.fills x = some i).getLast?.map fun x => verdict x.pct

theorem inv_empty (log : OpeningIntents) : Inv log empty where
  keyed := LotLedger.keyed_empty
  booked := rfl
  entry_pos _ h := absurd h List.not_mem_nil
  entry_mem _ h := absurd h List.not_mem_nil
  exit_mem _ h := absurd h List.not_mem_nil
  slice_of _ h := absurd h List.not_mem_nil
  last_slice _ h := absurd h List.not_mem_nil
  closed_sliced _ h := absurd h List.not_mem_nil
  outcome _ := rfl

theorem intentOf_concat {x : ExitSlice} (h : x.lot.entryFillId ∈ s.fills.map (·.id)) (fill : Fill) :
    log.intentOf (s.fills ++ [fill]) x = log.intentOf s.fills x := by
  rw [OpeningIntents.intentOf, OpeningIntents.intentOf, OpeningIntents.lookupOpeningIntent,
    OpeningIntents.lookupOpeningIntent, find?_concat_of_mem h]

/-- The fills of the log, and the new one. -/
theorem mem_fills_step {id : FillId} :
    id ∈ (step log s b).fills.map (·.id) ↔ id ∈ s.fills.map (·.id) ∨ id = b.fill.id := by
  show id ∈ (s.fills ++ [b.fill]).map (·.id) ↔ _
  rw [List.map_append, List.mem_append, List.map_singleton, List.mem_singleton]

/-- The ledger has booked the fills of the log. -/
theorem Inv.booked_step (hs : Inv log s) (hb : s.Fresh b) :
    (step log s b).ledger.booked = (step log s b).fills.map (·.id) := by
  have hnew : b.fill.id ∉ s.ledger.booked := hs.booked ▸ hb.fresh_fill
  show (s.ledger.book (b, .fifo)).booked = (s.fills ++ [b.fill]).map (·.id)
  rw [List.map_append, ← hs.booked]
  exact (LotLedger.booked_book s.ledger (b, .fifo)).trans (if_neg hnew)

/-- The entry of a slice is a fill of the log. -/
theorem Inv.slice_entry_mem (hs : Inv log s) {x : ExitSlice} (hx : x ∈ s.slices) :
    x.lot.entryFillId ∈ s.fills.map (·.id) := by
  obtain ⟨lot, hlot, -, hentry⟩ := hs.slice_of x hx
  exact hentry ▸ hs.entry_mem lot hlot

/-- The slices so far are of the same intents as before. -/
theorem Inv.filter_intentOf_concat (hs : Inv log s) (fill : Fill) (i : IntentId) :
    (s.slices.filter fun x => x.lot.isClosed ∧ log.intentOf (s.fills ++ [fill]) x = some i) =
      s.slices.filter fun x => x.lot.isClosed ∧ log.intentOf s.fills x = some i := by
  refine List.filter_congr fun x hx => ?_
  rw [intentOf_concat (hs.slice_entry_mem hx)]

/-- A buy adds a lot of which nothing was sold. -/
theorem Inv.buy (hs : Inv log s) (hb : s.Fresh b) (hside : b.fill.side = .buy) :
    Inv log (step log s b) := by
  have hnew : b.fill.id ∉ s.ledger.booked := hs.booked ▸ hb.fresh_fill
  have hlots : (step log s b).ledger.allLots = s.ledger.allLots ++ [.ofFill b.fill b.lotId] :=
    @LotLedger.allLots_book_of_buy s.ledger (b, .fifo) hnew hside hb.fresh_lot
  have hslices : (step log s b).slices = s.slices := by
    show s.slices ++ s.ledger.slices (b, .fifo) = s.slices
    rw [LotLedger.slices, hside, List.append_nil]
  have htable : (step log s b).table = s.table := by
    show log.onFill _ _ s.table b.fill = s.table
    rw [OpeningIntents.onFill, hside]
  have hfills : (step log s b).fills = s.fills ++ [b.fill] := rfl
  have hcases : ∀ lot ∈ (step log s b).ledger.allLots,
      lot ∈ s.ledger.allLots ∨ lot = .ofFill b.fill b.lotId := by
    intro lot hlot
    rw [hlots] at hlot
    exact (List.mem_append.mp hlot).imp_right List.mem_singleton.mp
  constructor
  case keyed => exact hs.keyed.book (b, .fifo)
  case booked => exact hs.booked_step hb
  case entry_pos =>
    intro lot hlot
    rcases hcases lot hlot with hmem | rfl
    · exact hs.entry_pos lot hmem
    · exact hb.price_pos
  case entry_mem =>
    intro lot hlot
    rcases hcases lot hlot with hmem | rfl
    · exact mem_fills_step.mpr (Or.inl (hs.entry_mem lot hmem))
    · exact mem_fills_step.mpr (Or.inr rfl)
  case exit_mem =>
    intro lot hlot id hid
    rcases hcases lot hlot with hmem | rfl
    · exact mem_fills_step.mpr (Or.inl (hs.exit_mem lot hmem id hid))
    · cases hid
  case slice_of =>
    intro x hx
    rw [hslices] at hx
    obtain ⟨lot, hlot, hids⟩ := hs.slice_of x hx
    exact ⟨lot, hlots ▸ List.mem_append_left _ hlot, hids⟩
  case last_slice =>
    intro lot hlot x hx
    rw [hslices] at hx
    rcases hcases lot hlot with hmem | rfl
    · exact hs.last_slice lot hmem x hx
    · -- no slice is of the new lot
      obtain ⟨hmem, hid⟩ := List.mem_filter.mp (List.mem_of_getLast? hx)
      obtain ⟨old, hold, hids, -⟩ := hs.slice_of x hmem
      have hkey := Dict.mem_keys_of_get? (hs.keyed.get?_of_mem hold)
      rw [hids, of_decide_eq_true hid] at hkey
      exact absurd hkey hb.fresh_lot
  case closed_sliced =>
    intro lot hlot hclosed
    rw [hslices]
    rcases hcases lot hlot with hmem | rfl
    · exact hs.closed_sliced lot hmem hclosed
    · cases hclosed
  case outcome =>
    intro i
    rw [htable, hslices, hfills, hs.filter_intentOf_concat, hs.outcome]

/-- What a sell does to the lots and the slices. -/
theorem Inv.sell_lots (hs : Inv log s) (hb : s.Fresh b) (hside : b.fill.side = .sell) :
    (step log s b).ledger.allLots = s.ledger.allLots.map
        (LotLedger.afterSale (s.ledger.consumedBy (b, .fifo)) b.fill) ∧
      (∀ x ∈ s.ledger.slices (b, .fifo), ∃ lot ∈ s.ledger.allLots,
        x.lot = LotLedger.afterSale (s.ledger.consumedBy (b, .fifo)) b.fill lot ∧
          x.lot.id = lot.id ∧ x.lot.entryFillId = lot.entryFillId ∧
          x.lot.entryPrice = lot.entryPrice ∧ x.exitFill = b.fill ∧
          (x.lot.isClosed = true → x.lot.exitPrice = some x.exitFill.price)) ∧
      ∀ lot ∈ s.ledger.allLots, (∀ x ∈ s.ledger.slices (b, .fifo), x.lot.id ≠ lot.id) →
        LotLedger.afterSale (s.ledger.consumedBy (b, .fifo)) b.fill lot = lot := by
  have hnew : b.fill.id ∉ s.ledger.booked := hs.booked ▸ hb.fresh_fill
  refine ⟨(@LotLedger.lots_book_of_sell s.ledger (b, .fifo) hs.keyed hnew hside).2.2,
    fun x hx => ?_, fun lot hlot hnone => ?_⟩
  · obtain ⟨lot, hlot, p, hfind, rfl⟩ := (@mem_slices s.ledger (b, .fifo) hside x).mp hx
    exact ⟨lot, hlot, (afterSale_of_find? hfind).symm, rfl, rfl, rfl, rfl, exitPrice_consume⟩
  · cases hfind : (s.ledger.consumedBy (b, .fifo)).find? fun p => p.1.id = lot.id with
    | none => exact afterSale_of_find?_none hfind
    | some p =>
      have hmem := (@mem_slices s.ledger (b, .fifo) hside _).mpr ⟨lot, hlot, p, hfind, rfl⟩
      exact absurd rfl (hnone _ hmem)

/-- A sell takes slices of lots, and the recorder scores those that it closes. -/
theorem Inv.sell (hs : Inv log s) (hb : s.Fresh b) (hside : b.fill.side = .sell) :
    Inv log (step log s b) := by
  obtain ⟨hlots, hslice, huntouched⟩ := hs.sell_lots hb hside
  have hslices : (step log s b).slices = s.slices ++ s.ledger.slices (b, .fifo) := rfl
  have hfills : (step log s b).fills = s.fills ++ [b.fill] := rfl
  have hkeeps := afterSale_keeps (s.ledger.consumedBy (b, .fifo)) b.fill
  set sold := LotLedger.afterSale (s.ledger.consumedBy (b, .fifo)) b.fill
  have hmem : ∀ lot' ∈ (step log s b).ledger.allLots,
      ∃ lot ∈ s.ledger.allLots, sold lot = lot' := by
    intro lot' hlot'
    rw [hlots] at hlot'
    exact List.mem_map.mp hlot'
  have hnd := hs.keyed.nodup_ids
  constructor
  case keyed => exact hs.keyed.book (b, .fifo)
  case booked => exact hs.booked_step hb
  case entry_pos =>
    intro lot' hlot'
    obtain ⟨lot, hlot, rfl⟩ := hmem lot' hlot'
    exact (hkeeps lot).2.2.1 ▸ hs.entry_pos lot hlot
  case entry_mem =>
    intro lot' hlot'
    obtain ⟨lot, hlot, rfl⟩ := hmem lot' hlot'
    exact mem_fills_step.mpr (Or.inl ((hkeeps lot).2.1 ▸ hs.entry_mem lot hlot))
  case exit_mem =>
    intro lot' hlot' id hexit
    obtain ⟨lot, hlot, rfl⟩ := hmem lot' hlot'
    rcases (hkeeps lot).2.2.2 with heq | heq
    · exact mem_fills_step.mpr (Or.inr (Option.some.inj (heq.symm.trans hexit)).symm)
    · exact mem_fills_step.mpr (Or.inl (hs.exit_mem lot hlot id (heq.symm.trans hexit)))
  case slice_of =>
    intro x hx
    rw [hslices] at hx
    obtain ⟨lot, hlot, hxid, hxentry⟩ : ∃ lot ∈ s.ledger.allLots,
        lot.id = x.lot.id ∧ lot.entryFillId = x.lot.entryFillId := by
      rcases List.mem_append.mp hx with hx | hx
      · exact hs.slice_of x hx
      · obtain ⟨lot, hlot, -, hxid, hxentry, -⟩ := hslice x hx
        exact ⟨lot, hlot, hxid.symm, hxentry.symm⟩
    refine ⟨sold lot, hlots ▸ List.mem_map_of_mem hlot, (hkeeps lot).1.trans hxid, ?_⟩
    exact (hkeeps lot).2.1.trans hxentry
  case last_slice =>
    intro lot' hlot' x hx
    obtain ⟨lot, hlot, rfl⟩ := hmem lot' hlot'
    rw [hslices, List.filter_append, List.getLast?_append, (hkeeps lot).1] at hx
    rcases hlast : ((s.ledger.slices (b, .fifo)).filter
      fun x => x.lot.id = lot.id).getLast? with _ | y
    · -- nothing is taken of the lot
      rw [hlast, Option.none_or] at hx
      have hempty := List.filter_eq_nil_iff.mp (List.getLast?_eq_none_iff.mp hlast)
      rw [huntouched lot hlot fun x hx => by simpa using hempty x hx]
      exact hs.last_slice lot hlot x hx
    · rw [hlast, Option.some_or] at hx
      obtain rfl := Option.some.inj hx
      obtain ⟨hy, hyid⟩ := List.mem_filter.mp (List.mem_of_getLast? hlast)
      obtain ⟨old, hold, hylot, hyold, -⟩ := hslice y hy
      have hsame : old.id = lot.id := hyold.symm.trans (of_decide_eq_true hyid)
      rw [hylot, List.inj_on_of_nodup_map hnd hold hlot hsame]
  case closed_sliced =>
    intro lot' hlot' hclosed
    obtain ⟨lot, hlot, rfl⟩ := hmem lot' hlot'
    rw [hslices, (hkeeps lot).1]
    by_cases hnone : ∀ x ∈ s.ledger.slices (b, .fifo), x.lot.id ≠ lot.id
    · -- a lot that the sell does not touch was closed before
      rw [huntouched lot hlot hnone] at hclosed
      obtain ⟨x, hx, hxid⟩ := hs.closed_sliced lot hlot hclosed
      exact ⟨x, List.mem_append_left _ hx, hxid⟩
    · push Not at hnone
      obtain ⟨x, hx, hxid⟩ := hnone
      exact ⟨x, List.mem_append_right _ hx, hxid⟩
  case outcome =>
    intro i
    have htable : (step log s b).table = ((step log s b).ledger.allLots.filter
        fun lot => lot.exitFillId = some b.fill.id).foldl
          (log.recordForLot (s.fills ++ [b.fill])) s.table := by
      show log.onFill _ _ s.table b.fill = _
      rw [OpeningIntents.onFill, hside]
      rfl
    -- what is scored are the slices of this sell that close their lots
    have hclosing : (step log s b).ledger.allLots.filter
        (fun lot => lot.exitFillId = some b.fill.id) =
          ((s.ledger.slices (b, .fifo)).filter fun x => x.lot.isClosed).map ExitSlice.lot := by
      rw [hlots, LotLedger.slices, hside]
      refine filter_exitFillId_eq _ b.fill fun lot hlot hexit => ?_
      exact hb.fresh_fill (hs.exit_mem lot hlot _ hexit)
    rw [htable, hclosing, get?_foldl_recordForLot, hslices, hfills, List.filter_append,
      List.getLast?_append, hs.filter_intentOf_concat, hs.outcome, List.filter_filter]
    · have hboth : (s.ledger.slices (b, .fifo)).filter (fun x =>
          decide (log.intentOf (s.fills ++ [b.fill]) x = some i) && x.lot.isClosed) =
            (s.ledger.slices (b, .fifo)).filter fun x =>
              x.lot.isClosed ∧ log.intentOf (s.fills ++ [b.fill]) x = some i := by
        refine List.filter_congr fun x _ => ?_
        rw [Bool.decide_and, Bool.decide_eq_true, Bool.and_comm]
      rw [hboth, Option.map_or]
    · intro x hx
      obtain ⟨hx, hclosed⟩ := List.mem_filter.mp hx
      obtain ⟨lot, -, -, -, -, -, -, hexit⟩ := hslice x hx
      exact hexit hclosed
    · intro x hx
      obtain ⟨lot, hlot, -, -, -, hentry, -⟩ := hslice x (List.mem_filter.mp hx).1
      exact hentry ▸ hs.entry_pos lot hlot

theorem Inv.step (hs : Inv log s) (hb : s.Fresh b) : Inv log (step log s b) := by
  cases hside : b.fill.side with
  | buy => exact hs.buy hb hside
  | sell => exact hs.sell hb hside

/-! ### The last slice -/

section LastSlice

variable {orderId : OrderId} {intentId : IntentId} {conviction : ℤ}

/-- A slice is of the order that its lot is of. -/
theorem Inv.ofOrder_iff (hs : Inv log s) {lot : Lot} (hlot : lot ∈ s.ledger.allLots) {x : ExitSlice}
    (hx : x ∈ s.slices) (hid : x.lot.id = lot.id) :
    s.OfOrder orderId x.lot ↔ s.OfOrder orderId lot := by
  obtain ⟨old, hold, holdid, hentry⟩ := hs.slice_of x hx
  obtain rfl := List.inj_on_of_nodup_map hs.keyed.nodup_ids hold hlot (holdid.trans hid)
  rw [OfOrder, OfOrder, hentry]

/-- The last slice of a complete order closed its lot. -/
theorem Inv.isClosed_last (hs : Inv log s) (hcomplete : s.Complete orderId) {x : ExitSlice}
    (hx : (s.slicesOf orderId).getLast? = some x) : x.lot.isClosed = true := by
  obtain ⟨hmem, hof⟩ := List.mem_filter.mp (List.mem_of_getLast? hx)
  obtain ⟨lot, hlot, hid, hentry⟩ := hs.slice_of x hmem
  have hlotof : s.OfOrder orderId lot :=
    (hs.ofOrder_iff hlot hmem hid.symm).mp (of_decide_eq_true hof)
  -- it is the last slice of its lot too
  have hlast : (s.slices.filter fun y => y.lot.id = lot.id).getLast? = some x := by
    refine getLast?_filter_of_imp hx (decide_eq_true hid.symm) fun y hy hyid => ?_
    exact decide_eq_true ((hs.ofOrder_iff hlot hy (of_decide_eq_true hyid)).mpr hlotof)
  rw [hs.last_slice lot hlot x hlast]
  exact hcomplete.2 lot (List.mem_filter.mpr ⟨hlot, decide_eq_true hlotof⟩)

/-- A slice is of the intent of its order, and of no other order. -/
theorem intentOf_eq_some_iff (hintent : log.ofOrder orderId = some (intentId, conviction))
    (x : ExitSlice) : log.intentOf s.fills x = some intentId ↔ s.OfOrder orderId x.lot := by
  have hsubmitted : ∀ {o c}, log.ofOrder o = some (intentId, c) →
      ∃ a, log.submitted o = some (intentId, a) := by
    intro o c h
    obtain ⟨⟨i, a⟩, hsub, hconv⟩ := Option.bind_eq_some_iff.mp h
    dsimp only at hconv
    split_ifs at hconv
    obtain ⟨rfl, -⟩ := Prod.mk.inj (Option.some.inj hconv)
    exact ⟨a, hsub⟩
  rw [OpeningIntents.intentOf, OpeningIntents.lookupOpeningIntent, OfOrder]
  generalize List.find? _ s.fills = found
  rcases found with _ | fill
  · simp
  · rw [Option.bind_some, Option.map_some, Option.some_inj, Option.map_eq_some_iff]
    constructor
    · rintro ⟨⟨i, c⟩, hfill, rfl⟩
      obtain ⟨a, ha⟩ := hsubmitted hintent
      obtain ⟨a', ha'⟩ := hsubmitted hfill
      exact log.one_order ha' ha
    · rintro rfl
      exact ⟨_, hintent, rfl⟩

/-- **What is stored for a complete order** is the verdict on its last slice. -/
theorem Inv.outcome_eq (hs : Inv log s)
    (hintent : log.ofOrder orderId = some (intentId, conviction)) (hcomplete : s.Complete orderId)
    {x : ExitSlice} (hx : (s.slicesOf orderId).getLast? = some x) :
    (s.table.get? intentId).map CalibrationRow.outcome = some (verdict x.pct) := by
  have hclosing : (s.slices.filter fun y =>
      y.lot.isClosed ∧ log.intentOf s.fills y = some intentId).getLast? = some x := by
    refine getLast?_filter_of_imp hx (decide_eq_true ⟨hs.isClosed_last hcomplete hx, ?_⟩) ?_
    · rw [intentOf_eq_some_iff hintent]
      exact of_decide_eq_true (List.mem_filter.mp (List.mem_of_getLast? hx)).2
    · intro y _ hy
      exact decide_eq_true ((intentOf_eq_some_iff hintent y).mp (of_decide_eq_true hy).2)
  rw [hs.outcome, hclosing, Option.map_some]

/-- A complete order has slices. -/
theorem Inv.exists_last (hs : Inv log s) (hcomplete : s.Complete orderId) :
    ∃ x, (s.slicesOf orderId).getLast? = some x := by
  obtain ⟨lot, hlot⟩ := List.exists_mem_of_ne_nil _ hcomplete.1
  obtain ⟨hmem, hof⟩ := List.mem_filter.mp hlot
  obtain ⟨x, hx, hid⟩ := hs.closed_sliced lot hmem (hcomplete.2 lot hlot)
  have hxof : x ∈ s.slicesOf orderId := List.mem_filter.mpr
    ⟨hx, decide_eq_true ((hs.ofOrder_iff hmem hx hid).mpr (of_decide_eq_true hof))⟩
  exact ⟨_, List.getLast?_eq_some_getLast (List.ne_nil_of_mem hxof)⟩

/-- The trades are scored exactly if their last slices tell. -/
theorem Inv.calibrated_iff_lastSliceTells (hs : Inv log s) :
    Calibrated log s ↔ LastSliceTells log s := by
  constructor
  · intro h orderId intentId conviction hintent hcomplete x hx
    obtain ⟨row, hrow, houtcome⟩ := h orderId intentId conviction hintent hcomplete
    have hlast := hs.outcome_eq hintent hcomplete hx
    rw [hrow, Option.map_some, Option.some_inj, houtcome] at hlast
    exact hlast.symm
  · intro h orderId intentId conviction hintent hcomplete
    obtain ⟨x, hx⟩ := hs.exists_last hcomplete
    obtain ⟨row, hrow, houtcome⟩ :=
      Option.map_eq_some_iff.mp (hs.outcome_eq hintent hcomplete hx)
    exact ⟨row, hrow, houtcome.trans (h orderId intentId conviction hintent hcomplete x hx)⟩

end LastSlice

/-- **When the trades are scored**: in every state of a run exactly if in every state of it the last
slice of every complete order was as good as the whole. -/
theorem calibrated_iff (log : OpeningIntents) {bookings : List Booking}
    (hfresh : Along (step log) Fresh empty bookings) :
    (∀ pre, pre <+: bookings → Calibrated log (run (step log) empty pre)) ↔
      ∀ pre, pre <+: bookings → LastSliceTells log (run (step log) empty pre) := by
  refine forall₂_congr fun pre hpre => ?_
  have hinv : Inv log (run (step log) empty pre) :=
    (hfresh.of_isPrefix hpre).invariant (fun _ _ hs hb => hs.step hb) (inv_empty log)
  exact hinv.calibrated_iff_lastSliceTells

/-- An order that is bought at one price and sold at one price returns what each slice does. -/
theorem returnOf_eq_pct {s : CalibrationDesk} {orderId : OrderId} {entry exit : Decimal}
    (hentry : ∀ lot ∈ s.lotsOf orderId, lot.entryPrice = entry)
    (hexit : ∀ x ∈ s.slicesOf orderId, x.exitFill.price = exit)
    (hsold : ((s.slicesOf orderId).map ExitSlice.taken).sum = ((s.lotsOf orderId).map Lot.qty).sum)
    (hqty : ((s.lotsOf orderId).map Lot.qty).sum ≠ 0) :
    s.returnOf orderId = (exit - entry) / entry := by
  have hcost : ((s.lotsOf orderId).map fun lot => lot.qty * lot.entryPrice).sum =
      ((s.lotsOf orderId).map Lot.qty).sum * entry := by
    rw [← List.sum_map_mul_right]
    exact congrArg List.sum (List.map_congr_left fun lot hlot => by rw [hentry lot hlot])
  have hproceeds : ((s.slicesOf orderId).map fun x => x.taken * x.exitFill.price).sum =
      ((s.lotsOf orderId).map Lot.qty).sum * exit := by
    rw [← hsold, ← List.sum_map_mul_right]
    exact congrArg List.sum (List.map_congr_left fun x hx => by rw [hexit x hx])
  rw [returnOf, hcost, hproceeds, ← mul_sub, mul_div_mul_left _ _ hqty]

/-- Where all slices are of one order and as good as the whole, so is the last. -/
theorem lastSliceTells_of_forall {log : OpeningIntents} {s : CalibrationDesk} {orderId : OrderId}
    (h : ∀ x ∈ s.slices, s.OfOrder orderId x.lot ∧ verdict x.pct = verdict (s.returnOf orderId)) :
    LastSliceTells log s := by
  intro orderId' _ _ _ _ x hx
  obtain ⟨hmem, hof⟩ := List.mem_filter.mp (List.mem_of_getLast? hx)
  obtain ⟨hof', hverdict⟩ := h x hmem
  obtain rfl := Option.some.inj (hof'.symm.trans (of_decide_eq_true hof))
  exact hverdict

/-! ### A trade that wins but for its last slice -/

instance (s : CalibrationDesk) (b : Booking) : Decidable (s.Fresh b) :=
  decidable_of_iff (0 < b.fill.price ∧ b.fill.id ∉ s.fills.map (·.id) ∧
      b.lotId ∉ s.ledger.lots.keys)
    ⟨fun ⟨h₁, h₂, h₃⟩ => ⟨h₁, h₂, h₃⟩, fun ⟨h₁, h₂, h₃⟩ => ⟨h₁, h₂, h₃⟩⟩

/-- Every order comes from an intent of its own. -/
def ownIntents : OpeningIntents where
  submitted o := some (o, .sonnet)
  conviction _ _ := some 8
  one_order := by
    intro o o' i a a' h h'
    exact (Prod.mk.inj (Option.some.inj h)).1.trans (Prod.mk.inj (Option.some.inj h')).1.symm

def tradeBooking (id : ℕ) (side : OrderSide) (qty price : Decimal) : Booking where
  fill :=
    { id := id, orderId := id, agentId := .sonnet, symbol := "NVDA", side := side, qty := qty,
      price := price, timestamp := id * microsPerDay }
  lotId := id

/-- Ten shares are bought at a hundred. Nine are sold at two hundred, and the last at ninety. -/
def partialExits : List Booking :=
  [tradeBooking 1 .buy 10 100, tradeBooking 2 .sell 9 200, tradeBooking 3 .sell 1 90]

theorem fresh_partialExits : Along (step ownIntents) Fresh empty partialExits := by decide +kernel

theorem complete_partialExits : (run (step ownIntents) empty partialExits).Complete 1 := by
  rw [Complete]
  decide +kernel

theorem stored_partialExits :
    ((run (step ownIntents) empty partialExits).table.get? 1).map CalibrationRow.outcome =
      some .loss ∧
    (run (step ownIntents) empty partialExits).returnOf 1 = 89 / 100 := by
  decide +kernel

/-- **A trade that returns 89 percent is stored as a loss**, as its last share was sold for less
than it cost. -/
theorem not_calibrated_partialExits :
    Along (step ownIntents) Fresh empty partialExits ∧
      ((run (step ownIntents) empty partialExits).slicesOf 1).map ExitSlice.taken = [9, 1] ∧
      ¬Calibrated ownIntents (run (step ownIntents) empty partialExits) := by
  refine ⟨fresh_partialExits, by decide +kernel, fun h => ?_⟩
  obtain ⟨row, hrow, houtcome⟩ := h 1 1 8 rfl complete_partialExits
  obtain ⟨hstored, hreturn⟩ := stored_partialExits
  rw [hrow, Option.map_some, houtcome, hreturn] at hstored
  revert hstored
  decide +kernel

/-- Sold in one piece the trade is scored. -/
theorem calibrated_oneExit :
    Along (step ownIntents) Fresh empty [tradeBooking 1 .buy 10 100, tradeBooking 2 .sell 10 200] ∧
      ∀ pre, pre <+: [tradeBooking 1 .buy 10 100, tradeBooking 2 .sell 10 200] →
        Calibrated ownIntents (run (step ownIntents) empty pre) := by
  have hfresh : Along (step ownIntents) Fresh empty
      [tradeBooking 1 .buy 10 100, tradeBooking 2 .sell 10 200] := by decide +kernel
  have htells : ∀ pre ∈ [tradeBooking 1 .buy 10 100, tradeBooking 2 .sell 10 200].inits,
      ∀ x ∈ (run (step ownIntents) empty pre).slices,
        (run (step ownIntents) empty pre).OfOrder 1 x.lot ∧
          verdict x.pct = verdict ((run (step ownIntents) empty pre).returnOf 1) := by
    decide +kernel
  refine ⟨hfresh, (calibrated_iff ownIntents hfresh).mpr fun pre hpre => ?_⟩
  exact lastSliceTells_of_forall (htells pre ((List.mem_inits pre _).mpr hpre))

end CalibrationDesk

end TradingPlatform
