import TradingPlatform.Core.Clock
import TradingPlatform.Execution.LotHistory
import TradingPlatform.Execution.TrackerRestart
import TradingPlatform.StableSort

/-!
# Rebuilding the tracker from the ledger

On a cold start the tracker is rebuilt from the lots: the streak of losses is counted over the
closed lots of an agent in the order of their exit dates. The live tracker counts sells, each by
the running average cost of the symbol. A sell may close several lots or none, each with an entry
price of its own, and lots closed on one date are counted in the order they were opened in.

`TradingPlatform.ColdTwin.rebuild_agrees_iff` says which runs of bookings leave the two counters
equal throughout, as long as the lots a sell closes come last among those closed on its date
(`TradingPlatform.ColdTwin.LandsLast`): those in which counting the lots that a sell closes gives
what counting the sell gives.
-/

namespace TradingPlatform

/-- A streak of losses, some trades later. -/
def streak (n : ℕ) (losses : List Bool) : ℕ :=
  losses.foldl (fun n loss => if loss then n + 1 else 0) n

/-- The source's `date.min`. -/
def dateMin : Date := Date.ofYmd 1 1 1

/-- The date the closed lots are sorted by. -/
def Lot.exitKey (lot : Lot) : Date := lot.exitDate.getD dateMin

namespace LotLedger

variable (l : LotLedger) (agentId : AgentId)

/-- The closed lots of an agent, in the order of their exits. -/
def closedLots : List Lot :=
  (l.allLots.filter fun lot => lot.agentId = agentId ∧ lot.isClosed = true).mergeSort
    fun lot lot' => lot.exitKey ≤ lot'.exitKey

/-- Count the losses in a row over the closed lots of an agent. -/
def replayConsecutiveLosses : ℕ :=
  (l.closedLots agentId).foldl
    (fun consecutive lot =>
      match lot.realizedPnl with
      | none => consecutive
      | some pnl => if pnl < 0 then consecutive + 1 else 0) 0

end LotLedger

namespace AgentStateTracker

/-- Rebuild the records from the lots. The bucket is taken as it is, without the recovery rule. -/
def rebuildFromLedger (t : AgentStateTracker) (l : LotLedger) (markPrices : Dict String Decimal) :
    AgentStateTracker :=
  { t with
    records := fun agentId =>
      let record := t.records agentId
      let base := record.startingEquity
      let currentEquity :=
        base + l.agentRealizedPnl agentId + l.agentUnrealizedPnl agentId markPrices
      let peakEquity := max currentEquity base
      let drawdown := if 0 < peakEquity then (peakEquity - currentEquity) / peakEquity else 0
      { record with
        currentEquity := currentEquity
        peakEquity := peakEquity
        consecutiveLosses := l.replayConsecutiveLosses agentId
        sizingBucket := classifyDrawdown drawdown
        recoveryTarget := none
        recoverySince := none
        recoveryDays := 0 } }

end AgentStateTracker

/-! ### What a booking closes -/

namespace LotLedger

/-- A booking closes a lot that was open. -/
def ClosesNow (l : LotLedger) (op : Booking × LotMethod) (lot : Lot) : Prop :=
  lot.isClosed = false ∧ ((l.book op).lots.get? lot.id).any (·.isClosed) = true

instance (l : LotLedger) (op : Booking × LotMethod) : DecidablePred (l.ClosesNow op) :=
  fun _ => inferInstanceAs (Decidable (_ ∧ _))

/-- The lots that a booking closes, in the order of the ledger. -/
def newlyClosed (l : LotLedger) (op : Booking × LotMethod) : List Lot :=
  l.allLots.filter fun lot => l.ClosesNow op lot

/-- Which of the lots that a booking closes were bought for more. -/
def lossesOf (l : LotLedger) (op : Booking × LotMethod) : List Bool :=
  (l.newlyClosed op).map fun lot => decide (op.1.fill.price < lot.entryPrice)

/-- The lots of an agent that are closed. -/
def closedOf (l : LotLedger) (agentId : AgentId) : List Lot :=
  l.allLots.filter fun lot => lot.agentId = agentId ∧ lot.isClosed = true

/-- **A sell lands last**: no lot of its agent was closed on a later date, and those closed on its
own date come before the ones it closes. -/
def LandsLast (l : LotLedger) (op : Booking × LotMethod) : Prop :=
  let today := op.1.fill.timestamp.date
  let agentId := op.1.fill.agentId
  (∀ lot ∈ l.closedOf agentId, lot.exitKey ≤ today) ∧
    (l.allLots.filter fun lot =>
        (lot.agentId = agentId ∧ lot.isClosed = true) ∧ lot.exitKey = today ∨
          l.ClosesNow op lot) =
      ((l.closedOf agentId).filter fun lot => lot.exitKey = today) ++ l.newlyClosed op

instance (l : LotLedger) (op : Booking × LotMethod) : Decidable (l.LandsLast op) :=
  inferInstanceAs (Decidable (_ ∧ _))

/-- **What a booking makes of the lots**: each in its place, a new one after them, and those that
it closes closed at its price. -/
structure Closes (l : LotLedger) (op : Booking × LotMethod) (sold : Lot → Lot)
    (opened : List Lot) : Prop where
  allLots : (l.book op).allLots = l.allLots.map sold ++ opened
  opened : ∀ lot ∈ opened, lot.isClosed = false
  agentId : ∀ lot, (sold lot).agentId = lot.agentId
  closed : ∀ lot ∈ l.allLots, lot.isClosed = true → sold lot = lot
  now : ∀ lot ∈ l.allLots, lot.isClosed = false →
    ((sold lot).isClosed = true ↔ l.ClosesNow op lot)
  exit : ∀ lot ∈ l.newlyClosed op, lot.agentId = op.1.fill.agentId ∧
    (sold lot).exitKey = op.1.fill.timestamp.date ∧
      ∃ pnl, (sold lot).realizedPnl = some pnl ∧ (pnl < 0 ↔ op.1.fill.price < lot.entryPrice)

variable {l : LotLedger} {op : Booking × LotMethod} {agentId : AgentId}

/-- Nothing is closed where every lot is looked up as it was. -/
theorem not_closesNow (hl : l.Keyed) {lot : Lot} (hlot : lot ∈ l.allLots)
    (h : (l.book op).lots.get? lot.id = l.lots.get? lot.id) : ¬l.ClosesNow op lot := by
  rintro ⟨hopen, hany⟩
  rw [h, hl.get?_of_mem hlot, Option.any_some, hopen] at hany
  cases hany

/-- A booking that leaves the lots there are alone. -/
theorem closes_of_get? (hl : l.Keyed) {opened : List Lot}
    (hlots : (l.book op).allLots = l.allLots ++ opened)
    (hopened : ∀ lot ∈ opened, lot.isClosed = false)
    (hget : ∀ lot ∈ l.allLots, (l.book op).lots.get? lot.id = l.lots.get? lot.id) :
    l.Closes op id opened := by
  refine ⟨by rw [List.map_id, hlots], hopened, fun _ => rfl, fun _ _ _ => rfl, fun lot hlot hopen =>
    ?_, fun lot hlot => ?_⟩
  · rw [id, hopen]
    exact iff_of_false Bool.false_ne_true (not_closesNow hl hlot (hget lot hlot))
  · obtain ⟨hmem, hnow⟩ := List.mem_filter.mp hlot
    exact absurd (of_decide_eq_true hnow) (not_closesNow hl hmem (hget lot hmem))

/-- A lot that a sell closes is closed at its price, on its date. -/
theorem exit_consume {lot : Lot} (hqty : 0 < lot.qty) {taken : Decimal} {exitFill : Fill}
    (hclosed : (lot.consume taken exitFill).isClosed = true) :
    (lot.consume taken exitFill).exitKey = exitFill.timestamp.date ∧
      ∃ pnl, (lot.consume taken exitFill).realizedPnl = some pnl ∧
        (pnl < 0 ↔ exitFill.price < lot.entryPrice) := by
  have hzero : (lot.consume taken exitFill).remainingQty = 0 := of_decide_eq_true hclosed
  have hdate : (lot.consume taken exitFill).exitDate = some exitFill.timestamp.date :=
    if_pos hclosed
  have hprice : (lot.consume taken exitFill).exitPrice = some exitFill.price := if_pos hclosed
  have hentry : (lot.consume taken exitFill).entryPrice = lot.entryPrice := rfl
  have hlot : (lot.consume taken exitFill).qty = lot.qty := rfl
  refine ⟨by rw [Lot.exitKey, hdate, Option.getD_some], (exitFill.price - lot.entryPrice) * lot.qty,
    ?_, ?_⟩
  · rw [Lot.realizedPnl, hprice, hzero, hentry, hlot, sub_zero, Option.map_some]
  · constructor
    · intro hneg
      by_contra hc
      exact absurd hneg (not_lt.mpr (mul_nonneg (sub_nonneg.mpr (not_lt.mp hc)) hqty.le))
    · exact fun hloss => mul_neg_of_neg_of_pos (sub_neg.mpr hloss) hqty

/-- **One booking.** -/
theorem exists_closes (hl : l.Keyed) (hregular : l.AllRegular) (hfresh : op.1.lotId ∉ l.lots.keys) :
    ∃ sold opened, l.Closes op sold opened := by
  by_cases hnew : op.1.fill.id ∈ l.booked
  · have hbook := book_of_booked hnew
    exact ⟨id, [], closes_of_get? hl (by rw [hbook, List.append_nil]) (by simp) (by simp [hbook])⟩
  cases hside : op.1.fill.side with
  | buy =>
    refine ⟨id, [.ofFill op.1.fill op.1.lotId],
      closes_of_get? hl (allLots_book_of_buy hnew hside hfresh) ?_ fun lot hlot => ?_⟩
    · intro lot hlot
      rw [List.mem_singleton.mp hlot]
      rfl
    · -- the new lot is under an identifier of its own
      have hne : lot.id ≠ op.1.lotId := by
        rintro heq
        refine hfresh (heq ▸ Dict.mem_keys_iff.mpr ?_)
        exact ⟨lot, hl.get?_of_mem hlot⟩
      rw [book, bookFill_of_buy hnew hside]
      exact Dict.get?_set_of_ne _ hne _
  | sell =>
    obtain ⟨-, hget, hlots⟩ := lots_book_of_sell hl hnew hside
    set sold := afterSale (l.consumedBy op) op.1.fill with hsold
    have hmem : ∀ p ∈ l.consumedBy op, l.lots.get? p.1.id = some p.1 :=
      fun p hp => hl.get?_of_mem (of_mem_consumedBy hp).1.1
    have hkept : ∀ lot ∈ l.allLots, (¬∃ taken, (lot, taken) ∈ l.consumedBy op) → sold lot = lot :=
      fun lot hlot hc =>
        afterSale_of_forall_ne (forall_ne_of_not_consumed hmem (hl.get?_of_mem hlot) hc)
    have hnow : ∀ lot ∈ l.allLots, lot.isClosed = false →
        ((sold lot).isClosed = true ↔ l.ClosesNow op lot) := by
      intro lot hlot hopen
      rw [ClosesNow, hget, hl.get?_of_mem hlot, Option.map_some, Option.any_some]
      exact (and_iff_right hopen).symm
    refine ⟨sold, [], by rw [hlots, List.append_nil], by simp, fun lot => ?_, fun lot hlot hc => ?_,
      hnow, fun lot hlot => ?_⟩
    · exact afterSale_cases (P := fun lot' => lot'.agentId = lot.agentId) rfl fun _ => rfl
    · refine hkept lot hlot ?_
      rintro ⟨taken, ht⟩
      rw [(of_mem_consumedBy ht).1.2.2.2] at hc
      cases hc
    · obtain ⟨hlot', hcloses⟩ := List.mem_filter.mp hlot
      have hcloses := of_decide_eq_true hcloses
      have hclosed := (hnow lot hlot' hcloses.1).mpr hcloses
      by_cases hc : ∃ taken, (lot, taken) ∈ l.consumedBy op
      · obtain ⟨taken, ht⟩ := hc
        have hconsume : sold lot = lot.consume taken op.1.fill :=
          afterSale_of_mem (nodup_consumedBy hl) ht
        obtain ⟨⟨-, hagent, -⟩, hpos, hle⟩ := of_mem_consumedBy ht
        have hqty : 0 < lot.qty := (hpos.trans_le hle).trans_le (hregular lot hlot').le_qty
        rw [hconsume] at hclosed ⊢
        exact ⟨hagent, exit_consume hqty hclosed⟩
      · rw [hkept lot hlot' hc, hcloses.1] at hclosed
        cases hclosed

/-! ### The closed lots in order -/

variable {sold : Lot → Lot} {opened : List Lot}

/-- The closed lots of an agent after a booking, in the order of the ledger. -/
theorem Closes.closedOf_book (h : l.Closes op sold opened) (agentId : AgentId) :
    (l.book op).closedOf agentId = (l.allLots.filter fun lot =>
      (lot.agentId = agentId ∧ lot.isClosed = true) ∨
        (lot.agentId = agentId ∧ l.ClosesNow op lot)).map sold := by
  have hopened : (opened.filter fun lot => lot.agentId = agentId ∧ lot.isClosed = true) = [] := by
    rw [List.filter_eq_nil_iff]
    intro lot hlot
    simp [h.opened lot hlot]
  rw [closedOf, h.allLots, List.filter_append, hopened, List.append_nil, List.filter_map]
  refine congrArg (List.map sold) (List.filter_congr fun lot hlot => decide_eq_decide.mpr ?_)
  rw [h.agentId]
  cases hc : lot.isClosed with
  | true =>
    rw [h.closed lot hlot hc, hc]
    simp [ClosesNow, hc]
  | false =>
    rw [h.now lot hlot hc]
    simp

/-- The lots of another agent are left alone. -/
theorem Closes.closedLots_of_ne (h : l.Closes op sold opened) (hne : agentId ≠ op.1.fill.agentId) :
    (l.book op).closedLots agentId = l.closedLots agentId := by
  have hclosed : (l.book op).closedOf agentId = l.closedOf agentId := by
    rw [h.closedOf_book, closedOf]
    have hfilter : (l.allLots.filter fun lot => (lot.agentId = agentId ∧ lot.isClosed = true) ∨
        (lot.agentId = agentId ∧ l.ClosesNow op lot)) = l.allLots.filter fun lot =>
          lot.agentId = agentId ∧ lot.isClosed = true := by
      refine List.filter_congr fun lot hlot => decide_eq_decide.mpr (or_iff_left ?_)
      rintro ⟨hagent, hnow⟩
      have hown := (h.exit lot (List.mem_filter.mpr ⟨hlot, decide_eq_true hnow⟩)).1
      exact hne (hagent.symm.trans hown)
    rw [hfilter]
    refine (List.map_congr_left fun lot hlot => ?_).trans (List.map_id _)
    obtain ⟨hlot', hc⟩ := List.mem_filter.mp hlot
    exact h.closed lot hlot' (of_decide_eq_true hc).2
  exact congrArg (fun lots : List Lot => lots.mergeSort fun a b => a.exitKey ≤ b.exitKey) hclosed

/-- The lots that a booking closes are all closed on its date. -/
theorem Closes.exitKey_newlyClosed (h : l.Closes op sold opened) :
    ∀ lot ∈ (l.newlyClosed op).map sold, lot.exitKey = op.1.fill.timestamp.date := by
  intro lot hlot
  obtain ⟨old, hold, rfl⟩ := List.mem_map.mp hlot
  exact (h.exit old hold).2.1

/-- The closed lots of one date after a booking that lands last, in the order of the ledger. -/
theorem Closes.filter_closedOf_book (h : l.Closes op sold opened) (hlast : l.LandsLast op)
    (date : Date) :
    ((l.book op).closedOf op.1.fill.agentId).filter (·.exitKey = date) =
      (l.closedOf op.1.fill.agentId).filter (·.exitKey = date) ++
        ((l.newlyClosed op).map sold).filter (·.exitKey = date) := by
  have hmap : ((l.book op).closedOf op.1.fill.agentId).filter (·.exitKey = date) =
      (l.allLots.filter fun lot => (sold lot).exitKey = date ∧
        (lot.agentId = op.1.fill.agentId ∧ lot.isClosed = true ∨
          lot.agentId = op.1.fill.agentId ∧ l.ClosesNow op lot)).map sold := by
    rw [h.closedOf_book, List.filter_map, List.filter_filter]
    simp
  -- the lots closed before stay as they are
  have hkept : ((l.closedOf op.1.fill.agentId).filter (·.exitKey = date)).map sold =
      (l.closedOf op.1.fill.agentId).filter (·.exitKey = date) := by
    refine (List.map_congr_left fun lot hlot => ?_).trans (List.map_id _)
    obtain ⟨hlot', hc⟩ := List.mem_filter.mp (List.mem_filter.mp hlot).1
    exact h.closed lot hlot' (of_decide_eq_true hc).2
  have hexit : ∀ lot ∈ l.allLots, l.ClosesNow op lot →
      lot.agentId = op.1.fill.agentId ∧ (sold lot).exitKey = op.1.fill.timestamp.date := by
    intro lot hlot hnow
    have hex := h.exit lot (List.mem_filter.mpr ⟨hlot, decide_eq_true hnow⟩)
    exact ⟨hex.1, hex.2.1⟩
  rw [hmap]
  by_cases hdate : date = op.1.fill.timestamp.date
  · -- the date of the sell: those it closes come last
    subst hdate
    have hfilter : (l.allLots.filter fun lot =>
        (sold lot).exitKey = op.1.fill.timestamp.date ∧
          (lot.agentId = op.1.fill.agentId ∧ lot.isClosed = true ∨
            lot.agentId = op.1.fill.agentId ∧ l.ClosesNow op lot)) = l.allLots.filter fun lot =>
        (lot.agentId = op.1.fill.agentId ∧ lot.isClosed = true) ∧
            lot.exitKey = op.1.fill.timestamp.date ∨ l.ClosesNow op lot := by
      refine List.filter_congr fun lot hlot => decide_eq_decide.mpr ?_
      cases hc : lot.isClosed with
      | true => simp [h.closed lot hlot hc, ClosesNow, hc, and_comm]
      | false =>
        have hx := hexit lot hlot
        simp only [Bool.false_eq_true, and_false, false_and, false_or]
        exact ⟨fun hn => hn.2.2, fun hn => ⟨(hx hn).2, (hx hn).1, hn⟩⟩
    have hall : ((l.newlyClosed op).map sold).filter
        (·.exitKey = op.1.fill.timestamp.date) = (l.newlyClosed op).map sold :=
      List.filter_eq_self.mpr fun lot hlot => decide_eq_true (h.exitKey_newlyClosed lot hlot)
    rw [hfilter, hlast.2, List.map_append, hkept, hall]
  · -- any other date
    have hfilter : (l.allLots.filter fun lot => (sold lot).exitKey = date ∧
        (lot.agentId = op.1.fill.agentId ∧ lot.isClosed = true ∨
          lot.agentId = op.1.fill.agentId ∧ l.ClosesNow op lot)) =
        (l.closedOf op.1.fill.agentId).filter (·.exitKey = date) := by
      rw [closedOf, List.filter_filter]
      refine List.filter_congr fun lot hlot => ?_
      rw [← Bool.decide_and]
      refine decide_eq_decide.mpr ?_
      cases hc : lot.isClosed with
      | true => simp [h.closed lot hlot hc, ClosesNow, hc]
      | false =>
        simp only [Bool.false_eq_true, and_false, false_or, iff_false]
        rintro ⟨hd, -, hn⟩
        exact hdate (hd.symm.trans (hexit lot hlot hn).2)
    have hnone : ((l.newlyClosed op).map sold).filter (·.exitKey = date) = [] := by
      refine List.filter_eq_nil_iff.mpr fun lot hlot => ?_
      rw [h.exitKey_newlyClosed lot hlot]
      simpa using Ne.symm hdate
    rw [hfilter, hnone, List.append_nil, hkept]

/-- **A sell that lands last appends the lots it closes.** -/
theorem Closes.closedLots_of_landsLast (h : l.Closes op sold opened) (hlast : l.LandsLast op) :
    (l.book op).closedLots op.1.fill.agentId =
      l.closedLots op.1.fill.agentId ++ (l.newlyClosed op).map sold := by
  have hsorted : ((l.book op).closedLots op.1.fill.agentId).Pairwise
      fun a b => a.exitKey ≤ b.exitKey := pairwise_mergeSort_key _
  refine eq_of_pairwise_of_filter_eq hsorted ?_ fun date => ?_
  · refine List.pairwise_append.mpr ⟨pairwise_mergeSort_key _, ?_, fun lot hlot lot' hlot' => ?_⟩
    · refine List.pairwise_of_forall_mem_list fun lot hlot lot' hlot' => ?_
      rw [h.exitKey_newlyClosed lot hlot, h.exitKey_newlyClosed lot' hlot']
    · rw [h.exitKey_newlyClosed lot' hlot']
      exact hlast.1 lot ((List.mergeSort_perm _ _).mem_iff.mp hlot)
  · rw [List.filter_append, closedLots, closedLots, filter_mergeSort, filter_mergeSort]
    exact h.filter_closedOf_book hlast date

/-! ### The streak over the closed lots -/

/-- Another agent's streak is left alone. -/
theorem Closes.replay_of_ne (h : l.Closes op sold opened) (hne : agentId ≠ op.1.fill.agentId) :
    (l.book op).replayConsecutiveLosses agentId = l.replayConsecutiveLosses agentId := by
  rw [replayConsecutiveLosses, h.closedLots_of_ne hne, replayConsecutiveLosses]

/-- **A sell that lands last counts the lots it closes on**, one after the other. -/
theorem Closes.replay_of_landsLast (h : l.Closes op sold opened) (hlast : l.LandsLast op) :
    (l.book op).replayConsecutiveLosses op.1.fill.agentId =
      streak (l.replayConsecutiveLosses op.1.fill.agentId) (l.lossesOf op) := by
  rw [replayConsecutiveLosses, h.closedLots_of_landsLast hlast, List.foldl_append,
    ← replayConsecutiveLosses, streak, lossesOf, List.foldl_map, List.foldl_map]
  refine List.foldl_ext _ _ _ fun n lot hlot => ?_
  obtain ⟨-, -, pnl, hpnl, hloss⟩ := h.exit lot hlot
  rw [hpnl]
  by_cases hneg : pnl < 0
  · simp [hneg, hloss.mp hneg]
  · have hno : ¬op.1.fill.price < lot.entryPrice := fun hc => hneg (hloss.mpr hc)
    simp [hneg, hno]

end LotLedger

/-! ### The live tracker next to one that is rebuilt -/

/-- A fill to book and pass to the tracker, and what the clock shows then. -/
structure TradedFill where
  op : Booking × LotMethod
  now : Time

/-- The ledger, and a tracker that has seen every fill that was booked. -/
structure ColdTwin where
  ledger : LotLedger
  tracker : AgentStateTracker
  kill : KillSwitchEngine

namespace ColdTwin

/-- Nothing has been traded. -/
def start (startingEquity : Decimal) (hasBus : Bool) (kill : KillSwitchEngine) : ColdTwin :=
  ⟨.empty, .new startingEquity hasBus, kill⟩

/-- Book a fill, then tell the tracker. -/
def step (w : ColdTwin) (traded : TradedFill) : ColdTwin :=
  let (tracker, kill) := w.tracker.updateOnFill w.kill traded.op.1.fill traded.now
  { ledger := w.ledger.book traded.op, tracker := tracker, kill := kill }

def consecutiveLosses (w : ColdTwin) (agentId : AgentId) : ℕ :=
  (w.tracker.records agentId).consecutiveLosses

/-- **A cold rebuild counts like the live tracker**, whatever tracker it is done on. -/
def Agrees (w : ColdTwin) : Prop :=
  ∀ (cold : AgentStateTracker) (markPrices : Dict String Decimal) (agentId : AgentId),
    ((cold.rebuildFromLedger w.ledger markPrices).records agentId).consecutiveLosses =
      w.consecutiveLosses agentId

/-- A fill of some quantity, booked under a new identifier. -/
def WellFormed (w : ColdTwin) (traded : TradedFill) : Prop :=
  0 < traded.op.1.fill.qty ∧ traded.op.1.lotId ∉ w.ledger.lots.keys

def LandsLast (w : ColdTwin) (traded : TradedFill) : Prop := w.ledger.LandsLast traded.op

instance (w : ColdTwin) (traded : TradedFill) : Decidable (w.LandsLast traded) :=
  inferInstanceAs (Decidable (w.ledger.LandsLast traded.op))

/-- **One verdict**: counting the lots that a fill closes gives what counting the fill gives. -/
def SameVerdict (w : ColdTwin) (traded : TradedFill) : Prop :=
  streak (w.consecutiveLosses traded.op.1.fill.agentId) (w.ledger.lossesOf traded.op) =
    if traded.op.1.fill.side = .buy then w.consecutiveLosses traded.op.1.fill.agentId
    else if (w.tracker.records traded.op.1.fill.agentId).isLoss traded.op.1.fill then
      w.consecutiveLosses traded.op.1.fill.agentId + 1
    else 0

variable {w : ColdTwin} {traded : TradedFill}

/-- The rebuilt counter is the streak over the closed lots. -/
theorem agrees_iff : w.Agrees ↔
    ∀ agentId, w.ledger.replayConsecutiveLosses agentId = w.consecutiveLosses agentId :=
  ⟨fun h agentId => h w.tracker .empty agentId, fun h _ _ agentId => h agentId⟩

/-- What a fill does to the live counters. -/
theorem consecutiveLosses_step (w : ColdTwin) (traded : TradedFill) (agentId : AgentId) :
    (w.step traded).consecutiveLosses agentId =
      if agentId ≠ traded.op.1.fill.agentId ∨ traded.op.1.fill.side = .buy then
        w.consecutiveLosses agentId
      else if (w.tracker.records agentId).isLoss traded.op.1.fill then
        w.consecutiveLosses agentId + 1
      else 0 := by
  show ((w.tracker.updateOnFill w.kill traded.op.1.fill traded.now).1.records
    agentId).consecutiveLosses = _
  cases hside : traded.op.1.fill.side with
  | buy =>
    rw [AgentStateTracker.records_updateOnFill_of_buy _ _ _ hside, if_pos (Or.inr rfl)]
    by_cases hk : agentId = traded.op.1.fill.agentId
    · subst hk
      rw [Function.update_self]
      rfl
    · rw [Function.update_of_ne hk]
      rfl
  | sell =>
    rw [AgentStateTracker.records_updateOnFill_of_sell _ _ _ hside]
    by_cases hk : agentId = traded.op.1.fill.agentId
    · subst hk
      rw [Function.update_self, if_neg (by simp)]
      exact PerAgentRecord.consecutiveLosses_afterSell _ _ _
    · rw [Function.update_of_ne hk, if_pos (Or.inl hk)]
      rfl

/-- The ledger holds regular lots under their identifiers, and the counters agree. -/
structure InStep (w : ColdTwin) : Prop where
  keyed : w.ledger.Keyed
  regular : w.ledger.AllRegular
  agrees : w.Agrees

/-- **One fill** that lands last leaves the counters equal just when there is one verdict. -/
theorem InStep.agrees_step_iff (h : w.InStep) (hformed : w.WellFormed traded)
    (hlast : w.LandsLast traded) : (w.step traded).Agrees ↔ w.SameVerdict traded := by
  obtain ⟨sold, opened, hcloses⟩ := LotLedger.exists_closes h.keyed h.regular hformed.2
  have hbefore := agrees_iff.mp h.agrees
  have hown := hcloses.replay_of_landsLast hlast
  rw [hbefore] at hown
  have hlive := w.consecutiveLosses_step traded traded.op.1.fill.agentId
  rw [agrees_iff]
  constructor
  · intro hafter
    have ha := hafter traded.op.1.fill.agentId
    rw [hlive] at ha
    rw [SameVerdict, ← hown]
    exact ha.trans (by simp)
  · intro hsame agentId
    by_cases hk : agentId = traded.op.1.fill.agentId
    · subst hk
      rw [hlive]
      refine hown.trans ?_
      rw [hsame]
      simp
    · rw [consecutiveLosses_step, if_pos (Or.inl hk), ← hbefore agentId]
      exact hcloses.replay_of_ne hk

theorem InStep.step (h : w.InStep) (hformed : w.WellFormed traded)
    (hlast : w.LandsLast traded) (hsame : w.SameVerdict traded) : (w.step traded).InStep :=
  ⟨h.keyed.book traded.op, h.regular.book h.keyed hformed.1 hformed.2,
    (h.agrees_step_iff hformed hlast).mpr hsame⟩

theorem inStep_start (startingEquity : Decimal) (hasBus : Bool) (kill : KillSwitchEngine) :
    (start startingEquity hasBus kill).InStep := by
  refine ⟨LotLedger.keyed_empty, fun lot h => absurd h List.not_mem_nil, ?_⟩
  rw [agrees_iff]
  intro agentId
  have hnone : LotLedger.empty.closedOf agentId = [] := rfl
  have hsort : LotLedger.empty.closedLots agentId = [] := by
    rw [LotLedger.closedLots, ← LotLedger.closedOf, hnone, List.mergeSort_nil]
  show LotLedger.empty.replayConsecutiveLosses agentId = 0
  rw [LotLedger.replayConsecutiveLosses, hsort, List.foldl_nil]

/-- **When a cold rebuild counts like the live tracker**: in any sequence of bookings in which
every fill lands last, the rebuilt counters are those of the live tracker throughout exactly when
counting the lots that a fill closes, each against its own entry price, gives what counting the
fill against the running average cost gives. -/
theorem rebuild_agrees_iff (startingEquity : Decimal) (hasBus : Bool) (kill : KillSwitchEngine)
    {ops : List TradedFill} (hformed : Along step WellFormed (start startingEquity hasBus kill) ops)
    (hlast : Along step LandsLast (start startingEquity hasBus kill) ops) :
    (∀ pre, pre <+: ops → (run step (start startingEquity hasBus kill) pre).Agrees) ↔
      Along step SameVerdict (start startingEquity hasBus kill) ops := by
  refine forall_reached_iff_along_within (fun w traded h hadm hsame => ?_) (fun w h => h.agrees)
    (fun w traded h hadm hnot => ?_) (inStep_start startingEquity hasBus kill) (hformed.and hlast)
  · exact h.step hadm.1 hadm.2 hsame
  · exact fun hc => hnot ((h.agrees_step_iff hadm.1 hadm.2).mp hc)

/-! ### A sell of half a lot -/

/-- A fill of some shares, on a day that its number tells. -/
def sharesFill (id : FillId) (side : OrderSide) (qty price : Decimal) : Fill where
  id := id
  orderId := id
  agentId := .haiku
  symbol := "SPY"
  side := side
  qty := qty
  price := price
  timestamp := id * microsPerDay

def shares (id : FillId) (side : OrderSide) (qty price : Decimal) : TradedFill :=
  ⟨(⟨sharesFill id side qty price, id⟩, .fifo), id * microsPerDay⟩

/-- Ten shares bought, and half of them sold at a loss. -/
def halfSold : List TradedFill := [shares 1 .buy 10 100, shares 2 .sell 5 90]

/-- **The two count different things**: the sell is a loss, and no lot is closed. -/
theorem not_agrees_halfSold : ¬(run step (start 1000 false (.new 60)) halfSold).Agrees := by
  intro h
  have hhaiku := agrees_iff.mp h .haiku
  exact absurd hhaiku (by decide +kernel)

/-- Ten shares bought, and sold at a loss on the next day. -/
theorem rebuild_agrees_one_loss :
    (∀ pre, pre <+: [shares 1 .buy 10 100, shares 2 .sell 10 90] →
        (run step (start 1000 false (.new 60)) pre).Agrees) ↔
      Along step SameVerdict (start 1000 false (.new 60))
        [shares 1 .buy 10 100, shares 2 .sell 10 90] := by
  refine rebuild_agrees_iff 1000 false (.new 60) ?_ ?_
  · exact ⟨⟨by decide, by decide +kernel⟩, ⟨by decide, by decide +kernel⟩, trivial⟩
  · exact ⟨by decide +kernel, by decide +kernel, trivial⟩

end ColdTwin

end TradingPlatform
