import TradingPlatform.Execution.AgentStateTracker
import TradingPlatform.Run

/-!
# Sleeve equity and cash flow

The equity of a sleeve has two definitions. One is the cash that went in and out and what the
open positions are worth (`TradingPlatform.cashFlowEquity`). The other is what the tracker
computes from the lots. They start from different data – the fills on one side, the state the
fills left the lots in on the other – and a lot remembers only one exit price, and that only
once it is closed.

To compare them a run is watched together with the *slices* its sells cut
(`TradingPlatform.Slice`): which lot, how much, at which price. The books then balance in four
ways (`TradingPlatform.SleeveBooks.Balanced`), each kept by every fill, and the difference between
the two equities comes out as a sum over the slices (`TradingPlatform.SleeveBooks.missed`): every
slice misses the difference between the price it was sold at and the price its lot stands for
now. `TradingPlatform.equity_eq_cashFlow_iff` is the result.
-/

namespace TradingPlatform

/-- Part of a lot, sold. -/
structure Slice where
  lotId : LotId
  qty : Decimal
  price : Decimal
  deriving DecidableEq

/-- The ledger, and what led to it. -/
structure SleeveBooks where
  ledger : LotLedger
  fills : List Fill
  slices : List Slice

/-! ### Equity from the cash flow -/

def buyCost (fill : Fill) : Decimal :=
  match fill.side with
  | .buy => fill.price * fill.qty
  | .sell => 0

def sellProceeds (fill : Fill) : Decimal :=
  match fill.side with
  | .buy => 0
  | .sell => fill.price * fill.qty

/-- The net quantity of a symbol, in its canonical form. -/
def openQty (fills : List Fill) (sym : String) : Decimal :=
  (fills.map fun fill => if normalizeSymbol fill.symbol = sym then fill.signedQty else 0).sum

/-- The mark of a symbol, or zero if it has none. -/
def markAt (markPrices : Dict String Decimal) (sym : String) : Decimal :=
  (markPrices.get? sym).getD 0

/-- **Equity from the cash flow**: what went in, what came out, what is left at the marks. -/
def cashFlowEquity (startingEquity : Decimal) (fills : List Fill)
    (markPrices : Dict String Decimal) : Decimal :=
  startingEquity + (fills.map sellProceeds).sum - (fills.map buyCost).sum +
    ((fills.map fun fill => normalizeSymbol fill.symbol).dedup.map
      fun sym => openQty fills sym * markAt markPrices sym).sum

theorem sum_map_sub {α : Type*} (l : List α) (f g : α → Decimal) :
    (l.map fun a => f a - g a).sum = (l.map f).sum - (l.map g).sum := by
  simpa using Multiset.sum_map_sub (f := f) (g := g) (m := (l : Multiset α))

/-- Summing by symbol is summing by fill. -/
theorem sum_openQty_mul (fills : List Fill) {syms : List String} (hnd : syms.Nodup)
    (hmem : ∀ fill ∈ fills, normalizeSymbol fill.symbol ∈ syms) (g : String → Decimal) :
    (syms.map fun sym => openQty fills sym * g sym).sum =
      (fills.map fun fill => fill.signedQty * g (normalizeSymbol fill.symbol)).sum := by
  induction fills with
  | nil => simp [openQty]
  | cons fill fills ih =>
    have hsplit : ∀ sym, openQty (fill :: fills) sym * g sym =
        openQty fills sym * g sym +
          (if normalizeSymbol fill.symbol = sym then fill.signedQty else 0) * g sym := by
      intro sym
      rw [openQty, List.map_cons, List.sum_cons, ← openQty]
      ring
    have hone : (syms.map fun sym =>
        (if normalizeSymbol fill.symbol = sym then fill.signedQty else 0) * g sym).sum =
          fill.signedQty * g (normalizeSymbol fill.symbol) := by
      have hat : (syms.map fun sym =>
          (if normalizeSymbol fill.symbol = sym then fill.signedQty else 0) * g sym).sum =
            (syms.map fun _ => (0 : Decimal)).sum +
              fill.signedQty * g (normalizeSymbol fill.symbol) :=
        Dict.sum_map_add_at hnd (hmem fill List.mem_cons_self) (by simp)
          fun sym hsym => by rw [if_neg (Ne.symm hsym), zero_mul]
      simpa using hat
    simp only [hsplit]
    rw [List.sum_map_add, ih fun f hf => hmem f (List.mem_cons_of_mem _ hf), hone, List.map_cons,
      List.sum_cons, add_comm]

namespace SleeveBooks

/-! ### Booking fills -/

def empty : SleeveBooks := ⟨.empty, [], []⟩

variable (method : LotMethod)

/-- The slices a fill cuts. -/
def slicesOf (l : LotLedger) (fill : Fill) : List Slice :=
  match fill.side with
  | .buy => []
  | .sell => (l.consumption fill.agentId fill.symbol fill.qty method).map
      fun (lot, taken) => ⟨lot.id, taken, fill.price⟩

/-- Book a fill. -/
def step (s : SleeveBooks) (b : Booking) : SleeveBooks where
  ledger := s.ledger.bookFill b.fill b.lotId method
  fills := s.fills ++ [b.fill]
  slices := s.slices ++ slicesOf method s.ledger b.fill

/-- **A regular fill**: of the sleeve's agent, positive, new, selling no more than there is,
and leaving no dust. -/
structure Regular (agentId : AgentId) (s : SleeveBooks) (b : Booking) : Prop where
  agentId_eq : b.fill.agentId = agentId
  qty_pos : 0 < b.fill.qty
  price_pos : 0 < b.fill.price
  fresh_fill : b.fill.id ∉ s.fills.map (·.id)
  fresh_lot : b.lotId ∉ s.ledger.lots.keys
  covered : b.fill.side = .sell → b.fill.qty ≤ openQty s.fills (normalizeSymbol b.fill.symbol)
  no_dust : b.fill.side = .sell →
    ∀ p ∈ s.ledger.consumption b.fill.agentId b.fill.symbol b.fill.qty method,
      0 < p.1.remainingQty - p.2 →
        dustNotionalUsd ≤ (p.1.remainingQty - p.2) * b.fill.price

/-- **The books balance**: what is known of every lot, and four sums over the lots that are
sums over the slices or the fills as well. -/
structure Balanced (agentId : AgentId) (s : SleeveBooks) : Prop where
  keyed : s.ledger.Keyed
  booked : s.ledger.booked = s.fills.map (·.id)
  agentId_eq : ∀ lot ∈ s.ledger.allLots, lot.agentId = agentId
  normal : ∀ lot ∈ s.ledger.allLots, normalizeSymbol lot.symbol = lot.symbol
  remaining_nonneg : ∀ lot ∈ s.ledger.allLots, 0 ≤ lot.remainingQty
  closed_iff : ∀ lot ∈ s.ledger.allLots, lot.isClosed = true ↔ lot.remainingQty = 0
  exit_isSome : ∀ lot ∈ s.ledger.allLots, lot.isClosed = true → lot.exitPrice.isSome = true
  /-- What was sold of each lot is the sum of its slices. -/
  sold : ∀ f : LotId → Decimal, (s.slices.map fun slice => slice.qty * f slice.lotId).sum =
    s.ledger.total fun lot => (lot.qty - lot.remainingQty) * f lot.id
  proceeds : (s.slices.map fun slice => slice.qty * slice.price).sum =
    (s.fills.map sellProceeds).sum
  cost : (s.ledger.total fun lot => lot.qty * lot.entryPrice) = (s.fills.map buyCost).sum
  held : ∀ g : String → Decimal, (s.ledger.total fun lot => lot.remainingQty * g lot.symbol) =
    (s.fills.map fun fill => fill.signedQty * g (normalizeSymbol fill.symbol)).sum

/-- What is known of every single lot of balanced books. -/
structure SoundLot (agentId : AgentId) (lot : Lot) : Prop where
  agentId_eq : lot.agentId = agentId
  normal : normalizeSymbol lot.symbol = lot.symbol
  remaining_nonneg : 0 ≤ lot.remainingQty
  closed_iff : lot.isClosed = true ↔ lot.remainingQty = 0
  exit_isSome : lot.isClosed = true → lot.exitPrice.isSome = true

variable {method} {agentId : AgentId} {s : SleeveBooks} {b : Booking}

theorem Balanced.sound (hs : s.Balanced agentId) {lot : Lot} (hlot : lot ∈ s.ledger.allLots) :
    SoundLot agentId lot where
  agentId_eq := hs.agentId_eq lot hlot
  normal := hs.normal lot hlot
  remaining_nonneg := hs.remaining_nonneg lot hlot
  closed_iff := hs.closed_iff lot hlot
  exit_isSome := hs.exit_isSome lot hlot

/-- A regular buy opens a sound lot. -/
theorem Regular.soundLot_ofFill (hb : Regular method agentId s b) :
    SoundLot agentId (.ofFill b.fill b.lotId) where
  agentId_eq := hb.agentId_eq
  normal := normalizeSymbol_idem _
  remaining_nonneg := hb.qty_pos.le
  closed_iff := iff_of_false Bool.false_ne_true hb.qty_pos.ne'
  exit_isSome hc := absurd hc Bool.false_ne_true

theorem Balanced.empty : (empty : SleeveBooks).Balanced agentId where
  keyed _ _ h := absurd h (by simp [SleeveBooks.empty, LotLedger.empty])
  booked := rfl
  agentId_eq _ h := absurd h List.not_mem_nil
  normal _ h := absurd h List.not_mem_nil
  remaining_nonneg _ h := absurd h List.not_mem_nil
  closed_iff _ h := absurd h List.not_mem_nil
  exit_isSome _ h := absurd h List.not_mem_nil
  sold _ := rfl
  proceeds := rfl
  cost := rfl
  held _ := rfl

theorem sum_concat (g : Fill → Decimal) (fills : List Fill) (fill : Fill) :
    ((fills ++ [fill]).map g).sum = (fills.map g).sum + g fill := by
  simp

/-- A buy keeps the books balanced. -/
theorem Balanced.buy (hs : s.Balanced agentId) (hb : Regular method agentId s b)
    (hside : b.fill.side = .buy) : (s.step method b).Balanced agentId := by
  have hnew : b.fill.id ∉ s.ledger.booked := hs.booked ▸ hb.fresh_fill
  have hledger : (s.step method b).ledger =
      (s.ledger.markBooked b.fill.id).openLot b.fill b.lotId :=
    LotLedger.bookFill_of_buy hnew hside b.lotId
  have hfills : (s.step method b).fills = s.fills ++ [b.fill] := rfl
  have hslices : (s.step method b).slices = s.slices := by
    rw [step, slicesOf, hside, List.append_nil]
  have htotal : ∀ w, (s.step method b).ledger.total w =
      s.ledger.total w + w (.ofFill b.fill b.lotId) := by
    intro w
    rw [hledger]
    exact LotLedger.total_openLot b.fill w hb.fresh_lot
  have hsound : ∀ lot ∈ (s.step method b).ledger.allLots, SoundLot agentId lot := by
    intro lot hlot
    rw [hledger] at hlot
    rcases LotLedger.mem_openLot b.fill hlot with rfl | hold
    · exact hb.soundLot_ofFill
    · exact hs.sound hold
  constructor
  case keyed =>
    rw [hledger]
    exact LotLedger.Keyed.openLot b.fill hs.keyed
  case booked =>
    rw [hledger, hfills, List.map_append, ← hs.booked]
    rfl
  case agentId_eq => exact fun lot hlot => (hsound lot hlot).agentId_eq
  case normal => exact fun lot hlot => (hsound lot hlot).normal
  case remaining_nonneg => exact fun lot hlot => (hsound lot hlot).remaining_nonneg
  case closed_iff => exact fun lot hlot => (hsound lot hlot).closed_iff
  case exit_isSome => exact fun lot hlot => (hsound lot hlot).exit_isSome
  case sold =>
    intro f
    rw [htotal, hslices, hs.sold]
    simp [Lot.ofFill]
  case proceeds =>
    rw [hslices, hs.proceeds, hfills, sum_concat, sellProceeds, hside, add_zero]
  case cost =>
    rw [htotal, hs.cost, hfills, sum_concat, buyCost, hside]
    exact congrArg _ (mul_comm _ _)
  case held =>
    intro g
    rw [htotal, hs.held, hfills, sum_concat, Fill.signedQty, hside]
    rfl

/-- Without dust a lot keeps what is not taken, and is closed when nothing is left. -/
theorem consume_of_no_dust {lot : Lot} {taken : Decimal} {fill : Fill}
    (h : 0 < lot.remainingQty - taken →
      dustNotionalUsd ≤ (lot.remainingQty - taken) * fill.price) :
    (lot.consume taken fill).remainingQty = lot.remainingQty - taken := by
  refine if_neg ?_
  rintro ⟨hpos, -, hdust⟩
  exact absurd hdust (h hpos).not_gt

/-- A lot stays sound when no more is taken than is left. -/
theorem SoundLot.consume {lot : Lot} {taken : Decimal} {fill : Fill} (h : SoundLot agentId lot)
    (hle : taken ≤ lot.remainingQty)
    (hleft : (lot.consume taken fill).remainingQty = lot.remainingQty - taken) :
    SoundLot agentId (lot.consume taken fill) where
  agentId_eq := h.agentId_eq
  normal := h.normal
  remaining_nonneg := hleft ▸ sub_nonneg.mpr hle
  closed_iff := decide_eq_true_iff
  exit_isSome hc := by
    have hexit : (lot.consume taken fill).exitPrice = some fill.price := if_pos hc
    rw [hexit]
    rfl

/-- What the ledger can consume is what the sleeve holds. -/
theorem Balanced.sum_candidates (hs : s.Balanced agentId) (symbol : String) :
    ((s.ledger.candidates agentId symbol method).map (·.remainingQty)).sum =
      openQty s.fills symbol := by
  have hheld := hs.held fun sym => if sym = symbol then 1 else 0
  simp only [mul_ite, mul_one, mul_zero] at hheld
  rw [LotLedger.sum_candidates, openQty, ← hheld, LotLedger.total, LotLedger.total]
  refine congrArg List.sum (List.map_congr_left fun lot hlot => ?_)
  have hagent := hs.agentId_eq lot hlot
  have hclosed := hs.closed_iff lot hlot
  rcases (hs.remaining_nonneg lot hlot).eq_or_lt with hzero | hpos
  · simp [← hzero]
  · have hopen : lot.isClosed = false := by
      rw [← Bool.not_eq_true, hclosed]
      exact hpos.ne'
    simp [hagent, hopen, hpos]

/-- A sell keeps the books balanced. -/
theorem Balanced.sell (hs : s.Balanced agentId) (hb : Regular method agentId s b)
    (hside : b.fill.side = .sell) : (s.step method b).Balanced agentId := by
  have hnew : b.fill.id ∉ s.ledger.booked := hs.booked ▸ hb.fresh_fill
  let consumed := s.ledger.consumption b.fill.agentId b.fill.symbol b.fill.qty method
  have havail : b.fill.qty ≤ ((s.ledger.candidates b.fill.agentId
      (normalizeSymbol b.fill.symbol) method).map (·.remainingQty)).sum := by
    rw [hb.agentId_eq, hs.sum_candidates]
    exact hb.covered hside
  have hsells : (s.ledger.markBooked b.fill.id).Sells (s.step method b).ledger consumed b.fill :=
    LotLedger.bookFill_of_sell hs.keyed hnew hside havail b.lotId
  have hqty : (consumed.map Prod.snd).sum = b.fill.qty :=
    LotLedger.sum_consumption hb.qty_pos.le havail
  have hfills : (s.step method b).fills = s.fills ++ [b.fill] := rfl
  have hslices : (s.step method b).slices =
      s.slices ++ consumed.map fun p => ⟨p.1.id, p.2, b.fill.price⟩ := by
    rw [step, slicesOf, hside]
  have hleft : ∀ p ∈ consumed, (p.1.consume p.2 b.fill).remainingQty = p.1.remainingQty - p.2 :=
    fun p hp => consume_of_no_dust (hb.no_dust hside p hp)
  have hsound : ∀ lot ∈ (s.step method b).ledger.allLots, SoundLot agentId lot := by
    intro lot hlot
    rcases hsells.mem lot hlot with hold | ⟨p, hp, rfl⟩
    · exact hs.sound hold
    · obtain ⟨⟨hmem, -⟩, -, hle⟩ := LotLedger.of_mem_consumption hp
      exact (hs.sound hmem).consume hle (hleft p hp)
  -- a weighted sum over the slices of this sell
  have hweighted : ∀ c : Decimal, (consumed.map fun p => p.2 * c).sum = b.fill.qty * c := by
    intro c
    rw [List.sum_map_mul_right, hqty]
  constructor
  case keyed => exact hsells.keyed
  case booked =>
    rw [hsells.booked, hfills, List.map_append, ← hs.booked]
    rfl
  case agentId_eq => exact fun lot hlot => (hsound lot hlot).agentId_eq
  case normal => exact fun lot hlot => (hsound lot hlot).normal
  case remaining_nonneg => exact fun lot hlot => (hsound lot hlot).remaining_nonneg
  case closed_iff => exact fun lot hlot => (hsound lot hlot).closed_iff
  case exit_isSome => exact fun lot hlot => (hsound lot hlot).exit_isSome
  case sold =>
    intro f
    rw [hslices, List.map_append, List.sum_append, hs.sold, hsells.total, List.map_map]
    refine congrArg _ (congrArg List.sum (List.map_congr_left fun p hp => ?_))
    have hqty' : (p.1.consume p.2 b.fill).qty = p.1.qty := rfl
    rw [hleft p hp, hqty', LotLedger.id_consume, Function.comp_apply]
    ring
  case proceeds =>
    rw [hslices, List.map_append, List.sum_append, hs.proceeds, hfills, sum_concat, List.map_map]
    refine congrArg _ ((hweighted b.fill.price).trans ?_)
    rw [sellProceeds, hside, mul_comm]
  case cost =>
    rw [hsells.total, hfills, sum_concat, buyCost, hside]
    refine (congrArg₂ _ hs.cost ?_)
    refine List.sum_eq_zero fun x hx => ?_
    obtain ⟨p, -, rfl⟩ := List.mem_map.mp hx
    exact sub_self _
  case held =>
    intro g
    rw [hsells.total, hfills, sum_concat, Fill.signedQty, hside]
    refine congrArg₂ _ (hs.held g) ?_
    have hneg : ∀ p ∈ consumed, (p.1.consume p.2 b.fill).remainingQty *
        g (p.1.consume p.2 b.fill).symbol - p.1.remainingQty * g p.1.symbol =
          p.2 * -g (normalizeSymbol b.fill.symbol) := by
      intro p hp
      have hsym : (p.1.consume p.2 b.fill).symbol = p.1.symbol := rfl
      rw [hleft p hp, hsym, (LotLedger.of_mem_consumption hp).1.2.2.1]
      ring
    rw [List.map_congr_left hneg, hweighted, neg_mul, mul_neg]

/-- **Every regular fill keeps the books balanced.** -/
theorem Balanced.step (hs : s.Balanced agentId) (hb : Regular method agentId s b) :
    (s.step method b).Balanced agentId := by
  cases hside : b.fill.side with
  | buy => exact hs.buy hb hside
  | sell => exact hs.sell hb hside

/-! ### The two equities -/

/-- The price a lot stands for: the exit price of a closed lot, the entry price of an open
one. -/
def refPrice (lot : Lot) : Decimal :=
  if lot.isClosed = true then lot.exitPrice.getD 0 else lot.entryPrice

/-- The same by identifier. -/
def refPriceOf (l : LotLedger) (lotId : LotId) : Decimal :=
  ((l.lots.get? lotId).map refPrice).getD 0

/-- The profit at the marks of a lot the tracker skips. -/
def skippedPnl (markPrices : Dict String Decimal) (lot : Lot) : Decimal :=
  if lot.isClosed = false ∧ lot.remainingQty * lot.entryPrice < dustNotionalUsd then
    (markAt markPrices lot.symbol - lot.entryPrice) * lot.remainingQty
  else 0

/-- **What the lots miss**: for every slice the difference between its price and the price its
lot stands for, and for every skipped lot its profit at the marks. -/
def missed (s : SleeveBooks) (markPrices : Dict String Decimal) : Decimal :=
  (s.slices.map fun slice => slice.qty * (slice.price - refPriceOf s.ledger slice.lotId)).sum +
    s.ledger.total (skippedPnl markPrices)

/-- What the tracker counts of a lot. -/
def countedPnl (markPrices : Dict String Decimal) (lot : Lot) : Decimal :=
  (lot.qty - lot.remainingQty) * refPrice lot - lot.qty * lot.entryPrice +
    lot.remainingQty * markAt markPrices lot.symbol - skippedPnl markPrices lot

/-- Every held symbol has a mark. -/
def Covers (markPrices : Dict String Decimal) (fills : List Fill) : Prop :=
  ∀ sym, openQty fills sym ≠ 0 → (markPrices.get? sym).isSome = true

variable {markPrices : Dict String Decimal}

/-- An open lot has a mark. -/
theorem Balanced.exists_mark (hs : s.Balanced agentId) (hcov : Covers markPrices s.fills)
    {lot : Lot} (hlot : lot ∈ s.ledger.allLots) (hopen : lot.isClosed = false) :
    ∃ mark, markPrices.get? lot.symbol = some mark := by
  refine Option.isSome_iff_exists.mp (hcov lot.symbol ?_)
  have hrem : lot.remainingQty ≠ 0 := fun hc => by
    rw [← hs.closed_iff lot hlot, hopen] at hc
    exact absurd hc Bool.false_ne_true
  have hmem : lot ∈ s.ledger.candidates agentId lot.symbol .fifo :=
    (LotLedger.mem_candidates _ _ _).mpr ⟨hlot, hs.agentId_eq lot hlot, rfl, hopen,
      (hs.remaining_nonneg lot hlot).lt_of_ne hrem.symm⟩
  have hsum : ((s.ledger.candidates agentId lot.symbol .fifo).map (·.remainingQty)).sum =
      openQty s.fills lot.symbol := hs.sum_candidates lot.symbol
  rw [← hsum]
  refine (List.sum_pos _ ?_ ?_).ne'
  · rintro x hx
    obtain ⟨lot', hlot', rfl⟩ := List.mem_map.mp hx
    exact ((LotLedger.mem_candidates _ _ _).mp hlot').2.2.2.2
  · exact List.ne_nil_of_mem (List.mem_map_of_mem hmem)

/-- The tracker's two sums, lot by lot. -/
theorem Balanced.pnl_eq (hs : s.Balanced agentId) (hcov : Covers markPrices s.fills) :
    s.ledger.agentRealizedPnl agentId + s.ledger.agentUnrealizedPnl agentId markPrices =
      s.ledger.total (countedPnl markPrices) := by
  rw [LotLedger.agentRealizedPnl, LotLedger.agentUnrealizedPnl, ← List.sum_map_add,
    LotLedger.total]
  refine congrArg List.sum (List.map_congr_left fun lot hlot => ?_)
  have hagent := hs.agentId_eq lot hlot
  cases hc : lot.isClosed with
  | true =>
    have hrem := (hs.closed_iff lot hlot).mp hc
    obtain ⟨exitPrice, hexit⟩ := Option.isSome_iff_exists.mp (hs.exit_isSome lot hlot hc)
    simp only [hagent, hc, countedPnl, refPrice, skippedPnl, Lot.realizedPnl, hexit, hrem]
    simp
    ring
  | false =>
    obtain ⟨mark, hmark⟩ := hs.exists_mark hcov hlot hc
    have hmarkOf : markOf markPrices lot.symbol = some mark := by
      rw [markOf, hs.normal lot hlot, hmark]
    simp only [hagent, hc, countedPnl, refPrice, skippedPnl, markAt, hmark, hmarkOf]
    by_cases hdust : lot.remainingQty * lot.entryPrice < dustNotionalUsd
    · simp only [hdust]
      simp
      ring
    · simp only [hdust]
      simp
      ring

/-- Summing over the slices at the price their lot stands for is summing over the lots. -/
theorem Balanced.sum_refPrice (hs : s.Balanced agentId) :
    (s.slices.map fun slice => slice.qty * refPriceOf s.ledger slice.lotId).sum =
      s.ledger.total fun lot => (lot.qty - lot.remainingQty) * refPrice lot := by
  rw [hs.sold, LotLedger.total, LotLedger.total]
  refine congrArg List.sum (List.map_congr_left fun lot hlot => ?_)
  rw [refPriceOf, hs.keyed.get?_of_mem hlot]
  rfl

end SleeveBooks

section Equity

variable {method : LotMethod} {agentId : AgentId} {bookings : List Booking}
  {markPrices : Dict String Decimal}

open SleeveBooks

theorem fills_run (bookings : List Booking) (s : SleeveBooks) :
    (run (SleeveBooks.step method) s bookings).fills = s.fills ++ bookings.map (·.fill) := by
  induction bookings generalizing s with
  | nil => simp
  | cons b bookings ih =>
    rw [run_cons, ih, SleeveBooks.step]
    simp

/-- **When equity is cash-flow exact.** The equity the tracker computes after a run of regular
fills is the equity from the cash flow exactly when the lots miss nothing: what the slices were
sold for beyond what their lots stand for, and what the skipped lots are worth beyond their
cost, add up to zero. -/
theorem equity_eq_cashFlow_iff
    (hrun : Along (SleeveBooks.step method) (Regular method agentId) .empty bookings)
    (hcov : Covers markPrices (bookings.map (·.fill))) (t : AgentStateTracker) (now : Time) :
    ((t.updateOnMark (run (SleeveBooks.step method) .empty bookings).ledger agentId markPrices
        now).records agentId).currentEquity =
          cashFlowEquity (t.records agentId).startingEquity (bookings.map (·.fill)) markPrices ↔
      (run (SleeveBooks.step method) .empty bookings).missed markPrices = 0 := by
  have hs : (run (SleeveBooks.step method) .empty bookings).Balanced agentId :=
    hrun.invariant (fun s b hs hb => hs.step hb) Balanced.empty
  have hfills : (run (SleeveBooks.step method) .empty bookings).fills =
      bookings.map (·.fill) := fills_run bookings .empty
  rw [← hfills] at hcov ⊢
  generalize run (SleeveBooks.step method) .empty bookings = s at *
  -- the tracker's sum over the lots, term by term
  have hcounted : s.ledger.total (countedPnl markPrices) =
      (s.ledger.total fun lot => (lot.qty - lot.remainingQty) * refPrice lot) -
        (s.ledger.total fun lot => lot.qty * lot.entryPrice) +
        (s.ledger.total fun lot => lot.remainingQty * markAt markPrices lot.symbol) -
        s.ledger.total (skippedPnl markPrices) := by
    change (s.ledger.allLots.map fun lot =>
      (lot.qty - lot.remainingQty) * refPrice lot - lot.qty * lot.entryPrice +
        lot.remainingQty * markAt markPrices lot.symbol - skippedPnl markPrices lot).sum = _
    rw [sum_map_sub, List.sum_map_add, sum_map_sub]
    rfl
  have hmissed : s.missed markPrices =
      (s.slices.map fun slice => slice.qty * slice.price).sum -
        (s.slices.map fun slice => slice.qty * refPriceOf s.ledger slice.lotId).sum +
        s.ledger.total (skippedPnl markPrices) := by
    simp only [missed, mul_sub]
    rw [sum_map_sub]
  have hmarks : ((s.fills.map fun fill => normalizeSymbol fill.symbol).dedup.map
      fun sym => openQty s.fills sym * markAt markPrices sym).sum =
        s.ledger.total fun lot => lot.remainingQty * markAt markPrices lot.symbol := by
    rw [hs.held, sum_openQty_mul s.fills (List.nodup_dedup _)]
    exact fun fill hfill => List.mem_dedup.mpr (List.mem_map_of_mem hfill)
  have hequity := AgentStateTracker.currentEquity_updateOnMark t s.ledger agentId markPrices now
  rw [add_assoc, hs.pnl_eq hcov, hcounted, hs.cost, ← hs.sum_refPrice] at hequity
  rw [hequity, cashFlowEquity, hmarks, ← hs.proceeds, hmissed]
  constructor <;> intro h <;> linarith

/-- A fill of Haiku's. -/
def haikuFill (id : FillId) (side : OrderSide) (qty price : Decimal) : Fill where
  id := id
  orderId := 0
  agentId := .haiku
  symbol := "AAPL"
  side := side
  qty := qty
  price := price
  timestamp := 0

/-- Marks at one hundred. -/
def hundredMark : Dict String Decimal := Dict.empty.set "AAPL" 100

/-- Ten shares bought at a hundred, and some sold at a hundred and ten. -/
def roundTrip (sold : Decimal) : List Booking :=
  [⟨haikuFill 1 .buy 10 100, 1⟩, ⟨haikuFill 2 .sell sold 110, 2⟩]

theorem along_roundTrip {sold : Decimal} (h : sold = 5 ∨ sold = 10) :
    Along (SleeveBooks.step .fifo) (Regular .fifo .haiku) .empty (roundTrip sold) := by
  have hbuy : Regular .fifo .haiku .empty ⟨haikuFill 1 .buy 10 100, 1⟩ :=
    ⟨rfl, by decide, by decide, by decide, by decide, by decide, by decide⟩
  refine ⟨hbuy, ?_, trivial⟩
  rcases h with rfl | rfl
  · exact ⟨rfl, by decide, by decide, by decide +kernel, by decide +kernel, by decide +kernel,
      by decide +kernel⟩
  · exact ⟨rfl, by decide, by decide, by decide +kernel, by decide +kernel, by decide +kernel,
      by decide +kernel⟩

theorem covers_roundTrip (sold : Decimal) :
    Covers hundredMark ((roundTrip sold).map (·.fill)) := by
  intro sym hsym
  by_cases h : normalizeSymbol "AAPL" = sym
  · subst h
    decide +kernel
  · exact absurd (by simp [openQty, roundTrip, haikuFill, h]) hsym

/-- Sold out at one price, nothing is missed. -/
theorem equity_eq_cashFlow_soldOut :
    (((AgentStateTracker.new 1000 false).updateOnMark
        (run (SleeveBooks.step .fifo) .empty (roundTrip 10)).ledger .haiku hundredMark
          0).records .haiku).currentEquity =
      cashFlowEquity 1000 ((roundTrip 10).map (·.fill)) hundredMark :=
  (equity_eq_cashFlow_iff (along_roundTrip (Or.inr rfl)) (covers_roundTrip 10)
    (.new 1000 false) 0).mpr (by decide +kernel)

/-- **A profit that is not there**: when five of the ten shares were sold at ten dollars more,
the tracker's equity has not moved. -/
theorem not_equity_eq_cashFlow : ¬∀ (bookings : List Booking) (markPrices : Dict String Decimal)
    (t : AgentStateTracker) (now : Time),
    Along (SleeveBooks.step .fifo) (Regular .fifo .haiku) .empty bookings →
      Covers markPrices (bookings.map (·.fill)) →
        ((t.updateOnMark (run (SleeveBooks.step .fifo) .empty bookings).ledger .haiku markPrices
            now).records .haiku).currentEquity =
          cashFlowEquity (t.records .haiku).startingEquity (bookings.map (·.fill)) markPrices := by
  intro hclaim
  have heq := hclaim (roundTrip 5) hundredMark (.new 1000 false) 0
    (along_roundTrip (Or.inl rfl)) (covers_roundTrip 5)
  exact absurd heq (by decide +kernel)

end Equity

end TradingPlatform
