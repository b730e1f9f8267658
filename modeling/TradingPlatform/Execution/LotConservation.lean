import TradingPlatform.Execution.Lots
import TradingPlatform.Run

/-!
# What the fills bought and sold, and what the ledger holds

The ledger should hold of every symbol what was bought of it less what was sold, give or take
the dust: a residual worth less than a cent is snapped to zero when a sell leaves one, so with
every sell the ledger may fall short of the fills by that much
(`TradingPlatform.FillBooks.Conserves`).

A sell that asks for more than the ledger holds is another matter. It is noted as booked and
changes no lot, and after a snap that can be a sell of exactly what the fills left. So the ledger
keeps up with the fills as long as no sell asks for what was snapped away before, and falls
behind at the first that does (`TradingPlatform.FillBooks.conserves_run_iff`).
-/

namespace TradingPlatform

/-- What the fills leave an agent of a symbol in its canonical form: bought less sold. -/
def netOf (fills : List Fill) (agentId : AgentId) (sym : String) : Decimal :=
  (fills.map fun fill =>
    if fill.agentId = agentId ∧ normalizeSymbol fill.symbol = sym then fill.signedQty else 0).sum

/-- The sells of an agent in a symbol. -/
def sellsOf (fills : List Fill) (agentId : AgentId) (sym : String) : List Fill :=
  fills.filter fun fill =>
    fill.side = .sell ∧ fill.agentId = agentId ∧ normalizeSymbol fill.symbol = sym

/-- The ledger, the fills that were booked, and the sells among them that changed no lot. -/
structure FillBooks where
  ledger : LotLedger
  fills : List Fill
  dropped : List Fill

namespace FillBooks

def empty : FillBooks := ⟨.empty, [], []⟩

/-- Book a fill. -/
def step (method : LotMethod) (s : FillBooks) (b : Booking) : FillBooks :=
  let ledger := s.ledger.bookFill b.fill b.lotId method
  { ledger := ledger
    fills := s.fills ++ [b.fill]
    dropped := if b.fill.side = .sell ∧ ledger.allLots = s.ledger.allLots
      then s.dropped ++ [b.fill] else s.dropped }

/-- **A possible history**: fills of a positive quantity at a positive price, each under an
identifier of its own, that never sell more than was bought. -/
structure Covered (s : FillBooks) (b : Booking) : Prop where
  qty_pos : 0 < b.fill.qty
  price_pos : 0 < b.fill.price
  fresh_fill : b.fill.id ∉ s.fills.map (·.id)
  fresh_lot : b.lotId ∉ s.ledger.lots.keys
  covered : b.fill.side = .sell →
    b.fill.qty ≤ netOf s.fills b.fill.agentId (normalizeSymbol b.fill.symbol)

/-- **The condition**: a sell asks for no more than the ledger holds. -/
def Available (s : FillBooks) (b : Booking) : Prop :=
  b.fill.side = .sell → b.fill.qty ≤ s.ledger.totalOpenQty b.fill.agentId b.fill.symbol

/-- The ledger falls short of the fills by a residual of less than a cent for each sell. -/
def WrittenOff (fills : List Fill) (agentId : AgentId) (sym : String) (openQty : Decimal) : Prop :=
  ∃ residuals : List (Fill × Decimal), residuals.map Prod.fst = sellsOf fills agentId sym ∧
    (∀ p ∈ residuals, 0 ≤ p.2 ∧ p.2 * p.1.price < dustNotionalUsd) ∧
    openQty + (residuals.map Prod.snd).sum = netOf fills agentId sym

/-- **The ledger conserves what the fills left**: no sell was dropped, and what is open of a
symbol is what was bought of it less what was sold, but for the dust. -/
structure Conserves (s : FillBooks) : Prop where
  none_dropped : s.dropped = []
  writtenOff : ∀ agentId symbol, WrittenOff s.fills agentId (normalizeSymbol symbol)
    (s.ledger.totalOpenQty agentId symbol)

/-! ### What a lot is left with -/

/-- What a sell snaps away of a lot. -/
def residual (exitFill : Fill) (p : Lot × Decimal) : Decimal :=
  p.1.remainingQty - p.2 - (p.1.consume p.2 exitFill).remainingQty

/-- A lot that is sold out leaves no residual. -/
theorem residual_all (exitFill : Fill) (lot : Lot) :
    residual exitFill (lot, lot.remainingQty) = 0 := by
  simp [residual, Lot.consume]

/-- **A residual is dust.** -/
theorem residual_dust {exitFill : Fill} {p : Lot × Decimal} (h : p.2 ≤ p.1.remainingQty) :
    0 ≤ residual exitFill p ∧ residual exitFill p * exitFill.price < dustNotionalUsd := by
  rw [residual, Lot.consume]
  dsimp only
  split_ifs with hdust
  · rw [sub_zero]
    exact ⟨sub_nonneg.mpr h, hdust.2.2⟩
  · rw [sub_self, zero_mul]
    exact ⟨le_rfl, by decide +kernel⟩

/-- What remains of a lot is never negative. -/
theorem remainingQty_consume_nonneg {exitFill : Fill} {lot : Lot} {taken : Decimal}
    (h : taken ≤ lot.remainingQty) : 0 ≤ (lot.consume taken exitFill).remainingQty := by
  rw [Lot.consume]
  dsimp only
  split_ifs
  · exact le_rfl
  · exact sub_nonneg.mpr h

/-! ### The invariant -/

/-- What a lot counts towards the holding of an agent in a symbol. -/
def heldBy (agentId : AgentId) (sym : String) (lot : Lot) : Decimal :=
  if lot.agentId = agentId ∧ lot.symbol = sym then lot.remainingQty else 0

/-- **The invariant**: what is known of every lot, and the balance of every symbol. -/
structure Inv (s : FillBooks) : Prop where
  keyed : s.ledger.Keyed
  booked : s.ledger.booked = s.fills.map (·.id)
  remaining_nonneg : ∀ lot ∈ s.ledger.allLots, 0 ≤ lot.remainingQty
  closed_iff : ∀ lot ∈ s.ledger.allLots, lot.isClosed = true ↔ lot.remainingQty = 0
  none_dropped : s.dropped = []
  writtenOff : ∀ agentId sym, WrittenOff s.fills agentId sym (s.ledger.total (heldBy agentId sym))

theorem inv_empty : empty.Inv where
  keyed _ _ h := absurd h (by simp [empty, LotLedger.empty])
  booked := rfl
  remaining_nonneg _ h := absurd h List.not_mem_nil
  closed_iff _ h := absurd h List.not_mem_nil
  none_dropped := rfl
  writtenOff _ _ := ⟨[], rfl, by simp, add_zero _⟩

variable {s : FillBooks} {b : Booking} {method : LotMethod}

/-- What is open of a symbol is what the lots count towards it. -/
theorem Inv.totalOpenQty (hs : s.Inv) (agentId : AgentId) (symbol : String) :
    s.ledger.totalOpenQty agentId symbol =
      s.ledger.total (heldBy agentId (normalizeSymbol symbol)) := by
  have hsum : ∀ lots : List Lot, (∀ lot ∈ lots, lot.isClosed = true ↔ lot.remainingQty = 0) →
      ((lots.filter fun lot => lot.agentId = agentId ∧ lot.symbol = normalizeSymbol symbol ∧
        lot.isClosed = false).map (·.remainingQty)).sum =
          (lots.map (heldBy agentId (normalizeSymbol symbol))).sum := by
    intro lots hlots
    induction lots with
    | nil => rfl
    | cons lot lots ih =>
      have ih := ih fun lot' h => hlots lot' (List.mem_cons_of_mem _ h)
      have hclosed := hlots lot List.mem_cons_self
      rw [List.map_cons, List.sum_cons, ← ih, heldBy, List.filter_cons]
      cases hc : lot.isClosed with
      | true => simp [hclosed.mp hc]
      | false =>
        by_cases h : lot.agentId = agentId ∧ lot.symbol = normalizeSymbol symbol
        · simp [h]
        · rw [if_neg h, zero_add, if_neg]
          simpa using fun ha hsym => h ⟨ha, hsym⟩
  exact hsum _ hs.closed_iff

variable (method) in
/-- What a sell can consume is what the lots count towards its symbol. -/
theorem Inv.sum_candidates (hs : s.Inv) (agentId : AgentId) (sym : String) :
    ((s.ledger.candidates agentId sym method).map (·.remainingQty)).sum =
      s.ledger.total (heldBy agentId sym) := by
  rw [LotLedger.sum_candidates, LotLedger.total, LotLedger.total]
  refine congrArg List.sum (List.map_congr_left fun lot hlot => ?_)
  have hclosed := hs.closed_iff lot hlot
  rw [heldBy]
  rcases (hs.remaining_nonneg lot hlot).eq_or_lt with hzero | hpos
  · simp [← hzero]
  · have hopen : lot.isClosed = false := by
      rw [← Bool.not_eq_true, hclosed]
      exact hpos.ne'
    simp [hopen, hpos]

theorem Inv.conserves (hs : s.Inv) : s.Conserves := by
  refine ⟨hs.none_dropped, fun agentId symbol => ?_⟩
  rw [hs.totalOpenQty]
  exact hs.writtenOff agentId _

/-! ### One fill -/

theorem sellsOf_concat (fills : List Fill) (fill : Fill) (agentId : AgentId) (sym : String) :
    sellsOf (fills ++ [fill]) agentId sym = sellsOf fills agentId sym ++
      if fill.side = .sell ∧ fill.agentId = agentId ∧ normalizeSymbol fill.symbol = sym
      then [fill] else [] := by
  rw [sellsOf, List.filter_append, List.filter_singleton, ← sellsOf]
  simp only [Bool.cond_decide]

theorem netOf_concat (fills : List Fill) (fill : Fill) (agentId : AgentId) (sym : String) :
    netOf (fills ++ [fill]) agentId sym = netOf fills agentId sym +
      if fill.agentId = agentId ∧ normalizeSymbol fill.symbol = sym then fill.signedQty else 0 := by
  simp [netOf]

/-- A buy adds what it bought. -/
theorem Inv.buy (hs : s.Inv) (hb : s.Covered b) (hside : b.fill.side = .buy) :
    (s.step method b).Inv := by
  have hnew : b.fill.id ∉ s.ledger.booked := hs.booked ▸ hb.fresh_fill
  have hledger : (s.step method b).ledger =
      (s.ledger.markBooked b.fill.id).openLot b.fill b.lotId :=
    LotLedger.bookFill_of_buy hnew hside b.lotId
  have hfills : (s.step method b).fills = s.fills ++ [b.fill] := rfl
  have hlots : ∀ lot ∈ (s.step method b).ledger.allLots,
      lot = .ofFill b.fill b.lotId ∨ lot ∈ s.ledger.allLots := by
    intro lot hlot
    rw [hledger] at hlot
    exact LotLedger.mem_openLot b.fill hlot
  have hnotSell : ¬b.fill.side = .sell := by
    rw [hside]
    decide
  constructor
  case keyed =>
    rw [hledger]
    exact LotLedger.Keyed.openLot b.fill hs.keyed
  case booked =>
    rw [hledger, hfills, List.map_append, ← hs.booked]
    rfl
  case remaining_nonneg =>
    intro lot hlot
    rcases hlots lot hlot with rfl | hold
    · exact hb.qty_pos.le
    · exact hs.remaining_nonneg lot hold
  case closed_iff =>
    intro lot hlot
    rcases hlots lot hlot with rfl | hold
    · exact iff_of_false Bool.false_ne_true hb.qty_pos.ne'
    · exact hs.closed_iff lot hold
  case none_dropped => exact (if_neg fun hc => hnotSell hc.1).trans hs.none_dropped
  case writtenOff =>
    intro agentId sym
    obtain ⟨residuals, hsells, hdust, hsum⟩ := hs.writtenOff agentId sym
    refine ⟨residuals, ?_, hdust, ?_⟩
    · rw [hfills, sellsOf_concat, if_neg fun hc => hnotSell hc.1, List.append_nil, hsells]
    · have htotal : (s.step method b).ledger.total (heldBy agentId sym) =
          s.ledger.total (heldBy agentId sym) + heldBy agentId sym (.ofFill b.fill b.lotId) := by
        rw [hledger]
        exact LotLedger.total_openLot b.fill _ hb.fresh_lot
      rw [htotal, hfills, netOf_concat, ← hsum, Fill.signedQty, hside]
      exact add_right_comm _ _ _

/-- What a sell takes off a weight that sees all of each lot it consumes, or nothing: what was
sold, and the residuals. -/
theorem total_of_sells {l l' : LotLedger} {consumed : List (Lot × Decimal)} {fill : Fill}
    (hsells : l.Sells l' consumed fill) {w : Lot → Decimal} {c : Prop} [Decidable c]
    (hterm : ∀ p ∈ consumed, w (p.1.consume p.2 fill) - w p.1 =
      if c then -(p.2 + residual fill p) else 0) :
    l'.total w = l.total w -
      if c then (consumed.map Prod.snd).sum + (consumed.map (residual fill)).sum else 0 := by
  rw [hsells.total, sub_eq_add_neg, List.map_congr_left hterm]
  congr 1
  split_ifs
  · rw [← List.sum_map_add, List.sum_neg, List.map_map]
    rfl
  · simp

variable (method) in
/-- **A sell the ledger can meet** takes what it sold, and a residual. -/
theorem Inv.sells (hs : s.Inv) (hb : s.Covered b) (hside : b.fill.side = .sell)
    (hok : s.Available b) :
    ∃ snapped, (0 ≤ snapped ∧ snapped * b.fill.price < dustNotionalUsd) ∧
      (s.ledger.markBooked b.fill.id).Sells (s.step method b).ledger
        (s.ledger.consumption b.fill.agentId b.fill.symbol b.fill.qty method) b.fill ∧
      ∀ agentId sym, (s.step method b).ledger.total (heldBy agentId sym) =
        s.ledger.total (heldBy agentId sym) -
          if b.fill.agentId = agentId ∧ normalizeSymbol b.fill.symbol = sym
          then b.fill.qty + snapped else 0 := by
  have hnew : b.fill.id ∉ s.ledger.booked := hs.booked ▸ hb.fresh_fill
  have havail : b.fill.qty ≤ ((s.ledger.candidates b.fill.agentId
      (normalizeSymbol b.fill.symbol) method).map (·.remainingQty)).sum := by
    rw [hs.sum_candidates, ← hs.totalOpenQty]
    exact hok hside
  have hsells : (s.ledger.markBooked b.fill.id).Sells (s.step method b).ledger _ b.fill :=
    LotLedger.bookFill_of_sell hs.keyed hnew hside havail b.lotId
  have hsum := LotLedger.sum_consumption hb.qty_pos.le havail
  have hdust : ∀ p ∈ s.ledger.consumption b.fill.agentId b.fill.symbol b.fill.qty method,
      0 ≤ residual b.fill p ∧ residual b.fill p * b.fill.price < dustNotionalUsd :=
    fun p hp => residual_dust (LotLedger.of_mem_consumption hp).2.2
  generalize hconsumed : s.ledger.consumption b.fill.agentId b.fill.symbol b.fill.qty method =
    consumed at hsells hsum hdust ⊢
  refine ⟨(consumed.map (residual b.fill)).sum, ?_, hsells, fun agentId sym => ?_⟩
  · -- at most one lot is left with a part of what it had
    have hone := sum_map_allocate (residual b.fill) (residual_all b.fill)
      (s.ledger.candidates b.fill.agentId (normalizeSymbol b.fill.symbol) method) b.fill.qty
    rw [show allocate _ _ _ = consumed from hconsumed] at hone
    rcases hone with hzero | ⟨p, hp, heq⟩
    · rw [hzero, zero_mul]
      exact ⟨le_rfl, by decide +kernel⟩
    · rw [heq]
      exact hdust p hp
  · have hterm : ∀ p ∈ consumed,
        heldBy agentId sym (p.1.consume p.2 b.fill) - heldBy agentId sym p.1 =
          if b.fill.agentId = agentId ∧ normalizeSymbol b.fill.symbol = sym
          then -(p.2 + residual b.fill p) else 0 := by
      intro p hp
      obtain ⟨⟨-, ha, hsym, -⟩, -⟩ := LotLedger.of_mem_consumption (hconsumed ▸ hp)
      have hconsume : heldBy agentId sym (p.1.consume p.2 b.fill) =
          if p.1.agentId = agentId ∧ p.1.symbol = sym
          then (p.1.consume p.2 b.fill).remainingQty else 0 := rfl
      rw [hconsume, heldBy, ha, hsym, residual]
      split_ifs
      · ring
      · exact sub_zero 0
    rw [total_of_sells hsells hterm, hsum]
    rfl

/-- A sell the ledger can meet keeps the balance, but for the dust. -/
theorem Inv.sell (hs : s.Inv) (hb : s.Covered b) (hside : b.fill.side = .sell)
    (hok : s.Available b) : (s.step method b).Inv := by
  obtain ⟨snapped, ⟨hnonneg, hdust⟩, hsells, htotal⟩ := hs.sells method hb hside hok
  have hfills : (s.step method b).fills = s.fills ++ [b.fill] := rfl
  constructor
  case keyed => exact hsells.keyed
  case booked =>
    rw [hsells.booked, hfills, List.map_append, ← hs.booked]
    rfl
  case remaining_nonneg =>
    intro lot hlot
    rcases hsells.mem lot hlot with hold | ⟨p, hp, rfl⟩
    · exact hs.remaining_nonneg lot hold
    · exact remainingQty_consume_nonneg (LotLedger.of_mem_consumption hp).2.2
  case closed_iff =>
    intro lot hlot
    rcases hsells.mem lot hlot with hold | ⟨p, hp, rfl⟩
    · exact hs.closed_iff lot hold
    · exact decide_eq_true_iff
  case none_dropped =>
    refine (if_neg ?_).trans hs.none_dropped
    rintro ⟨-, hlots⟩
    -- the lots count for less than before
    have hless := htotal b.fill.agentId (normalizeSymbol b.fill.symbol)
    rw [if_pos ⟨rfl, rfl⟩, LotLedger.total, LotLedger.total] at hless
    rw [show (s.step method b).ledger.allLots = s.ledger.allLots from hlots] at hless
    have hpos := hb.qty_pos
    linarith
  case writtenOff =>
    intro agentId sym
    obtain ⟨residuals, hres, hall, hsum⟩ := hs.writtenOff agentId sym
    rw [htotal, hfills]
    by_cases h : b.fill.agentId = agentId ∧ normalizeSymbol b.fill.symbol = sym
    · refine ⟨residuals ++ [(b.fill, snapped)], ?_, ?_, ?_⟩
      · rw [sellsOf_concat, if_pos ⟨hside, h⟩, List.map_append, hres]
        rfl
      · rintro p hp
        rcases List.mem_append.mp hp with hp | hp
        · exact hall p hp
        · obtain rfl := List.mem_singleton.mp hp
          exact ⟨hnonneg, hdust⟩
      · rw [netOf_concat, if_pos h, if_pos h, ← hsum, Fill.signedQty, hside, List.map_append,
          List.sum_append]
        simp only [List.map_cons, List.map_nil, List.sum_cons, List.sum_nil]
        ring
    · refine ⟨residuals, ?_, hall, ?_⟩
      · rw [sellsOf_concat, if_neg fun hc => h hc.2, List.append_nil, hres]
      · rw [netOf_concat, if_neg h, if_neg h, sub_zero, add_zero, hsum]

theorem Inv.step (hs : s.Inv) (hb : s.Covered b) (hok : s.Available b) :
    (s.step method b).Inv := by
  cases hside : b.fill.side with
  | buy => exact hs.buy hb hside
  | sell => exact hs.sell hb hside hok

/-- **A sell that asks for more than there is changes no lot.** -/
theorem Inv.not_conserves (hs : s.Inv) (hb : s.Covered b) (hnot : ¬s.Available b) :
    ¬(s.step method b).Conserves := by
  rw [Available, Classical.not_imp, hs.totalOpenQty, ← hs.sum_candidates method,
    not_le] at hnot
  obtain ⟨hside, hmore⟩ := hnot
  have hnew : b.fill.id ∉ s.ledger.booked := hs.booked ▸ hb.fresh_fill
  have hledger : s.ledger.bookFill b.fill b.lotId method = s.ledger.markBooked b.fill.id :=
    LotLedger.bookFill_of_lt hnew hside hmore b.lotId
  intro hc
  have hdropped : (s.step method b).dropped = s.dropped ++ [b.fill] := by
    refine if_pos ⟨hside, ?_⟩
    rw [hledger]
    rfl
  rw [hc.none_dropped] at hdropped
  exact List.append_ne_nil_of_right_ne_nil _ (List.cons_ne_nil _ _) hdropped.symm

/-- **When no sale disappears.** In every history that never sells more than was bought, no
sell is dropped, and the ledger holds of every symbol what was bought less what was sold, up to a
residual of less than a cent for each sell, at every moment exactly if no sell asks for more than
the ledger holds when it is booked. -/
theorem conserves_run_iff {bookings : List Booking}
    (hcovered : Along (step method) Covered empty bookings) :
    (∀ pre, pre <+: bookings → (run (step method) empty pre).Conserves) ↔
      Along (step method) Available empty bookings :=
  forall_reached_iff_along_within (fun _ _ hs hb hok => hs.step hb hok) (fun _ hs => hs.conserves)
    (fun _ _ hs hb hnot => hs.not_conserves hb hnot) inv_empty hcovered

/-! ### A history that is conserved, and one that is not -/

instance (s : FillBooks) (b : Booking) : Decidable (s.Covered b) :=
  decidable_of_iff (0 < b.fill.qty ∧ 0 < b.fill.price ∧ b.fill.id ∉ s.fills.map (·.id) ∧
      b.lotId ∉ s.ledger.lots.keys ∧ (b.fill.side = .sell →
        b.fill.qty ≤ netOf s.fills b.fill.agentId (normalizeSymbol b.fill.symbol)))
    ⟨fun ⟨h₁, h₂, h₃, h₄, h₅⟩ => ⟨h₁, h₂, h₃, h₄, h₅⟩,
      fun ⟨h₁, h₂, h₃, h₄, h₅⟩ => ⟨h₁, h₂, h₃, h₄, h₅⟩⟩

instance (s : FillBooks) (b : Booking) : Decidable (s.Available b) :=
  inferInstanceAs (Decidable (_ → _))

/-- A fill at one dollar, and the lot it may open. -/
def dollarBooking (id : ℕ) (side : OrderSide) (qty : Decimal) : Booking where
  fill :=
    { id := id, orderId := id, agentId := .sonnet, symbol := "DOGE/USD", side := side, qty := qty,
      price := 1, timestamp := 0 }
  lotId := id

/-- A sell leaves half a cent of a lot, which is snapped away; then there is another lot. -/
def snapRun : List Booking :=
  [dollarBooking 1 .buy (1005 / 1000), dollarBooking 2 .sell 1, dollarBooking 3 .buy 2]

theorem conserves_snapRun :
    (run (step .fifo) empty (snapRun ++ [dollarBooking 4 .sell 2])).Conserves := by
  have hcovered : Along (step .fifo) Covered empty (snapRun ++ [dollarBooking 4 .sell 2]) := by
    decide +kernel
  exact (conserves_run_iff hcovered).mpr (by decide +kernel) _ (List.prefix_refl _)

/-- **A sale disappears**: after the snap a sell of all that the fills left asks for half a cent
more than there is. It is dropped, and the ledger goes on holding two shares. -/
theorem not_conserves_soldOutRun :
    Along (step .fifo) Covered empty (snapRun ++ [dollarBooking 4 .sell (2005 / 1000)]) ∧
      ¬(run (step .fifo) empty (snapRun ++ [dollarBooking 4 .sell (2005 / 1000)])).Conserves ∧
      netOf (run (step .fifo) empty
        (snapRun ++ [dollarBooking 4 .sell (2005 / 1000)])).fills .sonnet "DOGEUSD" = 0 ∧
      (run (step .fifo) empty
        (snapRun ++ [dollarBooking 4 .sell (2005 / 1000)])).ledger.totalOpenQty .sonnet
          "DOGE/USD" = 2 := by
  refine ⟨by decide +kernel, fun h => ?_, by decide +kernel, by decide +kernel⟩
  exact absurd h.none_dropped (by decide +kernel)

end FillBooks

end TradingPlatform
