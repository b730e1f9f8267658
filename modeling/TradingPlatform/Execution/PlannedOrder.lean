import TradingPlatform.Execution.Planner

/-!
# What the planner orders, and what is held afterwards

For shares with a mark, a plan comes to one number: the signed quantity of its order, which is zero
when there is none. `TradingPlatform.orderedQty` is that number, and
`TradingPlatform.ExecutionPlanner.plan_shares` says that the planner returns an order for it, or a
reason. Unlike `TradingPlatform.intendedTrade` it is exact: it says when there *is* an order, and
how many shares are lost to the rounding.

When the order is filled and booked, the ledger holds that much more or less – but for the residual
that a sale may leave of a lot, and for a sale of more than is held, which changes no lot.
-/

namespace TradingPlatform

/-! ### Rounding -/

section Rounding

variable (digits : ℕ) {q q' : Decimal}

theorem roundDown_mono (h : 0 ≤ q) (hle : q ≤ q') : roundDown digits q ≤ roundDown digits q' := by
  rw [roundDown, roundDown, if_pos h, if_pos (h.trans hle)]
  refine div_le_div_of_nonneg_right ?_ (by positivity)
  exact_mod_cast Int.floor_mono (mul_le_mul_of_nonneg_right hle (by positivity))

/-- Rounding loses less than one unit of the last digit. -/
theorem lt_roundDown_add (h : 0 ≤ q) : q < roundDown digits q + 1 / 10 ^ digits := by
  rw [roundDown, if_pos h, ← add_div, lt_div_iff₀ (by positivity)]
  exact Int.lt_floor_add_one (q * 10 ^ digits)

/-- What is more by a unit is more after the rounding. -/
theorem lt_roundDown (h : 0 ≤ q) (hle : q + 1 / 10 ^ digits ≤ q') : q < roundDown digits q' := by
  have hunit : (0 : Decimal) ≤ 1 / 10 ^ digits := by positivity
  have hlost := lt_roundDown_add digits (h.trans ((le_add_of_nonneg_right hunit).trans hle))
  linarith

end Rounding

/-! ### The quantity of an order -/

/-- The guards of the source let a difference to the target through. -/
def Admitted (ledger : LotLedger) (effectiveGross : Decimal) (intent : Intent)
    (agentState : AgentState) (snapshot : MarketSnapshot) (mark difference : Decimal) : Prop :=
  ¬(intent.action = .buy ∧ difference ≤ 0) ∧ ¬(intent.action = .sell ∧ 0 ≤ difference) ∧
    ¬(0 < difference ∧ effectiveGross * agentState.sleeveEquity <
      ledger.sleeveGrossNotional intent.agentId snapshot + difference) ∧
    Worthwhile agentState.sleeveEquity difference ∧
    0 < roundDown fractionalQtyDigits (|difference| / mark)

instance (ledger : LotLedger) (effectiveGross : Decimal) (intent : Intent)
    (agentState : AgentState) (snapshot : MarketSnapshot) (mark difference : Decimal) :
    Decidable (Admitted ledger effectiveGross intent agentState snapshot mark difference) :=
  inferInstanceAs (Decidable (_ ∧ _))

/-- How many shares an admitted difference buys or sells: of what is held, no more than that is
sold. -/
def tradedQty (held mark difference : Decimal) : Decimal :=
  if 0 < difference then roundDown fractionalQtyDigits (|difference| / mark)
  else if 0 < held then -min (roundDown fractionalQtyDigits (|difference| / mark)) held
  else -roundDown fractionalQtyDigits (|difference| / mark)

/-- **The signed quantity of the order** for shares with a mark, which is zero if there is none. -/
def orderedQty (ledger : LotLedger) (effectiveGross volTarget : Decimal) (intent : Intent)
    (agentState : AgentState) (snapshot : MarketSnapshot) (mark : Decimal) : Decimal :=
  let held := ledger.totalOpenQty intent.agentId (normalizeSymbol intent.symbol)
  let difference :=
    targetNotional effectiveGross volTarget intent agentState snapshot - held * mark
  if intent.IsExit then if 0 < held ∧ minNotional ≤ held * mark then -held else 0
  else if intent.action = .sell ∧ held ≤ 0 then 0
  else if Admitted ledger effectiveGross intent agentState snapshot mark difference
    then tradedQty held mark difference
  else 0

/-- An order is for a signed quantity of what an intent is about. -/
structure Order.IsFor (order : Order) (intent : Intent) (qty : Decimal) : Prop where
  agentId : order.agentId = intent.agentId
  symbol : order.symbol = normalizeSymbol intent.symbol
  side : order.side = if 0 < qty then .buy else .sell
  qty : order.qty = |qty|

theorem totalOpenQty_nonneg {ledger : LotLedger} (hlong : ledger.LongOnly) (agentId : AgentId)
    (symbol : String) : 0 ≤ ledger.totalOpenQty agentId symbol := by
  rw [LotLedger.totalOpenQty_eq]
  exact hlong.total_nonneg _ _

section Sizing

variable {ledger : LotLedger} {effectiveGross volTarget : Decimal} {intent : Intent}
  {agentState : AgentState} {snapshot : MarketSnapshot} {sized : SizedOrder} {mark : Decimal}

theorem tradedQty_pos_iff {held difference : Decimal} (hheld : 0 ≤ held)
    (hrounds : 0 < roundDown fractionalQtyDigits (|difference| / mark)) :
    0 < tradedQty held mark difference ↔ 0 < difference := by
  unfold tradedQty
  split_ifs with hup hhas
  · exact iff_of_true hrounds hup
  · exact iff_of_false (not_lt.mpr (neg_nonpos.mpr (le_min hrounds.le hheld))) hup
  · exact iff_of_false (not_lt.mpr (neg_nonpos.mpr hrounds.le)) hup

theorem abs_tradedQty {held difference : Decimal} (hheld : 0 ≤ held)
    (hrounds : 0 < roundDown fractionalQtyDigits (|difference| / mark)) :
    |tradedQty held mark difference| = if ¬0 < difference ∧ 0 < held
      then min (roundDown fractionalQtyDigits (|difference| / mark)) held
      else roundDown fractionalQtyDigits (|difference| / mark) := by
  unfold tradedQty
  by_cases hup : 0 < difference
  · rw [if_pos hup, if_neg fun hc => hc.1 hup, abs_of_pos hrounds]
  · rw [if_neg hup]
    by_cases hhas : 0 < held
    · rw [if_pos hhas, if_pos ⟨hup, hhas⟩, abs_neg, abs_of_nonneg (le_min hrounds.le hheld)]
    · rw [if_neg hhas, if_neg fun hc => hhas hc.2, abs_neg, abs_of_pos hrounds]

/-- An admitted difference is not zero. -/
theorem Worthwhile.ne_zero {equity difference : Decimal} (h : Worthwhile equity difference) :
    difference ≠ 0 := by
  rintro rfl
  exact absurd h.2 (by norm_num [minNotional])

theorem tradedQty_ne_zero {held difference : Decimal} (hheld : 0 ≤ held)
    (hrounds : 0 < roundDown fractionalQtyDigits (|difference| / mark)) :
    tradedQty held mark difference ≠ 0 := by
  rw [← abs_pos, abs_tradedQty hheld hrounds]
  split_ifs with hsold
  · exact lt_min hrounds hsold.2
  · exact hrounds

/-- **Sizing succeeds** on an admitted difference. -/
theorem exists_sizeOrder (hlegs : intent.legs = []) (hequity : 0 < agentState.sleeveEquity)
    (hmark : snapshot.mark? (normalizeSymbol intent.symbol) = some mark)
    (h : Admitted ledger effectiveGross intent agentState snapshot mark
      (targetNotional effectiveGross volTarget intent agentState snapshot -
        ledger.totalOpenQty intent.agentId (normalizeSymbol intent.symbol) * mark)) :
    ∃ sized, sizeOrder ledger effectiveGross volTarget intent agentState snapshot = .ok sized := by
  obtain ⟨hbuy, hsell, hfits, hworth, hrounds⟩ := h
  have hoptions : decide (intent.legs ≠ []) = false := decide_eq_false (not_not.mpr hlegs)
  unfold sizeOrder
  dsimp only
  rw [ite_eq_targetNotional, hoptions, hmark]
  simp only [Bool.false_eq_true, if_false, true_and]
  have hnear : ¬(0 < agentState.sleeveEquity ∧
      |targetNotional effectiveGross volTarget intent agentState snapshot -
        ledger.totalOpenQty intent.agentId (normalizeSymbol intent.symbol) * mark| /
          agentState.sleeveEquity < rebalanceBandPct) := by
    rintro ⟨-, hc⟩
    rw [div_lt_iff₀ hequity] at hc
    exact absurd hworth.1 hc.not_ge
  rw [if_neg hbuy, if_neg hsell, if_neg hnear, if_neg hfits, if_neg hworth.2.not_gt,
    if_neg hrounds.not_ge]
  exact ⟨_, rfl⟩

/-- **What sizing comes to**: an order for the traded quantity if the difference is admitted, and a
reason otherwise. -/
theorem sizeOrder_admitted (hlegs : intent.legs = []) (hclose : intent.action ≠ .close)
    (hequity : 0 < agentState.sleeveEquity) (hlong : ledger.LongOnly)
    (hmark : snapshot.mark? (normalizeSymbol intent.symbol) = some mark)
    (h : Admitted ledger effectiveGross intent agentState snapshot mark
      (targetNotional effectiveGross volTarget intent agentState snapshot -
        ledger.totalOpenQty intent.agentId (normalizeSymbol intent.symbol) * mark)) :
    ∃ sized, sizeOrder ledger effectiveGross volTarget intent agentState snapshot = .ok sized ∧
      ∀ orderId now, (ExecutionPlanner.orderFor intent sized orderId now).IsFor intent
        (tradedQty (ledger.totalOpenQty intent.agentId (normalizeSymbol intent.symbol)) mark
          (targetNotional effectiveGross volTarget intent agentState snapshot -
            ledger.totalOpenQty intent.agentId (normalizeSymbol intent.symbol) * mark)) := by
  have hheld := totalOpenQty_nonneg hlong intent.agentId (normalizeSymbol intent.symbol)
  obtain ⟨sized, hsized⟩ := exists_sizeOrder hlegs hequity hmark h
  obtain ⟨mark', held, difference, hmark', rfl, rfl, -, -, -, -, hrounds, hside, hqty⟩ :=
    sizeOrder_cases hlegs hclose hequity hsized
  rw [hmark, Option.some.injEq] at hmark'
  subst hmark'
  refine ⟨sized, hsized, fun orderId now => ?_⟩
  constructor
  case agentId => rfl
  case symbol => rfl
  case side => exact hside.trans (if_congr (tradedQty_pos_iff hheld hrounds).symm rfl rfl)
  case qty => exact hqty.trans (abs_tradedQty hheld hrounds).symm

/-- A difference that is not admitted comes to no order. -/
theorem admitted_of_sizeOrder (hlegs : intent.legs = []) (hclose : intent.action ≠ .close)
    (hequity : 0 < agentState.sleeveEquity)
    (hmark : snapshot.mark? (normalizeSymbol intent.symbol) = some mark)
    (h : sizeOrder ledger effectiveGross volTarget intent agentState snapshot = .ok sized) :
    Admitted ledger effectiveGross intent agentState snapshot mark
      (targetNotional effectiveGross volTarget intent agentState snapshot -
        ledger.totalOpenQty intent.agentId (normalizeSymbol intent.symbol) * mark) := by
  obtain ⟨mark', held, difference, hmark', rfl, rfl, hbuy, hsell, hfits, hworth, hrounds, -, -⟩ :=
    sizeOrder_cases hlegs hclose hequity h
  rw [hmark, Option.some.injEq] at hmark'
  subst hmark'
  exact ⟨hbuy, hsell, hfits, hworth, hrounds⟩

end Sizing

/-! ### The plan -/

namespace ExecutionPlanner

variable {ledger : LotLedger} {settings : SizingSettings} {intent : Intent}
  {agentState : AgentState} {snapshot : MarketSnapshot} {effectiveGross mark : Decimal}

/-- A result of planning is for a signed quantity: an order for it, or a reason if it is zero. -/
def ResultFor (intent : Intent) (qty : Decimal) (result : PlanResult) : Prop :=
  (qty = 0 ∧ ∃ reason, result = .error reason) ∨
    (qty ≠ 0 ∧ ∃ order, result = .ok order ∧ order.IsFor intent qty)

/-- An exit is for what is held, if that is worth a dollar. -/
theorem planClose_shares (hexit : intent.IsExit)
    (hmark : snapshot.mark? (normalizeSymbol intent.symbol) = some mark)
    (hgross : effectiveMaxGross intent.agentId settings snapshot.vixBucket
      agentState.drawdownBucket = .ok effectiveGross)
    (p : ExecutionPlanner) (orderId : OrderId) (now : Time) :
    ∃ p' result, p.planClose ledger settings intent agentState snapshot orderId now =
        .ok (p', result) ∧
      ResultFor intent (orderedQty ledger effectiveGross
        (effectiveVolTarget intent.agentId settings) intent agentState snapshot mark) result := by
  have hqty : orderedQty ledger effectiveGross (effectiveVolTarget intent.agentId settings) intent
      agentState snapshot mark =
        if 0 < ledger.totalOpenQty intent.agentId (normalizeSymbol intent.symbol) ∧ minNotional ≤
          ledger.totalOpenQty intent.agentId (normalizeSymbol intent.symbol) * mark
        then -ledger.totalOpenQty intent.agentId (normalizeSymbol intent.symbol) else 0 := by
    rw [orderedQty]
    exact if_pos hexit
  unfold planClose
  dsimp only
  rw [hqty, hmark, hgross]
  generalize ledger.totalOpenQty intent.agentId (normalizeSymbol intent.symbol) = held
  by_cases hnone : held ≤ 0
  · rw [if_pos hnone, if_neg fun hc => hc.1.not_ge hnone]
    exact ⟨_, _, rfl, Or.inl ⟨rfl, _, rfl⟩⟩
  rw [if_neg hnone]
  dsimp only
  by_cases hsmall : held * mark < minNotional
  · rw [if_pos hsmall, if_neg fun hc => hc.2.not_gt hsmall]
    exact ⟨_, _, rfl, Or.inl ⟨rfl, _, rfl⟩⟩
  rw [if_neg hsmall, if_pos ⟨not_le.mp hnone, not_lt.mp hsmall⟩]
  have hheld : 0 < held := not_le.mp hnone
  refine ⟨_, _, rfl, Or.inr ⟨neg_ne_zero.mpr hheld.ne', _, rfl, ?_⟩⟩
  constructor
  case agentId => rfl
  case symbol => rfl
  case side => exact (if_neg (not_lt.mpr (neg_nonpos.mpr hheld.le))).symm
  case qty => exact (abs_neg held ▸ abs_of_pos hheld).symm

/-- **What the planner orders**, for shares with a mark. -/
theorem plan_shares (hlegs : intent.legs = []) (hequity : 0 < agentState.sleeveEquity)
    (hlong : ledger.LongOnly)
    (hmark : snapshot.mark? (normalizeSymbol intent.symbol) = some mark)
    (hgross : effectiveMaxGross intent.agentId settings snapshot.vixBucket
      agentState.drawdownBucket = .ok effectiveGross)
    (p : ExecutionPlanner) (orderId : OrderId) (now : Time) :
    ∃ p' result, p.plan ledger settings intent agentState snapshot orderId now =
        .ok (p', result) ∧
      ResultFor intent (orderedQty ledger effectiveGross
        (effectiveVolTarget intent.agentId settings) intent agentState snapshot mark) result := by
  unfold plan
  by_cases hexit : intent.IsExit
  · rw [if_pos (by exact hexit)]
    exact planClose_shares hexit hmark hgross p orderId now
  rw [if_neg (by exact hexit), hgross]
  unfold orderedQty
  dsimp only [Except.map]
  rw [if_neg hexit]
  by_cases hnone : intent.action = .sell ∧
    ledger.totalOpenQty intent.agentId (normalizeSymbol intent.symbol) ≤ 0
  · rw [if_pos hnone, if_pos hnone]
    exact ⟨_, _, rfl, Or.inl ⟨rfl, _, rfl⟩⟩
  rw [if_neg hnone, if_neg hnone]
  have hclose : intent.action ≠ .close := fun hc => hexit (Or.inl hc)
  by_cases hadm : Admitted ledger effectiveGross intent agentState snapshot mark
    (targetNotional effectiveGross (effectiveVolTarget intent.agentId settings) intent agentState
      snapshot - ledger.totalOpenQty intent.agentId (normalizeSymbol intent.symbol) * mark)
  · obtain ⟨sized, hsized, hfor⟩ := sizeOrder_admitted hlegs hclose hequity hlong hmark hadm
    have hheld := totalOpenQty_nonneg hlong intent.agentId (normalizeSymbol intent.symbol)
    rw [hsized, if_pos hadm]
    obtain ⟨-, -, -, -, hrounds⟩ := hadm
    exact ⟨_, _, rfl, Or.inr ⟨tradedQty_ne_zero hheld hrounds, _, rfl, hfor orderId now⟩⟩
  · rw [if_neg hadm]
    rcases hsized : sizeOrder ledger effectiveGross (effectiveVolTarget intent.agentId settings)
      intent agentState snapshot with reason | sized
    · exact ⟨_, _, rfl, Or.inl ⟨rfl, _, rfl⟩⟩
    · exact absurd (admitted_of_sizeOrder hlegs hclose hequity hmark hsized) hadm

end ExecutionPlanner

/-! ### The order is filled and booked -/

/-- The fill of a whole order at a price. -/
def Order.fullFill (order : Order) (price : Decimal) (fillId : FillId) (timestamp : Time) :
    Fill where
  id := fillId
  orderId := order.id
  agentId := order.agentId
  symbol := order.symbol
  side := order.side
  qty := order.qty
  price := price
  timestamp := timestamp

namespace LotLedger

variable {l l' : LotLedger} {agentId : AgentId} {sym : String} {qty : Decimal} {fill : Fill}
  {lotId : LotId} {method : LotMethod}

/-- The holding that moves. -/
theorem Moves.totalOpenQty (h : l.Moves l' agentId (normalizeSymbol sym) qty) :
    l'.totalOpenQty agentId sym = l.totalOpenQty agentId sym + qty := by
  rw [totalOpenQty_eq, totalOpenQty_eq, h.total, if_pos rfl]

/-- What a sale takes off the lots: what was sold, and a residual. -/
def takenOff (l : LotLedger) (fill : Fill) (method : LotMethod) : Decimal :=
  ((l.consumption fill.agentId fill.symbol fill.qty method).map fun p =>
    p.2 + FillBooks.residual fill p).sum

theorem takenOff_eq (hl : l.LongOnly) (hqty : 0 ≤ fill.qty)
    (havail : fill.qty ≤ l.totalOpenQty fill.agentId fill.symbol) (method : LotMethod) :
    l.takenOff fill method = fill.qty +
      ((l.consumption fill.agentId fill.symbol fill.qty method).map
        (FillBooks.residual fill)).sum := by
  rw [← hl.sum_candidates _ _ method] at havail
  have hsum := sum_consumption hqty havail
  rw [takenOff, List.sum_map_add, hsum]

/-- **A residual is worth less than a cent**, and nothing less than what was sold is taken off. -/
theorem takenOff_dust (hl : l.LongOnly) (hqty : 0 ≤ fill.qty)
    (havail : fill.qty ≤ l.totalOpenQty fill.agentId fill.symbol) (method : LotMethod) :
    fill.qty ≤ l.takenOff fill method ∧
      (l.takenOff fill method - fill.qty) * fill.price < dustNotionalUsd := by
  rw [takenOff_eq hl hqty havail, add_sub_cancel_left]
  have hdust : ∀ p ∈ l.consumption fill.agentId fill.symbol fill.qty method,
      0 ≤ FillBooks.residual fill p ∧ FillBooks.residual fill p * fill.price < dustNotionalUsd :=
    fun p hp => FillBooks.residual_dust (of_mem_consumption hp).2.2
  rcases sum_map_allocate (FillBooks.residual fill) (FillBooks.residual_all fill)
    (l.candidates fill.agentId (normalizeSymbol fill.symbol) method) fill.qty with
      hzero | ⟨p, hp, heq⟩
  · rw [show ((l.consumption fill.agentId fill.symbol fill.qty method).map
      (FillBooks.residual fill)).sum = 0 from hzero, add_zero, zero_mul]
    exact ⟨le_rfl, by decide +kernel⟩
  · rw [show ((l.consumption fill.agentId fill.symbol fill.qty method).map
      (FillBooks.residual fill)).sum = _ from heq]
    exact ⟨le_add_of_nonneg_right (hdust p hp).1, (hdust p hp).2⟩

/-- A sale takes off no more than there is. -/
theorem takenOff_le (hl : l.LongOnly) (hkeyed : l.Keyed) (hnew : fill.id ∉ l.booked)
    (hside : fill.side = .sell) (hqty : 0 ≤ fill.qty)
    (havail : fill.qty ≤ l.totalOpenQty fill.agentId fill.symbol) (lotId : LotId)
    (method : LotMethod) : l.takenOff fill method ≤ l.totalOpenQty fill.agentId fill.symbol := by
  have hmoves := (moves_sell_of_le lotId method hl hkeyed hnew hside hqty havail).totalOpenQty
  have hlong := (LongOnly.bookFill lotId method hl hkeyed hnew hqty).2
  rw [← takenOff_eq hl hqty havail] at hmoves
  have hleft : 0 ≤ (l.bookFill fill lotId method).totalOpenQty fill.agentId fill.symbol := by
    rw [totalOpenQty_eq]
    exact hlong.total_nonneg _ _
  linarith

/-- **What is held after a fill**: a purchase adds to it, a sale of what there is takes off it, and
a sale of more than there is changes nothing. -/
theorem totalOpenQty_bookFill (hl : l.LongOnly) (hkeyed : l.Keyed) (hnew : fill.id ∉ l.booked)
    (hfresh : lotId ∉ l.lots.keys) (hqty : 0 ≤ fill.qty) :
    (l.bookFill fill lotId method).totalOpenQty fill.agentId fill.symbol =
      l.totalOpenQty fill.agentId fill.symbol +
        if fill.side = .buy then fill.qty
        else if fill.qty ≤ l.totalOpenQty fill.agentId fill.symbol then -l.takenOff fill method
        else 0 := by
  cases hside : fill.side with
  | buy =>
    rw [if_pos rfl]
    exact (moves_buy hnew hfresh hside).totalOpenQty
  | sell =>
    rw [if_neg (by decide)]
    split_ifs with havail
    · rw [takenOff_eq hl hqty havail]
      exact (moves_sell_of_le lotId method hl hkeyed hnew hside hqty havail).totalOpenQty
    · exact (moves_sell_of_lt lotId method hl hnew hside (not_le.mp havail)).totalOpenQty

/-- What is held after an order was filled. -/
theorem totalOpenQty_fullFill {order : Order} {intent : Intent} (hl : l.LongOnly)
    (hkeyed : l.Keyed) (hfor : order.IsFor intent qty) {fillId : FillId}
    (hnew : fillId ∉ l.booked) (hfresh : lotId ∉ l.lots.keys) (price : Decimal)
    (timestamp : Time) :
    (l.bookFill (order.fullFill price fillId timestamp) lotId method).totalOpenQty intent.agentId
        (normalizeSymbol intent.symbol) =
      l.totalOpenQty intent.agentId (normalizeSymbol intent.symbol) +
        if 0 < qty then qty
        else if |qty| ≤ l.totalOpenQty intent.agentId (normalizeSymbol intent.symbol)
          then -l.takenOff (order.fullFill price fillId timestamp) method
        else 0 := by
  have hfill : 0 ≤ order.qty := by
    rw [hfor.qty]
    exact abs_nonneg qty
  have hheld := @totalOpenQty_bookFill l (order.fullFill price fillId timestamp) lotId method hl
    hkeyed hnew hfresh hfill
  have hside : (order.fullFill price fillId timestamp).side = .buy ↔ 0 < qty := by
    change order.side = .buy ↔ 0 < qty
    rw [hfor.side]
    split_ifs with hpos
    · exact iff_of_true rfl hpos
    · exact iff_of_false (by decide) hpos
  change (l.bookFill _ lotId method).totalOpenQty order.agentId order.symbol =
    l.totalOpenQty order.agentId order.symbol +
      if _ then order.qty else if order.qty ≤ l.totalOpenQty order.agentId order.symbol
        then _ else 0 at hheld
  rw [hfor.agentId, hfor.symbol, hfor.qty] at hheld
  rw [hheld, if_congr hside rfl rfl]
  congr 1
  split_ifs with hpos
  · exact abs_of_pos hpos
  · rfl
  · rfl

/-- What a sale of what is held takes off, when an order for it was filled. -/
theorem takenOff_fullFill {order : Order} {intent : Intent} (hl : l.LongOnly)
    (hkeyed : l.Keyed) (hfor : order.IsFor intent qty) {fillId : FillId}
    (hnew : fillId ∉ l.booked) (hsold : qty ≤ 0)
    (havail : |qty| ≤ l.totalOpenQty intent.agentId (normalizeSymbol intent.symbol))
    (price : Decimal) (timestamp : Time) (method : LotMethod) :
    |qty| ≤ l.takenOff (order.fullFill price fillId timestamp) method ∧
      (l.takenOff (order.fullFill price fillId timestamp) method - |qty|) * price <
        dustNotionalUsd ∧
      l.takenOff (order.fullFill price fillId timestamp) method ≤
        l.totalOpenQty intent.agentId (normalizeSymbol intent.symbol) := by
  have hside : (order.fullFill price fillId timestamp).side = .sell :=
    hfor.side.trans (if_neg hsold.not_gt)
  rw [← hfor.qty] at havail ⊢
  rw [← hfor.agentId, ← hfor.symbol] at havail ⊢
  have hqty : 0 ≤ (order.fullFill price fillId timestamp).qty := by
    change 0 ≤ order.qty
    rw [hfor.qty]
    exact abs_nonneg qty
  obtain ⟨hall, hdust⟩ := takenOff_dust hl hqty havail method
  exact ⟨hall, hdust, takenOff_le hl hkeyed hnew hside hqty havail 0 method⟩

end LotLedger

end TradingPlatform
