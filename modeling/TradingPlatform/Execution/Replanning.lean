import TradingPlatform.Execution.InFlight
import TradingPlatform.Execution.PlannedOrder

/-!
# Planning the same intent again

Once an order is filled at the mark and booked, the holding is next to the target: off by what the
rounding lost, or by a residual that was written off, each worth less than a dollar. So planning the
same intent again comes to a reason. The exception is a target below zero, which a negative master
capability makes of any weight. A rebalancing then sells what is held and, planned again, sells
what it does not have: the cap on a sale is at what is held, and only where something is.

`TradingPlatform.replanning_settles_iff` says that this is the only exception.
-/

namespace TradingPlatform

/-- **A plan settles**: when it comes to an order, and the order is filled at the mark and booked,
the same plan comes to a reason. -/
def Settles (ledger : LotLedger) (settings : SizingSettings) (intent : Intent)
    (agentState : AgentState) (snapshot : MarketSnapshot) (mark : Decimal) : Prop :=
  ∀ (p p' : ExecutionPlanner) (orderId : OrderId) (now : Time) (order : Order),
    p.plan ledger settings intent agentState snapshot orderId now = .ok (p', .ok order) →
    ∀ (fillId : FillId) (lotId : LotId) (timestamp : Time) (method : LotMethod),
      fillId ∉ ledger.booked → lotId ∉ ledger.lots.keys →
      ∀ (orderId' : OrderId) (now' : Time), ∃ p'' reason,
        p'.plan (ledger.bookFill (order.fullFill mark fillId timestamp) lotId method) settings
          intent agentState snapshot orderId' now' = .ok (p'', .error reason)

/-- **The exception**: a rebalancing under a negative master capability, to a short position that
is worth an order. -/
def RebalancesShort (settings : SizingSettings) (intent : Intent) (agentState : AgentState)
    (snapshot : MarketSnapshot) : Prop :=
  intent.action = .rebalanceTo ∧ settings.masterCapability < 0 ∧
    Worthwhile agentState.sleeveEquity
      (volTargetedPositionValue intent.targetWeight agentState.sleeveEquity
        ((snapshot.realizedVol30d.get? (normalizeSymbol intent.symbol)).getD (8 / 100))
        (effectiveVolTarget intent.agentId settings))

instance (settings : SizingSettings) (intent : Intent) (agentState : AgentState)
    (snapshot : MarketSnapshot) : Decidable (RebalancesShort settings intent agentState snapshot) :=
  inferInstanceAs (Decidable (_ ∧ _))

section Again

variable {ledger ledger' : LotLedger} {effectiveGross volTarget mark : Decimal} {intent : Intent}
  {agentState : AgentState} {snapshot : MarketSnapshot}

/-- What is worth less than a dollar is not worth an order. -/
theorem not_worthwhile {equity difference : Decimal} (hlow : -minNotional < difference)
    (hhigh : difference < minNotional) : ¬Worthwhile equity difference :=
  fun hc => hc.2.not_gt (abs_lt.mpr ⟨hlow, hhigh⟩)

/-- Next to the target nothing is ordered. -/
theorem orderedQty_of_near (hexit : ¬intent.IsExit)
    (hnear : ¬Worthwhile agentState.sleeveEquity
      (targetNotional effectiveGross volTarget intent agentState snapshot -
        ledger.totalOpenQty intent.agentId (normalizeSymbol intent.symbol) * mark)) :
    orderedQty ledger effectiveGross volTarget intent agentState snapshot mark = 0 := by
  unfold orderedQty
  dsimp only
  rw [if_neg hexit]
  split_ifs with _ hadm
  · rfl
  · exact absurd hadm.2.2.2.1 hnear
  · rfl

/-- A target below zero is ordered by a rebalancing, whatever is held. -/
theorem orderedQty_of_short (hmark : 0 < mark)
    (hfine : mark * (1 / 10 ^ fractionalQtyDigits) < minNotional)
    (haction : intent.action = .rebalanceTo)
    (hheld : 0 ≤ ledger.totalOpenQty intent.agentId (normalizeSymbol intent.symbol))
    (hneg : targetNotional effectiveGross volTarget intent agentState snapshot < 0)
    (hworth : Worthwhile agentState.sleeveEquity
      (targetNotional effectiveGross volTarget intent agentState snapshot)) :
    orderedQty ledger effectiveGross volTarget intent agentState snapshot mark ≠ 0 := by
  have hexit : ¬intent.IsExit := by
    rintro (hc | hc)
    · exact absurd (haction.symm.trans hc) (by decide)
    · exact absurd (haction.symm.trans hc.1) (by decide)
  have hsell : intent.action ≠ .sell := by
    rw [haction]
    decide
  have hbuy : intent.action ≠ .buy := by
    rw [haction]
    decide
  unfold orderedQty
  dsimp only
  rw [if_neg hexit, if_neg fun hc => hsell hc.1]
  generalize targetNotional effectiveGross volTarget intent agentState snapshot = target
    at hneg hworth ⊢
  generalize ledger.totalOpenQty intent.agentId (normalizeSymbol intent.symbol) = held at hheld ⊢
  have hworthMarks : 0 ≤ held * mark := mul_nonneg hheld hmark.le
  have hdown : ¬0 < target - held * mark := by linarith
  have habs : |target - held * mark| = |target| + held * mark := by
    rw [abs_of_nonpos (not_lt.mp hdown), abs_of_neg hneg]
    ring
  -- a dollar is more than the rounding can lose
  have hunit : 1 / 10 ^ fractionalQtyDigits ≤ |target| / mark := by
    rw [le_div_iff₀ hmark, mul_comm]
    exact hfine.le.trans hworth.2
  have hmore : held < roundDown fractionalQtyDigits (|target - held * mark| / mark) := by
    refine lt_roundDown _ hheld ?_
    rw [habs, add_div, mul_div_cancel_right₀ _ hmark.ne', add_comm]
    exact add_le_add_left hunit held
  have hadm : Admitted ledger effectiveGross intent agentState snapshot mark
      (target - held * mark) := by
    refine ⟨fun hc => hbuy hc.1, fun hc => hsell hc.1, fun hc => hdown hc.1, ?_,
      hheld.trans_lt hmore⟩
    rw [Worthwhile, habs]
    exact ⟨hworth.1.trans (le_add_of_nonneg_right hworthMarks),
      hworth.2.trans (le_add_of_nonneg_right hworthMarks)⟩
  rw [if_pos hadm, tradedQty, if_neg hdown]
  split_ifs with hhas
  · rw [min_eq_right hmore.le]
    exact neg_ne_zero.mpr hhas.ne'
  · exact neg_ne_zero.mpr (hheld.trans_lt hmore).ne'

/-- **What a second plan orders**: nothing, but for a rebalancing to a target below zero. The
holding is what it was and what the first plan ordered, less a residual of a sale; a sale of more
than is held leaves it as it was. -/
theorem orderedQty_again {held held' target qty taken : Decimal} (hmark : 0 < mark)
    (hfine : mark * (1 / 10 ^ fractionalQtyDigits) < minNotional)
    (heq : ledger.totalOpenQty intent.agentId (normalizeSymbol intent.symbol) = held)
    (heq' : ledger'.totalOpenQty intent.agentId (normalizeSymbol intent.symbol) = held')
    (htarget : targetNotional effectiveGross volTarget intent agentState snapshot = target)
    (hqty : orderedQty ledger effectiveGross volTarget intent agentState snapshot mark = qty)
    (hheld : 0 ≤ held)
    (htaken : ¬0 < qty → |qty| ≤ held →
      |qty| ≤ taken ∧ (taken - |qty|) * mark < dustNotionalUsd ∧ taken ≤ held)
    (hafter : held' = held + if 0 < qty then qty else if |qty| ≤ held then -taken else 0)
    (hordered : qty ≠ 0)
    (hagain : orderedQty ledger' effectiveGross volTarget intent agentState snapshot mark ≠ 0) :
    intent.action = .rebalanceTo ∧ target < 0 ∧ Worthwhile agentState.sleeveEquity target := by
  have hdustLess : dustNotionalUsd < minNotional := by decide +kernel
  unfold orderedQty at hqty
  dsimp only at hqty
  rw [heq, htarget] at hqty
  by_cases hexit : intent.IsExit
  · -- an exit leaves nothing
    rw [if_pos hexit] at hqty
    split_ifs at hqty with hhas
    · have hdown : ¬0 < -held := not_lt.mpr (neg_nonpos.mpr hheld)
      rw [← hqty, abs_neg, abs_of_nonneg hheld] at htaken hafter
      rw [if_neg hdown, if_pos le_rfl] at hafter
      obtain ⟨hall, -, hmost⟩ := htaken hdown le_rfl
      rw [le_antisymm hmost hall, add_neg_cancel] at hafter
      refine absurd ?_ hagain
      unfold orderedQty
      dsimp only
      rw [if_pos hexit, heq', hafter, if_neg fun hc => lt_irrefl _ hc.1]
    · exact absurd hqty.symm hordered
  rw [if_neg hexit] at hqty
  have hnear : Worthwhile agentState.sleeveEquity (target - held' * mark) := by
    by_contra hc
    rw [← heq', ← htarget] at hc
    exact hagain (orderedQty_of_near hexit hc)
  have hnoSale : ¬(intent.action = .sell ∧ held' ≤ 0) := by
    intro hc
    refine hagain ?_
    unfold orderedQty
    dsimp only
    rw [if_neg hexit, heq', if_pos hc]
  split_ifs at hqty with hsome hadm
  · exact absurd hqty.symm hordered
  rotate_left
  · exact absurd hqty.symm hordered
  obtain ⟨hbuy, -, -, hworth, hrounds⟩ := hadm
  have habs := abs_tradedQty hheld hrounds
  have hpos := tradedQty_pos_iff hheld hrounds
  rw [hqty] at habs hpos
  have hratio : 0 ≤ |target - held * mark| / mark := div_nonneg (abs_nonneg _) hmark.le
  set rounded := roundDown fractionalQtyDigits (|target - held * mark| / mark)
  -- the rounding loses less than a dollar
  have hless : rounded * mark ≤ |target - held * mark| := by
    rw [← le_div_iff₀ hmark]
    exact roundDown_le _ hratio
  have hlost : |target - held * mark| < rounded * mark + minNotional := by
    have hunit := lt_roundDown_add fractionalQtyDigits hratio
    rw [div_lt_iff₀ hmark, add_mul] at hunit
    linarith
  have hdollar : (0 : Decimal) < minNotional := by norm_num [minNotional]
  by_cases hup : 0 < target - held * mark
  · -- a purchase comes close to the target from below
    rw [if_pos (hpos.mpr hup), ← abs_of_pos (hpos.mpr hup), habs, if_neg fun hc => hc.1 hup]
      at hafter
    rw [abs_of_pos hup] at hless hlost
    have hclose : target - held' * mark = target - held * mark - rounded * mark := by
      rw [hafter]
      ring
    exact absurd hnear (not_worthwhile (by linarith) (by linarith))
  have hdown : ¬0 < qty := fun hc => hup (hpos.mp hc)
  rw [if_neg hdown, habs] at hafter
  rw [habs] at htaken
  rw [abs_of_nonpos (not_lt.mp hup)] at hless hlost
  rcases hheld.eq_or_lt with hnone | hhas
  · -- nothing is held, and the sale changes nothing
    rw [← hnone, zero_mul, sub_zero] at hworth hup hbuy
    refine ⟨?_, lt_of_le_of_ne (not_lt.mp hup) hworth.ne_zero, hworth⟩
    cases haction : intent.action with
    | rebalanceTo => rfl
    | buy => exact absurd ⟨haction, not_lt.mp hup⟩ hbuy
    | sell => exact absurd ⟨haction, hnone.ge⟩ hsome
    | close => exact absurd (Or.inl haction) hexit
  have hsold : ¬0 < target - held * mark ∧ 0 < held := ⟨hup, hhas⟩
  rw [if_pos hsold] at hafter htaken
  obtain ⟨hall, hdust, hmost⟩ := htaken hdown (min_le_right _ _)
  rw [if_pos (min_le_right _ _)] at hafter
  rcases le_or_gt rounded held with hpart | hmore
  · -- a sale of a part comes close to the target from above
    rw [min_eq_left hpart] at hall hdust
    have hallMarks := mul_le_mul_of_nonneg_right hall hmark.le
    have hclose : target - held' * mark =
        target - held * mark + rounded * mark + (taken - rounded) * mark := by
      rw [hafter]
      ring
    have hresidual : 0 ≤ (taken - rounded) * mark :=
      mul_nonneg (sub_nonneg.mpr hall) hmark.le
    exact absurd hnear (not_worthwhile (by linarith) (by linarith))
  · -- all is sold, and the target is still below
    rw [min_eq_right hmore.le] at hall
    rw [le_antisymm hmost hall, add_neg_cancel] at hafter
    have hmarks := mul_lt_mul_of_pos_right hmore hmark
    rw [hafter, zero_mul, sub_zero] at hnear
    refine ⟨?_, by linarith, hnear⟩
    cases haction : intent.action with
    | rebalanceTo => rfl
    | buy => exact absurd ⟨haction, not_lt.mp hup⟩ hbuy
    | sell => exact absurd ⟨haction, hafter.le⟩ hnoSale
    | close => exact absurd (Or.inl haction) hexit

end Again

/-! ### When a target is below zero -/

theorem volTargetedPositionValue_nonpos {targetWeight agentEquity volTarget : Decimal}
    (hweight : 0 ≤ targetWeight) (hequity : 0 ≤ agentEquity) (h : volTarget ≤ 0)
    (realizedVolAnnual : Decimal) :
    volTargetedPositionValue targetWeight agentEquity realizedVolAnnual volTarget ≤ 0 := by
  have hfloor : 0 < max realizedVolAnnual volFloorAnnual :=
    lt_of_lt_of_le (by norm_num [volFloorAnnual]) (le_max_right _ _)
  have hmult : min (volTarget / max realizedVolAnnual volFloorAnnual) volTargetCapLeverage ≤ 0 :=
    (min_le_left _ _).trans (div_nonpos_of_nonpos_of_nonneg h hfloor.le)
  exact mul_nonpos_of_nonneg_of_nonpos (mul_nonneg hweight hequity) hmult

section Target

variable {settings : SizingSettings} {effectiveGross mark : Decimal} {intent : Intent}
  {agentState : AgentState} {snapshot : MarketSnapshot} {ledger : LotLedger}

/-- A target is below zero under a negative master capability, where the cap is zero. -/
theorem worthwhile_short_iff (hweight : 0 ≤ intent.targetWeight)
    (hequity : 0 < agentState.sleeveEquity)
    (hgross : effectiveMaxGross intent.agentId settings snapshot.vixBucket
      agentState.drawdownBucket = .ok effectiveGross) :
    intent.action = .rebalanceTo ∧
        targetNotional effectiveGross (effectiveVolTarget intent.agentId settings) intent agentState
          snapshot < 0 ∧
        Worthwhile agentState.sleeveEquity (targetNotional effectiveGross
          (effectiveVolTarget intent.agentId settings) intent agentState snapshot) ↔
      RebalancesShort settings intent agentState snapshot := by
  refine and_congr_right fun _ => ?_
  have hcap : 0 ≤ effectiveGross * agentState.sleeveEquity :=
    mul_nonneg (effectiveMaxGross_nonneg hgross) hequity.le
  have hbase := agentBaseVolTarget_pos intent.agentId
  have hvolTarget : effectiveVolTarget intent.agentId settings =
      agentBaseVolTarget intent.agentId * settings.masterCapability := rfl
  have hsign : settings.masterCapability < 0 ∨ 0 ≤ volTargetedPositionValue intent.targetWeight
      agentState.sleeveEquity
      ((snapshot.realizedVol30d.get? (normalizeSymbol intent.symbol)).getD (8 / 100))
      (effectiveVolTarget intent.agentId settings) := by
    refine (lt_or_ge settings.masterCapability 0).imp_right fun hmc => ?_
    refine volTargetedPositionValue_nonneg hequity.le (mul_nonneg hweight ?_) _
    exact hvolTarget ▸ mul_nonneg hbase.le hmc
  have hbelow : settings.masterCapability < 0 → volTargetedPositionValue intent.targetWeight
      agentState.sleeveEquity
      ((snapshot.realizedVol30d.get? (normalizeSymbol intent.symbol)).getD (8 / 100))
      (effectiveVolTarget intent.agentId settings) ≤ 0 := by
    intro hmc
    refine volTargetedPositionValue_nonpos hweight hequity.le ?_ _
    exact hvolTarget ▸ mul_nonpos_of_nonneg_of_nonpos hbase.le hmc.le
  unfold targetNotional
  generalize volTargetedPositionValue intent.targetWeight agentState.sleeveEquity
    ((snapshot.realizedVol30d.get? (normalizeSymbol intent.symbol)).getD (8 / 100))
    (effectiveVolTarget intent.agentId settings) = value at hsign hbelow ⊢
  constructor
  · rintro ⟨hneg, hworth⟩
    have hvalue : value < 0 := (min_lt_iff.mp hneg).resolve_right hcap.not_gt
    rw [min_eq_left (hvalue.le.trans hcap)] at hworth
    exact ⟨hsign.resolve_right hvalue.not_ge, hworth⟩
  · rintro ⟨hmc, hworth⟩
    rw [min_eq_left ((hbelow hmc).trans hcap)]
    exact ⟨lt_of_le_of_ne (hbelow hmc) hworth.ne_zero, hworth⟩

/-- Nothing is held short after an order was filled. -/
theorem longOnly_fullFill {order : Order} {qty : Decimal} {fillId : FillId}
    (hkeyed : ledger.Keyed) (hlong : ledger.LongOnly) (hfor : order.IsFor intent qty)
    (hnew : fillId ∉ ledger.booked) (price : Decimal) (lotId : LotId) (timestamp : Time)
    (method : LotMethod) :
    (ledger.bookFill (order.fullFill price fillId timestamp) lotId method).LongOnly := by
  have hqty : 0 ≤ order.qty := by
    rw [hfor.qty]
    exact abs_nonneg qty
  exact (LotLedger.LongOnly.bookFill lotId method hlong hkeyed hnew hqty).2

/-- **The exception does not settle.** -/
theorem RebalancesShort.not_settles (h : RebalancesShort settings intent agentState snapshot)
    (hkeyed : ledger.Keyed) (hlong : ledger.LongOnly) (hlegs : intent.legs = [])
    (hweight : 0 ≤ intent.targetWeight) (hequity : 0 < agentState.sleeveEquity)
    (hmark : snapshot.mark? (normalizeSymbol intent.symbol) = some mark)
    (hfine : mark * (1 / 10 ^ fractionalQtyDigits) < minNotional) :
    ¬Settles ledger settings intent agentState snapshot mark := by
  intro hsettles
  obtain ⟨effectiveGross, hgross⟩ : ∃ effectiveGross, effectiveMaxGross intent.agentId settings
      snapshot.vixBucket agentState.drawdownBucket = .ok effectiveGross := by
    have hrange : ¬maxMasterCapability < settings.masterCapability :=
      (h.2.1.trans (by norm_num [maxMasterCapability])).not_gt
    unfold effectiveMaxGross
    rw [if_neg hrange]
    exact ⟨_, rfl⟩
  obtain ⟨haction, hneg, hworth⟩ := (worthwhile_short_iff hweight hequity hgross).mpr h
  have hordered : ∀ {l : LotLedger}, l.LongOnly → orderedQty l effectiveGross
      (effectiveVolTarget intent.agentId settings) intent agentState snapshot mark ≠ 0 :=
    fun hl => orderedQty_of_short (mark_pos hmark) hfine haction (totalOpenQty_nonneg hl _ _) hneg
      hworth
  obtain ⟨p', result, hplan, ⟨hzero, -⟩ | ⟨-, order, rfl, hfor⟩⟩ :=
    ExecutionPlanner.plan_shares hlegs hequity hlong hmark hgross .new 0 0
  · exact hordered hlong hzero
  obtain ⟨fillId, hnew⟩ := Infinite.exists_notMem_finset ledger.booked.toFinset
  obtain ⟨lotId, hfresh⟩ := Infinite.exists_notMem_finset ledger.lots.keys.toFinset
  rw [List.mem_toFinset] at hnew hfresh
  obtain ⟨p'', reason, hreason⟩ := hsettles _ _ _ _ _ hplan fillId lotId 0 .fifo hnew hfresh 0 0
  have hlong' := longOnly_fullFill hkeyed hlong hfor hnew mark lotId 0 .fifo
  obtain ⟨p₂, result, hplan', ⟨hzero, -⟩ | ⟨-, order', rfl, -⟩⟩ :=
    ExecutionPlanner.plan_shares hlegs hequity hlong' hmark hgross p' 0 0
  · exact hordered hlong' hzero
  · rw [hplan'] at hreason
    cases hreason

/-- **When the planner does not churn**: a plan that was carried out settles, exactly unless it is a
rebalancing under a negative master capability to a short position that is worth an order. -/
theorem replanning_settles_iff (hkeyed : ledger.Keyed) (hlong : ledger.LongOnly)
    (hlegs : intent.legs = []) (hweight : 0 ≤ intent.targetWeight)
    (hequity : 0 < agentState.sleeveEquity)
    (hmark : snapshot.mark? (normalizeSymbol intent.symbol) = some mark)
    (hfine : mark * (1 / 10 ^ fractionalQtyDigits) < minNotional) (settings : SizingSettings) :
    Settles ledger settings intent agentState snapshot mark ↔
      ¬RebalancesShort settings intent agentState snapshot := by
  constructor
  · intro hsettles hshort
    exact hshort.not_settles hkeyed hlong hlegs hweight hequity hmark hfine hsettles
  intro hnot p p' orderId now order hplan fillId lotId timestamp method hnew hfresh orderId' now'
  obtain ⟨-, effectiveGross, -, -, hgross, -, -, -⟩ :=
    ExecutionPlanner.plan_ok hlegs hequity hplan
  obtain ⟨p₁, result, hplan₁, hresult⟩ :=
    ExecutionPlanner.plan_shares hlegs hequity hlong hmark hgross p orderId now
  rw [hplan, Except.ok.injEq, Prod.mk.injEq] at hplan₁
  obtain ⟨rfl, rfl⟩ := hplan₁
  rcases hresult with ⟨-, reason, hreason⟩ | ⟨hordered, order', horder, hfor⟩
  · cases hreason
  cases horder
  have hlong' := longOnly_fullFill hkeyed hlong hfor hnew mark lotId timestamp method
  obtain ⟨p₂, result, hplan', ⟨-, reason, rfl⟩ | ⟨hagain, -⟩⟩ :=
    ExecutionPlanner.plan_shares hlegs hequity hlong' hmark hgross p' orderId' now'
  · exact ⟨_, _, hplan'⟩
  refine absurd ((worthwhile_short_iff hweight hequity hgross).mp ?_) hnot
  refine orderedQty_again (mark_pos hmark) hfine rfl rfl rfl rfl (totalOpenQty_nonneg hlong _ _) ?_
    (LotLedger.totalOpenQty_fullFill hlong hkeyed hfor hnew hfresh mark timestamp) hordered hagain
  intro hdown hcovered
  exact LotLedger.takenOff_fullFill hlong hkeyed hfor hnew (not_lt.mp hdown) hcovered mark timestamp
    method

/-- A purchase of half a sleeve. -/
theorem settles_halfSleeve :
    Settles .empty ⟨1, .empty⟩ (FlightDesk.intentOf .buy "AAPL" (1 / 2))
      FlightDesk.thousandDesk.agentState FlightDesk.thousandDesk.snapshot 100 :=
  (replanning_settles_iff (fun _ _ h => absurd h (by simp [LotLedger.empty]))
    (fun _ h => absurd h List.not_mem_nil) rfl (by decide +kernel) (by decide +kernel)
    (by decide +kernel) (by decide +kernel) ⟨1, .empty⟩).mpr (by decide +kernel)

/-- Sonnet holds 10 shares of a symbol. -/
def tenShares (symbol : String) : LotLedger :=
  LotLedger.empty.bookFill ⟨1, 1, .sonnet, symbol, .buy, 10, 100, 0, 0, false⟩ 1 .fifo

/-- **A rebalancing that does not settle**: under a master capability of -1 half a sleeve is worth
the opposite of half a sleeve. The ten shares are sold, and then shares that nobody has. -/
theorem not_settles_tenShares :
    ¬Settles (tenShares "AAPL") ⟨-1, .empty⟩ (FlightDesk.intentOf .rebalanceTo "AAPL" (1 / 2))
      FlightDesk.thousandDesk.agentState FlightDesk.thousandDesk.snapshot 100 := by
  have hbought := @LotLedger.LongOnly.bookFill .empty
    ⟨1, 1, .sonnet, "AAPL", .buy, 10, 100, 0, 0, false⟩ 1 .fifo
    (fun _ h => absurd h List.not_mem_nil) (fun _ _ h => absurd h (by simp [LotLedger.empty]))
    List.not_mem_nil (by decide +kernel)
  exact RebalancesShort.not_settles (by decide +kernel) hbought.1 hbought.2 rfl (by decide +kernel)
    (by decide +kernel) (by decide +kernel) (by decide +kernel)

end Target

end TradingPlatform
