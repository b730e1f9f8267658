import TradingPlatform.Execution.InFlight
import TradingPlatform.Execution.PlannedOrder

/-!
# More risk aversion, no bigger position

Four factors scale the risk down: the bucket of the volatility index, the bucket of the agent's
drawdown, the master capability and the weight of its sleeve. All of them are in the cap on the
gross exposure, and the master capability is in the volatility target too. So with less of them the
target is no higher (`TradingPlatform.RiskFactors.targetNotional_le`), and neither is the difference
to what is held.

That alone does not decide who buys: a purchase is given up where the whole sleeve would be above
its cap, and a lower target might fit where a higher one does not. It never does. The room between
the target and the cap shrinks with the factors (`TradingPlatform.RiskFactors.room_le`): the cap is
proportional to the master capability at least, and the target at most. So who buys with less buys
with more, who sells with more sells with less, and the position is no bigger:
`TradingPlatform.RiskFactors.heldAfter_le`.
-/

namespace TradingPlatform

/-- What scales the risk of an agent. -/
structure RiskFactors where
  settings : SizingSettings
  vixBucket : VixBucket
  drawdownBucket : DrawdownBucket

/-- What is held once a plan was carried out: its order, if there is one, is filled at a price and
booked. -/
def heldAfter (ledger : LotLedger) (intent : Intent) (method : LotMethod) (price : Decimal)
    (fillId : FillId) (lotId : LotId) (timestamp : Time) : PlanResult → Decimal
  | .error _ => ledger.totalOpenQty intent.agentId (normalizeSymbol intent.symbol)
  | .ok order =>
    (ledger.bookFill (order.fullFill price fillId timestamp) lotId method).totalOpenQty
      intent.agentId (normalizeSymbol intent.symbol)

/-- What a plan changes where shares may be sold short. -/
def netOrdered : PlanResult → Decimal
  | .error _ => 0
  | .ok order => if order.side = .buy then order.qty else -order.qty

namespace RiskFactors

/-- The weight of an agent's sleeve. -/
def sleeveWeight (r : RiskFactors) (agentId : AgentId) : Decimal :=
  (r.settings.sleeveWeights.get? agentId).getD 1

/-- **More averse to risk**: no factor is higher. -/
structure MoreAverse (agentId : AgentId) (r' r : RiskFactors) : Prop where
  masterCapability : r'.settings.masterCapability ≤ r.settings.masterCapability
  vixBucket : vixScalars r'.vixBucket ≤ vixScalars r.vixBucket
  drawdownBucket : drawdownScalars r'.drawdownBucket ≤ drawdownScalars r.drawdownBucket
  sleeveWeight : r'.sleeveWeight agentId ≤ r.sleeveWeight agentId

/-- The plan under some factors. -/
def plan (r : RiskFactors) (p : ExecutionPlanner) (ledger : LotLedger) (intent : Intent)
    (agentState : AgentState) (snapshot : MarketSnapshot) (orderId : OrderId) (now : Time) :
    Except MasterCapabilityError (ExecutionPlanner × PlanResult) :=
  p.plan ledger r.settings intent { agentState with drawdownBucket := r.drawdownBucket }
    { snapshot with vixBucket := r.vixBucket } orderId now

/-! ### The cap, the target, and the room between them -/

/-- The cap under some factors. -/
def effectiveGross (r : RiskFactors) (agentId : AgentId) : Decimal :=
  max (agentBaseMaxGross agentId * r.settings.masterCapability * vixScalars r.vixBucket *
    drawdownScalars r.drawdownBucket * max (25 / 100) (min 2 (r.sleeveWeight agentId))) 0

/-- The factors of the cap but for the master capability. -/
def otherFactors (r : RiskFactors) (agentId : AgentId) : Decimal :=
  agentBaseMaxGross agentId * vixScalars r.vixBucket * drawdownScalars r.drawdownBucket *
    max (25 / 100) (min 2 (r.sleeveWeight agentId))

variable {r r' : RiskFactors} {agentId : AgentId}

theorem effectiveMaxGross_eq (hrange : r.settings.masterCapability ≤ maxMasterCapability)
    (agentId : AgentId) :
    effectiveMaxGross agentId r.settings r.vixBucket r.drawdownBucket =
      .ok (r.effectiveGross agentId) :=
  if_neg hrange.not_gt

theorem effectiveGross_eq (r : RiskFactors) (agentId : AgentId) :
    r.effectiveGross agentId = max (r.settings.masterCapability * r.otherFactors agentId) 0 := by
  rw [effectiveGross, otherFactors]
  congr 1
  ring

theorem clamp_pos (weight : Decimal) : (0 : Decimal) < max (25 / 100) (min 2 weight) :=
  lt_of_lt_of_le (by norm_num) (le_max_left _ _)

theorem otherFactors_nonneg (r : RiskFactors) (agentId : AgentId) : 0 ≤ r.otherFactors agentId :=
  mul_nonneg (mul_nonneg (mul_nonneg (agentBaseMaxGross_pos agentId).le (vixScalars_nonneg _))
    (drawdownScalars_nonneg _)) (clamp_pos _).le

theorem MoreAverse.otherFactors_le (h : MoreAverse agentId r' r) :
    r'.otherFactors agentId ≤ r.otherFactors agentId := by
  have hbase := (agentBaseMaxGross_pos agentId).le
  refine mul_le_mul (mul_le_mul (mul_le_mul_of_nonneg_left h.vixBucket hbase) h.drawdownBucket
    (drawdownScalars_nonneg _) (mul_nonneg hbase (vixScalars_nonneg _)))
    (max_le_max_left _ (min_le_min_left _ h.sleeveWeight)) (clamp_pos _).le ?_
  exact mul_nonneg (mul_nonneg hbase (vixScalars_nonneg _)) (drawdownScalars_nonneg _)

/-- The cap is no higher. -/
theorem MoreAverse.effectiveGross_le (h : MoreAverse agentId r' r) :
    r'.effectiveGross agentId ≤ r.effectiveGross agentId := by
  rw [effectiveGross_eq, effectiveGross_eq]
  rcases le_total 0 r'.settings.masterCapability with hmc | hmc
  · exact max_le_max_right _ (mul_le_mul h.masterCapability h.otherFactors_le
      (r'.otherFactors_nonneg agentId) (hmc.trans h.masterCapability))
  · rw [max_eq_right (mul_nonpos_of_nonpos_of_nonneg hmc (r'.otherFactors_nonneg agentId))]
    exact le_max_right _ _

/-- The room below a cap does not grow when the cap shrinks in proportion at least, and the value
in proportion at most. -/
theorem sub_min_le {mc mc' value value' cap cap' : Decimal} (hpos : 0 < mc') (hmc : mc' ≤ mc)
    (hvalue : mc' * value ≤ mc * value') (hcap : mc * cap' ≤ mc' * cap) :
    cap' - min value' cap' ≤ cap - min value cap := by
  have hroom : 0 ≤ cap - min value cap := sub_nonneg.mpr (min_le_right _ _)
  rcases le_total value' cap' with hle | hle
  · rw [min_eq_left hle]
    refine le_of_mul_le_mul_left ?_ (hpos.trans_le hmc)
    calc mc * (cap' - value') = mc * cap' - mc * value' := mul_sub _ _ _
      _ ≤ mc' * cap - mc' * value := sub_le_sub hcap hvalue
      _ = mc' * (cap - value) := (mul_sub _ _ _).symm
      _ ≤ mc' * (cap - min value cap) :=
        mul_le_mul_of_nonneg_left (sub_le_sub_left (min_le_left _ _) _) hpos.le
      _ ≤ mc * (cap - min value cap) := mul_le_mul_of_nonneg_right hmc hroom
  · rw [min_eq_right hle, sub_self]
    exact hroom

section Target

variable {intent : Intent} {agentState : AgentState} {snapshot : MarketSnapshot}

/-- What a weight is worth under some factors. -/
theorem value_eq (r : RiskFactors) (intent : Intent) (equity realizedVol : Decimal) :
    volTargetedPositionValue intent.targetWeight equity realizedVol
        (effectiveVolTarget intent.agentId r.settings) =
      intent.targetWeight * equity *
        min (r.settings.masterCapability *
          (agentBaseVolTarget intent.agentId / max realizedVol volFloorAnnual))
          volTargetCapLeverage := by
  rw [volTargetedPositionValue, effectiveVolTarget, mul_comm (agentBaseVolTarget intent.agentId),
    mul_div_assoc]

theorem ratio_nonneg (intent : Intent) (realizedVol : Decimal) :
    0 ≤ agentBaseVolTarget intent.agentId / max realizedVol volFloorAnnual :=
  div_nonneg (agentBaseVolTarget_pos _).le
    ((by norm_num [volFloorAnnual] : (0 : Decimal) ≤ volFloorAnnual).trans (le_max_right _ _))

/-- The target is no higher. -/
theorem targetNotional_le (h : MoreAverse intent.agentId r' r) (hweight : 0 ≤ intent.targetWeight)
    (hequity : 0 ≤ agentState.sleeveEquity) :
    targetNotional (r'.effectiveGross intent.agentId)
        (effectiveVolTarget intent.agentId r'.settings) intent agentState snapshot ≤
      targetNotional (r.effectiveGross intent.agentId)
        (effectiveVolTarget intent.agentId r.settings) intent agentState snapshot := by
  rw [targetNotional, targetNotional, value_eq, value_eq]
  refine min_le_min (mul_le_mul_of_nonneg_left (min_le_min_right _ ?_)
    (mul_nonneg hweight hequity)) (mul_le_mul_of_nonneg_right h.effectiveGross_le hequity)
  exact mul_le_mul_of_nonneg_right h.masterCapability (ratio_nonneg intent _)

/-- **The room between the target and the cap is no bigger**, where there is something to aim
at. -/
theorem room_le (h : MoreAverse intent.agentId r' r) (hweight : 0 ≤ intent.targetWeight)
    (hequity : 0 ≤ agentState.sleeveEquity)
    (htarget : 0 < targetNotional (r'.effectiveGross intent.agentId)
      (effectiveVolTarget intent.agentId r'.settings) intent agentState snapshot) :
    r'.effectiveGross intent.agentId * agentState.sleeveEquity -
        targetNotional (r'.effectiveGross intent.agentId)
          (effectiveVolTarget intent.agentId r'.settings) intent agentState snapshot ≤
      r.effectiveGross intent.agentId * agentState.sleeveEquity -
        targetNotional (r.effectiveGross intent.agentId)
          (effectiveVolTarget intent.agentId r.settings) intent agentState snapshot := by
  rw [targetNotional, value_eq] at htarget
  rw [targetNotional, targetNotional, value_eq, value_eq]
  have hratio := ratio_nonneg intent
    ((snapshot.realizedVol30d.get? (normalizeSymbol intent.symbol)).getD (8 / 100))
  generalize agentBaseVolTarget intent.agentId /
    max ((snapshot.realizedVol30d.get? (normalizeSymbol intent.symbol)).getD (8 / 100))
      volFloorAnnual = ratio at *
  have hworth : 0 ≤ intent.targetWeight * agentState.sleeveEquity := mul_nonneg hweight hequity
  have hcapLeverage : (0 : Decimal) ≤ volTargetCapLeverage := by norm_num [volTargetCapLeverage]
  -- a target above zero needs a master capability above zero
  have hpos : 0 < r'.settings.masterCapability := by
    by_contra hc
    have hmult : min (r'.settings.masterCapability * ratio) volTargetCapLeverage ≤ 0 :=
      (min_le_left _ _).trans (mul_nonpos_of_nonpos_of_nonneg (not_lt.mp hc) hratio)
    have hvalue := mul_nonpos_of_nonneg_of_nonpos hworth hmult
    exact absurd htarget ((min_le_left _ _).trans hvalue).not_gt
  have hpos₁ := hpos.trans_le h.masterCapability
  refine sub_min_le hpos h.masterCapability ?_ ?_
  · rw [mul_left_comm, mul_left_comm (r.settings.masterCapability)]
    refine mul_le_mul_of_nonneg_left ?_ hworth
    rw [mul_min_of_nonneg _ _ hpos.le, mul_min_of_nonneg _ _ hpos₁.le, mul_left_comm]
    exact min_le_min_left _ (mul_le_mul_of_nonneg_right h.masterCapability hcapLeverage)
  · rw [effectiveGross_eq, effectiveGross_eq,
      max_eq_left (mul_nonneg hpos.le (r'.otherFactors_nonneg _)),
      max_eq_left (mul_nonneg hpos₁.le (r.otherFactors_nonneg _))]
    have hscale : 0 ≤ r.settings.masterCapability * r'.settings.masterCapability *
        agentState.sleeveEquity := mul_nonneg (mul_nonneg hpos₁.le hpos.le) hequity
    linarith [mul_le_mul_of_nonneg_left h.otherFactors_le hscale]

end Target

end RiskFactors

/-! ### The order -/

section Order

variable {ledger : LotLedger} {gross gross' volTarget volTarget' mark : Decimal} {intent : Intent}
  {agentState : AgentState} {snapshot : MarketSnapshot} {difference difference' held : Decimal}

theorem Worthwhile.mono {equity : Decimal} (h : Worthwhile equity difference)
    (hle : |difference| ≤ |difference'|) : Worthwhile equity difference' :=
  ⟨h.1.trans hle, h.2.trans hle⟩

/-- **Who buys with less buys with more.** -/
theorem Admitted.of_purchase (hmark : 0 < mark)
    (h : Admitted ledger gross' intent agentState snapshot mark difference')
    (hup : 0 < difference') (hle : difference' ≤ difference)
    (hroom : gross' * agentState.sleeveEquity - difference' ≤
      gross * agentState.sleeveEquity - difference) :
    Admitted ledger gross intent agentState snapshot mark difference := by
  obtain ⟨-, hsell, hfits, hworth, hrounds⟩ := h
  have habs : |difference'| ≤ |difference| := by
    rw [abs_of_pos hup, abs_of_pos (hup.trans_le hle)]
    exact hle
  refine ⟨fun hc => hc.2.not_gt (hup.trans_le hle), fun hc => hsell ⟨hc.1, hup.le⟩, ?_,
    hworth.mono habs, hrounds.trans_le (roundDown_mono _ (by positivity) ?_)⟩
  · rintro ⟨-, hbreach⟩
    exact hfits ⟨hup, by linarith⟩
  · exact div_le_div_of_nonneg_right habs hmark.le

/-- **Who sells with more sells with less.** -/
theorem Admitted.of_sale (hmark : 0 < mark)
    (h : Admitted ledger gross intent agentState snapshot mark difference)
    (hdown : difference ≤ 0) (hle : difference' ≤ difference) :
    Admitted ledger gross' intent agentState snapshot mark difference' := by
  obtain ⟨hbuy, hsell, -, hworth, hrounds⟩ := h
  have hdown' := hle.trans hdown
  have habs : |difference| ≤ |difference'| := by
    rw [abs_of_nonpos hdown, abs_of_nonpos hdown']
    exact neg_le_neg hle
  refine ⟨fun hc => hbuy ⟨hc.1, hdown⟩, fun hc => hsell ⟨hc.1, hc.2.trans hle⟩,
    fun hc => hc.1.not_ge hdown', hworth.mono habs,
    hrounds.trans_le (roundDown_mono _ (by positivity) ?_)⟩
  exact div_le_div_of_nonneg_right habs hmark.le

theorem tradedQty_nonneg_of_purchase (hup : 0 < difference)
    (hrounds : 0 < roundDown fractionalQtyDigits (|difference| / mark)) :
    0 ≤ tradedQty held mark difference := by
  rw [tradedQty, if_pos hup]
  exact hrounds.le

theorem tradedQty_nonpos_of_sale (hheld : 0 ≤ held) (hmark : 0 < mark) (hdown : difference ≤ 0) :
    tradedQty held mark difference ≤ 0 := by
  have hrounded : 0 ≤ roundDown fractionalQtyDigits (|difference| / mark) :=
    roundDown_nonneg _ (by positivity)
  rw [tradedQty, if_neg hdown.not_gt]
  split_ifs
  · exact neg_nonpos.mpr (le_min hrounded hheld)
  · exact neg_nonpos.mpr hrounded

/-- More is bought for a bigger difference, and less is sold. -/
theorem tradedQty_mono (hmark : 0 < mark) (hle : difference' ≤ difference)
    (hside : 0 < difference' ∨ difference ≤ 0) :
    tradedQty held mark difference' ≤ tradedQty held mark difference := by
  rcases hside with hup | hdown
  · have hup₁ := hup.trans_le hle
    rw [tradedQty, tradedQty, if_pos hup, if_pos hup₁, abs_of_pos hup, abs_of_pos hup₁]
    exact roundDown_mono _ (by positivity) (div_le_div_of_nonneg_right hle hmark.le)
  · have hdown' := hle.trans hdown
    have hmore : roundDown fractionalQtyDigits (|difference| / mark) ≤
        roundDown fractionalQtyDigits (|difference'| / mark) := by
      refine roundDown_mono _ (by positivity) (div_le_div_of_nonneg_right ?_ hmark.le)
      rw [abs_of_nonpos hdown, abs_of_nonpos hdown']
      exact neg_le_neg hle
    rw [tradedQty, tradedQty, if_neg hdown'.not_gt, if_neg hdown.not_gt]
    split_ifs
    · exact neg_le_neg (min_le_min_right _ hmore)
    · exact neg_le_neg hmore

/-- **No more is ordered** for a lower target with no more room below the cap. -/
theorem orderedQty_mono (hmark : 0 < mark)
    (hheld : 0 ≤ ledger.totalOpenQty intent.agentId (normalizeSymbol intent.symbol))
    (htarget : targetNotional gross' volTarget' intent agentState snapshot ≤
      targetNotional gross volTarget intent agentState snapshot)
    (hroom : 0 < targetNotional gross' volTarget' intent agentState snapshot →
      gross' * agentState.sleeveEquity -
          targetNotional gross' volTarget' intent agentState snapshot ≤
        gross * agentState.sleeveEquity -
          targetNotional gross volTarget intent agentState snapshot) :
    orderedQty ledger gross' volTarget' intent agentState snapshot mark ≤
      orderedQty ledger gross volTarget intent agentState snapshot mark := by
  unfold orderedQty
  dsimp only
  by_cases hexit : intent.IsExit
  · rw [if_pos hexit, if_pos hexit]
  rw [if_neg hexit, if_neg hexit]
  by_cases hnone : intent.action = .sell ∧
    ledger.totalOpenQty intent.agentId (normalizeSymbol intent.symbol) ≤ 0
  · rw [if_pos hnone, if_pos hnone]
  rw [if_neg hnone, if_neg hnone]
  generalize ledger.totalOpenQty intent.agentId (normalizeSymbol intent.symbol) = held at hheld ⊢
  generalize targetNotional gross' volTarget' intent agentState snapshot = target'
    at htarget hroom ⊢
  generalize targetNotional gross volTarget intent agentState snapshot = target at htarget hroom ⊢
  have hle : target' - held * mark ≤ target - held * mark := sub_le_sub_right htarget _
  have hmarks : 0 ≤ held * mark := mul_nonneg hheld hmark.le
  rcases lt_or_ge 0 (target' - held * mark) with hup' | hdown'
  · -- with less, there is something to buy
    have hup := hup'.trans_le hle
    by_cases hadm' : Admitted ledger gross' intent agentState snapshot mark (target' - held * mark)
    · have hroom' := hroom (by linarith)
      have hadm := hadm'.of_purchase hmark hup' hle
        (by linarith : _ ≤ gross * agentState.sleeveEquity - (target - held * mark))
      rw [if_pos hadm', if_pos hadm]
      exact tradedQty_mono hmark hle (Or.inl hup')
    · rw [if_neg hadm']
      split_ifs with hadm
      · exact tradedQty_nonneg_of_purchase hup hadm.2.2.2.2
      · exact le_rfl
  · have hless : (if Admitted ledger gross' intent agentState snapshot mark
        (target' - held * mark) then tradedQty held mark (target' - held * mark) else 0) ≤ 0 := by
      split_ifs
      · exact tradedQty_nonpos_of_sale hheld hmark hdown'
      · exact le_rfl
    by_cases hadm : Admitted ledger gross intent agentState snapshot mark (target - held * mark)
    · rw [if_pos hadm]
      rcases lt_or_ge 0 (target - held * mark) with hup | hdown
      · exact hless.trans (tradedQty_nonneg_of_purchase hup hadm.2.2.2.2)
      · -- with more, there is something to sell
        rw [if_pos (hadm.of_sale hmark hdown hle)]
        exact tradedQty_mono hmark hle (Or.inr hdown)
    · rw [if_neg hadm]
      exact hless

/-- Of what is held, no more than that is sold. -/
theorem abs_orderedQty_le
    (hheld : 0 < ledger.totalOpenQty intent.agentId (normalizeSymbol intent.symbol))
    (hsold : orderedQty ledger gross volTarget intent agentState snapshot mark ≤ 0) :
    |orderedQty ledger gross volTarget intent agentState snapshot mark| ≤
      ledger.totalOpenQty intent.agentId (normalizeSymbol intent.symbol) := by
  rw [abs_of_nonpos hsold]
  clear hsold
  unfold orderedQty
  dsimp only
  generalize ledger.totalOpenQty intent.agentId (normalizeSymbol intent.symbol) = held at hheld ⊢
  split_ifs with hexit hworth hnone hadm
  · exact (neg_neg held).le
  · exact neg_zero.trans_le hheld.le
  · exact neg_zero.trans_le hheld.le
  · obtain ⟨-, -, -, -, hrounds⟩ := hadm
    rw [tradedQty]
    split_ifs
    · exact (neg_nonpos.mpr hrounds.le).trans hheld.le
    · rw [neg_neg]
      exact min_le_right _ _
  · exact neg_zero.trans_le hheld.le

end Order

/-! ### What is held afterwards -/

/-- The more a sell takes of a lot, the less it leaves. -/
theorem Lot.remainingQty_consume_anti {lot : Lot} {fill fill' : Fill} {taken taken' : Decimal}
    (hprice : fill.price = fill'.price) (hle : taken ≤ taken') (hmost : taken' ≤ lot.remainingQty) :
    (lot.consume taken' fill').remainingQty ≤ (lot.consume taken fill).remainingQty := by
  have hleft' : 0 ≤ lot.remainingQty - taken' := sub_nonneg.mpr hmost
  have hless : lot.remainingQty - taken' ≤ lot.remainingQty - taken := sub_le_sub_left hle _
  rw [Lot.consume, Lot.consume, hprice]
  dsimp only
  split_ifs with hdust' hdust hdust
  · exact le_rfl
  · exact hleft'.trans hless
  · -- less than dust is dust, or nothing
    refine not_lt.mp fun hpos => hdust' ⟨hpos, hdust.2.1, ?_⟩
    exact (mul_le_mul_of_nonneg_right hless hdust.2.1.le).trans_lt hdust.2.2
  · exact hless

namespace LotLedger

variable {l : LotLedger}

/-- **The more is sold, the more is taken off.** -/
theorem takenOff_mono {fill fill' : Fill} (hagent : fill.agentId = fill'.agentId)
    (hsymbol : fill.symbol = fill'.symbol) (hprice : fill.price = fill'.price)
    (hqty : fill.qty ≤ fill'.qty) (method : LotMethod) :
    l.takenOff fill method ≤ l.takenOff fill' method := by
  have hloss : ∀ (fill : Fill) (p : Lot × Decimal), p.2 + FillBooks.residual fill p =
      p.1.remainingQty - (p.1.consume p.2 fill).remainingQty := by
    intro fill p
    rw [FillBooks.residual]
    ring
  have hsame : (fun p : Lot × Decimal => p.2 + FillBooks.residual fill' p) =
      fun p => p.2 + FillBooks.residual fill p := by
    funext p
    rw [FillBooks.residual, FillBooks.residual, Lot.consume, Lot.consume, hprice]
  rw [takenOff, takenOff, consumption, consumption, hagent, hsymbol, hsame]
  refine sum_map_allocate_mono _ ?_ ?_ hqty
  · intro lot hlot
    exact ((mem_candidates _ _ _).mp hlot).2.2.2.2
  · intro lot _ taken taken' hpos hle hmost
    have hresidual := (@FillBooks.residual_dust fill (lot, taken) (hle.trans hmost)).1
    refine ⟨add_nonneg hpos.le hresidual, ?_⟩
    rw [hloss, hloss]
    exact sub_le_sub_left (Lot.remainingQty_consume_anti rfl hle hmost) _

end LotLedger

section Carried

variable {ledger : LotLedger} {intent : Intent} {method : LotMethod} {price qty qty' : Decimal}
  {fillId fillId' : FillId} {lotId lotId' : LotId} {timestamp timestamp' : Time}
  {result result' : PlanResult}

theorem netOrdered_of_resultFor (h : ExecutionPlanner.ResultFor intent qty result) :
    netOrdered result = qty := by
  rcases h with ⟨rfl, reason, rfl⟩ | ⟨hne, order, rfl, hfor⟩
  · rfl
  · rw [netOrdered, hfor.side, hfor.qty]
    split_ifs with hpos hside hside
    · exact abs_of_pos hpos
    · exact absurd rfl hside
    · exact absurd hside (by decide)
    · rw [abs_of_nonpos (not_lt.mp hpos), neg_neg]

/-- Where nothing is bought, no more is held. -/
theorem heldAfter_le_held (hkeyed : ledger.Keyed) (hlong : ledger.LongOnly)
    (hnew : fillId ∉ ledger.booked) (hfresh : lotId ∉ ledger.lots.keys)
    (h : ExecutionPlanner.ResultFor intent qty result) (hsold : qty ≤ 0) :
    heldAfter ledger intent method price fillId lotId timestamp result ≤
      ledger.totalOpenQty intent.agentId (normalizeSymbol intent.symbol) := by
  rcases h with ⟨-, reason, rfl⟩ | ⟨-, order, rfl, hfor⟩
  · exact le_rfl
  · rw [heldAfter, LotLedger.totalOpenQty_fullFill hlong hkeyed hfor hnew hfresh,
      if_neg hsold.not_gt, add_le_iff_nonpos_right]
    split_ifs with havail
    · refine neg_nonpos.mpr ((abs_nonneg qty).trans ?_)
      exact (LotLedger.takenOff_fullFill hlong hkeyed hfor hnew hsold havail price timestamp
        method).1
    · exact le_rfl

/-- **What is held follows what is ordered**, if no more is sold than is held where something is. -/
theorem heldAfter_mono (hkeyed : ledger.Keyed) (hlong : ledger.LongOnly)
    (hnew : fillId ∉ ledger.booked) (hfresh : lotId ∉ ledger.lots.keys)
    (hnew' : fillId' ∉ ledger.booked) (hfresh' : lotId' ∉ ledger.lots.keys)
    (h : ExecutionPlanner.ResultFor intent qty result)
    (h' : ExecutionPlanner.ResultFor intent qty' result') (hle : qty' ≤ qty)
    (hcovered : 0 < ledger.totalOpenQty intent.agentId (normalizeSymbol intent.symbol) →
      qty' ≤ 0 → |qty'| ≤ ledger.totalOpenQty intent.agentId (normalizeSymbol intent.symbol)) :
    heldAfter ledger intent method price fillId' lotId' timestamp' result' ≤
      heldAfter ledger intent method price fillId lotId timestamp result := by
  rcases lt_or_ge 0 qty with hbought | hsold
  · -- the first plan buys
    rcases h with ⟨hzero, -⟩ | ⟨-, order, rfl, hfor⟩
    · exact absurd hzero hbought.ne'
    rw [heldAfter, LotLedger.totalOpenQty_fullFill hlong hkeyed hfor hnew hfresh, if_pos hbought]
    rcases lt_or_ge 0 qty' with hbought' | hsold'
    · rcases h' with ⟨hzero, -⟩ | ⟨-, order', rfl, hfor'⟩
      · exact absurd hzero hbought'.ne'
      rw [heldAfter, LotLedger.totalOpenQty_fullFill hlong hkeyed hfor' hnew' hfresh',
        if_pos hbought']
      exact add_le_add_right hle _
    · exact (heldAfter_le_held hkeyed hlong hnew' hfresh' h' hsold').trans
        (le_add_of_nonneg_right hbought.le)
  have hsold' := hle.trans hsold
  rcases h with ⟨-, reason, rfl⟩ | ⟨hne, order, rfl, hfor⟩
  · exact heldAfter_le_held hkeyed hlong hnew' hfresh' h' hsold'
  rw [heldAfter, LotLedger.totalOpenQty_fullFill hlong hkeyed hfor hnew hfresh,
    if_neg hsold.not_gt]
  by_cases havail : |qty| ≤ ledger.totalOpenQty intent.agentId (normalizeSymbol intent.symbol)
  · -- both plans sell of what is held
    have havail' := hcovered ((abs_pos.mpr hne).trans_le havail) hsold'
    rcases h' with ⟨hzero, -⟩ | ⟨-, order', rfl, hfor'⟩
    · exact absurd (hzero ▸ hle : (0 : Decimal) ≤ qty) (not_le.mpr (lt_of_le_of_ne hsold hne))
    rw [heldAfter, LotLedger.totalOpenQty_fullFill hlong hkeyed hfor' hnew' hfresh',
      if_neg hsold'.not_gt, if_pos havail, if_pos havail']
    refine add_le_add_right (neg_le_neg (LotLedger.takenOff_mono ?_ ?_ ?_ ?_ method)) _
    · exact hfor.agentId.trans hfor'.agentId.symm
    · exact hfor.symbol.trans hfor'.symbol.symm
    · rfl
    · change order.qty ≤ order'.qty
      rw [hfor.qty, hfor'.qty, abs_of_nonpos hsold, abs_of_nonpos hsold']
      exact neg_le_neg hle
  · rw [if_neg havail, add_zero]
    exact heldAfter_le_held hkeyed hlong hnew' hfresh' h' hsold'

end Carried

/-- The planner answers, where the master capability is in range. -/
theorem ExecutionPlanner.exists_plan {settings : SizingSettings} {intent : Intent}
    {agentState : AgentState} {snapshot : MarketSnapshot} {effectiveGross : Decimal}
    (hgross : effectiveMaxGross intent.agentId settings snapshot.vixBucket
      agentState.drawdownBucket = .ok effectiveGross) (p : ExecutionPlanner) (ledger : LotLedger)
    (orderId : OrderId) (now : Time) :
    ∃ p' result, p.plan ledger settings intent agentState snapshot orderId now =
      .ok (p', result) := by
  unfold plan planClose
  rw [hgross]
  dsimp only [Except.map]
  split_ifs
  · exact ⟨_, _, rfl⟩
  · split
    · exact ⟨_, _, rfl⟩
    · split_ifs
      · exact ⟨_, _, rfl⟩
      · exact ⟨_, _, rfl⟩
  · exact ⟨_, _, rfl⟩
  · split
    · exact ⟨_, _, rfl⟩
    · exact ⟨_, _, rfl⟩

namespace RiskFactors

/-- **More risk aversion never means a bigger position.** Two plans for shares of a long-only ledger
differ in the factors of the risk alone, none of which is higher for the second one. Both are made,
and once their orders are filled at one price and booked, no more is held after the second – nor
would be where shares may be sold short. -/
theorem heldAfter_le {r r' : RiskFactors} {ledger : LotLedger} {intent : Intent}
    {agentState : AgentState} (hkeyed : ledger.Keyed) (hlong : ledger.LongOnly)
    (hlegs : intent.legs = []) (hweight : 0 ≤ intent.targetWeight)
    (hequity : 0 < agentState.sleeveEquity)
    (hrange : r.settings.masterCapability ≤ maxMasterCapability)
    (h : MoreAverse intent.agentId r' r) {fillId fillId' : FillId} {lotId lotId' : LotId}
    (hnew : fillId ∉ ledger.booked) (hfresh : lotId ∉ ledger.lots.keys)
    (hnew' : fillId' ∉ ledger.booked) (hfresh' : lotId' ∉ ledger.lots.keys)
    (snapshot : MarketSnapshot) (p p' : ExecutionPlanner) (orderId orderId' : OrderId)
    (now now' timestamp timestamp' : Time) (price : Decimal) (method : LotMethod) :
    ∃ q result q' result',
      r.plan p ledger intent agentState snapshot orderId now = .ok (q, result) ∧
      r'.plan p' ledger intent agentState snapshot orderId' now' = .ok (q', result') ∧
      heldAfter ledger intent method price fillId' lotId' timestamp' result' ≤
        heldAfter ledger intent method price fillId lotId timestamp result ∧
      netOrdered result' ≤ netOrdered result := by
  have hgross := effectiveMaxGross_eq hrange intent.agentId
  have hgross' := effectiveMaxGross_eq (h.masterCapability.trans hrange) intent.agentId
  rcases hmark : snapshot.mark? (normalizeSymbol intent.symbol) with _ | mark
  · -- without a mark nothing is ordered
    have hnone : ∀ r : RiskFactors, r.settings.masterCapability ≤ maxMasterCapability →
        ∀ (p : ExecutionPlanner) (orderId : OrderId) (now : Time), ∃ q reason,
          r.plan p ledger intent agentState snapshot orderId now = .ok (q, .error reason) := by
      intro r hrange p orderId now
      obtain ⟨q, result, hplan⟩ := @ExecutionPlanner.exists_plan r.settings intent
        { agentState with drawdownBucket := r.drawdownBucket }
        { snapshot with vixBucket := r.vixBucket } _ (effectiveMaxGross_eq hrange intent.agentId)
        p ledger orderId now
      rcases result with reason | order
      · exact ⟨q, reason, hplan⟩
      · have hequity' : 0 < ({ agentState with drawdownBucket := r.drawdownBucket } :
            AgentState).sleeveEquity := hequity
        obtain ⟨-, -, mark, -, -, hmark', -⟩ := ExecutionPlanner.plan_ok hlegs hequity' hplan
        exact absurd (hmark.symm.trans hmark') (by rintro ⟨⟩)
    obtain ⟨q, reason, hplan⟩ := hnone r hrange p orderId now
    obtain ⟨q', reason', hplan'⟩ := hnone r' (h.masterCapability.trans hrange) p' orderId' now'
    exact ⟨q, _, q', _, hplan, hplan', le_rfl, le_rfl⟩
  have hheld := totalOpenQty_nonneg hlong intent.agentId (normalizeSymbol intent.symbol)
  obtain ⟨q, result, hplan, hresult⟩ := @ExecutionPlanner.plan_shares ledger r.settings intent
    { agentState with drawdownBucket := r.drawdownBucket }
    { snapshot with vixBucket := r.vixBucket } _ mark hlegs hequity hlong hmark hgross p orderId now
  obtain ⟨q', result', hplan', hresult'⟩ := @ExecutionPlanner.plan_shares ledger r'.settings intent
    { agentState with drawdownBucket := r'.drawdownBucket }
    { snapshot with vixBucket := r'.vixBucket } _ mark hlegs hequity hlong hmark hgross' p' orderId'
    now'
  have hqty : orderedQty ledger (r'.effectiveGross intent.agentId)
      (effectiveVolTarget intent.agentId r'.settings) intent agentState snapshot mark ≤
      orderedQty ledger (r.effectiveGross intent.agentId)
        (effectiveVolTarget intent.agentId r.settings) intent agentState snapshot mark :=
    orderedQty_mono (mark_pos hmark) hheld (targetNotional_le h hweight hequity.le)
      (room_le h hweight hequity.le)
  refine ⟨q, result, q', result', hplan, hplan',
    heldAfter_mono hkeyed hlong hnew hfresh hnew' hfresh' hresult hresult' hqty ?_, ?_⟩
  · exact fun hhas hsold => abs_orderedQty_le hhas hsold
  · rw [netOrdered_of_resultFor hresult, netOrdered_of_resultFor hresult']
    exact hqty

/-- The first plan is at a master capability of 1 in the sweet spot, and the second at a half in a
market under stress. -/
theorem heldAfter_stress_le :
    ∃ q result q' result',
      RiskFactors.plan ⟨⟨1, .empty⟩, .sweetSpot, .normal⟩ .new .empty
        (FlightDesk.intentOf .buy "AAPL" (1 / 2)) FlightDesk.thousandDesk.agentState
        FlightDesk.thousandDesk.snapshot 1 0 = .ok (q, result) ∧
      RiskFactors.plan ⟨⟨1 / 2, .empty⟩, .stress, .yellow⟩ .new .empty
        (FlightDesk.intentOf .buy "AAPL" (1 / 2)) FlightDesk.thousandDesk.agentState
        FlightDesk.thousandDesk.snapshot 1 0 = .ok (q', result') ∧
      heldAfter .empty (FlightDesk.intentOf .buy "AAPL" (1 / 2)) .fifo 100 1 1 0 result' ≤
        heldAfter .empty (FlightDesk.intentOf .buy "AAPL" (1 / 2)) .fifo 100 1 1 0 result ∧
      netOrdered result' ≤ netOrdered result :=
  heldAfter_le (fun _ _ h => absurd h (by simp [LotLedger.empty]))
    (fun _ h => absurd h List.not_mem_nil) rfl (by decide +kernel) (by decide +kernel)
    (by decide +kernel) ⟨by decide +kernel, by decide +kernel, by decide +kernel, by decide +kernel⟩
    List.not_mem_nil (by simp [LotLedger.empty, Dict.keys, Dict.empty]) List.not_mem_nil
    (by simp [LotLedger.empty, Dict.keys, Dict.empty]) _ .new .new 1 1 0 0 0 0 100 .fifo

end RiskFactors

end TradingPlatform
