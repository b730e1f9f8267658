import TradingPlatform.Execution.Risk
import TradingPlatform.Execution.Sizing
import TradingPlatform.Execution.SleeveGross

/-!
# The execution planner

The planner turns an approved intent into an order, or says why there is none. An intent asks for
a weight, the weight is worth a notional at the symbol's volatility, and the order is for the
difference between that and what the agent holds – as the lots say, which know the fills that were
booked and nothing of the orders that are under way.

`TradingPlatform.intendedTrade` is what an intent for shares is after, without the rounding: a
purchase fits below the cap with what is held, and a sale is of no more than is held, unless
nothing is. `TradingPlatform.ExecutionPlanner.plan_ok` says that the planner's order carries it out,
and is all that is used of the planner for shares.
-/

namespace TradingPlatform

/-- Why an intent is dropped. -/
inductive PlanReject
  | subMin | noPosition | noMark | zeroQty | nearTarget | alreadyAtTarget | sleeveGrossBreach
  deriving DecidableEq, Repr

def PlanReject.value : PlanReject → String
  | .subMin => "unsized:sub_min"
  | .noPosition => "unsized:no_position"
  | .noMark => "unsized:no_mark"
  | .zeroQty => "unsized:zero_qty"
  | .nearTarget => "unsized:near_target"
  | .alreadyAtTarget => "unsized:already_at_target"
  | .sleeveGrossBreach => "unsized:sleeve_gross_breach"

/-- What bounded the size of an order. -/
inductive BindingConstraint
  | volTarget | maxGross | close
  deriving DecidableEq, Repr

def BindingConstraint.value : BindingConstraint → String
  | .volTarget => "vol_target"
  | .maxGross => "max_gross"
  | .close => "close"

/-- Published after an intent was sized. -/
structure IntentSizedEvent where
  intentId : IntentId
  agentId : AgentId
  symbol : String
  targetWeight : Decimal
  positionValueUsd : Decimal
  qty : Decimal
  effectiveVolTarget : Decimal
  effectiveMaxGrossVal : Decimal
  realizedVol30d : Decimal
  bindingConstraint : BindingConstraint
  estimatedSlippageBps : Decimal
  deriving DecidableEq

/-! ### Sizing an order -/

def minNotional : Decimal := 1

/-- A contract is for a hundred shares. -/
def optionsMultiplier : Decimal := 100

/-- The precision the broker keeps. -/
def fractionalQtyDigits : ℕ := 9

/-- A smaller rebalance is not worth the friction. -/
def rebalanceBandPct : Decimal := 2 / 100

/-- Round towards zero. -/
def roundDown (digits : ℕ) (q : Decimal) : Decimal :=
  (if 0 ≤ q then ⌊q * 10 ^ digits⌋ else ⌈q * 10 ^ digits⌉) / 10 ^ digits

/-- What an intent comes to. -/
structure SizedOrder where
  side : OrderSide
  qty : Decimal
  positionValue : Decimal
  realizedVol : Decimal
  binding : BindingConstraint
  deriving DecidableEq

/-- Size an intent under a gross leverage, when it is not a plain exit. -/
def sizeOrder (ledger : LotLedger) (effectiveGross volTarget : Decimal) (intent : Intent)
    (agentState : AgentState) (snapshot : MarketSnapshot) : Except PlanReject SizedOrder :=
  let isOptions : Bool := intent.legs ≠ []
  let symbol := normalizeSymbol intent.symbol
  let realizedVol := (snapshot.realizedVol30d.get? symbol).getD (8 / 100)
  let value := volTargetedPositionValue intent.targetWeight agentState.sleeveEquity realizedVol
    volTarget
  let grossCap := effectiveGross * agentState.sleeveEquity
  let binding : BindingConstraint := if grossCap < value then .maxGross else .volTarget
  let targetNotional := if grossCap < value then grossCap else value
  let currentQty := if isOptions then 0 else ledger.totalOpenQty intent.agentId symbol
  let currentNotional :=
    match snapshot.mark? symbol with
    | some mark => if isOptions then 0 else currentQty * mark
    | none => 0
  let deltaNotional := targetNotional - currentNotional
  if intent.action = .buy ∧ deltaNotional ≤ 0 then .error .alreadyAtTarget
  else if intent.action = .sell ∧ 0 ≤ deltaNotional then .error .nearTarget
  else if 0 < agentState.sleeveEquity ∧
      |deltaNotional| / agentState.sleeveEquity < rebalanceBandPct then .error .nearTarget
  else if isOptions = false ∧ 0 < deltaNotional ∧
      grossCap < ledger.sleeveGrossNotional intent.agentId snapshot + deltaNotional then
    .error .sleeveGrossBreach
  else
    let positionValue := if isOptions then targetNotional else |deltaNotional|
    if positionValue < minNotional then .error .subMin
    else
      match snapshot.mark? symbol with
      | none => .error .noMark
      | some mark =>
        let qty :=
          if isOptions then roundDown 0 (positionValue / (mark * optionsMultiplier))
          else roundDown fractionalQtyDigits (positionValue / mark)
        if qty ≤ 0 then .error .zeroQty
        else
          let side : OrderSide :=
            if isOptions then (if intent.action.Closing then .sell else .buy)
            else
              match intent.action with
              | .sell => .sell
              | .rebalanceTo => if deltaNotional < 0 then .sell else .buy
              | _ => .buy
          let qty := if side = .sell ∧ isOptions = false ∧ 0 < currentQty then min qty currentQty
            else qty
          .ok ⟨side, qty, positionValue, realizedVol, binding⟩

/-! ### What an intent for shares comes to -/

/-- The notional the planner aims at under a gross leverage. -/
def targetNotional (effectiveGross volTarget : Decimal) (intent : Intent)
    (agentState : AgentState) (snapshot : MarketSnapshot) : Decimal :=
  min (volTargetedPositionValue intent.targetWeight agentState.sleeveEquity
      ((snapshot.realizedVol30d.get? (normalizeSymbol intent.symbol)).getD (8 / 100)) volTarget)
    (effectiveGross * agentState.sleeveEquity)

theorem ite_eq_targetNotional (effectiveGross volTarget : Decimal) (intent : Intent)
    (agentState : AgentState) (snapshot : MarketSnapshot) :
    (if effectiveGross * agentState.sleeveEquity <
        volTargetedPositionValue intent.targetWeight agentState.sleeveEquity
          ((snapshot.realizedVol30d.get? (normalizeSymbol intent.symbol)).getD (8 / 100)) volTarget
      then effectiveGross * agentState.sleeveEquity
      else volTargetedPositionValue intent.targetWeight agentState.sleeveEquity
          ((snapshot.realizedVol30d.get? (normalizeSymbol intent.symbol)).getD (8 / 100))
          volTarget) =
      targetNotional effectiveGross volTarget intent agentState snapshot := by
  rw [targetNotional, min_def]
  split_ifs with h₁ h₂ h₂
  · exact absurd h₂ (not_le.mpr h₁)
  · rfl
  · rfl
  · exact absurd (not_lt.mp h₁) h₂

theorem roundDown_nonneg (digits : ℕ) {q : Decimal} (h : 0 ≤ q) : 0 ≤ roundDown digits q := by
  rw [roundDown, if_pos h]
  refine div_nonneg ?_ (by positivity)
  exact_mod_cast Int.floor_nonneg.mpr (mul_nonneg h (by positivity))

theorem mark_pos {snapshot : MarketSnapshot} {symbol : String} {mark : Decimal}
    (h : snapshot.mark? symbol = some mark) : 0 < mark := by
  obtain ⟨-, hpos⟩ := Option.filter_eq_some_iff.mp h
  exact of_decide_eq_true hpos

theorem roundDown_le (digits : ℕ) {q : Decimal} (h : 0 ≤ q) : roundDown digits q ≤ q := by
  rw [roundDown, if_pos h, div_le_iff₀ (by positivity)]
  exact_mod_cast Int.floor_le (q * 10 ^ digits)

/-- What an intent for shares is after, exactly: a notional to buy, a quantity to sell, or
nothing. -/
inductive Trade
  | none
  | buy (notional : Decimal)
  | sell (qty : Decimal)

/-- A plain exit: a close, or a sell down to nothing. -/
def Intent.IsExit (intent : Intent) : Prop :=
  intent.action = .close ∨ intent.action = .sell ∧ intent.targetWeight ≤ 0

instance (intent : Intent) : Decidable intent.IsExit := inferInstanceAs (Decidable (_ ∨ _ ∧ _))

/-- A difference to the target that is worth an order. -/
def Worthwhile (equity difference : Decimal) : Prop :=
  rebalanceBandPct * equity ≤ |difference| ∧ minNotional ≤ |difference|

instance (equity difference : Decimal) : Decidable (Worthwhile equity difference) :=
  inferInstanceAs (Decidable (_ ∧ _))

/-- **The trade an intent for shares is after.** An exit is after what is held. Any other intent is
after the difference between its target and what is held, in the direction its verb allows: a
purchase only if it fits below the cap, and a sale, where something is held, of that at most. -/
def intendedTrade (ledger : LotLedger) (effectiveGross volTarget : Decimal) (intent : Intent)
    (agentState : AgentState) (snapshot : MarketSnapshot) : Trade :=
  let held := ledger.totalOpenQty intent.agentId (normalizeSymbol intent.symbol)
  match snapshot.mark? (normalizeSymbol intent.symbol) with
  | none => .none
  | some mark =>
    if intent.IsExit then
      if 0 < held ∧ minNotional ≤ held * mark then .sell held else .none
    else
      let difference :=
        targetNotional effectiveGross volTarget intent agentState snapshot - held * mark
      if ¬Worthwhile agentState.sleeveEquity difference then .none
      else if 0 < difference then
        if intent.action = .sell ∨ effectiveGross * agentState.sleeveEquity <
          ledger.sleeveGrossNotional intent.agentId snapshot + difference then .none
        else .buy difference
      else if intent.action = .buy ∨ intent.action = .sell ∧ held ≤ 0 then .none
      else .sell (if 0 < held then min (-difference / mark) held else -difference / mark)

/-- An order carries a trade out: it is for all of it, rounded down. -/
def Trade.CarriedOut (side : OrderSide) (qty mark : Decimal) : Trade → Prop
  | .none => False
  | .buy notional => side = .buy ∧ qty * mark ≤ notional
  | .sell qty' => side = .sell ∧ qty ≤ qty'

/-- A trade fits: there is room for what it buys, and what it sells is left. -/
def Trade.Fits (room left : Decimal) : Trade → Prop
  | .none => True
  | .buy notional => notional ≤ room
  | .sell qty => qty ≤ left

instance (room left : Decimal) : ∀ trade : Trade, Decidable (trade.Fits room left)
  | .none => inferInstanceAs (Decidable True)
  | .buy notional => inferInstanceAs (Decidable (notional ≤ room))
  | .sell qty => inferInstanceAs (Decidable (qty ≤ left))

namespace Trade

variable {trade : Trade} {side : OrderSide} {qty mark room room' left left' : Decimal}

/-- What an order buys that carries out a trade that fits. -/
theorem Fits.bought (h : trade.Fits room left) (hcarried : trade.CarriedOut side qty mark)
    (hroom : room ≤ room') (hnonneg : 0 ≤ room') :
    (if side = .buy then qty * mark else 0) ≤ room' := by
  cases trade with
  | none => exact hcarried.elim
  | buy notional =>
    rw [if_pos hcarried.1]
    exact hcarried.2.trans (h.trans hroom)
  | sell qty' =>
    rw [hcarried.1, if_neg (by decide)]
    exact hnonneg

theorem Fits.sold (h : trade.Fits room left) (hcarried : trade.CarriedOut side qty mark)
    (hleft : left ≤ left') (hnonneg : 0 ≤ left') : (if side = .sell then qty else 0) ≤ left' := by
  cases trade with
  | none => exact hcarried.elim
  | buy notional =>
    rw [hcarried.1, if_neg (by decide)]
    exact hnonneg
  | sell qty' =>
    rw [if_pos hcarried.1]
    exact hcarried.2.trans (h.trans hleft)

end Trade

section Sizing

variable {ledger : LotLedger} {effectiveGross volTarget : Decimal} {intent : Intent}
  {agentState : AgentState} {snapshot : MarketSnapshot} {sized : SizedOrder}

/-- What the guards of the source let through, for shares: a difference that is worth an order, in
a direction the verb allows, and below the cap if it is bought. The order is for it, rounded down,
and for no more than is held. -/
theorem sizeOrder_cases (hlegs : intent.legs = []) (hclose : intent.action ≠ .close)
    (hequity : 0 < agentState.sleeveEquity)
    (h : sizeOrder ledger effectiveGross volTarget intent agentState snapshot = .ok sized) :
    ∃ mark held difference, snapshot.mark? (normalizeSymbol intent.symbol) = some mark ∧
      held = ledger.totalOpenQty intent.agentId (normalizeSymbol intent.symbol) ∧
      difference = targetNotional effectiveGross volTarget intent agentState snapshot -
        held * mark ∧
      ¬(intent.action = .buy ∧ difference ≤ 0) ∧ ¬(intent.action = .sell ∧ 0 ≤ difference) ∧
      ¬(0 < difference ∧ effectiveGross * agentState.sleeveEquity <
        ledger.sleeveGrossNotional intent.agentId snapshot + difference) ∧
      Worthwhile agentState.sleeveEquity difference ∧
      0 < roundDown fractionalQtyDigits (|difference| / mark) ∧
      sized.side = (if 0 < difference then .buy else .sell) ∧
      sized.qty = (if ¬0 < difference ∧ 0 < held
        then min (roundDown fractionalQtyDigits (|difference| / mark)) held
        else roundDown fractionalQtyDigits (|difference| / mark)) := by
  have hoptions : decide (intent.legs ≠ []) = false := decide_eq_false (not_not.mpr hlegs)
  unfold sizeOrder at h
  dsimp only at h
  rw [ite_eq_targetNotional, hoptions] at h
  simp only [Bool.false_eq_true, if_false, true_and] at h
  rcases hmark : snapshot.mark? (normalizeSymbol intent.symbol) with _ | mark
  · rw [hmark] at h
    dsimp only at h
    split_ifs at h
  rw [hmark] at h
  dsimp only at h
  set held := ledger.totalOpenQty intent.agentId (normalizeSymbol intent.symbol)
  set difference := targetNotional effectiveGross volTarget intent agentState snapshot -
    held * mark
  by_cases hbuy : intent.action = .buy ∧ difference ≤ 0
  · rw [if_pos hbuy] at h
    cases h
  rw [if_neg hbuy] at h
  by_cases hsell : intent.action = .sell ∧ 0 ≤ difference
  · rw [if_pos hsell] at h
    cases h
  rw [if_neg hsell] at h
  by_cases hnear : 0 < agentState.sleeveEquity ∧
      |difference| / agentState.sleeveEquity < rebalanceBandPct
  · rw [if_pos hnear] at h
    cases h
  rw [if_neg hnear] at h
  by_cases hbreach : 0 < difference ∧ effectiveGross * agentState.sleeveEquity <
      ledger.sleeveGrossNotional intent.agentId snapshot + difference
  · rw [if_pos hbreach] at h
    cases h
  rw [if_neg hbreach] at h
  by_cases hsmall : |difference| < minNotional
  · rw [if_pos hsmall] at h
    cases h
  rw [if_neg hsmall] at h
  by_cases hzero : roundDown fractionalQtyDigits (|difference| / mark) ≤ 0
  · rw [if_pos hzero] at h
    cases h
  rw [if_neg hzero] at h
  have hband : rebalanceBandPct * agentState.sleeveEquity ≤ |difference| := by
    rw [← le_div_iff₀ hequity]
    exact not_lt.mp fun hc => hnear ⟨hequity, hc⟩
  have hne : difference ≠ 0 := by
    intro hc
    rw [hc, abs_zero] at hsmall
    exact hsmall (by norm_num [minNotional])
  -- the verb and the sign of the difference give the side
  have hside : (match intent.action with
      | .sell => OrderSide.sell
      | .rebalanceTo => if difference < 0 then .sell else .buy
      | _ => .buy) = if 0 < difference then .buy else .sell := by
    cases hact : intent.action with
    | buy => exact (if_pos (not_le.mp fun hc => hbuy ⟨hact, hc⟩)).symm
    | sell => exact (if_neg fun hc => hsell ⟨hact, hc.le⟩).symm
    | rebalanceTo =>
      rcases lt_or_gt_of_ne hne with hneg | hpos
      · exact (if_pos hneg).trans (if_neg hneg.not_gt).symm
      · exact (if_neg hpos.not_gt).trans (if_pos hpos).symm
    | close => exact absurd hact hclose
  rw [hside] at h
  simp only [Except.ok.injEq] at h
  subst h
  have hsold : (if 0 < difference then OrderSide.buy else .sell) = .sell ↔ ¬0 < difference := by
    split_ifs with hpos
    · exact iff_of_false (by rintro ⟨⟩) (not_not.mpr hpos)
    · exact iff_of_true rfl hpos
  exact ⟨mark, held, difference, rfl, rfl, rfl, hbuy, hsell, hbreach, ⟨hband, not_lt.mp hsmall⟩,
    not_le.mp hzero, rfl, if_congr (and_congr_left' hsold) rfl rfl⟩

/-- **Sizing an intent for shares** carries out the trade it is after. -/
theorem sizeOrder_shares (hlegs : intent.legs = []) (hexit : ¬intent.IsExit)
    (hheld : ¬(intent.action = .sell ∧
      ledger.totalOpenQty intent.agentId (normalizeSymbol intent.symbol) ≤ 0))
    (hequity : 0 < agentState.sleeveEquity)
    (h : sizeOrder ledger effectiveGross volTarget intent agentState snapshot = .ok sized) :
    ∃ mark, snapshot.mark? (normalizeSymbol intent.symbol) = some mark ∧ 0 < sized.qty ∧
      (intendedTrade ledger effectiveGross volTarget intent agentState snapshot).CarriedOut
        sized.side sized.qty mark := by
  obtain ⟨mark, held, difference, hmark, rfl, rfl, hbuy, hsell, hbreach, hworth, hsome, hside,
    hqty⟩ := sizeOrder_cases hlegs (fun hc => hexit (Or.inl hc)) hequity h
  have hpos := mark_pos hmark
  set held := ledger.totalOpenQty intent.agentId (normalizeSymbol intent.symbol)
  set difference := targetNotional effectiveGross volTarget intent agentState snapshot -
    held * mark
  have hround : roundDown fractionalQtyDigits (|difference| / mark) ≤ |difference| / mark :=
    roundDown_le _ (div_nonneg (abs_nonneg _) hpos.le)
  refine ⟨mark, hmark, ?_⟩
  unfold intendedTrade
  rw [hmark, hside, hqty]
  dsimp only
  rw [if_neg hexit, if_neg (not_not.mpr hworth)]
  rcases lt_or_ge 0 difference with hup | hdown
  · -- a purchase
    have hfits : ¬(intent.action = .sell ∨ effectiveGross * agentState.sleeveEquity <
        ledger.sleeveGrossNotional intent.agentId snapshot + difference) := by
      rintro (hc | hc)
      · exact hsell ⟨hc, hup.le⟩
      · exact hbreach ⟨hup, hc⟩
    rw [if_pos hup, if_neg fun hc => hc.1 hup, if_pos hup, if_neg hfits]
    rw [abs_of_pos hup] at hround hsome ⊢
    exact ⟨hsome, rfl, (le_div_iff₀ hpos).mp hround⟩
  · -- a sale
    have hfits : ¬(intent.action = .buy ∨ intent.action = .sell ∧ held ≤ 0) := by
      rintro (hc | hc)
      · exact hbuy ⟨hc, hdown⟩
      · exact hheld hc
    rw [if_neg hdown.not_gt, if_neg hdown.not_gt, if_neg hfits]
    rw [abs_of_nonpos hdown] at hround hsome ⊢
    by_cases hhas : 0 < held
    · rw [if_pos ⟨hdown.not_gt, hhas⟩, if_pos hhas]
      exact ⟨lt_min hsome hhas, rfl, min_le_min_right _ hround⟩
    · rw [if_neg fun hc => hhas hc.2, if_neg hhas]
      exact ⟨hsome, rfl, hround⟩

end Sizing

/-! ### The planner -/

/-- The planner: how many intents it dropped and why, and what it published. -/
structure ExecutionPlanner where
  dropped : PlanReject → ℕ
  published : List IntentSizedEvent

/-- What a plan comes to: an order, or why there is none. -/
abbrev PlanResult := Except PlanReject Order

namespace ExecutionPlanner

def new : ExecutionPlanner := ⟨fun _ => 0, []⟩

/-- Drop an intent, and count it. -/
def reject (p : ExecutionPlanner) (reason : PlanReject) : ExecutionPlanner × PlanResult :=
  ({ p with dropped := Function.update p.dropped reason (p.dropped reason + 1) }, .error reason)

/-- The order for a sized intent, with the identifier and the instant it gets. -/
def orderFor (intent : Intent) (sized : SizedOrder) (orderId : OrderId) (now : Time) : Order where
  id := orderId
  intentId := intent.id
  agentId := intent.agentId
  symbol := normalizeSymbol intent.symbol
  side := sized.side
  qty := sized.qty
  orderType := .market
  orderClass := if intent.legs ≠ [] then .mleg else .simple
  timeInForce := .day
  state := .pending
  createdAt := now
  legs := intent.legs
  isLetf := normalizeSymbol intent.symbol ∈ letfWhitelist

/-- The event for a sized intent. -/
def eventFor (intent : Intent) (sized : SizedOrder) (effectiveGross volTarget : Decimal) :
    IntentSizedEvent where
  intentId := intent.id
  agentId := intent.agentId
  symbol := normalizeSymbol intent.symbol
  targetWeight := if sized.binding = .close then 0 else intent.targetWeight
  positionValueUsd := sized.positionValue
  qty := sized.qty
  effectiveVolTarget := volTarget
  effectiveMaxGrossVal := effectiveGross
  realizedVol30d := sized.realizedVol
  bindingConstraint := sized.binding
  estimatedSlippageBps := TradingPlatform.estimatedSlippageBps (normalizeSymbol intent.symbol)

/-- Publish the event, and return the order. -/
def accept (p : ExecutionPlanner) (order : Order) (event : IntentSizedEvent) :
    ExecutionPlanner × PlanResult :=
  ({ p with published := p.published ++ [event] }, .ok order)

variable (p : ExecutionPlanner) (ledger : LotLedger) (settings : SizingSettings) (intent : Intent)
  (agentState : AgentState) (snapshot : MarketSnapshot) (orderId : OrderId) (now : Time)

/-- Plan an exit: sell exactly what is open. -/
def planClose : Except MasterCapabilityError (ExecutionPlanner × PlanResult) :=
  let symbol := normalizeSymbol intent.symbol
  let openQty := ledger.totalOpenQty intent.agentId symbol
  if openQty ≤ 0 then .ok (p.reject .noPosition)
  else
    match snapshot.mark? symbol with
    | none => .ok (p.reject .noMark)
    | some mark =>
      if openQty * mark < minNotional then .ok (p.reject .subMin)
      else
        (effectiveMaxGross intent.agentId settings snapshot.vixBucket
          agentState.drawdownBucket).map fun effectiveGross =>
            let sized : SizedOrder := ⟨.sell, openQty, openQty * mark, 8 / 100, .close⟩
            -- an exit has no legs, whatever the intent has
            p.accept (orderFor { intent with legs := [] } sized orderId now)
              (eventFor intent sized effectiveGross (effectiveVolTarget intent.agentId settings))

/-- Size an intent. -/
def plan : Except MasterCapabilityError (ExecutionPlanner × PlanResult) :=
  if intent.action = .close ∨ intent.action = .sell ∧ intent.targetWeight ≤ 0 then
    p.planClose ledger settings intent agentState snapshot orderId now
  else if intent.action = .sell ∧
      ledger.totalOpenQty intent.agentId (normalizeSymbol intent.symbol) ≤ 0 then
    .ok (p.reject .noPosition)
  else
    (effectiveMaxGross intent.agentId settings snapshot.vixBucket
      agentState.drawdownBucket).map fun effectiveGross =>
        let volTarget := effectiveVolTarget intent.agentId settings
        match sizeOrder ledger effectiveGross volTarget intent agentState snapshot with
        | .error reason => p.reject reason
        | .ok sized => p.accept (orderFor intent sized orderId now)
            (eventFor intent sized effectiveGross volTarget)

variable {p ledger settings intent agentState snapshot orderId now}

theorem reject_ne (p p' : ExecutionPlanner) (reason : PlanReject) (order : Order) :
    p.reject reason ≠ (p', .ok order) := by
  rintro ⟨⟩

theorem eq_of_accept {p' : ExecutionPlanner} {planned order : Order} {event : IntentSizedEvent}
    (h : p.accept planned event = (p', .ok order)) : order = planned := by
  rw [accept, Prod.mk.injEq, Except.ok.injEq] at h
  exact h.2.symm

/-- **A planned exit** is for what is held. -/
theorem planClose_ok {p' : ExecutionPlanner} {order : Order} (hlegs : intent.legs = [])
    (hexit : intent.IsExit) (volTarget : Decimal)
    (h : p.planClose ledger settings intent agentState snapshot orderId now =
      .ok (p', .ok order)) :
    ∃ sized effectiveGross mark, order = orderFor intent sized orderId now ∧
      effectiveMaxGross intent.agentId settings snapshot.vixBucket agentState.drawdownBucket =
        .ok effectiveGross ∧
      snapshot.mark? (normalizeSymbol intent.symbol) = some mark ∧ 0 < sized.qty ∧
      (intendedTrade ledger effectiveGross volTarget intent agentState snapshot).CarriedOut
        sized.side sized.qty mark := by
  unfold planClose at h
  dsimp only at h
  by_cases hnone : ledger.totalOpenQty intent.agentId (normalizeSymbol intent.symbol) ≤ 0
  · rw [if_pos hnone] at h
    exact absurd (Except.ok.inj h) (p.reject_ne _ _ _)
  rw [if_neg hnone] at h
  rcases hmark : snapshot.mark? (normalizeSymbol intent.symbol) with _ | mark
  · rw [hmark] at h
    exact absurd (Except.ok.inj h) (p.reject_ne _ _ _)
  rw [hmark] at h
  dsimp only at h
  by_cases hsmall : ledger.totalOpenQty intent.agentId (normalizeSymbol intent.symbol) * mark <
    minNotional
  · rw [if_pos hsmall] at h
    exact absurd (Except.ok.inj h) (p.reject_ne _ _ _)
  rw [if_neg hsmall] at h
  rcases hgross : effectiveMaxGross intent.agentId settings snapshot.vixBucket
    agentState.drawdownBucket with error | effectiveGross
  · rw [hgross] at h
    cases h
  rw [hgross] at h
  -- the legs are none, so nothing is taken off the intent
  have hintent : { intent with legs := [] } = intent := by rw [← hlegs]
  rw [hintent] at h
  refine ⟨_, effectiveGross, mark, eq_of_accept (Except.ok.inj h), rfl, rfl, not_le.mp hnone, ?_⟩
  rw [intendedTrade, hmark]
  dsimp only
  rw [if_pos hexit, if_pos ⟨not_le.mp hnone, not_lt.mp hsmall⟩]
  exact ⟨rfl, le_rfl⟩

/-- **What is known of an order for shares**: it carries out what its intent is after. -/
theorem plan_ok {p' : ExecutionPlanner} {order : Order} (hlegs : intent.legs = [])
    (hequity : 0 < agentState.sleeveEquity)
    (h : p.plan ledger settings intent agentState snapshot orderId now = .ok (p', .ok order)) :
    ∃ sized effectiveGross mark, order = orderFor intent sized orderId now ∧
      effectiveMaxGross intent.agentId settings snapshot.vixBucket agentState.drawdownBucket =
        .ok effectiveGross ∧
      snapshot.mark? (normalizeSymbol intent.symbol) = some mark ∧ 0 < sized.qty ∧
      (intendedTrade ledger effectiveGross (effectiveVolTarget intent.agentId settings) intent
        agentState snapshot).CarriedOut sized.side sized.qty mark := by
  unfold plan at h
  by_cases hexit : intent.IsExit
  · rw [if_pos (by exact hexit)] at h
    exact planClose_ok hlegs hexit _ h
  rw [if_neg (by exact hexit)] at h
  by_cases hheld : intent.action = .sell ∧
    ledger.totalOpenQty intent.agentId (normalizeSymbol intent.symbol) ≤ 0
  · rw [if_pos hheld] at h
    exact absurd (Except.ok.inj h) (p.reject_ne _ _ _)
  rw [if_neg hheld] at h
  rcases hgross : effectiveMaxGross intent.agentId settings snapshot.vixBucket
    agentState.drawdownBucket with error | effectiveGross
  · rw [hgross] at h
    cases h
  rw [hgross] at h
  dsimp only [Except.map] at h
  rcases hsized : sizeOrder ledger effectiveGross
      (effectiveVolTarget intent.agentId settings) intent agentState snapshot with reason | sized
  · rw [hsized] at h
    exact absurd (Except.ok.inj h) (p.reject_ne _ _ _)
  rw [hsized] at h
  obtain ⟨mark, hmark, hqty, hcarried⟩ := sizeOrder_shares hlegs hexit hheld hequity hsized
  exact ⟨sized, effectiveGross, mark, eq_of_accept (Except.ok.inj h), rfl, hmark, hqty, hcarried⟩

end ExecutionPlanner

end TradingPlatform
