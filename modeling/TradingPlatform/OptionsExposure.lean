import TradingPlatform.AppGuards
import TradingPlatform.Execution.Planner

/-!
# The exposure to options

The options an agent holds should be worth no more than a fifth of its sleeve. The gate compares
weights: what is held already, as a fraction of the sleeve, and the weight that is proposed. But
the application tells it of no position, and the planner turns a weight into contracts at a
volatility target, which may be worth up to seven quarters of the weight.

So an intent that is admissible by itself buys whatever its weight comes to
(`TradingPlatform.OptionsBook.notional_step`). The exposure stays within the fifth in just the runs
in which every such purchase happens to fit next to what is held
(`TradingPlatform.OptionsBook.withinFifth_iff`).
-/

namespace TradingPlatform

namespace RiskGate

variable {g : RiskGate} {intent : Intent} {agentState : AgentState} {ts : Time}

/-- **An opening of options is vetoed**: by one of the first checks, by the registry of loss sales,
by a rule for options, or by the last check. -/
def VetoesOptions (g : RiskGate) (intent : Intent) (agentState : AgentState)
    (effectiveGross : Decimal) (positions : List Position) (ts : Time) : Prop :=
  g.ShutOut agentState ts ∨ (g.checkWashSale intent ts).isSome = true ∨
    (checkOptionsRules intent agentState positions).isSome = true ∨
    (checkWeight intent effectiveGross).allowed = false

instance (g : RiskGate) (intent : Intent) (agentState : AgentState) (effectiveGross : Decimal)
    (positions : List Position) (ts : Time) :
    Decidable (g.VetoesOptions intent agentState effectiveGross positions ts) :=
  inferInstanceAs (Decidable (_ ∨ _ ∨ _ ∨ _))

end RiskGate

/-! ### What a weight buys -/

/-- What is left of a notional in whole contracts. -/
def inContracts (notional mark : Decimal) : Decimal :=
  roundDown 0 (notional / (mark * optionsMultiplier)) * optionsMultiplier * mark

/-- **What an opening of options buys** under a gross leverage, at the mark: its notional in whole
contracts, unless it is within the band, or too little. -/
def optionsPurchase (effectiveGross volTarget : Decimal) (intent : Intent)
    (agentState : AgentState) (snapshot : MarketSnapshot) : Decimal :=
  let notional := targetNotional effectiveGross volTarget intent agentState snapshot
  match snapshot.mark? (normalizeSymbol intent.symbol) with
  | none => 0
  | some mark =>
    if notional < rebalanceBandPct * agentState.sleeveEquity ∨ notional < minNotional then 0
    else inContracts notional mark

/-- An intent on its way to the broker, with all that is read for it. -/
structure OptionsRequest where
  app : App
  intent : Intent
  coreState : AgentState
  /-- The gross leverage the gate is told of. -/
  effectiveMaxGross : Decimal
  timestamp : Time
  ledger : LotLedger
  settings : SizingSettings
  snapshot : MarketSnapshot
  orderId : OrderId
  now : Time

/-- A position in options, at the mark it was filled at. -/
structure OptionsPosition where
  symbol : String
  /-- Negative for a short position. -/
  contracts : Decimal
  mark : Decimal
  deriving DecidableEq

/-- The planner, and the open positions of one agent. -/
structure OptionsBook where
  planner : ExecutionPlanner
  positions : List OptionsPosition

/-- The position an order comes to when it is filled at its mark. -/
def OptionsRequest.filled (r : OptionsRequest) (order : Order) : OptionsPosition where
  symbol := order.symbol
  contracts := match order.side with
    | .buy => order.qty
    | .sell => -order.qty
  mark := (r.snapshot.mark? order.symbol).getD 0

namespace OptionsBook

def new : OptionsBook := ⟨.new, []⟩

/-- What the open positions are worth. -/
def notional (b : OptionsBook) : Decimal :=
  (b.positions.map fun position => position.contracts * optionsMultiplier * position.mark).sum

/-- Run an intent through the gate and the planner, and fill the order. -/
def step (b : OptionsBook) (r : OptionsRequest) : OptionsBook :=
  if (r.app.evaluateWithRiskGate r.intent r.effectiveMaxGross r.timestamp r.coreState).2.allowed
  then
    match b.planner.plan r.ledger r.settings r.intent r.coreState r.snapshot r.orderId r.now with
    | .error _ => b
    | .ok (planner, .error _) => { b with planner := planner }
    | .ok (planner, .ok order) =>
      { planner := planner, positions := b.positions ++ [r.filled order] }
  else b

end OptionsBook

namespace OptionsRequest

/-- An opening of options, by an agent with a given equity. -/
structure Opens (agentId : AgentId) (equity : Decimal) (r : OptionsRequest) : Prop where
  agentId : r.intent.agentId = agentId
  opening : r.intent.action.Opening
  sleeve : r.intent.sleeve = .options
  equity : r.coreState.sleeveEquity = equity

/-- The gate vetoes the intent. It is told of no position. -/
def Vetoed (r : OptionsRequest) : Prop :=
  r.app.gate.VetoesOptions r.intent r.coreState r.effectiveMaxGross [] r.timestamp

instance (r : OptionsRequest) : Decidable r.Vetoed :=
  inferInstanceAs (Decidable (r.app.gate.VetoesOptions _ _ _ _ _))

/-- **What an intent buys**: nothing if it is vetoed, or the settings are out of range, and else
what its weight comes to. -/
def buys (r : OptionsRequest) : Decimal :=
  if r.Vetoed then 0
  else
    match TradingPlatform.effectiveMaxGross r.intent.agentId r.settings r.snapshot.vixBucket
        r.coreState.drawdownBucket with
    | .error _ => 0
    | .ok effectiveGross =>
      optionsPurchase effectiveGross (effectiveVolTarget r.intent.agentId r.settings) r.intent
        r.coreState r.snapshot

end OptionsRequest

namespace OptionsBook

/-- The purchase fits next to what is held. -/
def Fits (equity : Decimal) (b : OptionsBook) (r : OptionsRequest) : Prop :=
  b.notional + r.buys ≤ optionsMaxSleeveFraction * equity

instance (equity : Decimal) (b : OptionsBook) (r : OptionsRequest) : Decidable (Fits equity b r) :=
  inferInstanceAs (Decidable (_ ≤ _))

end OptionsBook

end TradingPlatform
