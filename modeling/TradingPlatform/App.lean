import TradingPlatform.Execution.AgentStateTracker
import TradingPlatform.Execution.Broker
import TradingPlatform.Execution.Risk

/-!
# Dispatching an intent

An intent goes from its agent through the risk gate, and through the Manager's review if it is
large and bold, to the execution planner; the order the planner makes goes through the account
guards to the order management system. What a dispatch does is the list of its effects, in
order (`TradingPlatform.DispatchEffect`); what it gets from outside is a
`TradingPlatform.DispatchEnv`.

The weight the planner gets is decided by three components. The gate returns a weight to reduce
the intent to, and the dispatch does not use it; the Manager may "downsize" an intent to any
number. `TradingPlatform.App.weightCapped_iff` says when the cap holds all the same.
-/

namespace TradingPlatform

/-- The number in a Manager's response. -/
inductive RawWeight
  | missing
  | unparseable
  | number (weight : Decimal)
  deriving DecidableEq

/-- A Manager's response. -/
structure ManagerReview where
  /-- As text, empty if there is none. -/
  decision : String
  downsizeToWeight : RawWeight
  deriving DecidableEq

/-- The broker's view of the account. -/
structure Account where
  equity : Decimal
  cash : Decimal
  buyingPower : Decimal
  deriving DecidableEq

/-- Why an account guard stops an order, with the numbers its message shows. -/
inductive AccountVeto
  | buyingPower (intended available : Decimal)
  | buyingPowerZero
  | leverageCap (projected : Decimal)
  deriving DecidableEq

/-- What a dispatch does. -/
inductive DispatchEffect
  | intentSubmitted (intent : Intent)
  | intentRejected (intentId : IntentId) (reason : String)
  | intentApproved (intentId : IntentId)
  | outcome (intentId : IntentId) (agentId : AgentId) (text : String)
  | accountVetoed (intentId : IntentId) (agentId : AgentId) (veto : AccountVeto)
  /-- The planner is called. -/
  | plan (intent : Intent)
  | submitOrder (order : Order)
  deriving DecidableEq

/-- What a dispatch gets from outside. -/
structure DispatchEnv where
  now : Time
  /-- The instant of the agent's view of the market. -/
  timestamp : Time
  effectiveMaxGross : Decimal
  /-- The call types of today's budget entries, unless the ledger cannot be read. -/
  budgetEntries : Option (List String)
  /-- The response to a full review, unless the call raises. -/
  riskCheck : Option ManagerReview
  /-- The response to a review by the cheaper model. -/
  riskCheckLite : Option ManagerReview
  /-- The planner: an order, or why there is none. -/
  plan : Intent → AgentState → Except String Order
  account : Option Account
  currentPrices : Dict String Decimal
  /-- Whether submitting the order raises. -/
  submitRaises : Bool

/-- The components a dispatch works on. -/
structure App where
  gate : RiskGate
  tracker : AgentStateTracker

namespace App

def riskCheckConvictionMin : ℤ := 9

def riskCheckTargetWeightMin : Decimal := 8 / 100

def riskCheckOpusDailyCeiling : ℕ := 2

def accountLeverageCap : Decimal := 150 / 100

def buyingPowerUtilizationCap : Decimal := 90 / 100

/-! ### The Manager's review -/

/-- Today's full reviews; none if the ledger cannot be read. -/
def riskCheckOpusCountToday (env : DispatchEnv) : ℕ :=
  match env.budgetEntries with
  | none => 0
  | some entries => (entries.filter (· = "risk_check")).length

/-- The review of an intent: none if it is too small or too timid for one, and none if the call
raises. -/
def managerReview (env : DispatchEnv) (intent : Intent) : Option ManagerReview :=
  if intent.conviction < riskCheckConvictionMin ∨ intent.targetWeight < riskCheckTargetWeightMin
  then none
  else if riskCheckOpusCountToday env < riskCheckOpusDailyCeiling then env.riskCheck
  else env.riskCheckLite

/-- Run the review. The result is the intent to go on with, possibly resized, or none if it was
vetoed. -/
def maybeManagerRiskCheck (env : DispatchEnv) (intent : Intent) :
    Option Intent × List DispatchEffect :=
  match managerReview env intent with
  | none => (some intent, [])
  | some review =>
    let decision := review.decision.toLower
    if decision = "veto" then
      (none, [.intentRejected intent.id "vetoed:manager_risk_check",
        .outcome intent.id intent.agentId "vetoed:manager_risk_check"])
    else if decision = "downsize" then
      match review.downsizeToWeight with
      | .missing | .unparseable => (some intent, [])
      | .number weight => (some { intent with targetWeight := weight }, [])
    else (some intent, [])

/-! ### Account guards -/

/-- The guards on a buy: buying power, then leverage. -/
def accountLevelPreCheck (env : DispatchEnv) (order : Order) : Option AccountVeto :=
  if order.side ≠ .buy then none
  else
    match env.account, env.currentPrices.get? (normalizeSymbol order.symbol) with
    | some account, some mark =>
      if mark ≤ 0 then none
      else
        let intended := order.qty * mark
        if 0 < account.buyingPower ∧ buyingPowerUtilizationCap * account.buyingPower < intended then
          some (.buyingPower intended account.buyingPower)
        else if account.buyingPower ≤ 0 ∧ 0 < intended then some .buyingPowerZero
        else if 0 < account.equity ∧
            accountLeverageCap < (account.equity - account.cash + intended) / account.equity then
          some (.leverageCap ((account.equity - account.cash + intended) / account.equity))
        else none
    | _, _ => none

/-! ### Dispatch -/

/-- From the planner to the order management system. The flag says whether an order was
submitted. -/
def planAndSubmit (env : DispatchEnv) (intent : Intent) (coreState : AgentState) :
    Bool × List DispatchEffect :=
  match env.plan intent coreState with
  | .error reason => (false, [.plan intent, .outcome intent.id intent.agentId reason])
  | .ok order =>
    match accountLevelPreCheck env order with
    | some veto => (false, [.plan intent, .accountVetoed intent.id intent.agentId veto])
    | none =>
      if env.submitRaises then
        (false, [.plan intent, .submitOrder order,
          .outcome intent.id intent.agentId "submit_error"])
      else (true, [.plan intent, .submitOrder order])

/-- Run one intent through the gate, the review and the planner. -/
def submitOneIntent (app : App) (env : DispatchEnv) (intent : Intent) :
    App × Bool × List DispatchEffect :=
  let (tracker, coreState) := app.tracker.getState intent.agentId env.now
  let (gate, decision) := app.gate.checkIntent intent coreState env.effectiveMaxGross []
    env.timestamp
  let app := { app with gate := gate, tracker := tracker }
  if decision.allowed then
    -- the decision's capped weight goes no further
    match maybeManagerRiskCheck env intent with
    | (none, effects) =>
      (app, false, [.intentSubmitted intent, .intentApproved intent.id] ++ effects)
    | (some intent', effects) =>
      let (submitted, planned) := planAndSubmit env intent' coreState
      (app, submitted, [.intentSubmitted intent, .intentApproved intent.id] ++ effects ++ planned)
  else
    let reason := orDefault decision.vetoReason "risk_gate"
    (app, false, [.intentSubmitted intent, .intentRejected intent.id reason,
      .outcome intent.id intent.agentId ("vetoed:" ++ reason)])

/-! ### The weight the planner gets -/

/-- The gate's decision on an intent. -/
def gateAllows (app : App) (env : DispatchEnv) (intent : Intent) : Bool :=
  (app.gate.checkIntent intent (app.tracker.getState intent.agentId env.now).2
    env.effectiveMaxGross [] env.timestamp).2.allowed

/-- **The single-name cap holds**: the planner gets no more than the agent's cap, and no more
than the agent proposed. -/
def WeightCapped (app : App) (env : DispatchEnv) (intent : Intent) : Prop :=
  ∀ planned, .plan planned ∈ (app.submitOneIntent env intent).2.2 →
    planned.targetWeight ≤ agentSingleNameCaps intent.agentId ∧
      planned.targetWeight ≤ intent.targetWeight

/-- The number a review downsizes an intent to. -/
def downsizedTo (env : DispatchEnv) (intent : Intent) : Option Decimal :=
  match managerReview env intent with
  | some ⟨decision, .number weight⟩ => if decision.toLower = "downsize" then some weight else none
  | _ => none

/-- Whether a review vetoes an intent. -/
def managerVetoes (env : DispatchEnv) (intent : Intent) : Bool :=
  (managerReview env intent).any fun review => review.decision.toLower = "veto"

/-- What the review makes of an intent. -/
theorem maybeManagerRiskCheck_fst (env : DispatchEnv) (intent : Intent) :
    (maybeManagerRiskCheck env intent).1 =
      if managerVetoes env intent then none
      else some { intent with
        targetWeight := (downsizedTo env intent).getD intent.targetWeight } := by
  rw [maybeManagerRiskCheck, managerVetoes, downsizedTo]
  rcases managerReview env intent with _ | ⟨decision, weight⟩
  · rfl
  · dsimp only [Option.any_some]
    by_cases hveto : decision.toLower = "veto"
    · simp [hveto]
    · by_cases hdown : decision.toLower = "downsize"
      · cases weight <;> simp [hdown]
      · cases weight <;> simp [hveto, hdown]

theorem not_plan_mem_maybeManagerRiskCheck (env : DispatchEnv) (intent planned : Intent) :
    .plan planned ∉ (maybeManagerRiskCheck env intent).2 := by
  rw [maybeManagerRiskCheck]
  split
  · exact List.not_mem_nil
  · dsimp only
    split_ifs
    · simp
    · split <;> exact List.not_mem_nil
    · exact List.not_mem_nil

/-- The planner is called once, with the intent it is handed. -/
theorem plan_mem_planAndSubmit (env : DispatchEnv) (intent planned : Intent)
    (coreState : AgentState) :
    .plan planned ∈ (planAndSubmit env intent coreState).2 ↔ planned = intent := by
  rw [planAndSubmit]
  split
  · simp
  · split
    · simp
    · split_ifs <;> simp

/-- **What the planner gets**: nothing if the gate or the Manager vetoes, and otherwise the
intent with the weight the Manager downsized it to, if it did. -/
theorem plan_mem_submitOneIntent (app : App) (env : DispatchEnv) (intent planned : Intent) :
    .plan planned ∈ (app.submitOneIntent env intent).2.2 ↔
      app.gateAllows env intent = true ∧ managerVetoes env intent = false ∧
        planned = { intent with
          targetWeight := (downsizedTo env intent).getD intent.targetWeight } := by
  have hfst := maybeManagerRiskCheck_fst env intent
  have hno := not_plan_mem_maybeManagerRiskCheck env intent planned
  rw [submitOneIntent, gateAllows]
  dsimp only
  split
  · rename_i hallowed
    rw [and_iff_right hallowed]
    rcases hreview : maybeManagerRiskCheck env intent with ⟨_ | intent', effects⟩
    · rw [hreview] at hfst hno
      have hveto : managerVetoes env intent = true := by
        by_contra hc
        rw [if_neg hc] at hfst
        exact absurd hfst.symm (Option.some_ne_none _)
      simpa [hveto] using hno
    · rw [hreview] at hfst hno
      have hveto : managerVetoes env intent = false := by
        by_contra hc
        rw [if_pos (by simpa using hc)] at hfst
        exact absurd hfst (Option.some_ne_none _)
      rw [hveto, if_neg Bool.false_ne_true, Option.some_inj] at hfst
      have hplan := plan_mem_planAndSubmit env intent' planned
        (app.tracker.getState intent.agentId env.now).2
      rw [← hfst]
      simpa [hno, hveto] using hplan
  · rename_i hdenied
    simp [hdenied]

/-- **When the cap is enforced end to end**: when the intent is vetoed, or the Manager downsizes
it to no more than the cap and the proposal, or nobody downsizes it and the proposal keeps to
the cap by itself. -/
theorem weightCapped_iff (app : App) (env : DispatchEnv) (intent : Intent) :
    app.WeightCapped env intent ↔
      app.gateAllows env intent = false ∨ managerVetoes env intent = true ∨
        match downsizedTo env intent with
        | some weight =>
          weight ≤ agentSingleNameCaps intent.agentId ∧ weight ≤ intent.targetWeight
        | none => intent.targetWeight ≤ agentSingleNameCaps intent.agentId := by
  have hiff := plan_mem_submitOneIntent app env intent
  simp only [WeightCapped, hiff]
  cases hgate : app.gateAllows env intent with
  | false => simp
  | true =>
    cases hveto : managerVetoes env intent with
    | true => simp
    | false =>
      rcases downsizedTo env intent with _ | weight <;> simp

/-- A new app. -/
def fresh : App where
  gate := .new 120
  tracker := .new 30000 false

/-- A dispatch in which the planner makes no order, and no review is available. -/
def quietEnv : DispatchEnv where
  now := 0
  timestamp := 0
  effectiveMaxGross := 1
  budgetEntries := some []
  riskCheck := none
  riskCheckLite := none
  plan _ _ := .error "no_mark"
  account := none
  currentPrices := .empty
  submitRaises := false

/-- Haiku proposes to put half of its sleeve into one fund. -/
def halfSleeve : Intent where
  id := 1
  agentId := .haiku
  symbol := "SPY"
  action := .buy
  targetWeight := 50 / 100
  sleeve := .equity
  conviction := 5

/-- **A cap that goes no further**: the gate reduces the intent to a quarter, and the planner
gets a half. -/
theorem not_weightCapped_halfSleeve : ¬fresh.WeightCapped quietEnv halfSleeve := by
  intro h
  have hplanned : .plan halfSleeve ∈ (fresh.submitOneIntent quietEnv halfSleeve).2.2 := by
    rw [plan_mem_submitOneIntent]
    exact ⟨by decide +kernel, rfl, rfl⟩
  exact absurd (h halfSleeve hplanned).1 (by decide +kernel)

end App

end TradingPlatform
