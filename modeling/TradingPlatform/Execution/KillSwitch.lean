import TradingPlatform.Core.Types
import TradingPlatform.Run

/-!
# The kill switch

The engine that halts the whole portfolio, and benches single agents. It has one state
variable for five conditions – a daily loss, a drawdown, a missed heartbeat, a
reconciliation break, an exhausted budget – which every operation overwrites or resets.

Beside it stands what the switch is for: `TradingPlatform.Conditions` remembers each
condition on its own, raised by its own operation and cleared by its own, if it has
one. `TradingPlatform.Watch` runs the two side by side, and
`TradingPlatform.Watch.Unmasked` is what they should agree on: no entry is allowed
while a condition is up, and no trade once a liquidation has been ordered.

The single variable cannot keep that up. `TradingPlatform.Watch.Keeps` lists, operation
by operation, when it does: `TradingPlatform.Watch.unmasked_step_iff` says that a step
keeps the two in agreement exactly then, and
`TradingPlatform.Watch.unmasked_run_iff` carries this to every run.
-/

namespace TradingPlatform

/-! ### The engine -/

/-- Two per cent within the day. -/
def dailyLossThreshold : Decimal := 2 / 100

/-- Fifteen per cent from the peak. -/
def drawdownHalvedThreshold : Decimal := 15 / 100

/-- Twenty-five per cent from the peak. -/
def drawdownPausedThreshold : Decimal := 25 / 100

/-- Thirty-three per cent from the peak. -/
def drawdownLiquidateThreshold : Decimal := 33 / 100

def consecutiveLossBenchTrigger : ℕ := 5

def benchDuration : Time := 24 * 3600 * microsPerSecond

/-- The engine's record of one agent. -/
structure AgentRecord where
  consecutiveLosses : ℕ := 0
  benchedUntil : Option Time := none
  deriving DecidableEq

structure KillSwitchEngine where
  state : KillSwitchState
  dailyPnlPct : Decimal
  peakNav : Option Decimal
  currentNav : Option Decimal
  lastHeartbeat : Option Time
  heartbeatTimeoutSecs : ℤ
  agentRecords : AgentId → AgentRecord

/-- The states that prevent opening new positions. -/
def KillSwitchState.blocksNewEntries : KillSwitchState → Bool
  | .drawdownPaused | .drawdownLiquidate | .dailyLoss | .heartbeatMissed
  | .reconciliationBreak | .budgetExhausted => true
  | .ok | .drawdownHalved => false

/-- The drawdown states that are worse than halved. -/
def KillSwitchState.drawdownWorse : KillSwitchState → Bool
  | .drawdownPaused | .drawdownLiquidate => true
  | _ => false

namespace KillSwitchEngine

/-- A new engine. -/
def new (heartbeatTimeoutSecs : ℤ) : KillSwitchEngine where
  state := .ok
  dailyPnlPct := 0
  peakNav := none
  currentNav := none
  lastHeartbeat := none
  heartbeatTimeoutSecs := heartbeatTimeoutSecs
  agentRecords _ := {}

/-- False only when everything must be liquidated. -/
def canTrade (k : KillSwitchEngine) : Bool := k.state ≠ .drawdownLiquidate

def canOpenNew (k : KillSwitchEngine) : Bool := !k.state.blocksNewEntries

/-- The drawdown from the peak, as a positive fraction. -/
def computeDrawdown (k : KillSwitchEngine) : Decimal :=
  match k.peakNav, k.currentNav with
  | some peak, some current => if peak = 0 then 0 else (peak - current) / peak
  | _, _ => 0

/-- Trip the state a drawdown calls for, never a milder one than a pause. -/
def applyDrawdown (k : KillSwitchEngine) (dd : Decimal) : KillSwitchEngine :=
  if drawdownLiquidateThreshold ≤ dd then { k with state := .drawdownLiquidate }
  else if drawdownPausedThreshold ≤ dd then
    if k.state = .drawdownLiquidate then k else { k with state := .drawdownPaused }
  else if drawdownHalvedThreshold ≤ dd ∧ k.state.drawdownWorse = false then
    { k with state := .drawdownHalved }
  else k

/-- Set the day's profit and trip a daily loss, if nothing else has tripped. -/
def updateDailyPnl (k : KillSwitchEngine) (pnlPct : Decimal) : KillSwitchEngine :=
  { k with
    dailyPnlPct := pnlPct
    state := if pnlPct ≤ -dailyLossThreshold ∧ k.state = .ok then .dailyLoss else k.state }

/-- Set the net asset value and advance the rolling peak. -/
def setNav (k : KillSwitchEngine) (nav : Decimal) : KillSwitchEngine :=
  { k with
    peakNav := some <|
      match k.peakNav with
      | none => nav
      | some peak => if peak < nav then nav else peak
    currentNav := some nav }

def updateNav (k : KillSwitchEngine) (nav : Decimal) : KillSwitchEngine :=
  (k.setNav nav).applyDrawdown (k.setNav nav).computeDrawdown

def recordHeartbeat (k : KillSwitchEngine) (ts : Time) : KillSwitchEngine :=
  { k with
    lastHeartbeat := some ts
    state := if k.state = .heartbeatMissed then .ok else k.state }

/-- Whether the heartbeat is overdue. -/
def heartbeatOverdue (k : KillSwitchEngine) (ts : Time) : Bool :=
  match k.lastHeartbeat with
  | none => false
  | some last => k.heartbeatTimeoutSecs * microsPerSecond < ts - last

def checkHeartbeat (k : KillSwitchEngine) (ts : Time) : KillSwitchEngine :=
  if k.heartbeatOverdue ts then { k with state := .heartbeatMissed } else k

def tripReconciliationBreak (k : KillSwitchEngine) : KillSwitchEngine :=
  { k with state := .reconciliationBreak }

def tripBudgetExhausted (k : KillSwitchEngine) : KillSwitchEngine :=
  { k with state := .budgetExhausted }

/-- Called at the market open. -/
def resetDaily (k : KillSwitchEngine) : KillSwitchEngine :=
  { k with dailyPnlPct := 0, state := if k.state = .dailyLoss then .ok else k.state }

def clearReconciliationBreak (k : KillSwitchEngine) : KillSwitchEngine :=
  { k with state := if k.state = .reconciliationBreak then .ok else k.state }

/-! ### Per-agent bench -/

def setRecord (k : KillSwitchEngine) (agentId : AgentId) (record : AgentRecord) :
    KillSwitchEngine :=
  { k with agentRecords := Function.update k.agentRecords agentId record }

/-- Record a win or a loss. The flag says whether the agent was just benched. -/
def recordAgentResult (k : KillSwitchEngine) (agentId : AgentId) (isLoss : Bool) (ts : Time) :
    KillSwitchEngine × Bool :=
  let record := k.agentRecords agentId
  if isLoss then
    let losses := record.consecutiveLosses + 1
    if consecutiveLossBenchTrigger ≤ losses then
      (k.setRecord agentId
        { consecutiveLosses := losses, benchedUntil := some (ts + benchDuration) }, true)
    else (k.setRecord agentId { record with consecutiveLosses := losses }, false)
  else (k.setRecord agentId {}, false)

/-- Whether an agent is benched. Reading it after the bench has expired clears the
record. -/
def isAgentBenched (k : KillSwitchEngine) (agentId : AgentId) (ts : Time) :
    KillSwitchEngine × Bool :=
  match (k.agentRecords agentId).benchedUntil with
  | none => (k, false)
  | some benchedUntil =>
    if ts < benchedUntil then (k, true)
    else (k.setRecord agentId {}, false)

end KillSwitchEngine

/-- Map a drawdown to its bucket. -/
def classifyDrawdown (drawdownPct : Decimal) : DrawdownBucket :=
  if 25 / 100 ≤ drawdownPct then .forcedCash
  else if 15 / 100 ≤ drawdownPct then .red
  else if 10 / 100 ≤ drawdownPct then .orange
  else if 5 / 100 ≤ drawdownPct then .yellow
  else .normal

/-- One operation on the engine. -/
inductive KillSwitchOp
  | updateDailyPnl (pnlPct : Decimal)
  | updateNav (nav : Decimal)
  | recordHeartbeat (ts : Time)
  | checkHeartbeat (ts : Time)
  | tripReconciliationBreak
  | tripBudgetExhausted
  | resetDaily
  | clearReconciliationBreak
  | recordAgentResult (agentId : AgentId) (isLoss : Bool) (ts : Time)
  | isAgentBenched (agentId : AgentId) (ts : Time)
  deriving DecidableEq

def KillSwitchEngine.step (k : KillSwitchEngine) : KillSwitchOp → KillSwitchEngine
  | .updateDailyPnl pnlPct => k.updateDailyPnl pnlPct
  | .updateNav nav => k.updateNav nav
  | .recordHeartbeat ts => k.recordHeartbeat ts
  | .checkHeartbeat ts => k.checkHeartbeat ts
  | .tripReconciliationBreak => k.tripReconciliationBreak
  | .tripBudgetExhausted => k.tripBudgetExhausted
  | .resetDaily => k.resetDaily
  | .clearReconciliationBreak => k.clearReconciliationBreak
  | .recordAgentResult agentId isLoss ts => (k.recordAgentResult agentId isLoss ts).1
  | .isAgentBenched agentId ts => (k.isAgentBenched agentId ts).1

/-! ### What the switch is for -/

/-- The conditions, each on its own: whether it has been raised and not yet cleared. -/
structure Conditions where
  dailyLoss : Bool := false
  /-- A drawdown that pauses or liquidates; nothing clears it. -/
  drawdown : Bool := false
  /-- A drawdown that liquidates; nothing clears it. -/
  liquidate : Bool := false
  heartbeat : Bool := false
  reconciliation : Bool := false
  /-- Nothing clears it. -/
  budget : Bool := false
  deriving DecidableEq

namespace Conditions

/-- Some condition is up. -/
def any (c : Conditions) : Bool :=
  c.dailyLoss || c.drawdown || c.heartbeat || c.reconciliation || c.budget

/-- What an operation raises and clears. The engine is asked only for the drawdown and
for whether the heartbeat is overdue. -/
def step (k : KillSwitchEngine) (c : Conditions) : KillSwitchOp → Conditions
  | .updateDailyPnl pnlPct =>
    { c with dailyLoss := c.dailyLoss || decide (pnlPct ≤ -dailyLossThreshold) }
  | .updateNav nav =>
    let dd := (k.setNav nav).computeDrawdown
    { c with
      drawdown := c.drawdown || decide (drawdownPausedThreshold ≤ dd)
      liquidate := c.liquidate || decide (drawdownLiquidateThreshold ≤ dd) }
  | .recordHeartbeat _ => { c with heartbeat := false }
  | .checkHeartbeat ts => { c with heartbeat := c.heartbeat || k.heartbeatOverdue ts }
  | .tripReconciliationBreak => { c with reconciliation := true }
  | .tripBudgetExhausted => { c with budget := true }
  | .resetDaily => { c with dailyLoss := false }
  | .clearReconciliationBreak => { c with reconciliation := false }
  | .recordAgentResult .. | .isAgentBenched .. => c

end Conditions

/-- The engine, and the conditions it should be showing. -/
structure Watch where
  engine : KillSwitchEngine
  conditions : Conditions

namespace Watch

/-- A new engine, with nothing raised. -/
def new (heartbeatTimeoutSecs : ℤ) : Watch := ⟨.new heartbeatTimeoutSecs, {}⟩

def step (w : Watch) (op : KillSwitchOp) : Watch :=
  ⟨w.engine.step op, w.conditions.step w.engine op⟩

/-- **No condition is masked**: none is up while entries are allowed, and once a
liquidation has been ordered nothing may trade. -/
def Unmasked (w : Watch) : Prop :=
  (w.conditions.any = true → w.engine.canOpenNew = false) ∧
    (w.conditions.liquidate = true → w.engine.canTrade = false)

/-- **When an operation masks nothing.** A reset to the initial state must find no other
condition up; a daily loss must not meet a halved portfolio, which swallows it; a
drawdown that only halves must not overwrite another condition; and nothing but a
drawdown may overwrite a liquidation. -/
def Keeps (w : Watch) : KillSwitchOp → Prop
  | .updateDailyPnl pnlPct =>
    pnlPct ≤ -dailyLossThreshold → w.engine.state ≠ .drawdownHalved
  | .updateNav nav =>
    let dd := (w.engine.setNav nav).computeDrawdown
    drawdownHalvedThreshold ≤ dd → dd < drawdownPausedThreshold →
      w.engine.state.drawdownWorse = false → w.conditions.any = false
  | .recordHeartbeat _ =>
    w.engine.state = .heartbeatMissed → { w.conditions with heartbeat := false }.any = false
  | .checkHeartbeat ts => w.engine.heartbeatOverdue ts = true → w.conditions.liquidate = false
  | .tripReconciliationBreak | .tripBudgetExhausted => w.conditions.liquidate = false
  | .resetDaily =>
    w.engine.state = .dailyLoss → { w.conditions with dailyLoss := false }.any = false
  | .clearReconciliationBreak =>
    w.engine.state = .reconciliationBreak →
      { w.conditions with reconciliation := false }.any = false
  | .recordAgentResult .. | .isAgentBenched .. => True

/-! ### One step -/

theorem any_eq_true_iff {c : Conditions} :
    c.any = true ↔ c.dailyLoss = true ∨ c.drawdown = true ∨ c.heartbeat = true ∨
      c.reconciliation = true ∨ c.budget = true := by
  simp [Conditions.any, or_assoc]

/-- What no mask means in terms of the state alone. -/
theorem unmasked_iff {w : Watch} :
    w.Unmasked ↔ (w.conditions.any = true → w.engine.state.blocksNewEntries = true) ∧
      (w.conditions.liquidate = true → w.engine.state = .drawdownLiquidate) := by
  simp [Unmasked, KillSwitchEngine.canOpenNew, KillSwitchEngine.canTrade]

section Step

variable {w : Watch}

theorem unmasked_updateDailyPnl_iff (h : w.Unmasked) (pnlPct : Decimal) :
    (w.step (.updateDailyPnl pnlPct)).Unmasked ↔ w.Keeps (.updateDailyPnl pnlPct) := by
  obtain ⟨ha, hl⟩ := unmasked_iff.mp h
  rw [unmasked_iff]
  by_cases hp : pnlPct ≤ -dailyLossThreshold
  · cases hs : w.engine.state <;>
      simp_all [step, Keeps, KillSwitchEngine.step, KillSwitchEngine.updateDailyPnl,
        Conditions.step, KillSwitchState.blocksNewEntries, Conditions.any]
  · simpa [step, Keeps, KillSwitchEngine.step, KillSwitchEngine.updateDailyPnl, hp,
      Conditions.step] using ⟨ha, hl⟩

theorem unmasked_updateNav_iff (h : w.Unmasked) (nav : Decimal) :
    (w.step (.updateNav nav)).Unmasked ↔ w.Keeps (.updateNav nav) := by
  obtain ⟨ha, hl⟩ := unmasked_iff.mp h
  rw [unmasked_iff]
  have hst : (w.engine.setNav nav).state = w.engine.state := rfl
  simp only [step, Keeps, KillSwitchEngine.step, KillSwitchEngine.updateNav,
    KillSwitchEngine.applyDrawdown, Conditions.step, hst]
  generalize (w.engine.setNav nav).computeDrawdown = dd
  have h₁ : drawdownHalvedThreshold < drawdownPausedThreshold := by
    norm_num [drawdownHalvedThreshold, drawdownPausedThreshold]
  have h₂ : drawdownPausedThreshold < drawdownLiquidateThreshold := by
    norm_num [drawdownPausedThreshold, drawdownLiquidateThreshold]
  -- one case per band of the drawdown
  by_cases hliq : drawdownLiquidateThreshold ≤ dd
  · have hpau : drawdownPausedThreshold ≤ dd := h₂.le.trans hliq
    simp [hliq, hpau.not_gt, KillSwitchState.blocksNewEntries]
  by_cases hpau : drawdownPausedThreshold ≤ dd
  · by_cases hs : w.engine.state = .drawdownLiquidate
    · simp [hliq, hpau, hpau.not_gt, hs, hst, KillSwitchState.blocksNewEntries]
    · have hl' : w.conditions.liquidate = false := by
        by_contra hc
        exact hs (hl (by simpa using hc))
      simp [hliq, hpau, hpau.not_gt, hs, hl', KillSwitchState.blocksNewEntries]
  by_cases hhal : drawdownHalvedThreshold ≤ dd
  · by_cases hs : w.engine.state.drawdownWorse = true
    · simpa [hliq, hpau, hhal, hs, hst] using ⟨ha, hl⟩
    · have hl' : w.conditions.liquidate = false := by
        by_contra hc
        exact hs (by rw [hl (by simpa using hc)]; rfl)
      simp [hliq, hpau, hhal, hs, hl', not_le.mp hpau, KillSwitchState.blocksNewEntries,
        Conditions.any]
  · simpa [hliq, hpau, hhal, hst] using ⟨ha, hl⟩

/-- An operation that resets one state masks nothing exactly when no other condition is
up where it resets. -/
theorem unmasked_clear_iff (h : w.Unmasked) {engine : KillSwitchEngine} {c : Conditions}
    {cleared : KillSwitchState}
    (hstate : engine.state = if w.engine.state = cleared then .ok else w.engine.state)
    (hcleared : cleared ≠ .drawdownLiquidate) (hany : c.any = true → w.conditions.any = true)
    (hliq : c.liquidate = w.conditions.liquidate) :
    (⟨engine, c⟩ : Watch).Unmasked ↔ (w.engine.state = cleared → c.any = false) := by
  obtain ⟨ha, hl⟩ := unmasked_iff.mp h
  rw [unmasked_iff, hstate, hliq]
  by_cases hs : w.engine.state = cleared
  · have hl' : w.conditions.liquidate = false := by
      by_contra hc
      exact hcleared (hs ▸ hl (by simpa using hc))
    simp [hs, hl', KillSwitchState.blocksNewEntries]
  · simp only [hs, if_false, false_implies, iff_true]
    exact ⟨fun hc => ha (hany hc), hl⟩

/-- An operation that trips a state masks nothing exactly when no liquidation has been
ordered. -/
theorem unmasked_trip_iff {engine : KillSwitchEngine} {c : Conditions}
    {tripped : KillSwitchState} (hstate : engine.state = tripped)
    (hblocks : tripped.blocksNewEntries = true) (htripped : tripped ≠ .drawdownLiquidate)
    (hliq : c.liquidate = w.conditions.liquidate) :
    (⟨engine, c⟩ : Watch).Unmasked ↔ w.conditions.liquidate = false := by
  rw [unmasked_iff, hstate, hliq]
  simp [hblocks, htripped]

theorem unmasked_checkHeartbeat_iff (h : w.Unmasked) (ts : Time) :
    (w.step (.checkHeartbeat ts)).Unmasked ↔ w.Keeps (.checkHeartbeat ts) := by
  by_cases ho : w.engine.heartbeatOverdue ts = true
  · refine Iff.trans ?_ (forall_prop_of_true ho).symm
    exact unmasked_trip_iff
      (by rw [KillSwitchEngine.step, KillSwitchEngine.checkHeartbeat, if_pos ho]) rfl
      KillSwitchState.noConfusion rfl
  · refine iff_of_true ?_ fun hc => absurd hc ho
    rw [Bool.not_eq_true] at ho
    simpa [step, KillSwitchEngine.step, KillSwitchEngine.checkHeartbeat, Conditions.step, ho]
      using h

/-- **A step masks nothing exactly when it keeps to the list.** -/
theorem unmasked_step_iff (h : w.Unmasked) (op : KillSwitchOp) :
    (w.step op).Unmasked ↔ w.Keeps op := by
  have hrecord : ∀ engine : KillSwitchEngine, engine.state = w.engine.state →
      ((⟨engine, w.conditions⟩ : Watch).Unmasked ↔ True) := fun engine hstate =>
    iff_true_intro (unmasked_iff.mpr (by simpa [hstate] using unmasked_iff.mp h))
  cases op with
  | updateDailyPnl pnlPct => exact unmasked_updateDailyPnl_iff h pnlPct
  | updateNav nav => exact unmasked_updateNav_iff h nav
  | recordHeartbeat ts =>
    refine unmasked_clear_iff h rfl (by decide) (fun hc => ?_) rfl
    rw [any_eq_true_iff] at hc ⊢
    tauto
  | checkHeartbeat ts => exact unmasked_checkHeartbeat_iff h ts
  | tripReconciliationBreak | tripBudgetExhausted =>
    exact unmasked_trip_iff rfl rfl KillSwitchState.noConfusion rfl
  | resetDaily =>
    refine unmasked_clear_iff h rfl (by decide) (fun hc => ?_) rfl
    rw [any_eq_true_iff] at hc ⊢
    tauto
  | clearReconciliationBreak =>
    refine unmasked_clear_iff h rfl (by decide) (fun hc => ?_) rfl
    rw [any_eq_true_iff] at hc ⊢
    tauto
  | recordAgentResult agentId isLoss ts =>
    refine hrecord _ ?_
    rw [KillSwitchEngine.step, KillSwitchEngine.recordAgentResult]
    dsimp only
    split_ifs <;> rfl
  | isAgentBenched agentId ts =>
    refine hrecord _ ?_
    rw [KillSwitchEngine.step, KillSwitchEngine.isAgentBenched]
    split
    · rfl
    · split_ifs <;> rfl

end Step

theorem unmasked_new (heartbeatTimeoutSecs : ℤ) : (new heartbeatTimeoutSecs).Unmasked :=
  ⟨fun h => absurd h Bool.false_ne_true, fun h => absurd h Bool.false_ne_true⟩

/-- **The runs in which no condition is ever masked** are those whose steps all keep to
the list. -/
theorem unmasked_run_iff (heartbeatTimeoutSecs : ℤ) (ops : List KillSwitchOp) :
    (∀ pre, pre <+: ops → (run step (new heartbeatTimeoutSecs) pre).Unmasked) ↔
      Along step Keeps (new heartbeatTimeoutSecs) ops :=
  forall_reached_iff_along (P := Unmasked)
    (fun (_ : Watch) (_ : KillSwitchOp) (_ : True) => trivial)
    (fun _ op _ h => unmasked_step_iff h op) trivial (unmasked_new _) ops

/-- Budget exhausted and a reconciliation break, then the break is cleared. -/
def maskedBudgetRun : List KillSwitchOp :=
  [.tripBudgetExhausted, .tripReconciliationBreak, .clearReconciliationBreak]

/-- **A masked condition**: clearing the break also clears the exhausted budget, which
nothing has cleared. -/
theorem not_unmasked_maskedBudgetRun : ¬(run step (new 120) maskedBudgetRun).Unmasked := by
  intro h
  exact absurd (h.1 rfl) (by decide)

end Watch

end TradingPlatform
