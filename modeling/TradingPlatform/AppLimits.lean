import TradingPlatform.AppGuards
import TradingPlatform.Execution.Budget
import TradingPlatform.Execution.ReconcilePass
import TradingPlatform.Ops.EquitySnapshotter

/-!
# The loss limits

The portfolio is to stop opening positions once it is a quarter below its peak, or has lost two per
cent within the day, and to stop trading altogether once it is a third below. The thresholds are in
the kill switch, which has to be told what the portfolio is worth. The broker tells that to the
snapshotter, once a minute, and to everybody else who asks for the account; none of them tells the
kill switch.

`TradingPlatform.LimitRun` is a run of the application with everything that reaches the kill
switch or asks for the account, and beside it the list of what the broker reported.
`TradingPlatform.LimitRun.Enforced` is what the limits promise at a step. Since the kill switch
never enters a state that stands for a loss (`TradingPlatform.LimitRun.unharmed_run`), the promise
is kept exactly as long as it is void or some other check vetoes what the limits should:
`TradingPlatform.LimitRun.enforced_run_iff`. The switch itself would do its part:
`TradingPlatform.KillSwitchEngine.limits_run_updateNav`.
-/

namespace TradingPlatform

/-! ### Falling -/

/-- **A fall** by a fraction or more from the highest value so far: some value is that far below an
earlier one. -/
def FellBy (fraction : Decimal) (values : List Decimal) : Prop :=
  ∃ peak value, [peak, value].Sublist values ∧ value ≤ (1 - fraction) * peak

/-- A fall by a fraction or more from the first value. -/
def FellFromFirst (fraction : Decimal) : List Decimal → Prop
  | [] => False
  | first :: values => ∃ value ∈ values, value ≤ (1 - fraction) * first

section Falling

variable {fraction : Decimal} {values : List Decimal}

theorem not_fellBy_iff :
    ¬FellBy fraction values ↔ values.Pairwise fun peak value => (1 - fraction) * peak < value := by
  simp only [FellBy, not_exists, not_and, not_le, List.pairwise_iff_forall_sublist]

instance (fraction : Decimal) (values : List Decimal) : Decidable (FellBy fraction values) :=
  decidable_of_iff (¬values.Pairwise fun peak value => (1 - fraction) * peak < value)
    (not_iff_comm.mp not_fellBy_iff)

instance (fraction : Decimal) : DecidablePred (FellFromFirst fraction)
  | [] => isFalse not_false
  | _ :: _ => inferInstanceAs (Decidable (∃ _ ∈ _, _))

/-- One value more. -/
theorem fellBy_concat_iff {value : Decimal} :
    FellBy fraction (values ++ [value]) ↔
      FellBy fraction values ∨ ∃ peak ∈ values, value ≤ (1 - fraction) * peak := by
  rw [← not_iff_not, not_or, not_fellBy_iff, not_fellBy_iff, List.pairwise_append]
  simp

/-- A fall is not made good. -/
theorem FellBy.append (h : FellBy fraction values) (later : List Decimal) :
    FellBy fraction (values ++ later) := by
  obtain ⟨peak, value, hsub, hle⟩ := h
  exact ⟨peak, value, hsub.trans (List.sublist_append_left _ _), hle⟩

end Falling

/-! ### The kill switch -/

/-- The states that stand for a loss. -/
def KillSwitchState.Loss (state : KillSwitchState) : Prop :=
  state = .dailyLoss ∨ state = .drawdownHalved ∨ state = .drawdownPaused ∨
    state = .drawdownLiquidate

instance : DecidablePred KillSwitchState.Loss := fun _ =>
  inferInstanceAs (Decidable (_ ∨ _ ∨ _ ∨ _))

namespace KillSwitchEngine

/-- An operation that tells the engine of no loss. -/
def TellsNoLoss : KillSwitchOp → Prop
  | .updateDailyPnl _ | .updateNav _ => False
  | _ => True

/-- Resetting one state to the initial one. -/
theorem not_loss_reset {state cleared : KillSwitchState} (h : ¬state.Loss) :
    ¬(if state = cleared then .ok else state : KillSwitchState).Loss := by
  split_ifs
  · decide
  · exact h

/-- **Only who tells the engine of a loss** brings it into a state that stands for one. -/
theorem not_loss_step {k : KillSwitchEngine} (h : ¬k.state.Loss) (op : KillSwitchOp)
    (hop : TellsNoLoss op) : ¬(k.step op).state.Loss := by
  cases op with
  | updateDailyPnl pnlPct => exact hop.elim
  | updateNav nav => exact hop.elim
  | recordHeartbeat ts | resetDaily | clearReconciliationBreak => exact not_loss_reset h
  | checkHeartbeat ts =>
    rw [step, checkHeartbeat]
    split_ifs
    · show ¬KillSwitchState.Loss .heartbeatMissed
      decide
    · exact h
  | tripReconciliationBreak =>
    show ¬KillSwitchState.Loss .reconciliationBreak
    decide
  | tripBudgetExhausted =>
    show ¬KillSwitchState.Loss .budgetExhausted
    decide
  | recordAgentResult agentId isLoss ts =>
    rw [step, recordAgentResult]
    dsimp only
    split_ifs <;> exact h
  | isAgentBenched agentId ts =>
    rw [step, isAgentBenched]
    split
    · exact h
    · split_ifs <;> exact h

theorem canTrade_of_not_loss {k : KillSwitchEngine} (h : ¬k.state.Loss) : k.canTrade = true := by
  rw [canTrade, decide_eq_true_eq]
  rintro hc
  exact h (Or.inr (Or.inr (Or.inr hc)))

/-! ### What the switch makes of the values it is told -/

theorem state_applyDrawdown_eq_liquidate_iff {k : KillSwitchEngine} {dd : Decimal} :
    (k.applyDrawdown dd).state = .drawdownLiquidate ↔
      drawdownLiquidateThreshold ≤ dd ∨ k.state = .drawdownLiquidate := by
  unfold applyDrawdown
  by_cases hliq : drawdownLiquidateThreshold ≤ dd
  · rw [if_pos hliq]
    exact iff_of_true rfl (Or.inl hliq)
  · rw [if_neg hliq, or_iff_right hliq]
    split_ifs with hpau hstate hhal
    · exact Iff.rfl
    · exact iff_of_false not_false hstate
    · refine iff_of_false not_false fun hc => ?_
      rw [hc] at hhal
      exact absurd hhal.2 (by decide)
    · exact Iff.rfl

theorem drawdownWorse_applyDrawdown_iff {k : KillSwitchEngine} {dd : Decimal} :
    (k.applyDrawdown dd).state.drawdownWorse = true ↔
      drawdownPausedThreshold ≤ dd ∨ k.state.drawdownWorse = true := by
  have hlt : drawdownPausedThreshold < drawdownLiquidateThreshold := by
    norm_num [drawdownPausedThreshold, drawdownLiquidateThreshold]
  unfold applyDrawdown
  by_cases hpau : drawdownPausedThreshold ≤ dd
  · refine iff_of_true ?_ (Or.inl hpau)
    split_ifs with hliq hstate
    · rfl
    · rw [hstate]
      rfl
    · rfl
  · have hliq : ¬drawdownLiquidateThreshold ≤ dd := fun hc => hpau (hlt.le.trans hc)
    rw [if_neg hliq, if_neg hpau, or_iff_right hpau]
    split_ifs with hhal
    · exact iff_of_false Bool.false_ne_true fun hc => by simp [hhal.2] at hc
    · exact Iff.rfl

/-- The engine has been told some values, and nothing else. -/
structure Told (k : KillSwitchEngine) (values : List Decimal) : Prop where
  peak : (k.peakNav = none ∧ values = []) ∨
    ∃ peak ∈ values, k.peakNav = some peak ∧ ∀ value ∈ values, value ≤ peak
  blocks : k.state.blocksNewEntries = k.state.drawdownWorse
  liquidate : k.state = .drawdownLiquidate ↔ FellBy drawdownLiquidateThreshold values
  worse : k.state.drawdownWorse = true ↔ FellBy drawdownPausedThreshold values

/-- **The drawdown the engine computes** reaches a threshold when the value is that far below some
value it has been told. -/
theorem Told.le_computeDrawdown_iff {k : KillSwitchEngine} {values : List Decimal}
    (h : k.Told values) {value threshold : Decimal} (hvalue : 0 < value)
    (hpos : 0 < threshold) (hle : threshold ≤ 1) :
    threshold ≤ (k.setNav value).computeDrawdown ↔
      ∃ peak ∈ values, value ≤ (1 - threshold) * peak := by
  unfold setNav computeDrawdown
  rcases h.peak with ⟨hnone, rfl⟩ | ⟨peak, hmem, hsome, hmax⟩
  · simp [hnone, hvalue.ne', hpos]
  · simp only [hsome]
    by_cases hlt : peak < value
    · have hzero : value ≠ 0 := hvalue.ne'
      rw [if_pos hlt, if_neg hzero, sub_self, zero_div]
      refine iff_of_false hpos.not_ge ?_
      rintro ⟨v, hv, hc⟩
      nlinarith [hmax v hv]
    · have hpeak : 0 < peak := hvalue.trans_le (not_lt.mp hlt)
      rw [if_neg hlt, if_neg hpeak.ne', le_div_iff₀ hpeak]
      constructor
      · intro hc
        exact ⟨peak, hmem, by linarith⟩
      · rintro ⟨v, hv, hc⟩
        nlinarith [hmax v hv]

theorem blocksNewEntries_applyDrawdown {k : KillSwitchEngine}
    (h : k.state.blocksNewEntries = k.state.drawdownWorse) (dd : Decimal) :
    (k.applyDrawdown dd).state.blocksNewEntries = (k.applyDrawdown dd).state.drawdownWorse := by
  unfold applyDrawdown
  split_ifs
  · rfl
  · exact h
  · rfl
  · rfl
  · exact h

@[simp] theorem peakNav_applyDrawdown (k : KillSwitchEngine) (dd : Decimal) :
    (k.applyDrawdown dd).peakNav = k.peakNav := by
  unfold applyDrawdown
  split_ifs <;> rfl

/-- The highest value advances. -/
theorem Told.peak_setNav {k : KillSwitchEngine} {values : List Decimal} (h : k.Told values)
    (value : Decimal) :
    ∃ peak ∈ values ++ [value], (k.setNav value).peakNav = some peak ∧
      ∀ v ∈ values ++ [value], v ≤ peak := by
  unfold setNav
  rcases h.peak with ⟨hnone, rfl⟩ | ⟨peak, hmem, hsome, hmax⟩
  · exact ⟨value, by simp, by rw [hnone], by simp⟩
  · simp only [hsome]
    by_cases hlt : peak < value
    · refine ⟨value, by simp, by rw [if_pos hlt], fun v hv => ?_⟩
      rcases List.mem_append.mp hv with hv | hv
      · exact (hmax v hv).trans hlt.le
      · exact (List.mem_singleton.mp hv).le
    · refine ⟨peak, List.mem_append_left _ hmem, by rw [if_neg hlt], fun v hv => ?_⟩
      rcases List.mem_append.mp hv with hv | hv
      · exact hmax v hv
      · exact (List.mem_singleton.mp hv).le.trans (not_lt.mp hlt)

theorem Told.updateNav {k : KillSwitchEngine} {values : List Decimal} (h : k.Told values)
    {value : Decimal} (hvalue : 0 < value) : (k.updateNav value).Told (values ++ [value]) where
  peak := by
    rw [KillSwitchEngine.updateNav, peakNav_applyDrawdown]
    exact Or.inr (h.peak_setNav value)
  blocks := by
    have hset : (k.setNav value).state.blocksNewEntries = (k.setNav value).state.drawdownWorse :=
      h.blocks
    exact blocksNewEntries_applyDrawdown hset _
  liquidate := by
    rw [KillSwitchEngine.updateNav, state_applyDrawdown_eq_liquidate_iff, fellBy_concat_iff,
      h.le_computeDrawdown_iff hvalue (by norm_num [drawdownLiquidateThreshold])
        (by norm_num [drawdownLiquidateThreshold]), or_comm]
    exact or_congr h.liquidate Iff.rfl
  worse := by
    rw [KillSwitchEngine.updateNav, drawdownWorse_applyDrawdown_iff, fellBy_concat_iff,
      h.le_computeDrawdown_iff hvalue (by norm_num [drawdownPausedThreshold])
        (by norm_num [drawdownPausedThreshold]), or_comm]
    exact or_congr h.worse Iff.rfl

/-- **The switch does its part**: told what the portfolio is worth, and nothing else, it stops
all trading exactly after a fall by a third, and new positions exactly after one by a quarter. -/
theorem limits_run_updateNav (heartbeatTimeoutSecs : ℤ) {values : List Decimal}
    (hvalues : ∀ value ∈ values, 0 < value) :
    let k := run updateNav (new heartbeatTimeoutSecs) values
    (k.canTrade = false ↔ FellBy drawdownLiquidateThreshold values) ∧
      (k.canOpenNew = false ↔ FellBy drawdownPausedThreshold values) := by
  have htold : (run updateNav (new heartbeatTimeoutSecs) values).Told values := by
    induction values using List.reverseRecOn with
    | nil =>
      have hnil : ∀ fraction, ¬FellBy fraction [] := fun _ => not_fellBy_iff.mpr List.Pairwise.nil
      exact ⟨Or.inl ⟨rfl, rfl⟩, rfl, iff_of_false KillSwitchState.noConfusion (hnil _),
        iff_of_false Bool.false_ne_true (hnil _)⟩
    | append_singleton values value ih =>
      rw [run_concat]
      have hinit := ih fun v hv => hvalues v (List.mem_append_left _ hv)
      exact hinit.updateNav (hvalues value (by simp))
  refine ⟨?_, ?_⟩
  · rw [← htold.liquidate, canTrade]
    simp
  · rw [← htold.worse, canOpenNew, htold.blocks]
    simp

end KillSwitchEngine

/-! ### The run -/

/-- The account guards' question to the broker, if a dispatch gets so far as to plan a buy. -/
def App.accountAsked (app : App) (env : DispatchEnv) (intent : Intent) : Option Account :=
  if app.gateAllows env intent then
    (App.maybeManagerRiskCheck env intent).1.bind fun intent' =>
      match env.plan intent' (app.tracker.getState intent.agentId env.now).2 with
      | .ok order => if order.side = .buy then env.account else none
      | .error _ => none
  else none

/-- The application, with everything that tells the kill switch something or asks the broker for
the account. The kill switch is the gate's and the tracker the app's; the other components hold
copies. -/
structure LimitRun where
  app : App
  reconciler : Reconciler
  snapshotter : EquitySnapshotter
  budget : BudgetLedger
  watcher : BudgetWatcher
  /-- The equity the broker has reported. -/
  reported : List Decimal
  /-- What it has reported since the last daily reset. -/
  reportedToday : List Decimal

/-- What may happen. -/
inductive LimitOp
  | tick (tick : SnapshotTick)
  | pass (env : ReconcileEnv)
  | heartbeat (ts : Time)
  | oms (op : OmsOp)
  | fill (d : Delivery)
  | dispatch (env : DispatchEnv) (intent : Intent)
  /-- Somebody else asks for the account: for an agent's snapshot, or a message. -/
  | getAccount (account : Account)
  | recordSpend (agentId : String) (costUsd : Decimal) (callType : String) (ts : Time)
  | checkBudget
  | jobBudgetReset (today : Date)

namespace LimitRun

variable (cfg : ReconcilerConfig)

/-- The application when it is constructed: its kill switch is new and its gate knows nothing;
everything else may have been restored. -/
def start (heartbeatTimeoutSecs : ℤ) (lots : LotLedger) (tracker : AgentStateTracker) (oms : Oms)
    (snapshotter : EquitySnapshotter) (budget : BudgetLedger) : LimitRun where
  app := .init (.new heartbeatTimeoutSecs) lots tracker
  reconciler := { Reconciler.new heartbeatTimeoutSecs with oms := oms }
  snapshotter := snapshotter
  budget := budget
  watcher := .new
  reported := []
  reportedToday := []

def kill (s : LimitRun) : KillSwitchEngine := s.app.gate.kill

def setKill (s : LimitRun) (kill : KillSwitchEngine) : LimitRun :=
  { s with app := { s.app with gate := { s.app.gate with kill := kill } } }

/-- What the broker reports in an operation. An equity that is not positive is none. -/
def report (s : LimitRun) (op : LimitOp) : List Decimal :=
  let equity : Option Decimal :=
    match op with
    | .tick tick => tick.totalNav
    | .dispatch env intent => (s.app.accountAsked env intent).map (·.equity)
    | .getAccount account => some account.equity
    | _ => none
  (equity.filter fun equity => 0 < equity).toList

/-- What an operation does to the components. -/
def perform (s : LimitRun) : LimitOp → LimitRun
  | .tick tick =>
    let snapshotter := { s.snapshotter with tracker := s.app.tracker }.tickOnce s.app.gate.lots tick
    { s with snapshotter := snapshotter, app := { s.app with tracker := snapshotter.tracker } }
  | .pass env =>
    let reconciler := ({ s.reconciler with kill := s.kill }.reconcileOnce cfg env).1
    { s.setKill reconciler.kill with reconciler := reconciler }
  | .heartbeat ts => s.setKill (s.kill.recordHeartbeat ts)
  | .oms op => { s with reconciler := { s.reconciler with oms := s.reconciler.oms.step op } }
  | .fill d => { s with app := s.app.onFillReceived d }
  | .dispatch env intent => { s with app := (s.app.submitOneIntent env intent).1 }
  | .getAccount _ => s
  | .recordSpend agentId costUsd callType ts =>
    { s with budget := s.budget.recordSpend agentId costUsd callType ts }
  | .checkBudget =>
    let (watcher, kill, _) := s.watcher.checkOnce s.budget s.kill
    { s.setKill kill with watcher := watcher }
  | .jobBudgetReset today =>
    { s.setKill s.kill.resetDaily with
      budget := (s.budget.resetIfNewDay today).1
      watcher := s.watcher.reset
      reportedToday := [] }

def step (s : LimitRun) (op : LimitOp) : LimitRun :=
  { s.perform cfg op with
    reported := s.reported ++ s.report op
    reportedToday := (s.perform cfg op).reportedToday ++ s.report op }

/-! ### What the limits promise -/

/-- No position may be opened: the equity fell by a quarter, or has lost two per cent since the
daily reset. -/
def Halted (s : LimitRun) : Prop :=
  FellBy drawdownPausedThreshold s.reported ∨ FellFromFirst dailyLossThreshold s.reportedToday

instance : DecidablePred Halted := fun _ => inferInstanceAs (Decidable (_ ∨ _))

/-- An operation that puts an opening intent before the gate meets a condition. -/
def OnOpening (s : LimitRun) (p : DispatchEnv → Intent → Prop) : LimitOp → Prop
  | .dispatch env intent => intent.action.Opening → s.Halted → p env intent
  | _ => True

/-- **The loss limits are enforced** by a step: while no position may be opened an opening intent
is vetoed, and after a fall by a third nothing may trade. -/
def Enforced (s : LimitRun) (op : LimitOp) : Prop :=
  s.OnOpening (fun env intent => s.app.gateAllows env intent = false) op ∧
    (FellBy drawdownLiquidateThreshold (s.step cfg op).reported →
      (s.step cfg op).kill.canTrade = false)

/-- The gate vetoes an opening for another reason: the switch refuses new positions for something
else than a loss, or a check of the agent, its sleeve or the order fails. -/
def VetoedOtherwise (s : LimitRun) (env : DispatchEnv) (intent : Intent) : Prop :=
  s.app.gate.VetoedElsewhere intent (s.app.tracker.getState intent.agentId env.now).2
    env.effectiveMaxGross [] env.timestamp

/-- **The condition**: the equity the broker reports is never a third below what it reported
earlier, and while no position may be opened an opening intent is vetoed for another reason. -/
def Spared (s : LimitRun) (op : LimitOp) : Prop :=
  s.OnOpening s.VetoedOtherwise op ∧
    ¬FellBy drawdownLiquidateThreshold (s.reported ++ s.report op)

/-- **Nothing has told the switch of a loss**, and nothing the registries of the gate. -/
structure Unharmed (s : LimitRun) : Prop where
  kill : ¬s.kill.state.Loss
  unfed : s.app.gate.Unfed

end LimitRun

/-! ### What the components tell the kill switch -/

namespace Reconciler

variable (cfg : ReconcilerConfig) (env : ReconcileEnv)

/-- Comparing the positions trips a break, or nothing. -/
theorem kill_reconcilePositions (r : Reconciler) :
    (reconcilePositions cfg env r).1.kill = r.kill ∨
      (reconcilePositions cfg env r).1.kill = r.kill.tripReconciliationBreak := by
  cases hfetched : env.listPositions with
  | none =>
    rw [reconcilePositions_of_unfetched cfg env r hfetched]
    exact Or.inl rfl
  | some positions =>
    obtain ⟨-, ⟨-, -, hkill⟩ | ⟨-, -, hkill⟩⟩ := reconcilePositions_of_fetched cfg env r hfetched
    · exact Or.inl hkill
    · exact Or.inr hkill

/-- A pass of the reconciler tells the engine of no loss. -/
theorem not_loss_reconcileOnce {r : Reconciler} (h : ¬r.kill.state.Loss) :
    ¬(reconcileOnce cfg env r).1.kill.state.Loss := by
  have hwatched : ¬(r.kill.checkHeartbeat env.ts).state.Loss :=
    KillSwitchEngine.not_loss_step h (.checkHeartbeat env.ts) trivial
  rw [kill_of_pass]
  have hcompared :
      ¬(reconcilePositions cfg env (beforePositions cfg env r)).1.kill.state.Loss := by
    rcases kill_reconcilePositions cfg env (beforePositions cfg env r) with heq | heq
    · rw [heq]
      exact hwatched
    · rw [heq]
      exact KillSwitchEngine.not_loss_step hwatched .tripReconciliationBreak trivial
  dsimp only
  split_ifs
  · exact KillSwitchEngine.not_loss_step hcompared .clearReconciliationBreak trivial
  · exact hcompared

end Reconciler

/-- A fill tells the engine of no loss but the agent's. -/
theorem AgentStateTracker.not_loss_updateOnFill (t : AgentStateTracker) {kill : KillSwitchEngine}
    (h : ¬kill.state.Loss) (fill : Fill) (now : Time) :
    ¬(t.updateOnFill kill fill now).2.state.Loss := by
  unfold updateOnFill
  split
  · exact h
  · dsimp only
    split_ifs
    · exact KillSwitchEngine.not_loss_step h (.recordAgentResult fill.agentId true now)
        trivial
    all_goals exact h

/-- The watcher tells the engine of an exhausted budget. -/
theorem BudgetWatcher.not_loss_checkOnce (watcher : BudgetWatcher) (ledger : BudgetLedger)
    {kill : KillSwitchEngine} (h : ¬kill.state.Loss) :
    ¬(watcher.checkOnce ledger kill).2.1.state.Loss := by
  unfold checkOnce
  split_ifs
  · exact h
  · exact KillSwitchEngine.not_loss_step h .tripBudgetExhausted trivial
  · exact h

namespace RiskGate

variable {g : RiskGate}

theorem checkRules_fst_of_unfed (h : g.Unfed) (intent : Intent) (agentState : AgentState)
    (effectiveGross : Decimal) (positions : List Position) (ts : Time) :
    (g.checkRules intent agentState effectiveGross positions ts).1 = g := by
  rw [checkRules, checkWashSale_of_unfed h, ite_self, checkLetfRules_of_unfed h]
  dsimp only
  split
  · rename_i g' decision heq
    exact (congrArg Prod.fst heq).symm
  · rename_i g' heq
    have hfst : g' = g := (congrArg Prod.fst heq).symm
    split <;> exact hfst

/-- A check leaves empty registries empty. -/
theorem Unfed.checkIntent (h : g.Unfed) (intent : Intent) (agentState : AgentState)
    (effectiveGross : Decimal) (positions : List Position) (ts : Time) :
    (g.checkIntent intent agentState effectiveGross positions ts).1.Unfed := by
  have hkill : ∀ kill, RiskGate.Unfed { g with kill := kill } := fun _ => ⟨h.wash, h.letfActivity⟩
  rw [RiskGate.checkIntent]
  split
  · exact h
  · split
    · exact h
    · dsimp only
      split_ifs
      · exact hkill _
      · exact hkill _
      · rw [checkRules_fst_of_unfed (hkill _)]
        exact hkill _

theorem not_loss_checkIntent (h : ¬g.kill.state.Loss) (intent : Intent) (agentState : AgentState)
    (effectiveGross : Decimal) (positions : List Position) (ts : Time) :
    ¬(g.checkIntent intent agentState effectiveGross positions ts).1.kill.state.Loss := by
  rcases kill_checkIntent g intent agentState effectiveGross positions ts with heq | heq
  · rw [heq]
    exact h
  · rw [heq]
    exact KillSwitchEngine.not_loss_step h (.isAgentBenched agentState.agentId ts) trivial

end RiskGate

/-- What a dispatch leaves of the gate is what the check of the intent leaves. -/
theorem App.gate_submitOneIntent (app : App) (env : DispatchEnv) (intent : Intent) :
    (app.submitOneIntent env intent).1.gate =
      (app.gate.checkIntent intent (app.tracker.getState intent.agentId env.now).2
        env.effectiveMaxGross [] env.timestamp).1 := by
  unfold submitOneIntent
  dsimp only
  split
  · split <;> rfl
  · rfl

namespace LimitRun

/-! ### One step -/

variable {cfg : ReconcilerConfig} {s : LimitRun}

/-- A fall is remembered to the end of a run. -/
theorem fellBy_run {fraction : Decimal} (h : FellBy fraction s.reported) (ops : List LimitOp) :
    FellBy fraction (run (step cfg) s ops).reported := by
  have hstep : ∀ (s : LimitRun) op, FellBy fraction s.reported →
      FellBy fraction (s.step cfg op).reported := fun s op hs => hs.append (s.report op)
  have hrun := run_invariant hstep h ops
  exact hrun

theorem Unharmed.setKill (h : s.Unharmed) {kill : KillSwitchEngine} (hkill : ¬kill.state.Loss) :
    (s.setKill kill).Unharmed :=
  ⟨hkill, h.unfed.wash, h.unfed.letfActivity⟩

/-- **No operation tells the switch of a loss.** -/
theorem Unharmed.perform (h : s.Unharmed) (op : LimitOp) : (s.perform cfg op).Unharmed := by
  cases op with
  | tick | oms | getAccount | recordSpend => exact ⟨h.kill, h.unfed⟩
  | pass env =>
    have hpass := Reconciler.not_loss_reconcileOnce cfg env
      (r := { s.reconciler with kill := s.kill }) h.kill
    exact ⟨(h.setKill hpass).kill, (h.setKill hpass).unfed⟩
  | heartbeat ts =>
    exact h.setKill (KillSwitchEngine.not_loss_step h.kill (.recordHeartbeat ts) trivial)
  | fill d =>
    exact ⟨AgentStateTracker.not_loss_updateOnFill _ h.kill _ _, h.unfed.wash, h.unfed.letfActivity⟩
  | dispatch env intent =>
    have happ := s.app.gate_submitOneIntent env intent
    refine ⟨?_, ?_⟩
    · show ¬(s.app.submitOneIntent env intent).1.gate.kill.state.Loss
      rw [happ]
      exact RiskGate.not_loss_checkIntent h.kill _ _ _ _ _
    · show (s.app.submitOneIntent env intent).1.gate.Unfed
      rw [happ]
      exact h.unfed.checkIntent _ _ _ _ _
  | checkBudget =>
    have hcheck := BudgetWatcher.not_loss_checkOnce s.watcher s.budget h.kill
    exact ⟨(h.setKill hcheck).kill, (h.setKill hcheck).unfed⟩
  | jobBudgetReset today =>
    have hreset := KillSwitchEngine.not_loss_step h.kill .resetDaily trivial
    exact ⟨(h.setKill hreset).kill, (h.setKill hreset).unfed⟩

theorem Unharmed.step (h : s.Unharmed) (op : LimitOp) : (s.step cfg op).Unharmed :=
  ⟨(h.perform op).kill, (h.perform op).unfed⟩

/-- **A step enforces the limits exactly when** it is spared. -/
theorem Unharmed.enforced_iff (h : s.Unharmed) (op : LimitOp) :
    s.Enforced cfg op ↔ s.Spared op := by
  refine and_congr ?_ ?_
  · cases op with
    | dispatch env intent =>
      refine forall_congr' fun hopen => imp_congr_right fun _ => ?_
      exact RiskGate.not_allowed_iff_vetoedElsewhere h.unfed hopen _ _
    | _ => exact Iff.rfl
  · have hcan : (s.step cfg op).kill.canTrade ≠ false := by
      rw [KillSwitchEngine.canTrade_of_not_loss (h.step op).kill]
      exact Bool.true_eq_false_eq_False
    exact ⟨fun himp hfell => hcan (himp hfell), fun hnot hfell => absurd hfell hnot⟩

/-! ### Runs -/

section Runs

variable (cfg) (heartbeatTimeoutSecs : ℤ) (lots : LotLedger) (tracker : AgentStateTracker)
  (oms : Oms) (snapshotter : EquitySnapshotter) (budget : BudgetLedger) (ops : List LimitOp)

theorem unharmed_start :
    (start heartbeatTimeoutSecs lots tracker oms snapshotter budget).Unharmed :=
  ⟨of_decide_eq_true rfl, rfl, rfl⟩

/-- **The switch never hears of a loss**, whatever the broker reports. -/
theorem unharmed_run :
    (run (step cfg) (start heartbeatTimeoutSecs lots tracker oms snapshotter budget)
      ops).Unharmed :=
  run_invariant (fun _ op h => h.step op) (unharmed_start ..) ops

/-- **The runs in which the limits are enforced** are those that are spared at every step. -/
theorem enforced_run_iff :
    Along (step cfg) (Enforced cfg)
        (start heartbeatTimeoutSecs lots tracker oms snapshotter budget) ops ↔
      Along (step cfg) Spared
        (start heartbeatTimeoutSecs lots tracker oms snapshotter budget) ops :=
  along_congr_of_invariant (fun _ op h => h.step op) (fun _ op h => h.enforced_iff op)
    (unharmed_start ..) ops

end Runs

/-! ### Two runs -/

/-- A new application. -/
def idle : LimitRun :=
  start 120 .empty (.new 30000 true) .empty { tracker := .new 30000 true, hasLotLedger := true }
    (.new defaultDailyLimit)

/-- The snapshotter hears of an equity. -/
def tickAt (equity : Decimal) : LimitOp :=
  .tick
    { ts := 0, broker := some ⟨some equity, some []⟩, markedAt := fun _ => 0,
      readAt := fun _ => 0 }

/-- The portfolio falls to an equity, and Sonnet proposes to buy. -/
def buyAfter (equity : Decimal) : List LimitOp :=
  [tickAt 100000, tickAt equity, .dispatch App.quietEnv (App.tenthOf "SPY")]

/-- **Limits that nothing enforces**: two fifths of the portfolio are gone, and trading goes on;
two per cent and a half are gone within the day, and the purchase is allowed. -/
theorem not_enforced_buyAfter :
    ¬Along (step {}) (Enforced {}) idle (buyAfter 60000) ∧
      ¬Along (step {}) (Enforced {}) idle (buyAfter 97500) := by
  constructor
  · rintro ⟨-, ⟨-, hfallen⟩, -⟩
    exact absurd (hfallen (by decide +kernel)) (by decide +kernel)
  · rintro ⟨-, -, ⟨hopening, -⟩, -⟩
    exact absurd (hopening (Or.inl rfl) (by decide +kernel)) (by decide +kernel)

end LimitRun

end TradingPlatform
