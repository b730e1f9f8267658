import TradingPlatform.Execution.KillSwitch

/-!
# The daily budget

A ledger adds up what the language models have cost today; a watcher polls it and, when the
daily limit is reached, trips the kill switch, once, behind a flag of its own; a nightly job
starts a new day. So three objects hold one fact – the budget is exhausted – and the kill
switch's other operations overwrite the third of them.

`TradingPlatform.BudgetState.Agrees` is what they should agree on: a check that finds the
budget exhausted leaves the engine refusing new entries, and a reset to a new day leaves it out
of `BUDGET_EXHAUSTED`. Nothing restores the first once the flag is up and another operation has
opened the engine, and nothing does the second at all: the engine leaves the state only for
another alarm (`TradingPlatform.BudgetState.budgetExhausted_run`).
`TradingPlatform.BudgetState.budget_agrees_run_iff` says which runs are left.
-/

namespace TradingPlatform

/-- One call's cost. -/
structure SpendEntry where
  ts : Time
  agentId : String
  callType : String
  costUsd : Decimal
  deriving DecidableEq

/-- The spend of a single date. -/
structure BudgetLedger where
  limit : Decimal
  today : Option Date
  total : Decimal
  entries : List SpendEntry
  deriving DecidableEq

def defaultDailyLimit : Decimal := 95 / 100

namespace BudgetLedger

/-- A new ledger, without a file or with one of another day. -/
def new (dailyLimit : Decimal) : BudgetLedger where
  limit := dailyLimit
  today := none
  total := 0
  entries := []

/-- Advance to `today` if needed. -/
def ensureDate (ledger : BudgetLedger) (today : Date) : BudgetLedger :=
  if ledger.today ≠ some today then
    { ledger with today := some today, total := 0, entries := [] }
  else ledger

def recordSpend (ledger : BudgetLedger) (agentId : String) (costUsd : Decimal)
    (callType : String) (ts : Time) : BudgetLedger :=
  let ledger := ledger.ensureDate ts.date
  { ledger with
    total := ledger.total + costUsd
    entries := ledger.entries ++
      [{ ts := ts, agentId := agentId, callType := callType, costUsd := costUsd }] }

/-- Start a new day. The flag says whether the ledger was reset. -/
def resetIfNewDay (ledger : BudgetLedger) (today : Date) : BudgetLedger × Bool :=
  if ledger.today = some today then (ledger, false)
  else ({ ledger with today := some today, total := 0, entries := [] }, true)

def todaySpent (ledger : BudgetLedger) : Decimal := ledger.total

def remaining (ledger : BudgetLedger) : Decimal := max (ledger.limit - ledger.total) 0

def isExhausted (ledger : BudgetLedger) : Bool := ledger.limit ≤ ledger.total

def dailyLimit (ledger : BudgetLedger) : Decimal := ledger.limit

section Api

variable (ledger : BudgetLedger) (agentId : String) (costUsd : Decimal) (callType : String)
  (ts : Time)

@[simp] theorem limit_ensureDate (today : Date) :
    (ledger.ensureDate today).limit = ledger.limit := by
  unfold ensureDate
  split_ifs <;> rfl

@[simp] theorem limit_recordSpend :
    (ledger.recordSpend agentId costUsd callType ts).limit = ledger.limit :=
  ledger.limit_ensureDate ts.date

@[simp] theorem total_recordSpend :
    (ledger.recordSpend agentId costUsd callType ts).total =
      (ledger.ensureDate ts.date).total + costUsd := rfl

end Api

end BudgetLedger

/-- The watcher's flag, and what it has published: the spend of each exhausted budget. -/
structure BudgetWatcher where
  tripped : Bool
  published : List Decimal
  deriving DecidableEq

namespace BudgetWatcher

def new : BudgetWatcher := ⟨false, []⟩

/-- A single check. The flag says whether the budget just tripped the kill switch. -/
def checkOnce (watcher : BudgetWatcher) (ledger : BudgetLedger) (kill : KillSwitchEngine) :
    BudgetWatcher × KillSwitchEngine × Bool :=
  if watcher.tripped then (watcher, kill, false)
  else if ledger.isExhausted then
    ({ tripped := true, published := watcher.published ++ [ledger.todaySpent] },
      kill.tripBudgetExhausted, true)
  else (watcher, kill, false)

/-- Called alongside the ledger's reset. -/
def reset (watcher : BudgetWatcher) : BudgetWatcher := { watcher with tripped := false }

end BudgetWatcher

/-- The ledger, the watcher and the kill switch. -/
structure BudgetState where
  ledger : BudgetLedger
  watcher : BudgetWatcher
  kill : KillSwitchEngine

/-- One operation on the three. -/
inductive BudgetOp
  | recordSpend (agentId : String) (costUsd : Decimal) (callType : String) (ts : Time)
  | checkOnce
  | jobBudgetReset (today : Date)
  | kill (op : KillSwitchOp)
  deriving DecidableEq

namespace BudgetState

/-- At the start of the process: a ledger, which may have been read from a file of today. -/
def start (ledger : BudgetLedger) (heartbeatTimeoutSecs : ℤ) : BudgetState where
  ledger := ledger
  watcher := .new
  kill := .new heartbeatTimeoutSecs

def checkOnce (s : BudgetState) : BudgetState :=
  let (watcher, kill, _) := s.watcher.checkOnce s.ledger s.kill
  { s with watcher := watcher, kill := kill }

/-- The nightly job. -/
def jobBudgetReset (s : BudgetState) (today : Date) : BudgetState where
  ledger := (s.ledger.resetIfNewDay today).1
  watcher := s.watcher.reset
  kill := s.kill.resetDaily

def step (s : BudgetState) : BudgetOp → BudgetState
  | .recordSpend agentId costUsd callType ts =>
    { s with ledger := s.ledger.recordSpend agentId costUsd callType ts }
  | .checkOnce => s.checkOnce
  | .jobBudgetReset today => s.jobBudgetReset today
  | .kill op => { s with kill := s.kill.step op }

/-! ### What the three should agree on -/

/-- **The three agree** after an operation: a check that finds the budget exhausted leaves the
engine refusing new entries, and a reset to a new day leaves it out of `BUDGET_EXHAUSTED`. -/
def Agrees (s : BudgetState) : BudgetOp → Prop
  | .checkOnce => s.ledger.isExhausted = true → (s.step .checkOnce).kill.canOpenNew = false
  | .jobBudgetReset today => s.ledger.today ≠ some today →
    (s.step (.jobBudgetReset today)).kill.state ≠ .budgetExhausted
  | .recordSpend .. | .kill _ => True

/-- **When they do.** The watcher must not have tripped before in a state the engine has since
been brought out of, and a new day must not find the engine in `BUDGET_EXHAUSTED`. -/
def InStep (s : BudgetState) : BudgetOp → Prop
  | .checkOnce => s.ledger.isExhausted = true → s.watcher.tripped = true →
    s.kill.state.blocksNewEntries = true
  | .jobBudgetReset today => s.ledger.today ≠ some today → s.kill.state ≠ .budgetExhausted
  | .recordSpend .. | .kill _ => True

/-! ### One operation -/

/-- A check finds the engine as it was, or trips it. -/
theorem kill_checkOnce (s : BudgetState) :
    s.checkOnce.kill =
      if s.watcher.tripped = false ∧ s.ledger.isExhausted = true then s.kill.tripBudgetExhausted
      else s.kill := by
  unfold checkOnce BudgetWatcher.checkOnce
  cases s.watcher.tripped <;> cases s.ledger.isExhausted <;> rfl

/-- The daily reset clears a daily loss only. -/
theorem state_resetDaily_eq_budgetExhausted_iff {k : KillSwitchEngine} :
    k.resetDaily.state = .budgetExhausted ↔ k.state = .budgetExhausted := by
  unfold KillSwitchEngine.resetDaily
  by_cases h : k.state = .dailyLoss <;> simp [h]

/-- **An operation leaves the three in agreement exactly when** it finds them in step. -/
theorem agrees_iff_inStep (s : BudgetState) (op : BudgetOp) : s.Agrees op ↔ s.InStep op := by
  cases op with
  | recordSpend agentId costUsd callType ts => exact Iff.rfl
  | kill op => exact Iff.rfl
  | checkOnce =>
    refine imp_congr_right fun he => ?_
    rw [step, kill_checkOnce]
    cases ht : s.watcher.tripped with
    | false =>
      rw [if_pos ⟨rfl, he⟩]
      exact iff_of_true rfl fun h => absurd h Bool.false_ne_true
    | true => simp [KillSwitchEngine.canOpenNew]
  | jobBudgetReset today =>
    exact imp_congr_right fun _ => not_congr state_resetDaily_eq_budgetExhausted_iff

/-- **The runs in which the three agree** after every operation are those whose operations all
find them in step. -/
theorem budget_agrees_run_iff (s : BudgetState) (ops : List BudgetOp) :
    (∀ pre op, pre ++ [op] <+: ops → (run step s pre).Agrees op) ↔ Along step InStep s ops := by
  rw [← along_iff_forall_before]
  exact along_congr_of_invariant (fun (_ : BudgetState) (_ : BudgetOp) (_ : True) => trivial)
    (fun s op _ => agrees_iff_inStep s op) trivial ops

/-! ### An exhausted budget lasts -/

/-- The operation raises no alarm other than the budget's. -/
def NoOtherAlarm (s : BudgetState) : BudgetOp → Prop
  | .kill (.updateNav nav) => (s.kill.setNav nav).computeDrawdown < drawdownHalvedThreshold
  | .kill (.checkHeartbeat ts) => s.kill.heartbeatOverdue ts = false
  | .kill .tripReconciliationBreak => False
  | _ => True

/-- A drawdown below the first threshold changes no state. -/
theorem state_updateNav_of_lt {k : KillSwitchEngine} {nav : Decimal}
    (h : (k.setNav nav).computeDrawdown < drawdownHalvedThreshold) :
    (k.updateNav nav).state = k.state := by
  have h₁ : drawdownHalvedThreshold < drawdownPausedThreshold := by
    norm_num [drawdownHalvedThreshold, drawdownPausedThreshold]
  have h₂ : drawdownPausedThreshold < drawdownLiquidateThreshold := by
    norm_num [drawdownPausedThreshold, drawdownLiquidateThreshold]
  have hhal : ¬drawdownHalvedThreshold ≤ (k.setNav nav).computeDrawdown := not_le.mpr h
  have hpau : ¬drawdownPausedThreshold ≤ (k.setNav nav).computeDrawdown :=
    not_le.mpr (h.trans h₁)
  have hliq : ¬drawdownLiquidateThreshold ≤ (k.setNav nav).computeDrawdown :=
    not_le.mpr (h.trans (h₁.trans h₂))
  rw [KillSwitchEngine.updateNav, KillSwitchEngine.applyDrawdown, if_neg hliq, if_neg hpau,
    if_neg fun hc => hhal hc.1]
  rfl

/-- `BUDGET_EXHAUSTED` is left for another alarm only: not by a reset, a heartbeat or the end
of a reconciliation break. -/
theorem budgetExhausted_step {s : BudgetState} (h : s.kill.state = .budgetExhausted)
    {op : BudgetOp} (hop : s.NoOtherAlarm op) : (s.step op).kill.state = .budgetExhausted := by
  cases op with
  | recordSpend agentId costUsd callType ts => exact h
  | checkOnce =>
    rw [step, kill_checkOnce]
    split_ifs
    · rfl
    · exact h
  | jobBudgetReset today => exact state_resetDaily_eq_budgetExhausted_iff.mpr h
  | kill op =>
    change (s.kill.step op).state = _
    cases op with
    | updateDailyPnl pnlPct =>
      simp [KillSwitchEngine.step, KillSwitchEngine.updateDailyPnl, h]
    | updateNav nav => exact (state_updateNav_of_lt hop).trans h
    | recordHeartbeat ts => simp [KillSwitchEngine.step, KillSwitchEngine.recordHeartbeat, h]
    | checkHeartbeat ts =>
      have ho : s.kill.heartbeatOverdue ts = false := hop
      simp [KillSwitchEngine.step, KillSwitchEngine.checkHeartbeat, ho, h]
    | tripReconciliationBreak => exact hop.elim
    | tripBudgetExhausted => rfl
    | resetDaily => exact state_resetDaily_eq_budgetExhausted_iff.mpr h
    | clearReconciliationBreak =>
      simp [KillSwitchEngine.step, KillSwitchEngine.clearReconciliationBreak, h]
    | recordAgentResult agentId isLoss ts =>
      rw [KillSwitchEngine.step, KillSwitchEngine.recordAgentResult]
      dsimp only
      split_ifs <;> exact h
    | isAgentBenched agentId ts =>
      rw [KillSwitchEngine.step, KillSwitchEngine.isAgentBenched]
      split
      · exact h
      · split_ifs <;> exact h

/-- **An exhausted budget outlasts every new day**, until another alarm overwrites it. -/
theorem budgetExhausted_run {s : BudgetState} (h : s.kill.state = .budgetExhausted)
    {ops : List BudgetOp} (hops : Along step NoOtherAlarm s ops) :
    (run step s ops).kill.state = .budgetExhausted := by
  have hstep : ∀ s op, s.kill.state = .budgetExhausted → NoOtherAlarm s op →
      (step s op).kill.state = .budgetExhausted :=
    fun _ _ hs hop => budgetExhausted_step hs hop
  exact hops.invariant hstep h

/-! ### Two runs -/

/-- A dollar is spent and the alarm sounds; then the next day begins. -/
def overnight : List BudgetOp :=
  [.recordSpend "haiku" 1 "observe" 0, .checkOnce, .jobBudgetReset 1]

/-- A dollar is spent and the alarm sounds; a heartbeat is missed and the next one comes; then
the watcher looks again. -/
def missedHeartbeat : List BudgetOp :=
  [.kill (.recordHeartbeat 0), .recordSpend "haiku" 1 "observe" 0, .checkOnce,
    .kill (.checkHeartbeat (300 * microsPerSecond)),
    .kill (.recordHeartbeat (301 * microsPerSecond)), .checkOnce]

/-- **Neither half holds**: the next day begins in `BUDGET_EXHAUSTED`, and a heartbeat reopens
an engine whose budget is spent. -/
theorem not_agrees_overnight_missedHeartbeat :
    ¬(∀ pre op, pre ++ [op] <+: overnight →
        (run step (start (.new defaultDailyLimit) 120) pre).Agrees op) ∧
      ¬(∀ pre op, pre ++ [op] <+: missedHeartbeat →
        (run step (start (.new defaultDailyLimit) 120) pre).Agrees op) := by
  constructor
  · intro h
    have hreset := h [.recordSpend "haiku" 1 "observe" 0, .checkOnce] (.jobBudgetReset 1)
      (List.prefix_refl _)
    exact hreset (by decide) (by decide +kernel)
  · intro h
    have hcheck := h
      [.kill (.recordHeartbeat 0), .recordSpend "haiku" 1 "observe" 0, .checkOnce,
        .kill (.checkHeartbeat (300 * microsPerSecond)),
        .kill (.recordHeartbeat (301 * microsPerSecond))] .checkOnce (List.prefix_refl _)
    exact absurd (hcheck (by decide +kernel)) (by decide +kernel)

end BudgetState

end TradingPlatform
