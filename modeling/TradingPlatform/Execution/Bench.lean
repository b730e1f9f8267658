import TradingPlatform.Execution.AgentStateTracker
import TradingPlatform.Execution.Risk
import TradingPlatform.Run

/-!
# The bench, where it counts

Five losses in a row bench an agent. The tracker counts the losses and sets its own flag; the
gate asks the kill switch, which counts only what the tracker tells it.

`TradingPlatform.BenchWatch` runs tracker and gate side by side and keeps the streak of each
agent's losing sells on its own: a sell counts if the tracker knows what was paid, and a winning
one ends the streak. `TradingPlatform.BenchWatch.Agrees` is what the two components should agree
on: a streak of five closes the gate for a day, and flag and kill switch say the same at any
time.

The tracker tells the kill switch of a loss from the fifth on, so the kill switch counts one
where the tracker counts five. The two therefore agree throughout a run exactly when no streak
in it reaches five: `TradingPlatform.BenchWatch.agrees_run_iff`.
-/

namespace TradingPlatform

/-- Whether a fill is a sell of known cost, and whether it is at a loss. -/
def PerAgentRecord.trackedLoss? (record : PerAgentRecord) (fill : Fill) : Option Bool :=
  match fill.side with
  | .buy => none
  | .sell => (record.avgCost.get? fill.symbol).map fun avgCost => fill.price < avgCost

/-- The tracker and the gate, and the losses they should know of. -/
structure BenchWatch where
  tracker : AgentStateTracker
  gate : RiskGate
  /-- The losing sells in a row of each agent. -/
  streak : AgentId → ℕ
  /-- When the last of them was. -/
  lastLoss : AgentId → Time

/-- What may happen: a fill reaches the tracker, the tracker marks an agent's positions, its
state of an agent is read, the gate checks an intent. -/
inductive BenchOp
  | fill (fill : Fill) (now : Time)
  | mark (agentId : AgentId) (markPrices : Dict String Decimal) (now : Time)
  | read (agentId : AgentId) (now : Time)
  | check (intent : Intent) (agentState : AgentState) (effectiveGross : Decimal)
      (positions : List Position) (ts : Time)

namespace BenchWatch

/-- A tracker that is new, over a gate whose kill switch is. -/
def new (startingEquity : Decimal) (hasBus : Bool) (gate : RiskGate)
    (heartbeatTimeoutSecs : ℤ) : BenchWatch where
  tracker := .new startingEquity hasBus
  gate := { gate with kill := .new heartbeatTimeoutSecs }
  streak _ := 0
  lastLoss _ := 0

/-- Count a fill. -/
def count (w : BenchWatch) (fill : Fill) (now : Time) : BenchWatch :=
  match (w.tracker.records fill.agentId).trackedLoss? fill with
  | none => w
  | some true =>
    { w with
      streak := Function.update w.streak fill.agentId (w.streak fill.agentId + 1)
      lastLoss := Function.update w.lastLoss fill.agentId now }
  | some false => { w with streak := Function.update w.streak fill.agentId 0 }

def step (w : BenchWatch) : BenchOp → BenchWatch
  | .fill fill now =>
    { w.count fill now with
      tracker := (w.tracker.updateOnFill w.gate.kill fill now).1
      gate := { w.gate with kill := (w.tracker.updateOnFill w.gate.kill fill now).2 } }
  | .mark agentId markPrices now =>
    { w with tracker := w.tracker.updateOnMark w.gate.lots agentId markPrices now }
  | .read agentId now => { w with tracker := (w.tracker.getState agentId now).1 }
  | .check intent agentState effectiveGross positions ts =>
    { w with gate := (w.gate.checkIntent intent agentState effectiveGross positions ts).1 }

/-- **Tracker and gate agree**: within a day of the last of five losses in a row the gate lets
nothing of the agent through, and the tracker's flag is the kill switch's answer. -/
def Agrees (w : BenchWatch) : Prop :=
  ∀ agentId,
    (5 ≤ w.streak agentId →
      ∀ intent agentState effectiveGross positions ts,
        intent.agentId = agentId → agentState.agentId = agentId →
        w.lastLoss agentId ≤ ts → ts < w.lastLoss agentId + benchDuration →
        (w.gate.checkIntent intent agentState effectiveGross positions ts).2.allowed = false) ∧
    ∀ ts, (w.tracker.getState agentId ts).2.isBenched =
      (w.gate.kill.isAgentBenched agentId ts).2

/-- **No streak reaches five** by an operation. -/
def NoFifthLoss (w : BenchWatch) : BenchOp → Prop
  | .fill fill _ =>
    (w.tracker.records fill.agentId).trackedLoss? fill = some true →
      w.streak fill.agentId + 1 < 5
  | .mark .. | .read .. | .check .. => True

/-- **Nobody has been benched**: all streaks are short, the tracker counts no more than they
are, and the kill switch has heard of nothing. -/
def Clean (w : BenchWatch) : Prop :=
  ∀ agentId, w.streak agentId < 5 ∧
    (w.tracker.records agentId).consecutiveLosses ≤ w.streak agentId ∧
    (w.tracker.records agentId).isBenched = false ∧ w.gate.kill.agentRecords agentId = {}

/-! ### While nobody has been benched -/

variable {w : BenchWatch}

/-- An agent of whose bench the kill switch knows nothing is not benched. -/
theorem isAgentBenched_of_none {kill : KillSwitchEngine} {agentId : AgentId}
    (h : (kill.agentRecords agentId).benchedUntil = none) (ts : Time) :
    kill.isAgentBenched agentId ts = (kill, false) := by
  rw [KillSwitchEngine.isAgentBenched, h]

theorem Clean.agrees (h : w.Clean) : w.Agrees := by
  intro agentId
  obtain ⟨hshort, -, hflag, hrecord⟩ := h agentId
  refine ⟨fun hlong => absurd hlong hshort.not_ge, fun ts => ?_⟩
  rw [isAgentBenched_of_none (by rw [hrecord]), AgentStateTracker.getState]
  dsimp only
  rw [AgentStateTracker.expireBench_of_not_benched hflag, hflag]

/-- A step that moves no streak and tells the kill switch nothing. -/
theorem clean_of_eq {w' : BenchWatch} (h : w.Clean) (hstreak : w'.streak = w.streak)
    (htracker : ∀ agentId,
      (w'.tracker.records agentId).isBenched = (w.tracker.records agentId).isBenched ∧
        (w'.tracker.records agentId).consecutiveLosses =
          (w.tracker.records agentId).consecutiveLosses)
    (hkill : w'.gate.kill = w.gate.kill) : w'.Clean := by
  intro agentId
  rw [hstreak, hkill, (htracker agentId).1, (htracker agentId).2]
  exact h agentId

/-- A fill of one agent moves that agent's streak and record only. -/
theorem clean_of_update {w' : BenchWatch} (h : w.Clean) (agentId : AgentId) (losses : ℕ)
    (record : PerAgentRecord)
    (hstreak : w'.streak = Function.update w.streak agentId losses)
    (htracker : w'.tracker = w.tracker.setRecord agentId record)
    (hkill : w'.gate.kill = w.gate.kill) (hlosses : losses < 5)
    (hle : record.consecutiveLosses ≤ losses) (hflag : record.isBenched = false) : w'.Clean := by
  intro a
  rw [hstreak, htracker, hkill, AgentStateTracker.records_setRecord, Function.update_apply]
  split_ifs with ha
  · exact ⟨hlosses, hle, hflag, (h a).2.2.2⟩
  · exact h a

theorem isLoss_of_tracked (record : PerAgentRecord) {fill : Fill} (hside : fill.side = .sell) :
    record.isLoss fill = (record.trackedLoss? fill).getD false := by
  rw [PerAgentRecord.isLoss, PerAgentRecord.trackedLoss?, hside]
  cases record.avgCost.get? fill.symbol <;> rfl

theorem trackedLoss?_of_buy (record : PerAgentRecord) {fill : Fill} (hside : fill.side = .buy) :
    record.trackedLoss? fill = none := by
  rw [PerAgentRecord.trackedLoss?, hside]

/-- What a buy does. -/
theorem step_fill_buy (w : BenchWatch) {fill : Fill} (hside : fill.side = .buy) (now : Time) :
    w.step (.fill fill now) =
      { w with
        tracker := w.tracker.setRecord fill.agentId
          ((w.tracker.records fill.agentId).updateAvgCost fill) } := by
  rw [step, count, trackedLoss?_of_buy _ hside, AgentStateTracker.updateOnFill, hside]

/-- What a sell does that is no loss to the tracker. -/
theorem updateOnFill_of_not_loss (t : AgentStateTracker) (kill : KillSwitchEngine) {fill : Fill}
    (hside : fill.side = .sell) (hloss : (t.records fill.agentId).isLoss fill = false)
    (now : Time) :
    t.updateOnFill kill fill now =
      (t.setRecord fill.agentId
        { (t.records fill.agentId).clearAvgCost fill with
          consecutiveLosses := 0
          isBenched := false
          benchUntil := if (t.records fill.agentId).isBenched then none
            else (t.records fill.agentId).benchUntil }, kill) := by
  rw [AgentStateTracker.updateOnFill, hside]
  dsimp only
  rw [hloss]
  rfl

/-- What a loss before the fifth does. -/
theorem updateOnFill_of_loss (t : AgentStateTracker) (kill : KillSwitchEngine) {fill : Fill}
    (hside : fill.side = .sell) (hloss : (t.records fill.agentId).isLoss fill = true)
    (hlt : (t.records fill.agentId).consecutiveLosses + 1 < consecutiveLossBenchTrigger)
    (now : Time) :
    t.updateOnFill kill fill now =
      (t.setRecord fill.agentId
        { (t.records fill.agentId).clearAvgCost fill with
          consecutiveLosses := (t.records fill.agentId).consecutiveLosses + 1 }, kill) := by
  rw [AgentStateTracker.updateOnFill, hside]
  dsimp only
  rw [hloss, if_pos rfl, if_neg hlt.not_ge]

/-- **A fill that makes no fifth loss leaves everybody clean.** -/
theorem Clean.fill (h : w.Clean) {fill : Fill} {now : Time} (hok : w.NoFifthLoss (.fill fill now)) :
    (w.step (.fill fill now)).Clean := by
  obtain ⟨hshort, hle, hflag, -⟩ := h fill.agentId
  obtain ⟨hclear, -⟩ :=
    AgentStateTracker.bench_clearAvgCost (w.tracker.records fill.agentId) fill
  cases hside : fill.side with
  | buy =>
    obtain ⟨hb, hc⟩ := AgentStateTracker.bench_updateAvgCost (w.tracker.records fill.agentId) fill
    rw [step_fill_buy w hside]
    exact clean_of_update h fill.agentId (w.streak fill.agentId) _
      (Function.update_eq_self _ _).symm rfl rfl hshort (hc.le.trans hle) (hb.trans hflag)
  | sell =>
    have hloss := isLoss_of_tracked (w.tracker.records fill.agentId) hside
    cases htracked : (w.tracker.records fill.agentId).trackedLoss? fill with
    | none =>
      -- a sell of unknown cost ends the tracker's streak, and not ours
      rw [htracked] at hloss
      rw [step, count, htracked, updateOnFill_of_not_loss _ _ hside hloss]
      exact clean_of_update h fill.agentId (w.streak fill.agentId) _
        (Function.update_eq_self _ _).symm rfl rfl hshort (Nat.zero_le _) rfl
    | some isLoss =>
      rw [htracked] at hloss
      cases isLoss with
      | false =>
        rw [step, count, htracked, updateOnFill_of_not_loss _ _ hside hloss]
        exact clean_of_update h fill.agentId 0 _ rfl rfl rfl (by decide) le_rfl rfl
      | true =>
        have hlt := hok htracked
        have hlt' : (w.tracker.records fill.agentId).consecutiveLosses + 1 < 5 := by omega
        rw [step, count, htracked, updateOnFill_of_loss _ _ hside hloss hlt']
        exact clean_of_update h fill.agentId (w.streak fill.agentId + 1) _ rfl rfl rfl hlt
          (Nat.succ_le_succ hle) (hclear.trans hflag)

/-- **Everybody stays clean** through a step that makes no fifth loss. -/
theorem Clean.step (h : w.Clean) {op : BenchOp} (hok : w.NoFifthLoss op) : (w.step op).Clean := by
  cases op with
  | fill fill now => exact h.fill hok
  | mark agentId markPrices now =>
    refine clean_of_eq h rfl (fun a => ?_) rfl
    exact AgentStateTracker.bench_updateOnMark _ _ (h agentId).2.2.1 _ _ a
  | read agentId now =>
    refine clean_of_eq h rfl (fun a => ?_) rfl
    have hread : (w.tracker.getState agentId now).1.records a = w.tracker.records a := by
      rw [AgentStateTracker.getState,
        AgentStateTracker.expireBench_of_not_benched (h agentId).2.2.1,
        AgentStateTracker.records_setRecord]
      split_ifs with ha
      · rw [ha]
      · rfl
    exact ⟨congrArg _ hread, congrArg _ hread⟩
  | check intent agentState effectiveGross positions ts =>
    refine clean_of_eq h rfl (fun a => ⟨rfl, rfl⟩) ?_
    rcases w.gate.kill_checkIntent intent agentState effectiveGross positions ts with hk | hk
    · exact hk
    · have hnone : (w.gate.kill.agentRecords agentState.agentId).benchedUntil = none := by
        rw [(h agentState.agentId).2.2.2]
      rw [isAgentBenched_of_none hnone] at hk
      exact hk

/-! ### The fifth loss -/

/-- What a loss does to the kill switch, if it hears of it, when it has heard of none. -/
theorem isAgentBenched_updateOnFill (t : AgentStateTracker) {kill : KillSwitchEngine} {fill : Fill}
    (hside : fill.side = .sell) (hkill : kill.agentRecords fill.agentId = {}) (now ts : Time) :
    ((t.updateOnFill kill fill now).2.isAgentBenched fill.agentId ts).2 = false := by
  have hclean : (kill.isAgentBenched fill.agentId ts).2 = false := by
    rw [isAgentBenched_of_none (by rw [hkill])]
  have hone : ((kill.recordAgentResult fill.agentId true now).1.isAgentBenched
      fill.agentId ts).2 = false := by
    rw [KillSwitchEngine.recordAgentResult, hkill]
    dsimp only
    rw [if_pos rfl, if_neg (by decide), isAgentBenched_of_none]
    dsimp only [KillSwitchEngine.setRecord]
    rw [Function.update_self]
  rw [AgentStateTracker.updateOnFill, hside]
  dsimp only
  split
  · split
    · exact hone
    · exact hclean
  · exact hclean

/-- **The fifth loss is not heard of at the gate**: the agent can still sell. -/
theorem Clean.not_agrees (h : w.Clean) {op : BenchOp} (hbad : ¬w.NoFifthLoss op) :
    ¬(w.step op).Agrees := by
  cases op with
  | mark | read | check => exact absurd trivial hbad
  | fill fill now =>
    obtain ⟨htracked, hlong⟩ := Classical.not_imp.mp hbad
    have hside : fill.side = .sell := by
      by_contra hc
      have hbuy : fill.side = .buy := by cases hs : fill.side <;> simp_all
      rw [trackedLoss?_of_buy _ hbuy] at htracked
      exact absurd htracked.symm (Option.some_ne_none _)
    intro hagrees
    have hstreak : (w.step (.fill fill now)).streak fill.agentId = w.streak fill.agentId + 1 := by
      rw [BenchWatch.step, count, htracked]
      exact Function.update_self _ _ _
    have hlast : (w.step (.fill fill now)).lastLoss fill.agentId = now := by
      rw [BenchWatch.step, count, htracked]
      exact Function.update_self _ _ _
    -- a plain sell, at the very moment
    let intent : Intent :=
      { id := 0, agentId := fill.agentId, symbol := "", action := .sell, targetWeight := 0,
        sleeve := .equity, conviction := 1 }
    let agentState : AgentState :=
      { agentId := fill.agentId, sleeveEquity := 0, sleevePeakEquity := 0,
        drawdownBucket := .normal, drawdownBucketEntryDate := none, consecutiveLosses := 5,
        isBenched := true, benchUntil := none }
    have hday : now < (w.step (.fill fill now)).lastLoss fill.agentId + benchDuration := by
      rw [hlast]
      exact lt_add_of_pos_right now (by decide)
    have hveto := (hagrees fill.agentId).1 (hstreak ▸ not_lt.mp hlong) intent agentState 0 [] now
      rfl rfl hlast.le hday
    have hallowed : ((w.step (.fill fill now)).gate.checkIntent intent agentState 0 []
        now).2.allowed = true :=
      RiskGate.allowed_sell
        (isAgentBenched_updateOnFill w.tracker hside (h fill.agentId).2.2.2 now now) rfl rfl
        (show "" ∉ letfWhitelist by decide) 0 []
    rw [hveto] at hallowed
    exact Bool.false_ne_true hallowed

/-! ### Runs -/

theorem clean_new (startingEquity : Decimal) (hasBus : Bool) (gate : RiskGate)
    (heartbeatTimeoutSecs : ℤ) : (new startingEquity hasBus gate heartbeatTimeoutSecs).Clean :=
  fun _ => ⟨Nat.succ_pos 4, le_rfl, rfl, rfl⟩

/-- **The runs in which tracker and gate agree throughout** are those in which no agent ever
has five losing sells in a row. -/
theorem agrees_run_iff (startingEquity : Decimal) (hasBus : Bool) (gate : RiskGate)
    (heartbeatTimeoutSecs : ℤ) (ops : List BenchOp) :
    (∀ pre, pre <+: ops →
        (run step (new startingEquity hasBus gate heartbeatTimeoutSecs) pre).Agrees) ↔
      Along step NoFifthLoss (new startingEquity hasBus gate heartbeatTimeoutSecs) ops :=
  forall_reached_iff_along_of_invariant (fun _ _ h hok => h.step hok) (fun _ h => h.agrees)
    (fun _ _ h hbad => h.not_agrees hbad) (clean_new _ _ _ _) ops

/-- Sonnet buys at a hundred and sells at ninety, five times. -/
def fiveLosses : List BenchOp :=
  (List.range 5).flatMap fun i =>
    [.fill { id := 2 * i, orderId := 2 * i, agentId := .sonnet, symbol := "SPY", side := .buy,
             qty := 10, price := 100, timestamp := 0 } 0,
      .fill { id := 2 * i + 1, orderId := 2 * i + 1, agentId := .sonnet, symbol := "SPY",
              side := .sell, qty := 10, price := 90, timestamp := 0 } 0]

/-- **A bench the gate does not know of**: after five losses the tracker's flag is up, and the
kill switch says that Sonnet is not benched. -/
theorem not_agrees_fiveLosses : ¬(run step (new 1000 false (.new 120) 120) fiveLosses).Agrees := by
  intro h
  exact absurd ((h .sonnet).2 0) (by decide +kernel)

end BenchWatch

end TradingPlatform
