import TradingPlatform.Execution.KillSwitch
import TradingPlatform.Execution.Lots

/-!
# The agent state tracker

For each agent the tracker keeps its equity, its drawdown bucket with the rule that a bucket is
left for a better one only after five days, and a streak of losing sells that benches the agent.
It reads the lot ledger and writes to the kill switch; both are arguments here, and so is the
clock, which the source reads itself.

The rows the source keeps in a database are left out: they are written after every change and
read when the tracker is constructed.
-/

namespace TradingPlatform

/-- The tracker's record of one agent. -/
structure PerAgentRecord where
  startingEquity : Decimal
  currentEquity : Decimal
  peakEquity : Decimal
  consecutiveLosses : ℕ := 0
  isBenched : Bool := false
  benchUntil : Option Time := none
  /-- The bucket used for sizing, which may lag behind an improvement. -/
  sizingBucket : DrawdownBucket := .normal
  /-- The looser bucket being recovered to. -/
  recoveryTarget : Option DrawdownBucket := none
  recoverySince : Option Date := none
  recoveryDays : ℕ := 0
  lastUpdateDate : Option Date := none
  /-- The average cost of what is held, by symbol. -/
  avgCost : Dict String Decimal := .empty
  openQty : Dict String Decimal := .empty

/-- What the tracker publishes. -/
inductive TrackerEvent
  | agentBenched (agentId : AgentId) (consecutiveLosses : ℕ)
  | drawdownLadderFired (agentId : AgentId) (drawdownPct : Decimal) (newBucket : DrawdownBucket)
  deriving DecidableEq

structure AgentStateTracker where
  records : AgentId → PerAgentRecord
  /-- Whether it was given an event bus. -/
  hasBus : Bool
  published : List TrackerEvent

/-- Days to spend in a better bucket before the sizing follows. -/
def recoveryDaysRequired : ℕ := 5

/-- From mild to severe. -/
def DrawdownBucket.rank : DrawdownBucket → ℕ
  | .normal => 0
  | .yellow => 1
  | .orange => 2
  | .red => 3
  | .forcedCash => 4

namespace PerAgentRecord

/-! ### Cost basis -/

/-- Update the running average cost on a buy. -/
def updateAvgCost (rec : PerAgentRecord) (fill : Fill) : PerAgentRecord :=
  let prevQty := (rec.openQty.get? fill.symbol).getD 0
  let prevCost := (rec.avgCost.get? fill.symbol).getD 0
  let newQty := prevQty + fill.qty
  if 0 < newQty then
    { rec with
      avgCost := rec.avgCost.set fill.symbol
        ((prevCost * prevQty + fill.price * fill.qty) / newQty)
      openQty := rec.openQty.set fill.symbol newQty }
  else rec

/-- Whether a sell is at a loss. Without a cost it cannot be told, and is none. -/
def isLoss (rec : PerAgentRecord) (fill : Fill) : Bool :=
  match rec.avgCost.get? fill.symbol with
  | none => false
  | some avgCost => fill.price < avgCost

/-- Update the open quantity after a sell, and forget the cost of a flat position. -/
def clearAvgCost (rec : PerAgentRecord) (fill : Fill) : PerAgentRecord :=
  let prevQty := (rec.openQty.get? fill.symbol).getD 0
  let newQty := max (prevQty - fill.qty) 0
  if newQty ≤ 0 then
    { rec with
      openQty := rec.openQty.erase fill.symbol
      avgCost := rec.avgCost.erase fill.symbol }
  else { rec with openQty := rec.openQty.set fill.symbol newQty }

/-- Lift a bench whose time is up. -/
def expireBench (rec : PerAgentRecord) (now : Time) : PerAgentRecord :=
  match rec.benchUntil with
  | none => rec
  | some benchUntil =>
    if rec.isBenched ∧ benchUntil ≤ now then
      { rec with isBenched := false, benchUntil := none, consecutiveLosses := 0 }
    else rec

/-- The recovery rule: tighten at once, loosen only after enough days. -/
def applyBucketWithRecovery (rec : PerAgentRecord) (rawBucket : DrawdownBucket) (today : Date) :
    PerAgentRecord :=
  if rec.sizingBucket.rank ≤ rawBucket.rank then
    { rec with
      sizingBucket := rawBucket
      recoveryTarget := none
      recoverySince := none
      recoveryDays := 0
      lastUpdateDate := some today }
  else
    let isNewDay := some today ≠ rec.lastUpdateDate
    let rec' :=
      if rec.recoveryTarget ≠ some rawBucket then
        { rec with
          recoveryTarget := some rawBucket, recoverySince := some today, recoveryDays := 1 }
      else if isNewDay then { rec with recoveryDays := rec.recoveryDays + 1 }
      else rec
    let rec' :=
      if recoveryDaysRequired ≤ rec'.recoveryDays then
        { rec' with
          sizingBucket := rawBucket, recoveryTarget := none, recoverySince := none,
          recoveryDays := 0 }
      else rec'
    { rec' with lastUpdateDate := some today }

end PerAgentRecord

/-! ### Profit and loss -/

/-- The profit of an agent's closed lots. -/
def LotLedger.agentRealizedPnl (l : LotLedger) (agentId : AgentId) : Decimal :=
  (l.allLots.map fun lot =>
    if lot.agentId = agentId ∧ lot.isClosed = true then lot.realizedPnl.getD 0 else 0).sum

/-- The mark of a lot: its symbol may be written in either form. -/
def markOf (markPrices : Dict String Decimal) (symbol : String) : Option Decimal :=
  match markPrices.get? (normalizeSymbol symbol) with
  | some mark => some mark
  | none => markPrices.get? symbol

/-- The profit of an agent's open lots at the marks. Dust is skipped, and so is a lot without a
mark. -/
def LotLedger.agentUnrealizedPnl (l : LotLedger) (agentId : AgentId)
    (markPrices : Dict String Decimal) : Decimal :=
  (l.allLots.map fun lot =>
    if lot.agentId = agentId ∧ lot.isClosed = false then
      if lot.remainingQty * lot.entryPrice < dustNotionalUsd then 0
      else
        match markOf markPrices lot.symbol with
        | none => 0
        | some mark => (mark - lot.entryPrice) * lot.remainingQty
    else 0).sum

namespace AgentStateTracker

/-- A tracker that has just been constructed, over an empty database. -/
def new (startingEquity : Decimal) (hasBus : Bool) : AgentStateTracker where
  records _ :=
    { startingEquity := startingEquity, currentEquity := startingEquity,
      peakEquity := startingEquity }
  hasBus := hasBus
  published := []

def setRecord (t : AgentStateTracker) (agentId : AgentId) (record : PerAgentRecord) :
    AgentStateTracker :=
  { t with records := Function.update t.records agentId record }

def publish (t : AgentStateTracker) (event : TrackerEvent) : AgentStateTracker :=
  if t.hasBus then { t with published := t.published ++ [event] } else t

/-- Recompute an agent's state after a fill: a buy moves its cost basis, a sell lengthens its
streak of losses or ends it. The kill switch hears of a loss from the fifth on. -/
def updateOnFill (t : AgentStateTracker) (kill : KillSwitchEngine) (fill : Fill) (now : Time) :
    AgentStateTracker × KillSwitchEngine :=
  let record := t.records fill.agentId
  match fill.side with
  | .buy => (t.setRecord fill.agentId (record.updateAvgCost fill), kill)
  | .sell =>
    let cleared := record.clearAvgCost fill
    if record.isLoss fill then
      let losses := record.consecutiveLosses + 1
      if consecutiveLossBenchTrigger ≤ losses then
        ((t.setRecord fill.agentId
            { cleared with
              consecutiveLosses := losses
              isBenched := true
              benchUntil := some (now + benchDuration) }).publish
          (.agentBenched fill.agentId losses),
          (kill.recordAgentResult fill.agentId true now).1)
      else (t.setRecord fill.agentId { cleared with consecutiveLosses := losses }, kill)
    else
      (t.setRecord fill.agentId
        { cleared with
          consecutiveLosses := 0
          isBenched := false
          benchUntil := if record.isBenched then none else record.benchUntil }, kill)

/-- Recompute an agent's equity and bucket at some marks. -/
def updateOnMark (t : AgentStateTracker) (ledger : LotLedger) (agentId : AgentId)
    (markPrices : Dict String Decimal) (now : Time) : AgentStateTracker :=
  let record := t.records agentId
  let realized := ledger.agentRealizedPnl agentId
  let unrealized := ledger.agentUnrealizedPnl agentId markPrices
  let newEquity := record.startingEquity + realized + unrealized
  let record := { record with currentEquity := newEquity }.expireBench now
  let record := { record with peakEquity := max record.peakEquity newEquity }
  let drawdown :=
    if 0 < record.peakEquity then (record.peakEquity - newEquity) / record.peakEquity else 0
  let rawBucket := classifyDrawdown drawdown
  let t' := t.setRecord agentId (record.applyBucketWithRecovery rawBucket now.date)
  if record.sizingBucket.rank < rawBucket.rank then
    t'.publish (.drawdownLadderFired agentId drawdown rawBucket)
  else t'

/-- The state of an agent. Reading it lifts a bench whose time is up. -/
def getState (t : AgentStateTracker) (agentId : AgentId) (now : Time) :
    AgentStateTracker × AgentState :=
  let record := (t.records agentId).expireBench now
  (t.setRecord agentId record,
    { agentId := agentId
      sleeveEquity := record.currentEquity
      sleevePeakEquity := record.peakEquity
      drawdownBucket := record.sizingBucket
      drawdownBucketEntryDate := record.recoverySince
      consecutiveLosses := record.consecutiveLosses
      isBenched := record.isBenched
      benchUntil := record.benchUntil })

/-! ### What each operation leaves alone -/

@[simp] theorem records_publish (t : AgentStateTracker) (event : TrackerEvent) :
    (t.publish event).records = t.records := by
  rw [publish]
  split_ifs <;> rfl

theorem records_setRecord (t : AgentStateTracker) (agentId agentId' : AgentId)
    (record : PerAgentRecord) :
    (t.setRecord agentId record).records agentId' =
      if agentId' = agentId then record else t.records agentId' :=
  Function.update_apply _ _ _ _

@[simp] theorem currentEquity_expireBench (record : PerAgentRecord) (now : Time) :
    (record.expireBench now).currentEquity = record.currentEquity := by
  rw [PerAgentRecord.expireBench]
  split
  · rfl
  · split_ifs <;> rfl

@[simp] theorem currentEquity_applyBucketWithRecovery (record : PerAgentRecord)
    (rawBucket : DrawdownBucket) (today : Date) :
    (record.applyBucketWithRecovery rawBucket today).currentEquity = record.currentEquity := by
  rw [PerAgentRecord.applyBucketWithRecovery]
  dsimp only
  split_ifs <;> rfl

/-- The recovery rule is about buckets only. -/
@[simp] theorem bench_applyBucketWithRecovery (record : PerAgentRecord)
    (rawBucket : DrawdownBucket) (today : Date) :
    (record.applyBucketWithRecovery rawBucket today).isBenched = record.isBenched ∧
      (record.applyBucketWithRecovery rawBucket today).consecutiveLosses =
        record.consecutiveLosses := by
  rw [PerAgentRecord.applyBucketWithRecovery]
  dsimp only
  split_ifs <;> exact ⟨rfl, rfl⟩

/-- The cost basis is no part of the streak. -/
theorem bench_updateAvgCost (record : PerAgentRecord) (fill : Fill) :
    (record.updateAvgCost fill).isBenched = record.isBenched ∧
      (record.updateAvgCost fill).consecutiveLosses = record.consecutiveLosses := by
  rw [PerAgentRecord.updateAvgCost]
  split_ifs <;> exact ⟨rfl, rfl⟩

theorem bench_clearAvgCost (record : PerAgentRecord) (fill : Fill) :
    (record.clearAvgCost fill).isBenched = record.isBenched ∧
      (record.clearAvgCost fill).consecutiveLosses = record.consecutiveLosses := by
  rw [PerAgentRecord.clearAvgCost]
  split_ifs <;> exact ⟨rfl, rfl⟩

/-- An agent that is not benched has no bench to lift. -/
theorem expireBench_of_not_benched {record : PerAgentRecord} (h : record.isBenched = false)
    (now : Time) : record.expireBench now = record := by
  rw [PerAgentRecord.expireBench]
  split
  · rfl
  · exact if_neg fun hc => Bool.false_ne_true (h ▸ hc.1)

/-- Marking the positions of an agent that is not benched is no part of the streak. -/
theorem bench_updateOnMark (t : AgentStateTracker) (ledger : LotLedger) {agentId : AgentId}
    (h : (t.records agentId).isBenched = false) (markPrices : Dict String Decimal) (now : Time)
    (agentId' : AgentId) :
    ((t.updateOnMark ledger agentId markPrices now).records agentId').isBenched =
        (t.records agentId').isBenched ∧
      ((t.updateOnMark ledger agentId markPrices now).records agentId').consecutiveLosses =
        (t.records agentId').consecutiveLosses := by
  have hrecord : ∀ equity : Decimal,
      ({ t.records agentId with currentEquity := equity }.expireBench now) =
        { t.records agentId with currentEquity := equity } :=
    fun equity => expireBench_of_not_benched (by exact h) now
  rw [updateOnMark]
  dsimp only
  rw [hrecord]
  by_cases hk : agentId' = agentId
  · subst hk
    split_ifs <;> simp [records_setRecord]
  · split_ifs <;> simp [records_setRecord, hk]

/-- **The equity the tracker stores**: where the agent started, and the profit of its lots. -/
theorem currentEquity_updateOnMark (t : AgentStateTracker) (ledger : LotLedger)
    (agentId : AgentId) (markPrices : Dict String Decimal) (now : Time) :
    ((t.updateOnMark ledger agentId markPrices now).records agentId).currentEquity =
      (t.records agentId).startingEquity + ledger.agentRealizedPnl agentId +
        ledger.agentUnrealizedPnl agentId markPrices := by
  rw [updateOnMark]
  dsimp only
  split_ifs <;> simp [records_setRecord]

/-! ### Marking the positions -/

/-- The equity of an agent at some marks. -/
def equityAt (t : AgentStateTracker) (ledger : LotLedger) (agentId : AgentId)
    (markPrices : Dict String Decimal) : Decimal :=
  (t.records agentId).startingEquity + ledger.agentRealizedPnl agentId +
    ledger.agentUnrealizedPnl agentId markPrices

/-- The drawdown of an agent at some marks, from the highest equity there was. -/
def drawdownAt (t : AgentStateTracker) (ledger : LotLedger) (agentId : AgentId)
    (markPrices : Dict String Decimal) : Decimal :=
  let equity := t.equityAt ledger agentId markPrices
  let peak := max (t.records agentId).peakEquity equity
  if 0 < peak then (peak - equity) / peak else 0

@[simp] theorem peakEquity_expireBench (record : PerAgentRecord) (now : Time) :
    (record.expireBench now).peakEquity = record.peakEquity := by
  rw [PerAgentRecord.expireBench]
  split
  · rfl
  · split_ifs <;> rfl

@[simp] theorem sizingBucket_expireBench (record : PerAgentRecord) (now : Time) :
    (record.expireBench now).sizingBucket = record.sizingBucket := by
  rw [PerAgentRecord.expireBench]
  split
  · rfl
  · split_ifs <;> rfl

@[simp] theorem recovery_expireBench (record : PerAgentRecord) (now : Time) :
    (record.expireBench now).recoveryTarget = record.recoveryTarget ∧
      (record.expireBench now).recoveryDays = record.recoveryDays ∧
      (record.expireBench now).lastUpdateDate = record.lastUpdateDate := by
  rw [PerAgentRecord.expireBench]
  split
  · exact ⟨rfl, rfl, rfl⟩
  · split_ifs <;> exact ⟨rfl, rfl, rfl⟩

end AgentStateTracker

namespace PerAgentRecord

/-- The drawdown of a record, from its own peak. -/
def drawdown (record : PerAgentRecord) : Decimal :=
  if 0 < record.peakEquity then (record.peakEquity - record.currentEquity) / record.peakEquity
  else 0

/-- The record of an agent once it is marked at some equity. -/
def atEquity (record : PerAgentRecord) (equity : Decimal) (now : Time) : PerAgentRecord :=
  let marked := { record with currentEquity := equity }.expireBench now
  let marked := { marked with peakEquity := max marked.peakEquity equity }
  marked.applyBucketWithRecovery (classifyDrawdown marked.drawdown) now.date

@[simp] theorem peakEquity_applyBucketWithRecovery (record : PerAgentRecord)
    (rawBucket : DrawdownBucket) (today : Date) :
    (record.applyBucketWithRecovery rawBucket today).peakEquity = record.peakEquity := by
  rw [applyBucketWithRecovery]
  dsimp only
  split_ifs <;> rfl

@[simp] theorem peakEquity_atEquity (record : PerAgentRecord) (equity : Decimal) (now : Time) :
    (record.atEquity equity now).peakEquity = max record.peakEquity equity := by
  simp [atEquity]

/-- **The bucket stays**: it is the one the drawdown calls for, or a better one is called for that
has not been held for long enough. -/
def Stays (record : PerAgentRecord) (rawBucket : DrawdownBucket) (today : Date) : Prop :=
  rawBucket = record.sizingBucket ∨
    rawBucket.rank < record.sizingBucket.rank ∧
      ¬(record.recoveryTarget = some rawBucket ∧
        recoveryDaysRequired ≤
          record.recoveryDays + if some today ≠ record.lastUpdateDate then 1 else 0)

instance (record : PerAgentRecord) (rawBucket : DrawdownBucket) (today : Date) :
    Decidable (record.Stays rawBucket today) :=
  inferInstanceAs (Decidable (_ ∨ _ ∧ ¬_))

end PerAgentRecord

namespace AgentStateTracker

/-- **Marking an agent**: its record is marked at its equity, and every other is left alone. -/
theorem records_updateOnMark (t : AgentStateTracker) (ledger : LotLedger) (agentId : AgentId)
    (markPrices : Dict String Decimal) (now : Time) :
    (t.updateOnMark ledger agentId markPrices now).records =
      Function.update t.records agentId
        ((t.records agentId).atEquity (t.equityAt ledger agentId markPrices) now) := by
  set equity := t.equityAt ledger agentId markPrices with heq
  set record := { t.records agentId with currentEquity := equity }.expireBench now with hrecord
  have hequity : record.currentEquity = equity := by
    rw [hrecord, currentEquity_expireBench]
  have hdrawdown : PerAgentRecord.drawdown
        { record with peakEquity := max record.peakEquity equity } =
      if 0 < max record.peakEquity equity then
        (max record.peakEquity equity - equity) / max record.peakEquity equity
      else 0 := by
    rw [PerAgentRecord.drawdown, hequity]
  have hmarked : (t.records agentId).atEquity equity now =
      { record with peakEquity := max record.peakEquity equity }.applyBucketWithRecovery
        (classifyDrawdown (PerAgentRecord.drawdown
          { record with peakEquity := max record.peakEquity equity })) now.date := rfl
  rw [hmarked, hdrawdown]
  unfold updateOnMark
  rw [apply_ite AgentStateTracker.records, records_publish, ite_self]
  rfl

end AgentStateTracker

end TradingPlatform
