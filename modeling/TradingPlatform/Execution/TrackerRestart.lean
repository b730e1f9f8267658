import TradingPlatform.Execution.AgentStateTracker

/-!
# The tracker's database

After every change the tracker writes its records to a database, and a new tracker reads them
back. The rows hold all of a record except what its agent's positions cost
(`TradingPlatform.TrackerRow`), so a tracker that was restarted takes a sale of something bought
before for one whose cost is unknown, and counts no loss.

That is the only way in which a restart shows: `TradingPlatform.Twin.transparent_iff` says that
the tracker answers as if it had never been restarted exactly when the cost basis since the last
restart and the one since the beginning judge every sale alike.
-/

namespace TradingPlatform

/-- A row of the tracker's database. -/
structure TrackerRow where
  startingEquity : Decimal
  currentEquity : Decimal
  peakEquity : Decimal
  consecutiveLosses : ℕ
  isBenched : Bool
  benchUntil : Option Time
  sizingBucket : DrawdownBucket
  recoveryTarget : Option DrawdownBucket
  recoverySince : Option Date
  recoveryDays : ℕ
  lastUpdateDate : Option Date
  deriving DecidableEq

/-- What an agent's positions cost. -/
structure CostBasis where
  avgCost : Dict String Decimal
  openQty : Dict String Decimal

namespace PerAgentRecord

def row (record : PerAgentRecord) : TrackerRow where
  startingEquity := record.startingEquity
  currentEquity := record.currentEquity
  peakEquity := record.peakEquity
  consecutiveLosses := record.consecutiveLosses
  isBenched := record.isBenched
  benchUntil := record.benchUntil
  sizingBucket := record.sizingBucket
  recoveryTarget := record.recoveryTarget
  recoverySince := record.recoverySince
  recoveryDays := record.recoveryDays
  lastUpdateDate := record.lastUpdateDate

/-- The part of a record that is in no row. -/
def basis (record : PerAgentRecord) : CostBasis := ⟨record.avgCost, record.openQty⟩

/-- A record with another cost basis. -/
def withBasis (record : PerAgentRecord) (basis : CostBasis) : PerAgentRecord :=
  { record with avgCost := basis.avgCost, openQty := basis.openQty }

/-- A record of an agent without a row. -/
def initial (startingEquity : Decimal) : PerAgentRecord where
  startingEquity := startingEquity
  currentEquity := startingEquity
  peakEquity := startingEquity

end PerAgentRecord

/-- The record that a row is read into. -/
def TrackerRow.toRecord (row : TrackerRow) : PerAgentRecord where
  startingEquity := row.startingEquity
  currentEquity := row.currentEquity
  peakEquity := row.peakEquity
  consecutiveLosses := row.consecutiveLosses
  isBenched := row.isBenched
  benchUntil := row.benchUntil
  sizingBucket := row.sizingBucket
  recoveryTarget := row.recoveryTarget
  recoverySince := row.recoverySince
  recoveryDays := row.recoveryDays
  lastUpdateDate := row.lastUpdateDate

/-- The rows of the database, by agent. -/
abbrev TrackerDb := AgentId → Option TrackerRow

namespace AgentStateTracker

/-- The records of a new tracker: those in the database, and a fresh one for every other agent. -/
def loadOrInitRecords (startingEquity : Decimal) (db : TrackerDb) (agentId : AgentId) :
    PerAgentRecord :=
  match db agentId with
  | none => .initial startingEquity
  | some row => row.toRecord

/-- What is written after every change. -/
def maybePersist (t : AgentStateTracker) : TrackerDb := fun agentId => some (t.records agentId).row

end AgentStateTracker

/-- A process with a tracker, the kill switch it tells of losses, and its database. -/
structure TrackerProcess where
  tracker : AgentStateTracker
  kill : KillSwitchEngine
  db : TrackerDb
  startingEquity : Decimal

/-- One operation. The ledger a mark reads is given with it. -/
inductive TrackerOp
  | updateOnFill (fill : Fill) (now : Time)
  | updateOnMark (ledger : LotLedger) (agentId : AgentId) (markPrices : Dict String Decimal)
      (now : Time)
  /-- The tracker is discarded, and a new one constructed over the database. -/
  | restart

def TrackerOp.isRestart : TrackerOp → Bool
  | .restart => true
  | .updateOnFill _ _ | .updateOnMark _ _ _ _ => false

namespace TrackerProcess

/-- A process that has just been started, over any database. -/
def start (db : TrackerDb) (startingEquity : Decimal) (hasBus : Bool) (kill : KillSwitchEngine) :
    TrackerProcess where
  tracker := ⟨AgentStateTracker.loadOrInitRecords startingEquity db, hasBus, []⟩
  kill := kill
  db := db
  startingEquity := startingEquity

def step (p : TrackerProcess) : TrackerOp → TrackerProcess
  | .updateOnFill fill now =>
    let (tracker, kill) := p.tracker.updateOnFill p.kill fill now
    { p with tracker := tracker, kill := kill, db := tracker.maybePersist }
  | .updateOnMark ledger agentId markPrices now =>
    let tracker := p.tracker.updateOnMark ledger agentId markPrices now
    { p with tracker := tracker, db := tracker.maybePersist }
  | .restart =>
    { p with
      tracker :=
        { p.tracker with
          records := AgentStateTracker.loadOrInitRecords p.startingEquity p.db } }

/-- What the tracker answers. -/
def answer (p : TrackerProcess) (agentId : AgentId) (now : Time) : AgentState :=
  (p.tracker.getState agentId now).2

end TrackerProcess

/-! ### The cost basis of a list of fills -/

namespace CostBasis

def empty : CostBasis := ⟨.empty, .empty⟩

/-- What a fill does to the cost basis of its agent. -/
def after (basis : CostBasis) (fill : Fill) : CostBasis :=
  let prevQty := (basis.openQty.get? fill.symbol).getD 0
  match fill.side with
  | .buy =>
    let prevCost := (basis.avgCost.get? fill.symbol).getD 0
    let newQty := prevQty + fill.qty
    if 0 < newQty then
      { avgCost := basis.avgCost.set fill.symbol
          ((prevCost * prevQty + fill.price * fill.qty) / newQty)
        openQty := basis.openQty.set fill.symbol newQty }
    else basis
  | .sell =>
    let newQty := max (prevQty - fill.qty) 0
    if newQty ≤ 0 then
      { avgCost := basis.avgCost.erase fill.symbol, openQty := basis.openQty.erase fill.symbol }
    else { basis with openQty := basis.openQty.set fill.symbol newQty }

/-- The cost basis of an agent after some fills. -/
def ofFills (agentId : AgentId) (fills : List Fill) : CostBasis :=
  (fills.filter fun fill => fill.agentId = agentId).foldl after empty

/-- Whether a sale is at a loss. -/
def isLoss (basis : CostBasis) (fill : Fill) : Bool :=
  match basis.avgCost.get? fill.symbol with
  | none => false
  | some avgCost => fill.price < avgCost

end CostBasis

/-! ### What a row determines -/

namespace PerAgentRecord

variable {record record' : PerAgentRecord}

@[simp] theorem row_toRecord (row : TrackerRow) : row.toRecord.row = row := rfl

@[simp] theorem basis_toRecord (row : TrackerRow) : row.toRecord.basis = .empty := rfl

@[simp] theorem row_withBasis (basis : CostBasis) : (record.withBasis basis).row = record.row := rfl

@[simp] theorem basis_withBasis (basis : CostBasis) :
    (record.withBasis basis).basis = basis := rfl

/-- Two records with one row differ in their cost basis. -/
theorem eq_withBasis_of_row_eq (h : record.row = record'.row) :
    record' = record.withBasis record'.basis := by
  cases record
  cases record'
  simp only [row, TrackerRow.mk.injEq] at h
  simp [withBasis, basis, h]

section WithBasis

variable (record : PerAgentRecord) (basis : CostBasis)

theorem expireBench_withBasis (now : Time) :
    (record.withBasis basis).expireBench now = (record.expireBench now).withBasis basis := by
  obtain ⟨-, -, -, -, isBenched, benchUntil, -⟩ := record
  cases benchUntil with
  | none => rfl
  | some benchUntil =>
    rw [expireBench, expireBench]
    by_cases h : isBenched = true ∧ benchUntil ≤ now <;> simp [withBasis, h]

theorem applyBucketWithRecovery_withBasis (rawBucket : DrawdownBucket) (today : Date) :
    (record.withBasis basis).applyBucketWithRecovery rawBucket today =
      (record.applyBucketWithRecovery rawBucket today).withBasis basis := by
  by_cases hrank : record.sizingBucket.rank ≤ rawBucket.rank
  · simp [applyBucketWithRecovery, withBasis, hrank]
  by_cases htarget : record.recoveryTarget = some rawBucket
  · by_cases hday : some today = record.lastUpdateDate
    · by_cases hdays : recoveryDaysRequired ≤ record.recoveryDays <;>
        simp [applyBucketWithRecovery, withBasis, hrank, htarget, hday, hdays]
    · by_cases hdays : recoveryDaysRequired ≤ record.recoveryDays + 1 <;>
        simp [applyBucketWithRecovery, withBasis, hrank, htarget, hday, hdays]
  · simp [applyBucketWithRecovery, withBasis, hrank, htarget, recoveryDaysRequired]

/-- Marking an agent neither reads nor changes its cost basis. -/
theorem atEquity_withBasis (equity : Decimal) (now : Time) :
    (record.withBasis basis).atEquity equity now =
      (record.atEquity equity now).withBasis basis := by
  have hequity : { record.withBasis basis with currentEquity := equity } =
      { record with currentEquity := equity }.withBasis basis := rfl
  unfold atEquity
  rw [hequity, expireBench_withBasis]
  set marked := { record with currentEquity := equity }.expireBench now
  exact applyBucketWithRecovery_withBasis
    { marked with peakEquity := max marked.peakEquity equity } basis _ now.date

end WithBasis

theorem row_expireBench (h : record.row = record'.row) (now : Time) :
    (record.expireBench now).row = (record'.expireBench now).row := by
  rw [eq_withBasis_of_row_eq h, expireBench_withBasis, row_withBasis]

theorem row_atEquity (h : record.row = record'.row) (equity : Decimal) (now : Time) :
    (record.atEquity equity now).row = (record'.atEquity equity now).row := by
  rw [eq_withBasis_of_row_eq h, atEquity_withBasis, row_withBasis]

theorem basis_atEquity (record : PerAgentRecord) (equity : Decimal) (now : Time) :
    (record.atEquity equity now).basis = record.basis := by
  have h := atEquity_withBasis record record.basis equity now
  exact (congrArg basis h).trans (basis_withBasis _)

/-- A buy moves the cost basis and nothing else. -/
theorem updateAvgCost_eq {fill : Fill} (h : fill.side = .buy) :
    record.updateAvgCost fill = record.withBasis (record.basis.after fill) := by
  by_cases hq : 0 < (record.openQty.get? fill.symbol).getD 0 + fill.qty <;>
    simp [updateAvgCost, CostBasis.after, withBasis, basis, h, hq]

/-- A sale moves the cost basis, whatever else it does. -/
theorem clearAvgCost_eq {fill : Fill} (h : fill.side = .sell) :
    record.clearAvgCost fill = record.withBasis (record.basis.after fill) := by
  by_cases hq : (record.openQty.get? fill.symbol).getD 0 ≤ fill.qty <;>
    simp [clearAvgCost, CostBasis.after, withBasis, basis, h, hq]

/-- What a sale does to a record besides moving its cost basis. -/
def afterSell (record : PerAgentRecord) (loss : Bool) (now : Time) : PerAgentRecord :=
  if loss then
    if consecutiveLossBenchTrigger ≤ record.consecutiveLosses + 1 then
      { record with
        consecutiveLosses := record.consecutiveLosses + 1
        isBenched := true
        benchUntil := some (now + benchDuration) }
    else { record with consecutiveLosses := record.consecutiveLosses + 1 }
  else
    { record with
      consecutiveLosses := 0
      isBenched := false
      benchUntil := if record.isBenched then none else record.benchUntil }

theorem afterSell_withBasis (record : PerAgentRecord) (basis : CostBasis) (loss : Bool)
    (now : Time) :
    (record.withBasis basis).afterSell loss now = (record.afterSell loss now).withBasis basis := by
  cases loss with
  | false => rfl
  | true =>
    by_cases h : consecutiveLossBenchTrigger ≤ record.consecutiveLosses + 1 <;>
      simp [afterSell, withBasis, h]

theorem row_afterSell (h : record.row = record'.row) (loss : Bool) (now : Time) :
    (record.afterSell loss now).row = (record'.afterSell loss now).row := by
  rw [eq_withBasis_of_row_eq h, afterSell_withBasis, row_withBasis]

theorem consecutiveLosses_afterSell (record : PerAgentRecord) (loss : Bool) (now : Time) :
    (record.afterSell loss now).consecutiveLosses =
      if loss then record.consecutiveLosses + 1 else 0 := by
  unfold afterSell
  split_ifs <;> rfl

end PerAgentRecord

namespace AgentStateTracker

variable (t : AgentStateTracker) (kill : KillSwitchEngine) {fill : Fill} (now : Time)

theorem records_updateOnFill_of_buy (h : fill.side = .buy) :
    (t.updateOnFill kill fill now).1.records =
      Function.update t.records fill.agentId ((t.records fill.agentId).withBasis
        ((t.records fill.agentId).basis.after fill)) := by
  rw [← PerAgentRecord.updateAvgCost_eq h, updateOnFill, h]
  rfl

theorem records_updateOnFill_of_sell (h : fill.side = .sell) :
    (t.updateOnFill kill fill now).1.records =
      Function.update t.records fill.agentId
        (((t.records fill.agentId).afterSell ((t.records fill.agentId).isLoss fill) now).withBasis
          ((t.records fill.agentId).basis.after fill)) := by
  rw [← PerAgentRecord.afterSell_withBasis, updateOnFill, h]
  dsimp only
  rw [PerAgentRecord.clearAvgCost_eq h]
  by_cases hl : (t.records fill.agentId).isLoss fill = true
  · by_cases hb : consecutiveLossBenchTrigger ≤ (t.records fill.agentId).consecutiveLosses + 1
    · simp only [PerAgentRecord.afterSell, PerAgentRecord.withBasis, hl, hb, if_true,
        records_publish]
      rfl
    · simp only [PerAgentRecord.afterSell, PerAgentRecord.withBasis, hl, hb, if_true, if_false]
      rfl
  · simp only [PerAgentRecord.afterSell, PerAgentRecord.withBasis, hl]
    rfl

/-- What the cost basis and a sale leave alone of a record, a fill leaves alone of every record. -/
theorem records_updateOnFill_rel {R : PerAgentRecord → PerAgentRecord → Prop}
    (hrefl : ∀ record, R record record)
    (hsell : ∀ record loss basis, R record ((record.afterSell loss now).withBasis basis))
    (hbuy : ∀ record basis, R record (record.withBasis basis)) (agentId : AgentId) :
    R (t.records agentId) ((t.updateOnFill kill fill now).1.records agentId) := by
  by_cases hk : agentId = fill.agentId
  · subst hk
    cases hside : fill.side with
    | buy =>
      rw [records_updateOnFill_of_buy t kill now hside, Function.update_self]
      exact hbuy _ _
    | sell =>
      rw [records_updateOnFill_of_sell t kill now hside, Function.update_self]
      exact hsell _ _ _
  · cases hside : fill.side with
    | buy =>
      rw [records_updateOnFill_of_buy t kill now hside, Function.update_of_ne hk]
      exact hrefl _
    | sell =>
      rw [records_updateOnFill_of_sell t kill now hside, Function.update_of_ne hk]
      exact hrefl _

end AgentStateTracker

/-! ### A tracker that is restarted and one that is not -/

/-- The fills so far, and those since the last restart. -/
structure FillHistory where
  all : List Fill
  recent : List Fill

namespace FillHistory

def step (h : FillHistory) : TrackerOp → FillHistory
  | .updateOnFill fill _ => ⟨h.all ++ [fill], h.recent ++ [fill]⟩
  | .updateOnMark _ _ _ _ => h
  | .restart => ⟨h.all, []⟩

/-- **The condition**: a sale is at a loss by the cost of what was bought since the beginning just
when it is by the cost of what was bought since the last restart. -/
def SameVerdict (h : FillHistory) : TrackerOp → Prop
  | .updateOnFill fill _ => fill.side = .sell →
    (CostBasis.ofFills fill.agentId h.all).isLoss fill =
      (CostBasis.ofFills fill.agentId h.recent).isLoss fill
  | .updateOnMark _ _ _ _ | .restart => True

end FillHistory

/-- A process, and the same one without its restarts. -/
structure Twin where
  restarted : TrackerProcess
  steady : TrackerProcess
  history : FillHistory

namespace Twin

def step (w : Twin) (op : TrackerOp) : Twin where
  restarted := w.restarted.step op
  steady := if op.isRestart then w.steady else w.steady.step op
  history := w.history.step op

/-- Both give the same answers. -/
def Alike (w : Twin) : Prop :=
  ∀ agentId now, w.restarted.answer agentId now = w.steady.answer agentId now

/-- **The link**: the rows agree and are those in the database, and each cost basis is that of the
fills its tracker has seen. -/
structure Linked (w : Twin) : Prop where
  row : ∀ agentId,
    (w.restarted.tracker.records agentId).row = (w.steady.tracker.records agentId).row
  restarted : ∀ agentId,
    (w.restarted.tracker.records agentId).basis = .ofFills agentId w.history.recent
  steady : ∀ agentId, (w.steady.tracker.records agentId).basis = .ofFills agentId w.history.all
  stored : ∀ agentId,
    AgentStateTracker.loadOrInitRecords w.restarted.startingEquity w.restarted.db agentId =
      (w.restarted.tracker.records agentId).row.toRecord

/-! ### One operation -/

section Step

variable {w : Twin}

theorem step_updateOnFill (w : Twin) (fill : Fill) (now : Time) :
    w.step (.updateOnFill fill now) =
      ⟨w.restarted.step (.updateOnFill fill now), w.steady.step (.updateOnFill fill now),
        ⟨w.history.all ++ [fill], w.history.recent ++ [fill]⟩⟩ := rfl

theorem step_updateOnMark (w : Twin) (ledger : LotLedger) (agentId : AgentId)
    (markPrices : Dict String Decimal) (now : Time) :
    w.step (.updateOnMark ledger agentId markPrices now) =
      ⟨w.restarted.step (.updateOnMark ledger agentId markPrices now),
        w.steady.step (.updateOnMark ledger agentId markPrices now), w.history⟩ := rfl

/-- What the tracker answers is in the row. -/
theorem answer_congr {p q : TrackerProcess} {agentId : AgentId}
    (h : (p.tracker.records agentId).row = (q.tracker.records agentId).row) (now : Time) :
    p.answer agentId now = q.answer agentId now := by
  have hrow := PerAgentRecord.row_expireBench h now
  have hstate : ∀ p : TrackerProcess, p.answer agentId now =
      let row := ((p.tracker.records agentId).expireBench now).row
      { agentId := agentId
        sleeveEquity := row.currentEquity
        sleevePeakEquity := row.peakEquity
        drawdownBucket := row.sizingBucket
        drawdownBucketEntryDate := row.recoverySince
        consecutiveLosses := row.consecutiveLosses
        isBenched := row.isBenched
        benchUntil := row.benchUntil } := fun _ => rfl
  rw [hstate p, hstate q, hrow]

theorem Linked.alike (h : w.Linked) : w.Alike := fun agentId now => answer_congr (h.row agentId) now

theorem ofFills_append (agentId : AgentId) (fills : List Fill) (fill : Fill) :
    CostBasis.ofFills agentId (fills ++ [fill]) =
      if fill.agentId = agentId then (CostBasis.ofFills agentId fills).after fill
      else .ofFills agentId fills := by
  unfold CostBasis.ofFills
  split_ifs with h <;> simp [List.filter_append, h]

/-- A restart: the rows are read back, and the cost basis is forgotten. -/
theorem Linked.restart (h : w.Linked) : (w.step .restart).Linked where
  row agentId := (congrArg PerAgentRecord.row (h.stored agentId)).trans (h.row agentId)
  restarted agentId := congrArg PerAgentRecord.basis (h.stored agentId)
  steady := h.steady
  stored agentId := by
    have hrow := congrArg PerAgentRecord.row (h.stored agentId)
    exact (h.stored agentId).trans (congrArg TrackerRow.toRecord hrow.symm)

/-- A mark: both trackers find the same equity, and neither looks at the cost basis. -/
theorem Linked.updateOnMark (h : w.Linked) (ledger : LotLedger) (agentId : AgentId)
    (markPrices : Dict String Decimal) (now : Time) :
    (w.step (.updateOnMark ledger agentId markPrices now)).Linked := by
  have hstarting : ∀ p : TrackerProcess,
      (p.tracker.records agentId).startingEquity =
        (p.tracker.records agentId).row.startingEquity := fun _ => rfl
  have hequity : w.restarted.tracker.equityAt ledger agentId markPrices =
      w.steady.tracker.equityAt ledger agentId markPrices := by
    rw [AgentStateTracker.equityAt, AgentStateTracker.equityAt, hstarting, hstarting, h.row]
  have hrecords : ∀ p : TrackerProcess,
      (p.step (.updateOnMark ledger agentId markPrices now)).tracker.records =
        Function.update p.tracker.records agentId ((p.tracker.records agentId).atEquity
          (p.tracker.equityAt ledger agentId markPrices) now) :=
    fun p => p.tracker.records_updateOnMark ledger agentId markPrices now
  rw [step_updateOnMark]
  refine ⟨fun a => ?_, fun a => ?_, fun a => ?_, fun a => rfl⟩ <;>
    dsimp only <;> rw [hrecords] <;> by_cases ha : a = agentId
  · subst ha
    rw [hrecords, hequity]
    simpa using PerAgentRecord.row_atEquity (h.row a) _ now
  · rw [hrecords]
    simpa [ha] using h.row a
  · subst ha
    simpa [PerAgentRecord.basis_atEquity] using h.restarted a
  · simpa [ha] using h.restarted a
  · subst ha
    simpa [PerAgentRecord.basis_atEquity] using h.steady a
  · simpa [ha] using h.steady a

/-- What a fill does to the records, given its verdict on a sale. -/
theorem records_step_updateOnFill (p : TrackerProcess) (fill : Fill) (now : Time) :
    (p.step (.updateOnFill fill now)).tracker.records =
      Function.update p.tracker.records fill.agentId
        ((if fill.side = .buy then p.tracker.records fill.agentId
          else (p.tracker.records fill.agentId).afterSell
            ((p.tracker.records fill.agentId).basis.isLoss fill) now).withBasis
          ((p.tracker.records fill.agentId).basis.after fill)) := by
  cases hside : fill.side with
  | buy => exact p.tracker.records_updateOnFill_of_buy p.kill now hside
  | sell => exact p.tracker.records_updateOnFill_of_sell p.kill now hside

/-- A fill that both cost bases judge alike. -/
theorem Linked.updateOnFill (h : w.Linked) {fill : Fill} {now : Time}
    (hfill : w.history.SameVerdict (.updateOnFill fill now)) :
    (w.step (.updateOnFill fill now)).Linked := by
  have hbasis : ∀ (p : TrackerProcess) (fills : List Fill),
      (∀ a, (p.tracker.records a).basis = .ofFills a fills) → ∀ a,
        ((p.step (.updateOnFill fill now)).tracker.records a).basis =
          .ofFills a (fills ++ [fill]) := by
    intro p fills hp a
    rw [records_step_updateOnFill, ofFills_append]
    by_cases ha : a = fill.agentId
    · subst ha
      simp [hp]
    · simp [ha, Ne.symm ha, hp]
  rw [step_updateOnFill]
  refine ⟨fun a => ?_, hbasis _ _ h.restarted, hbasis _ _ h.steady, fun a => rfl⟩
  dsimp only
  rw [records_step_updateOnFill, records_step_updateOnFill]
  by_cases ha : a = fill.agentId
  · subst ha
    cases hside : fill.side with
    | buy => simpa using h.row fill.agentId
    | sell =>
      have hloss := hfill hside
      rw [h.restarted, h.steady, ← hloss]
      simpa using PerAgentRecord.row_afterSell (h.row fill.agentId) _ now
  · simpa [ha] using h.row a

theorem Linked.step (h : w.Linked) {op : TrackerOp} (hop : w.history.SameVerdict op) :
    (w.step op).Linked := by
  cases op with
  | updateOnFill fill now => exact h.updateOnFill hop
  | updateOnMark ledger agentId markPrices now => exact h.updateOnMark ledger agentId markPrices now
  | restart => exact h.restart

/-- Some reading finds the benches of both records not expired. -/
theorem exists_expireBench_eq (record record' : PerAgentRecord) :
    ∃ now, record.expireBench now = record ∧ record'.expireBench now = record' := by
  have hnot : ∀ (record : PerAgentRecord) (now : Time),
      (∀ benchUntil ∈ record.benchUntil, now < benchUntil) → record.expireBench now = record := by
    intro record now h
    rw [PerAgentRecord.expireBench]
    cases hb : record.benchUntil with
    | none => rfl
    | some benchUntil => exact if_neg fun hc => absurd hc.2 (not_le.mpr (h benchUntil hb))
  refine ⟨min (record.benchUntil.getD 0) (record'.benchUntil.getD 0) - 1, hnot record _ ?_,
    hnot record' _ ?_⟩
  · intro benchUntil hb
    have hb' : record.benchUntil.getD 0 = benchUntil := by simp [Option.mem_def.mp hb]
    exact Int.sub_one_lt_of_le (hb' ▸ min_le_left _ _)
  · intro benchUntil hb
    have hb' : record'.benchUntil.getD 0 = benchUntil := by simp [Option.mem_def.mp hb]
    exact Int.sub_one_lt_of_le (hb' ▸ min_le_right _ _)

/-- Two trackers with the same answers have the same streaks. -/
theorem Alike.consecutiveLosses_eq (h : w.Alike) (agentId : AgentId) :
    (w.restarted.tracker.records agentId).consecutiveLosses =
      (w.steady.tracker.records agentId).consecutiveLosses := by
  obtain ⟨now, hr, hs⟩ := exists_expireBench_eq (w.restarted.tracker.records agentId)
    (w.steady.tracker.records agentId)
  have hlosses : ∀ p : TrackerProcess, (p.answer agentId now).consecutiveLosses =
      ((p.tracker.records agentId).expireBench now).consecutiveLosses := fun _ => rfl
  have heq := congrArg AgentState.consecutiveLosses (h agentId now)
  rwa [hlosses, hlosses, hr, hs] at heq

/-- A sale that the cost bases judge differently shows in the streak. -/
theorem Linked.not_alike_step (h : w.Linked) {op : TrackerOp} (hop : ¬w.history.SameVerdict op) :
    ¬(w.step op).Alike := by
  intro halike
  cases op with
  | updateOnMark ledger agentId markPrices now => exact hop trivial
  | restart => exact hop trivial
  | updateOnFill fill now =>
    obtain ⟨hside, hloss⟩ := Classical.not_imp.mp hop
    have heq := halike.consecutiveLosses_eq fill.agentId
    rw [step_updateOnFill] at heq
    dsimp only at heq
    have hlosses : ∀ p : TrackerProcess,
        ((p.step (.updateOnFill fill now)).tracker.records fill.agentId).consecutiveLosses =
          if (p.tracker.records fill.agentId).basis.isLoss fill then
            (p.tracker.records fill.agentId).consecutiveLosses + 1 else 0 := by
      intro p
      rw [records_step_updateOnFill, hside, Function.update_self, if_neg (by decide)]
      exact PerAgentRecord.consecutiveLosses_afterSell _ _ _
    rw [hlosses, hlosses, h.restarted, h.steady] at heq
    cases hr : (CostBasis.ofFills fill.agentId w.history.recent).isLoss fill <;>
      cases hs : (CostBasis.ofFills fill.agentId w.history.all).isLoss fill <;>
        simp_all

end Step

/-! ### Runs -/

/-- Two processes that have just been started. -/
def start (p : TrackerProcess) : Twin := ⟨p, p, ⟨[], []⟩⟩

variable (db : TrackerDb) (startingEquity : Decimal) (hasBus : Bool) (kill : KillSwitchEngine)

theorem linked_start : (start (.start db startingEquity hasBus kill)).Linked := by
  have hload : ∀ agentId,
      AgentStateTracker.loadOrInitRecords startingEquity db agentId =
          (AgentStateTracker.loadOrInitRecords startingEquity db agentId).row.toRecord ∧
        (AgentStateTracker.loadOrInitRecords startingEquity db agentId).basis = .empty := by
    intro agentId
    unfold AgentStateTracker.loadOrInitRecords
    cases db agentId <;> exact ⟨rfl, rfl⟩
  exact ⟨fun _ => rfl, fun a => (hload a).2, fun a => (hload a).2, fun a => (hload a).1⟩

theorem steady_run (w : Twin) (ops : List TrackerOp) :
    (run step w ops).steady =
      run TrackerProcess.step w.steady (ops.filter fun op => !op.isRestart) := by
  induction ops generalizing w with
  | nil => rfl
  | cons op ops ih =>
    rw [run_cons, ih]
    cases op <;> rfl

/-- **A tracker that is restarted answers like one that is not**, at every point of a run and
whenever it is asked, exactly when both cost bases judge every sale alike. -/
theorem transparent_iff (ops : List TrackerOp) :
    (∀ pre, pre <+: ops → ∀ agentId now,
        (run TrackerProcess.step (.start db startingEquity hasBus kill) pre).answer agentId now =
          (run TrackerProcess.step (.start db startingEquity hasBus kill)
            (pre.filter fun op => !op.isRestart)).answer agentId now) ↔
      Along FillHistory.step FillHistory.SameVerdict ⟨[], []⟩ ops := by
  have hlinked := linked_start db startingEquity hasBus kill
  have hhistory : Along step (fun w op => w.history.SameVerdict op)
        (start (.start db startingEquity hasBus kill)) ops ↔
      Along FillHistory.step FillHistory.SameVerdict ⟨[], []⟩ ops :=
    along_component Twin.history (fun _ _ => rfl) ops
  rw [← hhistory, ← forall_reached_iff_along_of_invariant (fun _ _ hw hop => hw.step hop)
    (fun _ hw => hw.alike) (fun _ _ hw hop => hw.not_alike_step hop) hlinked]
  refine forall_congr' fun pre => imp_congr_right fun _ => ?_
  have hrestarted : (run step (start (.start db startingEquity hasBus kill)) pre).restarted =
      run TrackerProcess.step (.start db startingEquity hasBus kill) pre :=
    run_component Twin.restarted (fun _ _ => rfl) pre
  unfold Alike
  rw [steady_run, hrestarted]
  rfl

/-! ### A loss that is forgotten -/

def boughtAt100 : Fill where
  id := 0
  orderId := 0
  agentId := .sonnet
  symbol := "SPY"
  side := .buy
  qty := 10
  price := 100
  timestamp := 0

def soldAt80 : Fill where
  id := 1
  orderId := 1
  agentId := .sonnet
  symbol := "SPY"
  side := .sell
  qty := 10
  price := 80
  timestamp := 1

/-- Bought, restarted, sold at a loss. -/
def restartedBeforeSale : List TrackerOp :=
  [.updateOnFill boughtAt100 0, .restart, .updateOnFill soldAt80 1]

/-- A process over an empty database. -/
def fresh : TrackerProcess := .start (fun _ => none) 1000 false (.new 120)

/-- **The loss is not counted** after the restart. -/
theorem not_transparent_restartedBeforeSale :
    ¬∀ pre, pre <+: restartedBeforeSale → ∀ agentId now,
      (run TrackerProcess.step fresh pre).answer agentId now =
        (run TrackerProcess.step fresh (pre.filter fun op => !op.isRestart)).answer agentId
          now := by
  intro h
  have hlosses := congrArg AgentState.consecutiveLosses
    (h restartedBeforeSale (List.prefix_refl _) .sonnet 2)
  exact absurd hlosses (by decide +kernel)

end Twin

end TradingPlatform
