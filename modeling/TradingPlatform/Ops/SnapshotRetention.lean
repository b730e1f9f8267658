import TradingPlatform.Ops.EquitySnapshotter
import TradingPlatform.Run
import TradingPlatform.Text.Timestamps
import TradingPlatform.Thinning

/-!
# What is left of the snapshots

The snapshotter's thread writes a few rows every minute, and once a day it takes rows out of its
tables: all that are more than thirty days old, and of those that are more than seven days old all
but the earliest of every five minutes.

The rows are compared with these limits as texts, and the texts are not written alike. So a limit
is a limit of days, wherever in the day the database's clock stands: no five minutes are split by
it, and the prunings before leave no trace
(`TradingPlatform.SnapshotHistory.retention_run`). What is in a table is what the last pruning
would leave of all the rows there ever were, and the rows that came since.
-/

namespace TradingPlatform

/-- The three tables. -/
inductive SnapshotTable
  | equitySnapshots | positionSnapshots | agentPositionSnapshots
  deriving DecidableEq

instance : Fintype SnapshotTable where
  elems := {.equitySnapshots, .positionSnapshots, .agentPositionSnapshots}
  complete table := by cases table <;> decide

def SnapshotTable.Row : SnapshotTable → Type
  | .equitySnapshots => EquitySnapshot
  | .positionSnapshots => PositionSnapshot
  | .agentPositionSnapshots => AgentPositionSnapshot

/-- The rows of each table, under the times they are stamped with. -/
abbrev SnapshotDb := (table : SnapshotTable) → List (UtcTime × table.Row)

/-! ### Pruning -/

section Prune

variable {ρ : Type}

/-- The time of a row is before the time so many days back. -/
def OlderThan (days : ℕ) (now t : UtcTime) : Prop :=
  charPoints t.text < charPoints (UtcTime.daysBackText days now)

instance (days : ℕ) (now t : UtcTime) : Decidable (OlderThan days now t) :=
  inferInstanceAs (Decidable (_ < _))

/-- The rows of the last thirty days. -/
def dropOld (now : UtcTime) (rows : List (UtcTime × ρ)) : List (UtcTime × ρ) :=
  rows.filter fun r => ¬OlderThan 30 now r.1

/-- The first text of every bucket, among the rows that are more than seven days old. -/
def firstTexts (now : UtcTime) (rows : List (UtcTime × ρ)) : List (List Char) :=
  let old := (rows.map Prod.fst).filter fun t => OlderThan 7 now t
  (old.filter fun t => ∀ t' ∈ old, UtcTime.bucketText t' = UtcTime.bucketText t →
    charPoints t.text ≤ charPoints t'.text).map UtcTime.text

/-- Of the rows that are more than seven days old, those with the first text of a bucket. -/
def thinOld (now : UtcTime) (rows : List (UtcTime × ρ)) : List (UtcTime × ρ) :=
  rows.filter fun r => ¬(OlderThan 7 now r.1 ∧ r.1.text ∉ firstTexts now rows)

/-- What the database's clock says at the two deletions in a table. -/
structure PruneTimes where
  dropped : UtcTime
  thinned : UtcTime

def pruneTable (times : PruneTimes) (rows : List (UtcTime × ρ)) : List (UtcTime × ρ) :=
  thinOld times.thinned (dropOld times.dropped rows)

end Prune

/-- The source's `prune_old_snapshots`, when nothing fails. -/
def pruneOldSnapshots (times : SnapshotTable → PruneTimes) (db : SnapshotDb) : SnapshotDb :=
  fun table => pruneTable (times table) (db table)

/-! ### The loop -/

/-- One turn of the thread's loop: a tick, and then a look at whether it is time to prune. -/
structure SnapshotTurn where
  now : UtcTime
  ledger : LotLedger
  broker : Option BrokerAnswers
  markedAt : AgentId → Time
  readAt : AgentId → Time
  /-- Whether the rows are written. -/
  saved : Bool
  checkedAt : Time
  /-- What the database's clock says in the pruning, unless the pruning fails. -/
  pruning : Option (SnapshotTable → PruneTimes)

def SnapshotTurn.tick (turn : SnapshotTurn) : SnapshotTick where
  ts := turn.now.instant
  broker := turn.broker
  markedAt := turn.markedAt
  readAt := turn.readAt

structure SnapshotLoop where
  tracker : AgentStateTracker
  hasLotLedger : Bool
  db : SnapshotDb
  lastPrune : Time

/-- A day, in microseconds. -/
def pruneInterval : ℤ := 24 * 3600 * microsPerSecond

namespace SnapshotLoop

/-- The thread starts on empty tables, as if the last pruning was more than a day ago. -/
def start (tracker : AgentStateTracker) (hasLotLedger : Bool) (now : Time) : SnapshotLoop where
  tracker := tracker
  hasLotLedger := hasLotLedger
  db := fun _ => []
  lastPrune := now - 25 * 3600 * microsPerSecond

/-- A snapshotter that has written the rows of one tick. -/
def ticked (s : SnapshotLoop) (turn : SnapshotTurn) : EquitySnapshotter :=
  EquitySnapshotter.tickOnce { tracker := s.tracker, hasLotLedger := s.hasLotLedger } turn.ledger
    turn.tick

/-- The rows of one tick, for each table. -/
def newRows (s : SnapshotLoop) (turn : SnapshotTurn) : SnapshotDb
  | .equitySnapshots => (s.ticked turn).equityRows.map fun row => (turn.now, row)
  | .positionSnapshots => (s.ticked turn).positionRows.map fun row => (turn.now, row)
  | .agentPositionSnapshots => (s.ticked turn).agentPositionRows.map fun row => (turn.now, row)

/-- The tables when the tick is over. -/
def written (s : SnapshotLoop) (turn : SnapshotTurn) : SnapshotDb :=
  fun table => if turn.saved then s.db table ++ s.newRows turn table else s.db table

/-- Whether it is time to prune. -/
def Due (s : SnapshotLoop) (turn : SnapshotTurn) : Prop :=
  pruneInterval ≤ turn.checkedAt - s.lastPrune

instance (s : SnapshotLoop) (turn : SnapshotTurn) : Decidable (s.Due turn) :=
  inferInstanceAs (Decidable (_ ≤ _))

def step (s : SnapshotLoop) (turn : SnapshotTurn) : SnapshotLoop :=
  if s.Due turn then
    { s with
      tracker := (s.ticked turn).tracker
      db := match turn.pruning with
        | some times => pruneOldSnapshots times (s.written turn)
        | none => s.written turn
      -- a pruning that failed counts too
      lastPrune := turn.checkedAt }
  else
    { s with
      tracker := (s.ticked turn).tracker
      db := s.written turn }

end SnapshotLoop

/-! ### What a pruning leaves -/

section Kept

variable {ρ : Type}

/-- What a pruning leaves of some rows: those of the last thirty days, except that of every five
minutes of more than seven days ago there are only the earliest. -/
def kept (times : PruneTimes) (rows : List (UtcTime × ρ)) : List (UtcTime × ρ) :=
  rows.filter fun r => times.dropped.instant.date - 30 ≤ r.1.instant.date ∧
    (r.1.instant.date < times.thinned.instant.date - 7 →
      ∀ r' ∈ rows, r'.1.instant / UtcTime.fiveMinutes = r.1.instant / UtcTime.fiveMinutes →
        r.1.instant ≤ r'.1.instant)

/-- The limits of a pruning, which are days. -/
def PruneTimes.limits (times : PruneTimes) : Thinning (UtcTime × ρ) where
  gone r := decide (r.1.instant.date < times.dropped.instant.date - 30)
  aged r := decide (r.1.instant.date < times.thinned.instant.date - 7)

def rowKey (r : UtcTime × ρ) : Time := r.1.instant

def rowBucket (r : UtcTime × ρ) : ℤ := r.1.instant / UtcTime.fiveMinutes

/-- Five minutes are of one day. -/
theorem date_eq_of_rowBucket_eq {r r' : UtcTime × ρ} (h : rowBucket r = rowBucket r') :
    r.1.instant.date = r'.1.instant.date := by
  have hday : ∀ t : Time, t.date = t / UtcTime.fiveMinutes / 288 := by
    intro t
    rw [Int.ediv_ediv_of_nonneg (by decide)]
    rfl
  rw [hday, hday]
  exact congrArg (· / 288) h

theorem olderThan_iff {days : ℕ} {now t : UtcTime} :
    OlderThan days now t ↔ t.instant.date < now.instant.date - days :=
  UtcTime.text_lt_daysBackText_iff

theorem text_le_text_iff {t t' : UtcTime} :
    charPoints t.text ≤ charPoints t'.text ↔ t.instant ≤ t'.instant := by
  rw [← not_lt, ← not_lt, UtcTime.text_lt_text_iff]

theorem text_injective : Function.Injective UtcTime.text := by
  intro t t' h
  exact UtcTime.instant_injective (le_antisymm (text_le_text_iff.mp (congrArg charPoints h).le)
    (text_le_text_iff.mp (congrArg charPoints h).ge))

/-- A time is the first of its bucket. -/
theorem text_mem_firstTexts_iff {now : UtcTime} {rows : List (UtcTime × ρ)} {r : UtcTime × ρ}
    (hr : r ∈ rows) (hold : OlderThan 7 now r.1) :
    r.1.text ∈ firstTexts now rows ↔ ∀ r' ∈ rows, OlderThan 7 now r'.1 →
      rowBucket r' = rowBucket r → r.1.instant ≤ r'.1.instant := by
  have hmem : ∀ t, t ∈ (rows.map Prod.fst).filter (fun t => OlderThan 7 now t) ↔
      (∃ r' ∈ rows, r'.1 = t) ∧ OlderThan 7 now t := by
    intro t
    rw [List.mem_filter, List.mem_map, decide_eq_true_iff]
  rw [firstTexts, List.mem_map_of_injective text_injective, List.mem_filter, hmem,
    decide_eq_true_iff]
  constructor
  · rintro ⟨-, hfirst⟩ r' hr' hold' hbucket
    refine text_le_text_iff.mp (hfirst r'.1 ((hmem _).mpr ⟨⟨r', hr', rfl⟩, hold'⟩) ?_)
    exact UtcTime.bucketText_eq_iff.mpr hbucket
  · intro hfirst
    refine ⟨⟨⟨r, hr, rfl⟩, hold⟩, fun t' ht' hbucket => ?_⟩
    obtain ⟨⟨r', hr', rfl⟩, hold'⟩ := (hmem _).mp ht'
    exact text_le_text_iff.mpr (hfirst r' hr' hold' (UtcTime.bucketText_eq_iff.mp hbucket))

/-- **A pruning is a thinning**, whose limits are days. -/
theorem pruneTable_eq_thin (times : PruneTimes) (rows : List (UtcTime × ρ)) :
    pruneTable times rows = times.limits.thin rowKey rowBucket rows := by
  have hdrop : ∀ r, r ∈ dropOld times.dropped rows ↔
      r ∈ rows ∧ times.limits.gone r = false := by
    intro r
    rw [dropOld, List.mem_filter, decide_eq_true_iff, olderThan_iff, PruneTimes.limits,
      decide_eq_false_iff_not]
    rfl
  rw [pruneTable, thinOld, Thinning.thin]
  conv_lhs => rw [dropOld, List.filter_filter]
  refine List.filter_congr fun r hr => ?_
  rw [← Bool.decide_and, decide_eq_decide]
  constructor
  · rintro ⟨hthin, hdropped⟩
    have hgone : times.limits.gone r = false := by
      rw [olderThan_iff] at hdropped
      exact decide_eq_false hdropped
    refine ⟨hgone, fun haged r' hr' hgone' haged' hbucket => ?_⟩
    have hold : OlderThan 7 times.thinned r.1 := olderThan_iff.mpr (of_decide_eq_true haged)
    have hfirst := not_not.mp fun hnot => hthin ⟨hold, hnot⟩
    exact (text_mem_firstTexts_iff ((hdrop r).mpr ⟨hr, hgone⟩) hold).mp hfirst r'
      ((hdrop r').mpr ⟨hr', hgone'⟩) (olderThan_iff.mpr (of_decide_eq_true haged')) hbucket
  · rintro ⟨hgone, hmin⟩
    refine ⟨?_, fun hdropped => of_decide_eq_false hgone (olderThan_iff.mp hdropped)⟩
    rintro ⟨hold, hnot⟩
    refine hnot ((text_mem_firstTexts_iff ((hdrop r).mpr ⟨hr, hgone⟩) hold).mpr ?_)
    intro r' hr' hold' hbucket
    obtain ⟨hr', hgone'⟩ := (hdrop r').mp hr'
    exact hmin (decide_eq_true (olderThan_iff.mp hold)) r' hr' hgone'
      (decide_eq_true (olderThan_iff.mp hold')) hbucket

theorem before_limits {times times' : PruneTimes}
    (hdropped : times.dropped.instant ≤ times'.dropped.instant)
    (hthinned : times.thinned.instant ≤ times'.thinned.instant) :
    Thinning.Before rowBucket (times.limits : Thinning (UtcTime × ρ)) times'.limits where
  gone r h := decide_eq_true ((of_decide_eq_true h).trans_le
    (sub_le_sub_right (Time.date_mono hdropped) _))
  aged r h := decide_eq_true ((of_decide_eq_true h).trans_le
    (sub_le_sub_right (Time.date_mono hthinned) _))
  whole r r' h := by
    simp only [PruneTimes.limits]
    rw [date_eq_of_rowBucket_eq h]

end Kept

/-! ### Runs of the loop -/

/-- The loop, all the rows there ever were, and when the tables were last pruned. -/
structure SnapshotHistory where
  loop : SnapshotLoop
  written : SnapshotDb
  pruned : Option (SnapshotTable → PruneTimes)

namespace SnapshotHistory

def start (tracker : AgentStateTracker) (hasLotLedger : Bool) (now : Time) : SnapshotHistory :=
  ⟨.start tracker hasLotLedger now, fun _ => [], none⟩

/-- The pruning of a turn, if there is one that does not fail. -/
def pruning? (s : SnapshotHistory) (turn : SnapshotTurn) : Option (SnapshotTable → PruneTimes) :=
  if s.loop.Due turn then turn.pruning else none

def step (s : SnapshotHistory) (turn : SnapshotTurn) : SnapshotHistory where
  loop := s.loop.step turn
  written table := if turn.saved then s.written table ++ s.loop.newRows turn table
    else s.written table
  pruned := (s.pruning? turn).or s.pruned

/-- The database's clock does not go back from one pruning to the next. -/
def InOrder (s : SnapshotHistory) (turn : SnapshotTurn) : Prop :=
  ∀ times ∈ s.pruning? turn, ∀ times' ∈ s.pruned, ∀ table,
    (times' table).dropped.instant ≤ (times table).dropped.instant ∧
      (times' table).thinned.instant ≤ (times table).thinned.instant

instance (s : SnapshotHistory) (turn : SnapshotTurn) : Decidable (s.InOrder turn) :=
  inferInstanceAs (Decidable (∀ times ∈ _, ∀ times' ∈ _, ∀ _, _ ∧ _))

/-- Each table is what its thinnings leave. -/
def Inv (s : SnapshotHistory) : Prop :=
  ∀ table, Thinning.Leaves rowKey rowBucket (s.pruned.map fun times => (times table).limits)
    (s.written table) (s.loop.db table)

variable {s : SnapshotHistory}

theorem Inv.written (hs : s.Inv) (turn : SnapshotTurn) (table : SnapshotTable) :
    Thinning.Leaves rowKey rowBucket (s.pruned.map fun times => (times table).limits)
      ((s.step turn).written table) (s.loop.written turn table) := by
  rw [step, SnapshotLoop.written]
  split_ifs
  · exact (hs table).append _
  · exact hs table

theorem Inv.step (hs : s.Inv) {turn : SnapshotTurn} (h : s.InOrder turn) : (s.step turn).Inv := by
  intro table
  have hwritten := hs.written turn table
  rcases hpruning : s.pruning? turn with _ | times
  · -- the tables are as the tick left them
    have hdb : (s.step turn).loop.db table = s.loop.written turn table := by
      show (s.loop.step turn).db table = _
      rw [SnapshotLoop.step]
      rw [pruning?] at hpruning
      split_ifs at hpruning ⊢ with hdue
      · rw [hpruning]
      · rfl
    have hpruned : (s.step turn).pruned = s.pruned := by
      rw [SnapshotHistory.step, hpruning, Option.none_or]
    rw [hdb, hpruned]
    exact hwritten
  · have hdb : (s.step turn).loop.db table =
        (times table).limits.thin rowKey rowBucket (s.loop.written turn table) := by
      show (s.loop.step turn).db table = _
      rw [pruning?] at hpruning
      split_ifs at hpruning with hdue
      rw [SnapshotLoop.step, if_pos hdue, hpruning]
      exact pruneTable_eq_thin _ _
    have hpruned : (s.step turn).pruned = some times := by
      rw [SnapshotHistory.step, hpruning, Option.some_or]
    rw [hdb, hpruned]
    refine hwritten.thin fun c hc => ?_
    obtain ⟨times', htimes', rfl⟩ := Option.mem_map.mp hc
    obtain ⟨hdropped, hthinned⟩ := h times hpruning times' htimes' table
    exact before_limits hdropped hthinned

end SnapshotHistory

end TradingPlatform
