import TradingPlatform.Execution.RecoveryRule

/-!
# The peak an agent's drawdown is measured from

The drawdown of an agent is to be measured from the highest equity of the last thirty days. The
tracker keeps one number for it and raises that number at a mark; it keeps no dates, and never
lowers it.

`TradingPlatform.EquityHistory` is what the rolling peak is about: when the tracker started and
with how much, and the equity at every mark. `TradingPlatform.PeakWatch.peakEquity_rolls_iff` says
of every run of a tracker, restarts and all, that its peak is the highest equity of the window
after each mark exactly when no mark finds the highest equity there ever was outside the window.
-/

namespace TradingPlatform

/-- How far back a peak counts, in microseconds: thirty days. -/
def peakWindow : ℤ := 30 * microsPerDay

/-- The equity computed at a mark. -/
structure EquityMark where
  equity : Decimal
  now : Time
  deriving DecidableEq

/-- How a tracker started, and the marks since. -/
structure EquityHistory where
  started : Time
  startingEquity : Decimal
  marks : List EquityMark
  deriving DecidableEq

namespace EquityHistory

variable (h : EquityHistory)

def concat (marks : List EquityMark) : EquityHistory := { h with marks := h.marks ++ marks }

/-- Every equity there has been. -/
def ever : List Decimal := h.startingEquity :: h.marks.map (·.equity)

/-- The equities of the last thirty days. -/
def window (now : Time) : List Decimal :=
  (if now - peakWindow ≤ h.started then [h.startingEquity] else []) ++
    (h.marks.filter fun m => now - peakWindow ≤ m.now).map (·.equity)

theorem window_subset_ever (now : Time) : h.window now ⊆ h.ever := by
  intro equity hequity
  rw [window, List.mem_append] at hequity
  rcases hequity with hstart | hmark
  · split_ifs at hstart
    · exact List.mem_cons.mpr (Or.inl (List.mem_singleton.mp hstart))
    · cases hstart
  · exact List.mem_cons_of_mem _ (List.map_subset _ (List.filter_subset_self _) hmark)

/-- One more mark is one more equity. -/
theorem isGreatest_ever_concat {peak : Decimal} (hpeak : IsGreatest {x | x ∈ h.ever} peak)
    (mark : EquityMark) : IsGreatest {x | x ∈ (h.concat [mark]).ever} (max peak mark.equity) := by
  have hever : {x | x ∈ (h.concat [mark]).ever} = insert mark.equity {x | x ∈ h.ever} := by
    ext equity
    simp only [ever, concat, List.map_append, List.map_singleton, ← List.cons_append,
      List.mem_append, List.mem_singleton, Set.mem_ofPred_eq, Set.mem_insert_iff]
    exact or_comm
  rw [hever, max_comm]
  exact hpeak.insert mark.equity

/-- **The highest equity ever is recent**: some equity of the window is at least as high as any. -/
def HighIsRecent (now : Time) : Prop := ∀ high ∈ h.ever, ∃ recent ∈ h.window now, high ≤ recent

instance (now : Time) : Decidable (h.HighIsRecent now) :=
  inferInstanceAs (Decidable (∀ high ∈ h.ever, ∃ recent ∈ h.window now, high ≤ recent))

/-- The highest of all is the highest of the window just when it is recent. -/
theorem isGreatest_window_iff {peak : Decimal} (hpeak : IsGreatest {x | x ∈ h.ever} peak)
    (now : Time) : IsGreatest {x | x ∈ h.window now} peak ↔ h.HighIsRecent now := by
  constructor
  · rintro ⟨hmem, -⟩ high hhigh
    exact ⟨peak, hmem, hpeak.2 hhigh⟩
  · intro hrecent
    obtain ⟨recent, hmem, hle⟩ := hrecent peak hpeak.1
    obtain rfl : recent = peak := le_antisymm (hpeak.2 (h.window_subset_ever now hmem)) hle
    exact ⟨hmem, fun equity hequity => hpeak.2 (h.window_subset_ever now hequity)⟩

end EquityHistory

/-- A tracker, and the equity of one of its agents so far. -/
structure PeakWatch where
  process : TrackerProcess
  history : EquityHistory

namespace PeakWatch

variable (agentId : AgentId)

/-- A tracker that has just been started. -/
def start (db : TrackerDb) (startingEquity : Decimal) (hasBus : Bool) (kill : KillSwitchEngine)
    (started : Time) : PeakWatch where
  process := .start db startingEquity hasBus kill
  history := ⟨started, startingEquity, []⟩

/-- What an operation is to the equity of an agent. -/
def mark? (w : PeakWatch) : TrackerOp → Option EquityMark
  | .updateOnMark ledger marked markPrices now =>
    if marked = agentId then some ⟨w.process.tracker.equityAt ledger agentId markPrices, now⟩
    else none
  | .updateOnFill _ _ | .restart => none

def step (w : PeakWatch) (op : TrackerOp) : PeakWatch where
  process := w.process.step op
  history := w.history.concat (w.mark? agentId op).toList

/-- The peak the agent's drawdown is measured from. -/
def peakEquity (w : PeakWatch) : Decimal := (w.process.tracker.records agentId).peakEquity

/-- **The peak rolls**: after a mark it is the highest equity of the last thirty days. -/
def Rolls (w : PeakWatch) (op : TrackerOp) : Prop :=
  ∀ mark, w.mark? agentId op = some mark →
    IsGreatest {equity | equity ∈ (w.step agentId op).history.window mark.now}
      ((w.step agentId op).peakEquity agentId)

/-- No mark finds the highest equity outside the window. -/
def HighIsRecent (w : PeakWatch) (op : TrackerOp) : Prop :=
  ∀ mark, w.mark? agentId op = some mark →
    (w.history.concat [mark]).HighIsRecent mark.now

/-! ### One operation -/

/-- The record and its row hold the highest equity there has ever been. -/
structure Highest (w : PeakWatch) : Prop where
  stored : (AgentStateTracker.loadOrInitRecords w.process.startingEquity w.process.db agentId).row =
    (w.process.tracker.records agentId).row
  startingEquity : (w.process.tracker.records agentId).startingEquity = w.history.startingEquity
  peak : IsGreatest {equity | equity ∈ w.history.ever} (w.peakEquity agentId)

variable {agentId} {w : PeakWatch}

@[simp] theorem startingEquity_atEquity (record : PerAgentRecord) (equity : Decimal) (now : Time) :
    (record.atEquity equity now).startingEquity = record.startingEquity := by
  have hbench : ∀ r : PerAgentRecord, (r.expireBench now).startingEquity = r.startingEquity := by
    intro r
    rw [PerAgentRecord.expireBench]
    split
    · rfl
    · split_ifs <;> rfl
  have hrule : ∀ (r : PerAgentRecord) (rawBucket : DrawdownBucket),
      (r.applyBucketWithRecovery rawBucket now.date).startingEquity = r.startingEquity := by
    intro r rawBucket
    rw [PerAgentRecord.applyBucketWithRecovery]
    dsimp only
    split_ifs <;> rfl
  simp only [PerAgentRecord.atEquity, hrule, hbench]

/-- A fill is no part of the equity. -/
theorem equity_updateOnFill (t : AgentStateTracker) (kill : KillSwitchEngine) (fill : Fill)
    (now : Time) :
    ((t.updateOnFill kill fill now).1.records agentId).startingEquity =
        (t.records agentId).startingEquity ∧
      ((t.updateOnFill kill fill now).1.records agentId).peakEquity =
        (t.records agentId).peakEquity := by
  refine t.records_updateOnFill_rel kill now
    (R := fun record record' => record'.startingEquity = record.startingEquity ∧
      record'.peakEquity = record.peakEquity)
    (fun _ => ⟨rfl, rfl⟩) (fun record loss basis => ?_) (fun _ _ => ⟨rfl, rfl⟩) agentId
  rw [PerAgentRecord.afterSell]
  split_ifs <;> exact ⟨rfl, rfl⟩

theorem concat_nil (h : EquityHistory) : h.concat [] = h := by
  rw [EquityHistory.concat, List.append_nil]

/-- An operation that marks the agent raises its peak. -/
theorem peakEquity_step_of_mark {op : TrackerOp} {mark : EquityMark}
    (hop : w.mark? agentId op = some mark) :
    (w.step agentId op).peakEquity agentId = max (w.peakEquity agentId) mark.equity ∧
      ((w.step agentId op).process.tracker.records agentId).startingEquity =
        (w.process.tracker.records agentId).startingEquity ∧
      (w.step agentId op).history = w.history.concat [mark] := by
  have hhistory : (w.step agentId op).history = w.history.concat [mark] := by
    rw [step, hop, Option.toList_some]
  cases op with
  | updateOnFill fill now => cases hop
  | restart => cases hop
  | updateOnMark ledger marked markPrices now =>
    obtain rfl : marked = agentId := by
      by_contra hne
      rw [mark?, if_neg hne] at hop
      cases hop
    rw [mark?, if_pos rfl, Option.some.injEq] at hop
    have hrecord :
        (w.step marked
            (.updateOnMark ledger marked markPrices now)).process.tracker.records marked =
          (w.process.tracker.records marked).atEquity mark.equity now := by
      rw [← hop]
      have h := w.process.tracker.records_updateOnMark ledger marked markPrices now
      exact (congrFun h _).trans (Function.update_self _ _ _)
    refine ⟨?_, ?_, hhistory⟩
    · rw [peakEquity, hrecord, PerAgentRecord.peakEquity_atEquity, peakEquity]
    · rw [hrecord, startingEquity_atEquity]

/-- **The tracker keeps the highest equity there ever was**, whatever it is asked to do. -/
theorem Highest.step (h : w.Highest agentId) (op : TrackerOp) :
    (w.step agentId op).Highest agentId := by
  cases hop : w.mark? agentId op with
  | some mark =>
    obtain ⟨hpeak, hstarting, hhistory⟩ := peakEquity_step_of_mark hop
    refine ⟨?_, ?_, ?_⟩
    · cases op with
      | updateOnMark ledger marked markPrices now => rfl
      | updateOnFill fill now => rfl
      | restart => cases hop
    · rw [hstarting, h.startingEquity, hhistory]
      rfl
    · rw [hpeak, hhistory]
      exact w.history.isGreatest_ever_concat h.peak mark
  | none =>
    have hhistory : (w.step agentId op).history = w.history := by
      rw [PeakWatch.step, hop, Option.toList_none, concat_nil]
    -- no other operation moves the agent's peak, nor what it started with
    have hkept : ((w.step agentId op).process.tracker.records agentId).startingEquity =
          (w.process.tracker.records agentId).startingEquity ∧
        ((w.step agentId op).process.tracker.records agentId).peakEquity =
          (w.process.tracker.records agentId).peakEquity := by
      cases op with
      | updateOnFill fill now => exact equity_updateOnFill w.process.tracker w.process.kill fill now
      | restart =>
        exact ⟨congrArg TrackerRow.startingEquity h.stored, congrArg TrackerRow.peakEquity h.stored⟩
      | updateOnMark ledger marked markPrices now =>
        have hne : agentId ≠ marked := by
          rintro rfl
          rw [mark?, if_pos rfl] at hop
          cases hop
        have h := congrFun
          (w.process.tracker.records_updateOnMark ledger marked markPrices now) agentId
        have hrecord := h.trans (Function.update_of_ne hne _ _)
        exact ⟨congrArg PerAgentRecord.startingEquity hrecord,
          congrArg PerAgentRecord.peakEquity hrecord⟩
    refine ⟨?_, ?_, ?_⟩
    · cases op with
      | updateOnMark ledger marked markPrices now => rfl
      | updateOnFill fill now => rfl
      | restart => rfl
    · rw [hkept.1, hhistory, h.startingEquity]
    · rw [peakEquity, hkept.2, hhistory]
      exact h.peak

/-- **One mark**: the peak it leaves rolls just when the highest equity is recent. -/
theorem Highest.rolls_iff (h : w.Highest agentId) (op : TrackerOp) :
    w.Rolls agentId op ↔ w.HighIsRecent agentId op := by
  refine forall₂_congr fun mark hop => ?_
  obtain ⟨-, -, hhistory⟩ := peakEquity_step_of_mark hop
  have hpeak := (h.step op).peak
  rw [hhistory] at hpeak ⊢
  exact EquityHistory.isGreatest_window_iff _ hpeak mark.now

/-- An agent that is not in the database starts at its starting equity. -/
theorem highest_start {db : TrackerDb} (hnew : db agentId = none) (startingEquity : Decimal)
    (hasBus : Bool) (kill : KillSwitchEngine) (started : Time) :
    (start db startingEquity hasBus kill started).Highest agentId := by
  have hrecord : (TrackerProcess.start db startingEquity hasBus kill).tracker.records agentId =
      .initial startingEquity := by
    simp [TrackerProcess.start, AgentStateTracker.loadOrInitRecords, hnew]
  have hpeak : (start db startingEquity hasBus kill started).peakEquity agentId = startingEquity :=
    congrArg PerAgentRecord.peakEquity hrecord
  refine ⟨rfl, congrArg PerAgentRecord.startingEquity hrecord, ?_, fun equity hequity => ?_⟩
  · exact List.mem_cons.mpr (Or.inl hpeak)
  · rw [List.mem_singleton.mp hequity, hpeak]
    exact le_refl startingEquity

/-- **When the peak is the rolling thirty-day high**: in a run of the tracker from the first mark
of an agent on, the peak is the highest equity of the last thirty days after every mark of the
agent exactly when every mark finds some equity within thirty days that is as high as any there
has been. A higher one from before is never forgotten. -/
theorem peakEquity_rolls_iff {db : TrackerDb} (hnew : db agentId = none) (startingEquity : Decimal)
    (hasBus : Bool) (kill : KillSwitchEngine) (started : Time) (ops : List TrackerOp) :
    Along (step agentId) (Rolls agentId) (start db startingEquity hasBus kill started) ops ↔
      Along (step agentId) (HighIsRecent agentId) (start db startingEquity hasBus kill started)
        ops :=
  along_congr_of_invariant (fun _ op h => h.step op) (fun _ op h => h.rolls_iff op)
    (highest_start hnew startingEquity hasBus kill started) ops

/-! ### A fall that is never forgotten -/

/-- The price falls by a fifth on the second day, and is marked there again forty days later. -/
def longFlat : List TrackerOp :=
  [TrackerProcess.markTenShares 100 0, TrackerProcess.markTenShares 80 1,
    TrackerProcess.markTenShares 80 41]

/-- **An old peak still defines the drawdown**: there is nothing in the last thirty days but what
is a fifth below it. -/
theorem not_rolls_longFlat :
    ¬Along (step .haiku) (Rolls .haiku) (start (fun _ => none) 1000 false (.new 60) 0)
      longFlat := by
  rintro ⟨-, -, hrolls, -⟩
  have hlast := hrolls ⟨800, 41 * microsPerDay⟩ (by decide +kernel)
  exact absurd hlast.1 (by decide +kernel)

/-- A tracker marked on two days of a fall. -/
theorem peakEquity_rolls_fall :
    Along (step .haiku) (Rolls .haiku) (start (fun _ => none) 1000 false (.new 60) 0)
      [TrackerProcess.markTenShares 100 0, TrackerProcess.markTenShares 80 1] := by
  refine (peakEquity_rolls_iff rfl 1000 false (.new 60) 0 _).mpr ⟨?_, ?_, trivial⟩
  · intro mark hmark
    obtain rfl : mark = ⟨1000, 0⟩ := (Option.some.inj hmark).symm.trans (by decide +kernel)
    decide +kernel
  · intro mark hmark
    obtain rfl : mark = ⟨800, microsPerDay⟩ :=
      (Option.some.inj hmark).symm.trans (by decide +kernel)
    decide +kernel

end PeakWatch

end TradingPlatform
