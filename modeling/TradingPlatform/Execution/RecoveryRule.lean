import TradingPlatform.Execution.TrackerRestart

/-!
# The recovery rule over a history of marks

The bucket an agent is sized by follows a fall in its equity at once and an improvement only after
five days. The rule keeps its progress in three fields of the record: the bucket being recovered
to, the days counted so far, and the date of the last mark. What they stand for is a fact about
the marks there have been (`TradingPlatform.PerAgentRecord.Tracks`): while a bucket is being
recovered to, every mark since some mark has called for it, and the days counted are the distinct
dates of those marks.

From it `TradingPlatform.TrackerProcess.sizingBucket_lags`: whatever the marks, however many fall
on one day, and whatever fills, marks of other agents and restarts come between them, the sizing
bucket is never better than the one the mark calls for, and is left for a better one only after
five dates on which every mark called for that one.
-/

namespace TradingPlatform

/-- A mark of an agent: the bucket its drawdown calls for, and the day. -/
structure Sighting where
  rawBucket : DrawdownBucket
  today : Date
  deriving DecidableEq

/-- On how many days some marks were made. -/
def distinctDays (marks : List Sighting) : ℕ := (marks.map (·.today)).toFinset.card

/-- **Lagging in the safe direction**: a mark takes the sizing bucket from `old` to `new`, after
the marks of a history that ends with it. -/
structure Lags (old new : DrawdownBucket) (history : List Sighting) (mark : Sighting) : Prop where
  /-- The sizing bucket is at least as tight as the drawdown calls for. -/
  safe : mark.rawBucket.rank ≤ new.rank
  tightens : old.rank ≤ mark.rawBucket.rank → new = mark.rawBucket
  /-- It gets looser only to the bucket of this mark, and only if that is the bucket of every mark
  since some mark, on five days. -/
  loosens : new.rank < old.rank → new = mark.rawBucket ∧
    ∃ before since, history = before ++ since ∧
      (∀ m ∈ since, m.rawBucket = mark.rawBucket) ∧ 5 ≤ distinctDays since

/-! ### Counting days -/

/-- A second mark on the last day counts no new one. -/
theorem distinctDays_concat_of_mem {marks : List Sighting} {mark : Sighting}
    (h : ∃ m ∈ marks, m.today = mark.today) :
    distinctDays (marks ++ [mark]) = distinctDays marks := by
  obtain ⟨m, hm, hday⟩ := h
  have hmem : mark.today ∈ (marks.map (·.today)).toFinset :=
    List.mem_toFinset.mpr (hday ▸ List.mem_map_of_mem hm)
  rw [distinctDays, List.map_append, List.toFinset_append, distinctDays]
  congr 1
  refine Finset.union_eq_left.mpr fun day hd => ?_
  rw [List.map_singleton, List.toFinset_cons, List.toFinset_nil, insert_empty_eq,
    Finset.mem_singleton] at hd
  rwa [hd]

/-- The first mark of a new day counts it. -/
theorem distinctDays_concat_of_lt {marks : List Sighting} {mark : Sighting}
    (h : ∀ m ∈ marks, m.today < mark.today) :
    distinctDays (marks ++ [mark]) = distinctDays marks + 1 := by
  have hnot : mark.today ∉ (marks.map (·.today)).toFinset := by
    rw [List.mem_toFinset, List.mem_map]
    rintro ⟨m, hm, hday⟩
    exact absurd hday (h m hm).ne
  rw [distinctDays, List.map_append, List.toFinset_append, distinctDays, List.map_singleton,
    Finset.card_union_of_disjoint]
  · rfl
  · rwa [List.toFinset_cons, List.toFinset_nil, insert_empty_eq, Finset.disjoint_singleton_right]

namespace PerAgentRecord

/-! ### What the progress stands for -/

/-- **The progress of a recovery, by the marks behind it.** -/
structure Tracks (record : PerAgentRecord) (history : List Sighting) : Prop where
  lastUpdateDate : record.lastUpdateDate = history.getLast?.map (·.today)
  progress : ∀ target, record.recoveryTarget = some target →
    ∃ before since, history = before ++ since ∧ since ≠ [] ∧
      (∀ m ∈ since, m.rawBucket = target) ∧ record.recoveryDays = distinctDays since

variable {record record' : PerAgentRecord} {history : List Sighting}

/-- Two records that have come equally far in a recovery. -/
structure SameProgress (record record' : PerAgentRecord) : Prop where
  sizingBucket : record'.sizingBucket = record.sizingBucket
  recoveryTarget : record'.recoveryTarget = record.recoveryTarget
  recoveryDays : record'.recoveryDays = record.recoveryDays
  lastUpdateDate : record'.lastUpdateDate = record.lastUpdateDate

theorem SameProgress.refl (record : PerAgentRecord) : record.SameProgress record :=
  ⟨rfl, rfl, rfl, rfl⟩

/-- The progress is part of the row. -/
theorem SameProgress.of_row (hrow : record'.row = record.row) : record.SameProgress record' where
  sizingBucket := congrArg TrackerRow.sizingBucket hrow
  recoveryTarget := congrArg TrackerRow.recoveryTarget hrow
  recoveryDays := congrArg TrackerRow.recoveryDays hrow
  lastUpdateDate := congrArg TrackerRow.lastUpdateDate hrow

/-- Only the progress of a record matters. -/
theorem Tracks.congr (h : record.Tracks history) (hsame : record.SameProgress record') :
    record'.Tracks history := by
  refine ⟨hsame.lastUpdateDate.trans h.lastUpdateDate, fun target ht => ?_⟩
  obtain ⟨before, since, hsplit, hne, hraw, hcount⟩ :=
    h.progress target (hsame.recoveryTarget.symm.trans ht)
  exact ⟨before, since, hsplit, hne, hraw, hsame.recoveryDays.trans hcount⟩

/-- The days of a recovery, once a mark that calls for its target is in. -/
theorem Tracks.days_concat (h : record.Tracks history) {mark : Sighting}
    (hsorted : (history ++ [mark]).Pairwise fun m m' => m.today ≤ m'.today)
    (htarget : record.recoveryTarget = some mark.rawBucket) :
    ∃ before since, history ++ [mark] = before ++ since ∧ since ≠ [] ∧
      (∀ m ∈ since, m.rawBucket = mark.rawBucket) ∧
      distinctDays since =
        if some mark.today ≠ record.lastUpdateDate then record.recoveryDays + 1
        else record.recoveryDays := by
  obtain ⟨before, since, rfl, hne, hraw, hdays⟩ := h.progress _ htarget
  have hlast : record.lastUpdateDate = some (since.getLast hne).today := by
    rw [h.lastUpdateDate, List.getLast?_append_of_ne_nil _ hne, List.getLast?_eq_some_getLast hne,
      Option.map_some]
  refine ⟨before, since ++ [mark], by rw [List.append_assoc], by simp, fun m hm => ?_, ?_⟩
  · rcases List.mem_append.mp hm with hm | hm
    · exact hraw m hm
    · rw [List.mem_singleton.mp hm]
  rw [hlast, hdays]
  split_ifs with hday
  · -- the last mark was made on an earlier day, and so was every mark before it
    refine distinctDays_concat_of_lt fun m hm => ?_
    have hsince : (since ++ [mark]).Pairwise fun m m' => m.today ≤ m'.today := by
      rw [List.append_assoc] at hsorted
      exact (List.pairwise_append.mp hsorted).2.1
    have hle : (since.getLast hne).today ≤ mark.today :=
      (List.pairwise_append.mp hsince).2.2 _ (List.getLast_mem hne) _ (List.mem_singleton_self _)
    have hlt : (since.getLast hne).today < mark.today :=
      lt_of_le_of_ne hle fun heq => hday (congrArg some heq.symm)
    have hmle : m.today ≤ (since.getLast hne).today := by
      obtain ⟨init, last, hsplit⟩ : ∃ init last, since = init ++ [last] :=
        ⟨_, _, (List.dropLast_append_getLast hne).symm⟩
      subst hsplit
      rw [List.getLast_concat]
      rcases List.mem_append.mp hm with hm | hm
      · exact (List.pairwise_append.mp (List.pairwise_append.mp hsince).1).2.2 m hm _
          (List.mem_singleton_self _)
      · rw [List.mem_singleton.mp hm]
    exact hmle.trans_lt hlt
  · have heq : mark.today = (since.getLast hne).today := Option.some.inj (not_not.mp hday)
    exact distinctDays_concat_of_mem ⟨_, List.getLast_mem hne, heq.symm⟩

/-- The days counted once a mark calls for a better bucket. -/
def daysAfter (record : PerAgentRecord) (mark : Sighting) : ℕ :=
  if record.recoveryTarget ≠ some mark.rawBucket then 1
  else if some mark.today ≠ record.lastUpdateDate then record.recoveryDays + 1
  else record.recoveryDays

/-- **A mark that calls for a better bucket.** -/
theorem applyBucketWithRecovery_of_lt {mark : Sighting}
    (hlt : mark.rawBucket.rank < record.sizingBucket.rank) :
    (record.applyBucketWithRecovery mark.rawBucket mark.today).lastUpdateDate = some mark.today ∧
      (record.applyBucketWithRecovery mark.rawBucket mark.today).sizingBucket =
        (if recoveryDaysRequired ≤ record.daysAfter mark then mark.rawBucket
          else record.sizingBucket) ∧
      (record.applyBucketWithRecovery mark.rawBucket mark.today).recoveryTarget =
        (if recoveryDaysRequired ≤ record.daysAfter mark then none else some mark.rawBucket) ∧
      (record.applyBucketWithRecovery mark.rawBucket mark.today).recoveryDays =
        if recoveryDaysRequired ≤ record.daysAfter mark then 0 else record.daysAfter mark := by
  rw [PerAgentRecord.applyBucketWithRecovery, if_neg (not_le.mpr hlt), daysAfter]
  dsimp only
  by_cases htarget : record.recoveryTarget = some mark.rawBucket
  · rw [if_neg (not_not.mpr htarget), if_neg (not_not.mpr htarget)]
    by_cases hday : some mark.today = record.lastUpdateDate
    · rw [if_neg (not_not.mpr hday), if_neg (not_not.mpr hday)]
      split_ifs <;> exact ⟨rfl, rfl, by first | rfl | exact htarget, rfl⟩
    · rw [if_pos hday, if_pos hday]
      split_ifs <;> exact ⟨rfl, rfl, by first | rfl | exact htarget, rfl⟩
  · rw [if_pos htarget, if_pos htarget]
    split_ifs <;> exact ⟨rfl, rfl, rfl, rfl⟩

/-- The marks behind the days counted after a mark that calls for a better bucket. -/
theorem Tracks.exists_daysAfter (h : record.Tracks history) {mark : Sighting}
    (hsorted : (history ++ [mark]).Pairwise fun m m' => m.today ≤ m'.today) :
    ∃ before since, history ++ [mark] = before ++ since ∧ since ≠ [] ∧
      (∀ m ∈ since, m.rawBucket = mark.rawBucket) ∧
      record.daysAfter mark = distinctDays since := by
  by_cases htarget : record.recoveryTarget = some mark.rawBucket
  · obtain ⟨before, since, hsplit, hne, hraw, hdays⟩ := h.days_concat hsorted htarget
    refine ⟨before, since, hsplit, hne, hraw, ?_⟩
    rw [daysAfter, if_neg (not_not.mpr htarget), hdays]
  · refine ⟨history, [mark], rfl, List.cons_ne_nil _ _, fun m hm => ?_, if_pos htarget⟩
    rw [List.mem_singleton.mp hm]

/-- **One mark**: the rule lags in the safe direction, and keeps track of the marks. -/
theorem Tracks.applyBucketWithRecovery (h : record.Tracks history) {mark : Sighting}
    (hsorted : (history ++ [mark]).Pairwise fun m m' => m.today ≤ m'.today) :
    (record.applyBucketWithRecovery mark.rawBucket mark.today).Tracks (history ++ [mark]) ∧
      Lags record.sizingBucket
        (record.applyBucketWithRecovery mark.rawBucket mark.today).sizingBucket
        (history ++ [mark]) mark := by
  have hlast : some mark.today = (history ++ [mark]).getLast?.map (·.today) := by
    rw [List.getLast?_concat, Option.map_some]
  by_cases hrank : record.sizingBucket.rank ≤ mark.rawBucket.rank
  · -- a bucket that is no better is taken at once, and ends the recovery
    rw [PerAgentRecord.applyBucketWithRecovery, if_pos hrank]
    exact ⟨⟨hlast, fun target ht => absurd ht (by simp)⟩, le_rfl, fun _ => rfl,
      fun hlt => absurd hlt (not_lt.mpr hrank)⟩
  have hlt : mark.rawBucket.rank < record.sizingBucket.rank := not_le.mp hrank
  obtain ⟨before, since, hsplit, hne, hraw, hdays⟩ := h.exists_daysAfter hsorted
  obtain ⟨hdate, hsizing, htarget, hcount⟩ := applyBucketWithRecovery_of_lt hlt
  by_cases hfive : recoveryDaysRequired ≤ record.daysAfter mark
  · -- the fifth day: the better bucket is taken, and the recovery is over
    rw [if_pos hfive] at hsizing htarget
    refine ⟨⟨hdate.trans hlast, fun target ht => ?_⟩, ?_⟩
    · rw [htarget] at ht
      cases ht
    · rw [hsizing]
      exact ⟨le_rfl, fun _ => rfl, fun _ => ⟨rfl, before, since, hsplit, hraw, hdays ▸ hfive⟩⟩
  · -- too few days: the bucket stays, and the days are counted on
    rw [if_neg hfive] at hsizing htarget hcount
    refine ⟨⟨hdate.trans hlast, fun target ht => ?_⟩, ?_⟩
    · obtain rfl : mark.rawBucket = target := Option.some.inj (htarget.symm.trans ht)
      exact ⟨before, since, hsplit, hne, hraw, hcount.trans hdays⟩
    · rw [hsizing]
      exact ⟨hlt.le, fun hle => absurd hle hrank, fun hc => absurd hc (lt_irrefl _)⟩

end PerAgentRecord

/-! ### The marks of a run -/

/-- When an operation is taken. A restart reads no clock. -/
def TrackerOp.now? : TrackerOp → Option Time
  | .updateOnFill _ now | .updateOnMark _ _ _ now => some now
  | .restart => none

/-- A mark of an agent: what its drawdown calls for, and the day. -/
def AgentStateTracker.sighting (t : AgentStateTracker) (ledger : LotLedger) (agentId : AgentId)
    (markPrices : Dict String Decimal) (now : Time) : Sighting where
  rawBucket := classifyDrawdown (t.drawdownAt ledger agentId markPrices)
  today := now.date

/-- The rule is applied to the bucket the drawdown calls for. -/
theorem AgentStateTracker.exists_records_updateOnMark (t : AgentStateTracker) (ledger : LotLedger)
    (agentId : AgentId) (markPrices : Dict String Decimal) (now : Time) :
    ∃ marked : PerAgentRecord,
      (t.updateOnMark ledger agentId markPrices now).records agentId =
          marked.applyBucketWithRecovery (t.sighting ledger agentId markPrices now).rawBucket
            (t.sighting ledger agentId markPrices now).today ∧
        (t.records agentId).SameProgress marked := by
  set equity := t.equityAt ledger agentId markPrices with hequity
  set expired := { t.records agentId with currentEquity := equity }.expireBench now with hexpired
  -- a bench that expires is not part of the ladder
  have hfields := AgentStateTracker.recovery_expireBench
    { t.records agentId with currentEquity := equity } now
  rw [← hexpired] at hfields
  refine ⟨{ expired with peakEquity := max expired.peakEquity equity }, ?_,
    AgentStateTracker.sizingBucket_expireBench _ _, hfields.1, hfields.2.1, hfields.2.2⟩
  have hdrawdown : PerAgentRecord.drawdown
      { expired with peakEquity := max expired.peakEquity equity } =
      t.drawdownAt ledger agentId markPrices := by
    simp [PerAgentRecord.drawdown, drawdownAt, hexpired, hequity]
  rw [records_updateOnMark, Function.update_self, PerAgentRecord.atEquity, ← hequity, sighting,
    ← hdrawdown]

namespace TrackerProcess

/-- What an operation is to the ladder of an agent. -/
def sighting? (p : TrackerProcess) (agentId : AgentId) : TrackerOp → Option Sighting
  | .updateOnMark ledger marked markPrices now =>
    if marked = agentId then some (p.tracker.sighting ledger agentId markPrices now) else none
  | .updateOnFill _ _ | .restart => none

/-- The marks of an agent in a run. -/
def sightings (agentId : AgentId) : TrackerProcess → List TrackerOp → List Sighting
  | _, [] => []
  | p, op :: ops => (p.sighting? agentId op).toList ++ sightings agentId (p.step op) ops

/-- The bucket an agent is sized by. -/
def sizingBucket (p : TrackerProcess) (agentId : AgentId) : DrawdownBucket :=
  (p.tracker.records agentId).sizingBucket

variable {p : TrackerProcess} {agentId : AgentId}

theorem sightings_concat (p : TrackerProcess) (agentId : AgentId) (ops : List TrackerOp)
    (op : TrackerOp) :
    p.sightings agentId (ops ++ [op]) =
      p.sightings agentId ops ++ ((run step p ops).sighting? agentId op).toList := by
  induction ops generalizing p with
  | nil => exact List.append_nil _
  | cons op' ops ih => rw [List.cons_append, sightings, sightings, ih, List.append_assoc, run_cons]

/-- The days of the marks are read off the clock. -/
theorem sublist_map_today_sightings (p : TrackerProcess) (agentId : AgentId)
    (ops : List TrackerOp) :
    ((p.sightings agentId ops).map (·.today)).Sublist
      ((ops.filterMap TrackerOp.now?).map Time.date) := by
  induction ops generalizing p with
  | nil => exact List.Sublist.refl _
  | cons op ops ih =>
    cases op with
    | updateOnFill fill now => exact (ih _).cons _
    | restart => exact ih _
    | updateOnMark ledger marked markPrices now =>
      by_cases hm : marked = agentId
      · simpa [sightings, sighting?, hm, TrackerOp.now?, AgentStateTracker.sighting] using ih _
      · simpa [sightings, sighting?, hm, TrackerOp.now?] using (ih _).cons _

/-- Under a monotone clock the marks come in the order of their days. -/
theorem pairwise_sightings (p : TrackerProcess) (agentId : AgentId) {ops : List TrackerOp}
    (hclock : (ops.filterMap TrackerOp.now?).Pairwise (· ≤ ·)) :
    (p.sightings agentId ops).Pairwise fun m m' => m.today ≤ m'.today := by
  have hdates : ((ops.filterMap TrackerOp.now?).map Time.date).Pairwise (· ≤ ·) :=
    List.pairwise_map.mpr (hclock.imp fun h => Time.date_mono h)
  exact List.pairwise_map.mp (hdates.sublist (p.sublist_map_today_sightings agentId ops))

/-- **The database and the record agree, and the record tracks the marks.** -/
structure Follows (p : TrackerProcess) (agentId : AgentId) (history : List Sighting) : Prop where
  stored : (AgentStateTracker.loadOrInitRecords p.startingEquity p.db agentId).row =
    (p.tracker.records agentId).row
  tracks : (p.tracker.records agentId).Tracks history

/-- **One operation lags**: if it marks the agent, its bucket lags in the safe direction, and
otherwise its bucket is left alone. -/
structure StepLags (p : TrackerProcess) (agentId : AgentId) (history : List Sighting)
    (op : TrackerOp) : Prop where
  mark : ∀ mark, p.sighting? agentId op = some mark →
    Lags (p.sizingBucket agentId) ((p.step op).sizingBucket agentId) (history ++ [mark]) mark
  other : p.sighting? agentId op = none →
    (p.step op).sizingBucket agentId = p.sizingBucket agentId

/-- A fill is no part of the recovery. -/
theorem recovery_updateOnFill (t : AgentStateTracker) (kill : KillSwitchEngine) (fill : Fill)
    (now : Time) (agentId : AgentId) :
    (t.records agentId).SameProgress ((t.updateOnFill kill fill now).1.records agentId) := by
  refine t.records_updateOnFill_rel kill now (fun _ => .refl _) (fun record loss basis => ?_)
    (fun _ _ => ⟨rfl, rfl, rfl, rfl⟩) agentId
  rw [PerAgentRecord.afterSell]
  split_ifs <;> exact ⟨rfl, rfl, rfl, rfl⟩

/-- **One operation.** -/
theorem Follows.after {history : List Sighting} (h : p.Follows agentId history) (op : TrackerOp)
    (hsorted : (history ++ (p.sighting? agentId op).toList).Pairwise
      fun m m' => m.today ≤ m'.today) :
    (p.step op).Follows agentId (history ++ (p.sighting? agentId op).toList) ∧
      p.StepLags agentId history op := by
  cases op with
  | updateOnFill fill now =>
    -- a fill is no mark, and leaves the ladder alone
    have hsame := recovery_updateOnFill p.tracker p.kill fill now agentId
    refine ⟨⟨rfl, ?_⟩, fun mark hm => absurd hm (by simp [sighting?]), fun _ =>
      hsame.sizingBucket⟩
    rw [sighting?, Option.toList_none, List.append_nil]
    exact h.tracks.congr hsame
  | restart =>
    -- the ladder was stored as it stands
    refine ⟨⟨rfl, ?_⟩, fun mark hm => absurd hm (by simp [sighting?]), fun _ =>
      congrArg TrackerRow.sizingBucket h.stored⟩
    rw [sighting?, Option.toList_none, List.append_nil]
    exact h.tracks.congr (.of_row h.stored)
  | updateOnMark ledger marked markPrices now =>
    by_cases hm : marked = agentId
    · subst hm
      obtain ⟨record, hrecord, hsame⟩ :=
        p.tracker.exists_records_updateOnMark ledger marked markPrices now
      rw [sighting?, if_pos rfl, Option.toList_some] at hsorted ⊢
      obtain ⟨htracks', hlags⟩ := (h.tracks.congr hsame).applyBucketWithRecovery hsorted
      rw [← hrecord] at htracks' hlags
      rw [hsame.sizingBucket] at hlags
      refine ⟨⟨rfl, htracks'⟩, fun mark hmark => ?_, fun hnone => ?_⟩
      · rw [sighting?, if_pos rfl, Option.some.injEq] at hmark
        subst hmark
        exact hlags
      · rw [sighting?, if_pos rfl] at hnone
        cases hnone
    · -- a mark of another agent
      have hrecord : (p.step (.updateOnMark ledger marked markPrices now)).tracker.records agentId =
          p.tracker.records agentId := by
        refine (congrFun (p.tracker.records_updateOnMark ledger marked markPrices now) _).trans ?_
        exact Function.update_of_ne (Ne.symm hm) _ _
      have hnone : p.sighting? agentId (.updateOnMark ledger marked markPrices now) = none :=
        if_neg hm
      rw [hnone, Option.toList_none, List.append_nil]
      refine ⟨⟨rfl, hrecord ▸ h.tracks⟩, fun mark hmark => ?_, fun _ => ?_⟩
      · rw [hnone] at hmark
        cases hmark
      · exact congrArg PerAgentRecord.sizingBucket hrecord

/-- An agent that is not in the database has no history. -/
theorem follows_start {db : TrackerDb} (hnew : db agentId = none) (startingEquity : Decimal)
    (hasBus : Bool) (kill : KillSwitchEngine) :
    (start db startingEquity hasBus kill).Follows agentId [] := by
  have hrecord : (start db startingEquity hasBus kill).tracker.records agentId =
      .initial startingEquity := by
    simp [start, AgentStateTracker.loadOrInitRecords, hnew]
  refine ⟨rfl, ?_⟩
  rw [hrecord]
  exact ⟨rfl, fun target ht => absurd ht (by simp [PerAgentRecord.initial])⟩

/-- The invariant over a run. -/
theorem Follows.along {history : List Sighting} (h : p.Follows agentId history)
    {ops : List TrackerOp}
    (hsorted : (history ++ p.sightings agentId ops).Pairwise fun m m' => m.today ≤ m'.today) :
    (run step p ops).Follows agentId (history ++ p.sightings agentId ops) := by
  induction ops generalizing p history with
  | nil => rwa [sightings, List.append_nil]
  | cons op ops ih =>
    rw [sightings, ← List.append_assoc] at hsorted ⊢
    exact ih (h.after op (List.pairwise_append.mp hsorted).1).1 hsorted

/-- **The sizing bucket lags only in the safe direction**: in every run of the tracker, from the
first mark of an agent on and under a monotone clock, every mark of the agent leaves its sizing
bucket at least as tight as the drawdown calls for; a bucket that is no better is taken at once;
and a better one only if it is the one every mark called for since some mark, on five days.
Nothing but a mark of the agent moves its bucket. -/
theorem sizingBucket_lags {db : TrackerDb} (hnew : db agentId = none) (startingEquity : Decimal)
    (hasBus : Bool) (kill : KillSwitchEngine) {ops : List TrackerOp} {op : TrackerOp}
    (hclock : ((ops ++ [op]).filterMap TrackerOp.now?).Pairwise (· ≤ ·)) :
    (run step (start db startingEquity hasBus kill) ops).StepLags agentId
      ((start db startingEquity hasBus kill).sightings agentId ops) op := by
  have hsorted := (start db startingEquity hasBus kill).pairwise_sightings agentId hclock
  rw [sightings_concat] at hsorted
  have hrun := (follows_start hnew startingEquity hasBus kill).along
    (List.pairwise_append.mp hsorted).1
  exact (hrun.after op hsorted).2

/-- Ten shares, bought at a hundred dollars. -/
def tenShares : LotLedger :=
  LotLedger.empty.bookFill
    { id := 1, orderId := 1, agentId := .haiku, symbol := "SPY", side := .buy, qty := 10,
      price := 100, timestamp := 0 } 0 .fifo

/-- A mark of those shares on some day. -/
def markTenShares (price : Decimal) (day : ℤ) : TrackerOp :=
  .updateOnMark tenShares .haiku (Dict.empty.set "SPY" price) (day * microsPerDay)

/-- The price falls by a fifth and is back the day after; it is marked twice on the third day. -/
def fallAndRecovery : List TrackerOp :=
  [markTenShares 80 0, markTenShares 100 1, markTenShares 100 2, markTenShares 100 2, .restart,
    markTenShares 100 3, markTenShares 100 4]

/-- On the fifth day of the recovery the bucket is left. -/
theorem sizingBucket_fallAndRecovery :
    ((run step (start (fun _ => none) 1000 false (.new 60)) fallAndRecovery).sizingBucket .haiku =
        .red ∧
      ((run step (start (fun _ => none) 1000 false (.new 60)) fallAndRecovery).step
        (markTenShares 100 5)).sizingBucket .haiku = .normal) ∧
      (run step (start (fun _ => none) 1000 false (.new 60)) fallAndRecovery).StepLags .haiku
        ((start (fun _ => none) 1000 false (.new 60)).sightings .haiku fallAndRecovery)
        (markTenShares 100 5) :=
  ⟨by decide +kernel, sizingBucket_lags rfl 1000 false (.new 60) (by decide +kernel)⟩

end TrackerProcess

end TradingPlatform
