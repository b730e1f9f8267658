import TradingPlatform.Core.Clock
import TradingPlatform.Execution.RecoveryRule

/-!
# Five consecutive trading days

A sizing bucket is to be left for a better one after five consecutive trading days at that one. The
tracker counts dates: any mark on another date than the last one adds a day, at the weekend, on a
holiday, or after an outage of any length.

`TradingPlatform.PerAgentRecord.CountsTradingDays` is what the rule says of a single mark, and
`TradingPlatform.RecoveryWatch.countsTradingDays_run_iff` that it is what happens in a run of the
tracker exactly when every mark that calls for a better bucket falls on a trading day, and finds
no trading day skipped if the bucket is the one that is being recovered to
(`TradingPlatform.PerAgentRecord.MarkedDaily`).
-/

namespace TradingPlatform

/-- **Five consecutive trading days at a bucket**: since some mark no worse bucket was called for,
and this one was on each of the five days. -/
def FiveTradingDays (history : List Sighting) (bucket : DrawdownBucket) : Prop :=
  ∃ before since, history = before ++ since ∧ (∀ m ∈ since, m.rawBucket.rank ≤ bucket.rank) ∧
    ∃ days : List Date, days.length = recoveryDaysRequired ∧
      (∀ day ∈ days, isTradingDay day = true) ∧ days.IsChain NextTradingDay ∧
      ∀ day ∈ days, ∃ m ∈ since, m.today = day ∧ m.rawBucket = bucket

namespace PerAgentRecord

/-- A trading day was skipped since the last mark. -/
def Skipped (record : PerAgentRecord) (today : Date) : Prop :=
  ∃ last, record.lastUpdateDate = some last ∧ ∃ day, last < day ∧ day < today ∧
    isTradingDay day = true

/-- **The rule, for a mark** that ends a history and takes a record to another. -/
structure CountsTradingDays (before after : PerAgentRecord) (history : List Sighting)
    (mark : Sighting) : Prop where
  loosens : after.sizingBucket.rank < before.sizingBucket.rank →
    after.sizingBucket = mark.rawBucket ∧ FiveTradingDays history mark.rawBucket
  /-- On a day without trading, a call for a better bucket goes unheard. -/
  closed : mark.rawBucket.rank < before.sizingBucket.rank → isTradingDay mark.today = false →
    after.sizingBucket = before.sizingBucket ∧ after.recoveryTarget = before.recoveryTarget ∧
      after.recoveryDays = before.recoveryDays
  /-- After a trading day without a mark the count begins again. -/
  restarts : mark.rawBucket.rank < before.sizingBucket.rank → isTradingDay mark.today = true →
    before.Skipped mark.today →
    after.sizingBucket = before.sizingBucket ∧ after.recoveryDays = 1

/-- **The condition**: a mark that calls for a better bucket is on a trading day, and if that bucket
is being recovered to, no trading day was skipped. -/
def MarkedDaily (record : PerAgentRecord) (mark : Sighting) : Prop :=
  mark.rawBucket.rank < record.sizingBucket.rank → isTradingDay mark.today = true ∧
    (record.recoveryTarget = some mark.rawBucket → ¬record.Skipped mark.today)

/-- **The progress of a recovery, in trading days**: since some mark every mark has called for the
target, and they were made on as many consecutive trading days as are counted. -/
structure TracksTradingDays (record : PerAgentRecord) (history : List Sighting) : Prop where
  lastUpdateDate : record.lastUpdateDate = history.getLast?.map (·.today)
  progress : ∀ target, record.recoveryTarget = some target →
    ∃ before since, history = before ++ since ∧ (∀ m ∈ since, m.rawBucket = target) ∧
      ∃ days : List Date, days.length = record.recoveryDays ∧ days ≠ [] ∧
        days.length < recoveryDaysRequired ∧ (∀ day ∈ days, isTradingDay day = true) ∧
        days.IsChain NextTradingDay ∧ (∀ day ∈ days, ∃ m ∈ since, m.today = day) ∧
        days.getLast? = record.lastUpdateDate

variable {record record' : PerAgentRecord} {history : List Sighting} {mark : Sighting}

theorem TracksTradingDays.congr (h : record.TracksTradingDays history)
    (hsame : record.SameProgress record') : record'.TracksTradingDays history := by
  refine ⟨hsame.lastUpdateDate.trans h.lastUpdateDate, fun target ht => ?_⟩
  rw [hsame.recoveryDays, hsame.lastUpdateDate]
  exact h.progress target (hsame.recoveryTarget.symm.trans ht)

/-- The progress decides whether a mark obeys the rule. -/
theorem SameProgress.countsTradingDays_iff (hsame : record.SameProgress record')
    {after : PerAgentRecord} :
    record'.CountsTradingDays after history mark ↔ record.CountsTradingDays after history mark := by
  constructor <;> intro h
  · refine ⟨?_, ?_, ?_⟩
    · exact hsame.sizingBucket ▸ h.loosens
    · have hc := h.closed
      rwa [hsame.sizingBucket, hsame.recoveryTarget, hsame.recoveryDays] at hc
    · have hr := h.restarts
      rwa [hsame.sizingBucket, Skipped, hsame.lastUpdateDate] at hr
  · refine ⟨?_, ?_, ?_⟩
    · exact hsame.sizingBucket.symm ▸ h.loosens
    · rw [hsame.sizingBucket, hsame.recoveryTarget, hsame.recoveryDays]
      exact h.closed
    · rw [hsame.sizingBucket, Skipped, hsame.lastUpdateDate]
      exact h.restarts

theorem SameProgress.markedDaily_iff (hsame : record.SameProgress record') :
    record'.MarkedDaily mark ↔ record.MarkedDaily mark := by
  rw [MarkedDaily, MarkedDaily, Skipped, Skipped, hsame.sizingBucket, hsame.recoveryTarget,
    hsame.lastUpdateDate]

/-! ### The marks behind the days -/

/-- A mark on the date of the last one, or on the next trading day, carries the days on. -/
theorem TracksTradingDays.exists_days (h : record.TracksTradingDays history)
    (hlater : ∀ m ∈ history, m.today ≤ mark.today)
    (htrading : isTradingDay mark.today = true)
    (hnext : record.recoveryTarget = some mark.rawBucket → ¬record.Skipped mark.today) :
    ∃ before since, history ++ [mark] = before ++ since ∧
      (∀ m ∈ since, m.rawBucket = mark.rawBucket) ∧
      ∃ days : List Date, days.length = record.daysAfter mark ∧ days ≠ [] ∧
        days.length ≤ recoveryDaysRequired ∧ (∀ day ∈ days, isTradingDay day = true) ∧
        days.IsChain NextTradingDay ∧ (∀ day ∈ days, ∃ m ∈ since, m.today = day) ∧
        days.getLast? = some mark.today := by
  by_cases htarget : record.recoveryTarget = some mark.rawBucket
  · obtain ⟨before, since, rfl, hraw, days, hlength, hne, hfew, hopen, hchain, hmarked, hlast⟩ :=
      h.progress _ htarget
    have hraw' : ∀ m ∈ since ++ [mark], m.rawBucket = mark.rawBucket := by
      intro m hm
      rcases List.mem_append.mp hm with hm | hm
      · exact hraw m hm
      · rw [List.mem_singleton.mp hm]
    have hmarked' : ∀ day ∈ days, ∃ m ∈ since ++ [mark], m.today = day := by
      intro day hday
      obtain ⟨m, hm, hm'⟩ := hmarked day hday
      exact ⟨m, List.mem_append_left _ hm, hm'⟩
    rw [daysAfter, if_neg (not_not.mpr htarget)]
    by_cases hday : some mark.today = record.lastUpdateDate
    · -- a second mark on the last day
      rw [if_neg (not_not.mpr hday)]
      exact ⟨before, since ++ [mark], List.append_assoc _ _ _, hraw', days, hlength, hne, hfew.le,
        hopen, hchain, hmarked', hlast.trans hday.symm⟩
    · rw [if_pos hday]
      refine ⟨before, since ++ [mark], List.append_assoc _ _ _, hraw', days ++ [mark.today], ?_,
        by simp, ?_, ?_, ?_, ?_, List.getLast?_concat⟩
      · rw [List.length_append, List.length_singleton, hlength]
      · rw [List.length_append, List.length_singleton]
        exact hfew
      · intro day hd
        rcases List.mem_append.mp hd with hd | hd
        · exact hopen day hd
        · rwa [List.mem_singleton.mp hd]
      · -- the last day was a trading day, and none has been skipped since
        refine List.isChain_append.mpr ⟨hchain, List.isChain_singleton _, ?_⟩
        intro last hl day hd
        obtain rfl : mark.today = day := by simpa using hd
        have hlast' : record.lastUpdateDate = some last := hlast.symm.trans hl
        obtain ⟨m, hm, rfl⟩ := hmarked last (List.mem_of_getLast? hl)
        have hle : m.today ≤ mark.today := hlater m (List.mem_append_right _ hm)
        refine ⟨htrading, lt_of_le_of_ne hle fun heq => hday ?_, fun e he he' => ?_⟩
        · rw [hlast', heq]
        · by_contra hc
          exact hnext htarget ⟨_, hlast', e, he, he', by simpa using hc⟩
      · intro day hd
        rcases List.mem_append.mp hd with hd | hd
        · exact hmarked' day hd
        · exact ⟨mark, by simp, (List.mem_singleton.mp hd).symm⟩
  · -- the first day of a new target
    refine ⟨history, [mark], rfl, fun m hm => ?_, [mark.today], ?_, by simp,
      by simp [recoveryDaysRequired], ?_,
      List.isChain_singleton _, ?_, rfl⟩
    · rw [List.mem_singleton.mp hm]
    · rw [daysAfter, if_pos htarget, List.length_singleton]
    · intro day hd
      rwa [List.mem_singleton.mp hd]
    · intro day hd
      exact ⟨mark, List.mem_singleton_self _, (List.mem_singleton.mp hd).symm⟩

/-- **A mark that meets the condition** obeys the rule, and the progress stays one of trading
days. -/
theorem TracksTradingDays.applyBucketWithRecovery (h : record.TracksTradingDays history)
    (hlater : ∀ m ∈ history, m.today ≤ mark.today) (hdaily : record.MarkedDaily mark) :
    (record.applyBucketWithRecovery mark.rawBucket mark.today).TracksTradingDays
        (history ++ [mark]) ∧
      record.CountsTradingDays (record.applyBucketWithRecovery mark.rawBucket mark.today)
        (history ++ [mark]) mark := by
  have hlast : some mark.today = (history ++ [mark]).getLast?.map (·.today) := by
    rw [List.getLast?_concat, Option.map_some]
  by_cases hrank : record.sizingBucket.rank ≤ mark.rawBucket.rank
  · -- a bucket that is no better is taken at once, and ends the recovery
    rw [PerAgentRecord.applyBucketWithRecovery, if_pos hrank]
    exact ⟨⟨hlast, fun target ht => absurd ht (by simp)⟩,
      fun hlt => absurd hlt (not_lt.mpr hrank), fun hlt => absurd hlt (not_lt.mpr hrank),
      fun hlt => absurd hlt (not_lt.mpr hrank)⟩
  have hlt : mark.rawBucket.rank < record.sizingBucket.rank := not_le.mp hrank
  obtain ⟨htrading, hnext⟩ := hdaily hlt
  obtain ⟨before, since, hsplit, hraw, days, hlength, hne, hfew, hopen, hchain, hmarked, hend⟩ :=
    h.exists_days hlater htrading hnext
  obtain ⟨hdate, hsizing, htarget, hcount⟩ := applyBucketWithRecovery_of_lt hlt
  refine ⟨⟨hdate.trans hlast, fun target ht => ?_⟩, fun hloose => ?_, fun _ hclosed => ?_,
    fun _ _ hskip => ?_⟩
  · -- the days counted on
    by_cases hfive : recoveryDaysRequired ≤ record.daysAfter mark
    · rw [htarget, if_pos hfive] at ht
      cases ht
    · rw [htarget, if_neg hfive, Option.some.injEq] at ht
      subst ht
      rw [hcount, if_neg hfive, hdate]
      exact ⟨before, since, hsplit, hraw, days, hlength, hne, hlength ▸ not_le.mp hfive, hopen,
        hchain, hmarked, hend⟩
  · -- the fifth day
    by_cases hfive : recoveryDaysRequired ≤ record.daysAfter mark
    · rw [hsizing, if_pos hfive]
      refine ⟨rfl, before, since, hsplit, fun m hm => (congrArg _ (hraw m hm)).le, days,
        le_antisymm hfew (hlength ▸ hfive), hopen, hchain, fun day hd => ?_⟩
      obtain ⟨m, hm, hm'⟩ := hmarked day hd
      exact ⟨m, hm, hm', hraw m hm⟩
    · rw [hsizing, if_neg hfive] at hloose
      exact absurd hloose (lt_irrefl _)
  · rw [htrading] at hclosed
    cases hclosed
  · -- after a skipped day the target is a new one, so the count is at one
    have hnew : record.daysAfter mark = 1 := if_pos fun ht => hnext ht hskip
    have hfive : ¬recoveryDaysRequired ≤ record.daysAfter mark := by
      rw [hnew]
      decide
    rw [hsizing, hcount, if_neg hfive, if_neg hfive]
    exact ⟨rfl, hnew⟩

/-- **A mark that does not meet the condition** breaks the rule: it is counted at the weekend or on
a holiday, or carries a count on over a day without a mark. -/
theorem TracksTradingDays.not_countsTradingDays (h : record.TracksTradingDays history)
    (hdaily : ¬record.MarkedDaily mark) (history' : List Sighting) :
    ¬record.CountsTradingDays (record.applyBucketWithRecovery mark.rawBucket mark.today) history'
      mark := by
  rw [MarkedDaily, Classical.not_imp] at hdaily
  obtain ⟨hlt, hnot⟩ := hdaily
  obtain ⟨-, hsizing, htarget, hcount⟩ := applyBucketWithRecovery_of_lt hlt
  have hne : mark.rawBucket ≠ record.sizingBucket := by
    rintro heq
    exact absurd hlt (heq ▸ lt_irrefl _)
  intro hrule
  by_cases htrading : isTradingDay mark.today = true
  · -- a trading day was skipped, and the count goes on
    obtain ⟨ht, hskip⟩ : record.recoveryTarget = some mark.rawBucket ∧
        record.Skipped mark.today := by
      simpa [htrading] using hnot
    obtain ⟨-, -, -, -, days, hlength, hdays, -⟩ := h.progress _ ht
    obtain ⟨hkept, hone⟩ := hrule.restarts hlt htrading hskip
    have hday : some mark.today ≠ record.lastUpdateDate := by
      obtain ⟨last, hlast, day, hld, hdt, -⟩ := hskip
      rw [hlast]
      exact fun heq => (hld.trans hdt).ne' (Option.some.inj heq)
    have hafter : record.daysAfter mark = record.recoveryDays + 1 := by
      rw [daysAfter, if_neg (not_not.mpr ht), if_pos hday]
    have hpos : 0 < record.recoveryDays := hlength ▸ List.length_pos_of_ne_nil hdays
    by_cases hfive : recoveryDaysRequired ≤ record.daysAfter mark
    · rw [hsizing, if_pos hfive] at hkept
      exact hne hkept
    · rw [hcount, if_neg hfive, hafter] at hone
      omega
  · -- the exchange is closed, and the mark counts
    obtain ⟨hkept, htarget', hcount'⟩ := hrule.closed hlt (by simpa using htrading)
    by_cases hfive : recoveryDaysRequired ≤ record.daysAfter mark
    · rw [hsizing, if_pos hfive] at hkept
      exact hne hkept
    rw [htarget, if_neg hfive] at htarget'
    obtain ⟨-, -, -, -, days, hlength, hdays, -, hopen, -, -, hlast⟩ := h.progress _ htarget'.symm
    have hday : some mark.today ≠ record.lastUpdateDate := by
      intro heq
      exact htrading (hopen _ (List.mem_of_getLast? (hlast.trans heq.symm)))
    rw [hcount, if_neg hfive, daysAfter, if_neg (not_not.mpr htarget'.symm), if_pos hday] at hcount'
    omega

end PerAgentRecord

/-! ### Runs of the tracker -/

/-- A tracker, and the marks of one of its agents so far. -/
structure RecoveryWatch where
  process : TrackerProcess
  history : List Sighting

namespace RecoveryWatch

variable (agentId : AgentId)

/-- A tracker that has just been started. -/
def start (db : TrackerDb) (startingEquity : Decimal) (hasBus : Bool) (kill : KillSwitchEngine) :
    RecoveryWatch :=
  ⟨.start db startingEquity hasBus kill, []⟩

def step (w : RecoveryWatch) (op : TrackerOp) : RecoveryWatch where
  process := w.process.step op
  history := w.history ++ (w.process.sighting? agentId op).toList

def record (w : RecoveryWatch) : PerAgentRecord := w.process.tracker.records agentId

/-- **Loosening takes five consecutive trading days**, at the marks of the agent. -/
def Counts (w : RecoveryWatch) (op : TrackerOp) : Prop :=
  ∀ mark, w.process.sighting? agentId op = some mark →
    (w.record agentId).CountsTradingDays ((w.step agentId op).record agentId)
      (w.history ++ [mark]) mark

/-- The agent is marked daily while it recovers, and only on trading days. -/
def MarkedDaily (w : RecoveryWatch) (op : TrackerOp) : Prop :=
  ∀ mark, w.process.sighting? agentId op = some mark → (w.record agentId).MarkedDaily mark

/-- A mark is dated no earlier than those before it. -/
def Later (w : RecoveryWatch) (op : TrackerOp) : Prop :=
  ∀ mark, w.process.sighting? agentId op = some mark → ∀ m ∈ w.history, m.today ≤ mark.today

/-- The database and the record agree, and the record tracks the trading days. -/
structure Follows (w : RecoveryWatch) : Prop where
  stored : (AgentStateTracker.loadOrInitRecords w.process.startingEquity w.process.db agentId).row =
    (w.record agentId).row
  tracks : (w.record agentId).TracksTradingDays w.history

variable {agentId} {w : RecoveryWatch}

/-- A mark of the agent applies the rule to its record. -/
theorem exists_record_step {op : TrackerOp} {mark : Sighting}
    (hop : w.process.sighting? agentId op = some mark) :
    ∃ marked : PerAgentRecord, (w.record agentId).SameProgress marked ∧
      (w.step agentId op).record agentId =
        marked.applyBucketWithRecovery mark.rawBucket mark.today := by
  cases op with
  | updateOnFill fill now => cases hop
  | restart => cases hop
  | updateOnMark ledger marked markPrices now =>
    obtain rfl : marked = agentId := by
      by_contra hne
      rw [TrackerProcess.sighting?, if_neg hne] at hop
      cases hop
    rw [TrackerProcess.sighting?, if_pos rfl, Option.some.injEq] at hop
    subst hop
    obtain ⟨record, hrecord, hsame⟩ :=
      w.process.tracker.exists_records_updateOnMark ledger marked markPrices now
    exact ⟨record, hsame, hrecord⟩

/-- Any other operation leaves the recovery alone. -/
theorem Follows.sameProgress_step (h : w.Follows agentId) {op : TrackerOp}
    (hop : w.process.sighting? agentId op = none) :
    (w.record agentId).SameProgress ((w.step agentId op).record agentId) := by
  cases op with
  | updateOnFill fill now => exact TrackerProcess.recovery_updateOnFill _ _ fill now agentId
  | restart => exact .of_row h.stored
  | updateOnMark ledger marked markPrices now =>
    have hne : agentId ≠ marked := by
      rintro rfl
      rw [TrackerProcess.sighting?, if_pos rfl] at hop
      cases hop
    have hrecord : (w.step agentId (.updateOnMark ledger marked markPrices now)).record agentId =
        w.record agentId := by
      have hmark := w.process.tracker.records_updateOnMark ledger marked markPrices now
      exact (congrFun hmark agentId).trans (Function.update_of_ne hne _ _)
    rw [hrecord]
    exact .refl _

/-- After any operation the database holds the record. -/
theorem stored_step (w : RecoveryWatch) (agentId : AgentId) (op : TrackerOp) :
    (AgentStateTracker.loadOrInitRecords (w.step agentId op).process.startingEquity
      (w.step agentId op).process.db agentId).row = ((w.step agentId op).record agentId).row := by
  cases op with
  | updateOnFill fill now => rfl
  | updateOnMark ledger marked markPrices now => rfl
  | restart => rfl

/-- **One operation** that meets the condition. -/
theorem Follows.step (h : w.Follows agentId) {op : TrackerOp} (hlater : w.Later agentId op)
    (hdaily : w.MarkedDaily agentId op) : (w.step agentId op).Follows agentId := by
  refine ⟨w.stored_step agentId op, ?_⟩
  rw [RecoveryWatch.step]
  cases hop : w.process.sighting? agentId op with
  | none =>
    rw [Option.toList_none, List.append_nil]
    exact h.tracks.congr (h.sameProgress_step hop)
  | some mark =>
    obtain ⟨marked, hsame, hrecord⟩ := exists_record_step hop
    have hone := (h.tracks.congr hsame).applyBucketWithRecovery (hlater mark hop)
      (hsame.markedDaily_iff.mpr (hdaily mark hop))
    rw [← hrecord] at hone
    exact hone.1

/-- **One operation** obeys the rule just when it meets the condition. -/
theorem Follows.counts_iff (h : w.Follows agentId) {op : TrackerOp} (hlater : w.Later agentId op) :
    w.Counts agentId op ↔ w.MarkedDaily agentId op := by
  refine forall₂_congr fun mark hop => ?_
  obtain ⟨marked, hsame, hrecord⟩ := exists_record_step hop
  have htracks := h.tracks.congr hsame
  rw [hrecord, ← hsame.countsTradingDays_iff, ← hsame.markedDaily_iff]
  constructor
  · intro hcounts
    by_contra hdaily
    exact htracks.not_countsTradingDays hdaily _ hcounts
  · intro hdaily
    exact (htracks.applyBucketWithRecovery (hlater mark hop) hdaily).2

/-- An agent that is not in the database has no history. -/
theorem follows_start {db : TrackerDb} (hnew : db agentId = none) (startingEquity : Decimal)
    (hasBus : Bool) (kill : KillSwitchEngine) :
    (start db startingEquity hasBus kill).Follows agentId := by
  have hrecord :
      (start db startingEquity hasBus kill).record agentId = .initial startingEquity := by
    simp [start, record, TrackerProcess.start, AgentStateTracker.loadOrInitRecords, hnew]
  refine ⟨rfl, ?_⟩
  rw [hrecord]
  exact ⟨rfl, fun target ht => absurd ht (by simp [PerAgentRecord.initial])⟩

/-- Under a monotone clock the marks come in the order of their days. -/
theorem along_later {ops : List TrackerOp}
    (hsorted : (w.history ++ w.process.sightings agentId ops).Pairwise
      fun m m' => m.today ≤ m'.today) : Along (step agentId) (Later agentId) w ops := by
  induction ops generalizing w with
  | nil => trivial
  | cons op ops ih =>
    rw [TrackerProcess.sightings, ← List.append_assoc] at hsorted
    refine ⟨fun mark hop m hm => ?_, ih hsorted⟩
    rw [hop, Option.toList_some] at hsorted
    exact (List.pairwise_append.mp (List.pairwise_append.mp hsorted).1).2.2 m hm mark
      (List.mem_singleton_self _)

/-- **When loosening takes five consecutive trading days**: in a run of the tracker from the first
mark of an agent on and under a monotone clock, with any fills, marks of other agents and restarts
in between, the rule holds at every mark of the agent exactly when no mark calls for a better
bucket on a day without trading, or for the one that is being recovered to after a trading day
without a mark. -/
theorem countsTradingDays_run_iff {db : TrackerDb} (hnew : db agentId = none)
    (startingEquity : Decimal) (hasBus : Bool) (kill : KillSwitchEngine) {ops : List TrackerOp}
    (hclock : (ops.filterMap TrackerOp.now?).Pairwise (· ≤ ·)) :
    Along (step agentId) (Counts agentId) (start db startingEquity hasBus kill) ops ↔
      Along (step agentId) (MarkedDaily agentId) (start db startingEquity hasBus kill) ops := by
  have hlater : Along (step agentId) (Later agentId) (start db startingEquity hasBus kill) ops :=
    along_later (TrackerProcess.pairwise_sightings _ agentId hclock)
  exact along_congr_within (fun _ _ h hl hd => h.step hl hd) (fun _ _ h hl => h.counts_iff hl)
    (follows_start hnew startingEquity hasBus kill) hlater

/-! ### A recovery over a weekend -/

/-- The price falls by a fifth on Thursday the fifth of March and is back on the Friday; it is
marked every day, the weekend included, until the Tuesday. -/
def overWeekend : List TrackerOp :=
  [TrackerProcess.markTenShares 80 (Date.ofYmd 2026 3 5),
    TrackerProcess.markTenShares 100 (Date.ofYmd 2026 3 6),
    TrackerProcess.markTenShares 100 (Date.ofYmd 2026 3 7),
    TrackerProcess.markTenShares 100 (Date.ofYmd 2026 3 8),
    TrackerProcess.markTenShares 100 (Date.ofYmd 2026 3 9),
    TrackerProcess.markTenShares 100 (Date.ofYmd 2026 3 10)]

/-- **The weekend counts**: on the Tuesday, the third trading day of the recovery, the bucket is
left. -/
theorem not_counts_overWeekend :
    ((run (step .haiku) (start (fun _ => none) 1000 false (.new 60)) overWeekend).record
        .haiku).sizingBucket = .normal ∧
      ¬Along (step .haiku) (Counts .haiku) (start (fun _ => none) 1000 false (.new 60))
        overWeekend := by
  refine ⟨by decide +kernel, ?_⟩
  rintro ⟨-, -, hcounts, -⟩
  -- already the Saturday's mark adds a day
  have hclosed := (hcounts ⟨.normal, Date.ofYmd 2026 3 7⟩ (by decide +kernel)).closed
    (by decide +kernel) (by decide +kernel)
  exact absurd hclosed.2.2 (by decide +kernel)

/-- From a Friday to the Monday after it no trading day is skipped. -/
theorem noneBetween_weekend : NoneBetween (Date.ofYmd 2026 3 6) (Date.ofYmd 2026 3 9) := by
  have hfri : Date.ofYmd 2026 3 6 = 20518 := by decide
  have hmon : Date.ofYmd 2026 3 9 = 20521 := by decide
  intro e he he'
  rw [hfri] at he
  rw [hmon] at he'
  change (20518 : ℤ) < e at he
  change (20521 : ℤ) > e at he'
  obtain rfl | rfl : (20519 : ℤ) = e ∨ (20520 : ℤ) = e := by omega
  all_goals decide

/-- Marked on the trading days only. -/
theorem counts_weekdays :
    Along (step .haiku) (Counts .haiku) (start (fun _ => none) 1000 false (.new 60))
      [TrackerProcess.markTenShares 80 (Date.ofYmd 2026 3 5),
        TrackerProcess.markTenShares 100 (Date.ofYmd 2026 3 6),
        TrackerProcess.markTenShares 100 (Date.ofYmd 2026 3 9)] := by
  refine (countsTradingDays_run_iff rfl 1000 false (.new 60) (by decide +kernel)).mpr
    ⟨?_, ?_, ?_, trivial⟩
  · intro mark hmark hlt
    obtain rfl : mark = ⟨.red, Date.ofYmd 2026 3 5⟩ :=
      (Option.some.inj hmark).symm.trans (by decide +kernel)
    exact absurd hlt (by decide +kernel)
  · intro mark hmark hlt
    obtain rfl : mark = ⟨.normal, Date.ofYmd 2026 3 6⟩ :=
      (Option.some.inj hmark).symm.trans (by decide +kernel)
    exact ⟨by decide +kernel, fun htarget => absurd htarget (by decide +kernel)⟩
  · intro mark hmark hlt
    obtain rfl : mark = ⟨.normal, Date.ofYmd 2026 3 9⟩ :=
      (Option.some.inj hmark).symm.trans (by decide +kernel)
    refine ⟨by decide +kernel, fun _ => ?_⟩
    rintro ⟨last, hlast, day, hld, hdt, htrading⟩
    have heq := hlast.symm.trans (show _ = some (Date.ofYmd 2026 3 6) by decide +kernel)
    obtain rfl : last = Date.ofYmd 2026 3 6 := Option.some.inj heq
    exact Bool.false_ne_true ((noneBetween_weekend day hld hdt).symm.trans htrading)

end RecoveryWatch

end TradingPlatform
