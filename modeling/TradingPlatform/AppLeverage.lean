import TradingPlatform.AppView
import TradingPlatform.Execution.Planner

/-!
# One leverage cap, computed twice

The gross leverage an agent may have is computed where its state is built, with the bucket of the
volatility index that `_live_vix` answers with, and again by the planner, with the bucket of a
snapshot that is derived from the state. The state carries the *value* of the index, not its bucket,
and a state without a value stands for a failed fetch. The two places read it in two ways: the
first falls back to the sweet spot, the second to the value 18, where the next bucket begins; and
the second takes a value of zero for none.

The leverage has five factors, and the bucket decides one of them. So the two caps differ exactly
when the buckets do and the other factors are positive: `TradingPlatform.VixFeed.sameCap_run_iff`.
-/

namespace TradingPlatform

/-- The bucket of a reading of the volatility index. -/
def classifyVix (vix : Decimal) : VixBucket :=
  if vix < 12 then .veryLow
  else if vix < 18 then .sweetSpot
  else if vix < 25 then .elevated
  else if vix < 35 then .stress
  else .crisis

/-- What comes of the request for the latest bar of the index. -/
inductive VixFetch
  | bar (close : Decimal)
  | noBar
  | failed
  deriving DecidableEq

/-- What the application keeps of the index: the last answer with the instant it was given, and
whether it has warned already. -/
structure VixFeed where
  vixCache : Option (Time × Option Decimal × VixBucket)
  vixWarned : Bool
  warnings : List String
  deriving DecidableEq

/-- The state of an agent, with the value of the index it was built with. -/
structure LeveredState where
  state : Agents.AgentSnapshot
  vixValue : Option Decimal

/-- A tick of an agent. What is not fetched stays what it is until the tick is over. -/
structure LeverageTick where
  now : Time
  fetch : VixFetch
  agentId : AgentId
  lots : LotLedger
  brokerPositions : List BrokerPosition
  /-- Its gross leverage is not read: the tick computes it. -/
  market : MarketView
  settings : SizingSettings
  drawdownBucket : DrawdownBucket

namespace VixFeed

/-- For how long an answer is good: 15 minutes. -/
def vixCacheSpan : Time := 15 * 60 * microsPerSecond

def new : VixFeed := ⟨none, false, []⟩

/-- The cached answer, if it is still good. -/
def cached? (v : VixFeed) (now : Time) : Option (Option Decimal × VixBucket) :=
  match v.vixCache with
  | none => none
  | some (cachedAt, answer) => if now - cachedAt < vixCacheSpan then some answer else none

/-- Without a bar, answer with the sweet spot, and warn the first time. -/
def fallBack (v : VixFeed) (now : Time) (warning : String) : VixFeed where
  vixCache := some (now, none, .sweetSpot)
  vixWarned := true
  warnings := if v.vixWarned then v.warnings else v.warnings ++ [warning]

/-- The value of the index and its bucket. -/
def liveVix (v : VixFeed) (now : Time) (fetch : VixFetch) : VixFeed × Option Decimal × VixBucket :=
  match v.cached? now with
  | some answer => (v, answer)
  | none =>
    match fetch with
    | .bar close =>
      ({ v with vixCache := some (now, some close, classifyVix close) }, some close,
        classifyVix close)
    | .noBar =>
      (v.fallBack now "VIX bar unavailable; falling back to SWEET_SPOT", none, .sweetSpot)
    | .failed =>
      (v.fallBack now "VIX fetch failed; falling back to SWEET_SPOT", none, .sweetSpot)

/-- Build the state of an agent, with its gross leverage. -/
def buildAgentState (v : VixFeed) (t : LeverageTick) :
    VixFeed × Except MasterCapabilityError LeveredState :=
  let (v, vixValue, vixBucket) := v.liveVix t.now t.fetch
  (v, (effectiveMaxGross t.agentId t.settings vixBucket t.drawdownBucket).map fun emg =>
    ⟨App.buildAgentState t.lots t.brokerPositions { t.market with effectiveMaxGross := emg }
      t.agentId, vixValue⟩)

/-- The feed after a tick. -/
def step (v : VixFeed) (t : LeverageTick) : VixFeed := (v.buildAgentState t).1

end VixFeed

namespace App

/-- The returns of the last thirty days. -/
def dailyReturns (bars : List Bar) : List Decimal :=
  let window := bars.drop (max 1 (bars.length - 30) - 1)
  (window.zip window.tail).filterMap fun (previous, bar) =>
    if 0 < previous.close then some ((bar.close - previous.close) / previous.close) else none

/-- The annualized volatility of the last thirty days, with a floor; two returns are needed. -/
def annualizedVol (sqrt : Decimal → Decimal) (bars : List Bar) : Option Decimal :=
  let returns := dailyReturns bars
  if 2 ≤ returns.length then
    let n : Decimal := returns.length
    let mean := returns.sum / n
    let variance := (returns.map fun r => (r - mean) ^ 2).sum / n
    let dailyVol := if 0 < variance then sqrt variance else 0
    some (max (dailyVol * sqrt 252) (8 / 100))
  else none

/-- The value of the index for the planner: without one, and for zero, it is 18. -/
def vixOrDefault : Option Decimal → Decimal
  | some vix => if vix = 0 then 18 else vix
  | none => 18

/-- Derive what the planner is told from the state of an agent. -/
def buildMarketSnapshot (sqrt : Decimal → Decimal) (s : LeveredState) : MarketSnapshot where
  currentPrices := s.state.barsBySymbol.entries.foldl (fun prices (sym, bars) =>
    match bars.getLast? with
    | none => prices
    | some bar => prices.set sym bar.close) .empty
  realizedVol30d := s.state.barsBySymbol.entries.foldl (fun vols (sym, bars) =>
    match annualizedVol sqrt bars with
    | none => vols
    | some vol => vols.set sym vol) .empty
  vixBucket := classifyVix (vixOrDefault s.vixValue)

end App

/-- The gross leverage the planner holds an intent to. -/
def ExecutionPlanner.enforcedMaxGross (settings : SizingSettings) (intent : Intent)
    (agentState : AgentState) (snapshot : MarketSnapshot) : Except MasterCapabilityError Decimal :=
  effectiveMaxGross intent.agentId settings snapshot.vixBucket agentState.drawdownBucket

/-- What the planner announces with an order is the cap it held the intent to. -/
theorem ExecutionPlanner.enforcedMaxGross_of_plan {p p' : ExecutionPlanner} {ledger : LotLedger}
    {settings : SizingSettings} {intent : Intent} {agentState : AgentState}
    {snapshot : MarketSnapshot} {orderId : OrderId} {now : Time} {order : Order}
    (h : p.plan ledger settings intent agentState snapshot orderId now = .ok (p', .ok order)) :
    ∃ event, p'.published = p.published ++ [event] ∧
      enforcedMaxGross settings intent agentState snapshot = .ok event.effectiveMaxGrossVal := by
  unfold enforcedMaxGross
  unfold plan planClose at h
  rcases hgross : effectiveMaxGross intent.agentId settings snapshot.vixBucket
    agentState.drawdownBucket with error | effectiveGross
  · rw [hgross] at h
    dsimp only [Except.map] at h
    split_ifs at h
    · cases h
    · split at h
      · cases h
      · split_ifs at h
        cases h
    · cases h
  · rw [hgross] at h
    dsimp only [Except.map] at h
    split_ifs at h
    · cases h
    · split at h
      · cases h
      · split_ifs at h
        · cases h
        · cases h
          exact ⟨_, rfl, rfl⟩
    · cases h
    · split at h
      · cases h
      · cases h
        exact ⟨_, rfl, rfl⟩

namespace VixFeed

/-- **The planner holds the agent to the leverage it was shown**: whatever the agent intends with
the state it is given, the planner enforces the cap in that state. -/
def SameCap (sqrt : Decimal → Decimal) (v : VixFeed) (t : LeverageTick) : Prop :=
  ∀ s, (v.buildAgentState t).2 = .ok s →
    ∀ (intent : Intent) (agentState : AgentState), intent.agentId = t.agentId →
      agentState.drawdownBucket = t.drawdownBucket →
      ExecutionPlanner.enforcedMaxGross t.settings intent agentState
        (App.buildMarketSnapshot sqrt s) = .ok s.state.effectiveMaxGross

/-- The value of the index that a tick works with: the cached one, if it is still good, or else
that of the bar, if there is one. -/
def reading (v : VixFeed) (t : LeverageTick) : Option Decimal :=
  match v.cached? t.now with
  | some answer => answer.1
  | none =>
    match t.fetch with
    | .bar close => some close
    | _ => none

/-- **The condition**: there is a value of the index, and it is not zero – or the leverage is zero
in every bucket, or out of range. -/
def CapReadable (v : VixFeed) (t : LeverageTick) : Prop :=
  (∃ vix, v.reading t = some vix ∧ vix ≠ 0) ∨ t.settings.masterCapability ≤ 0 ∨
    maxMasterCapability < t.settings.masterCapability ∨ t.drawdownBucket = .forcedCash

/-! ### What is cached -/

/-- The bucket that goes with a value, or with none. -/
def bucketOf : Option Decimal → VixBucket
  | some vix => classifyVix vix
  | none => .sweetSpot

/-- What is cached has the bucket of its value. -/
def Classified (v : VixFeed) : Prop :=
  ∀ cachedAt answer, v.vixCache = some (cachedAt, answer) → answer.2 = bucketOf answer.1

variable {v : VixFeed} {t : LeverageTick}

theorem classified_new : new.Classified := by
  rintro cachedAt answer ⟨⟩

theorem Classified.of_cached? (h : v.Classified) {now : Time} {answer : Option Decimal × VixBucket}
    (hcached : v.cached? now = some answer) : answer.2 = bucketOf answer.1 := by
  unfold cached? at hcached
  rcases hcache : v.vixCache with _ | ⟨cachedAt, answer'⟩
  · rw [hcache] at hcached
    cases hcached
  · rw [hcache] at hcached
    dsimp only at hcached
    split_ifs at hcached
    cases hcached
    exact h cachedAt answer hcache

/-- **What a tick reads**: a value, and the bucket that goes with it. -/
theorem Classified.liveVix (h : v.Classified) (t : LeverageTick) :
    (v.liveVix t.now t.fetch).2 = (v.reading t, bucketOf (v.reading t)) := by
  unfold VixFeed.liveVix reading
  rcases hcached : v.cached? t.now with _ | answer
  · cases t.fetch <;> rfl
  · exact Prod.ext rfl (h.of_cached? hcached)

theorem Classified.step (h : v.Classified) (t : LeverageTick) : (v.step t).Classified := by
  change (v.liveVix t.now t.fetch).1.Classified
  unfold VixFeed.liveVix
  rcases v.cached? t.now with _ | answer
  · rcases t.fetch with close | _ | _ <;> (rintro cachedAt answer ⟨⟩; rfl)
  · exact h

/-- The application warns once. -/
theorem warnings_run_le (ticks : List LeverageTick) :
    (run step new ticks).warnings.length ≤ 1 := by
  have hwarned : ∀ v : VixFeed, ∀ t, v.warnings.length ≤ 1 ∧ (v.vixWarned = false →
      v.warnings = []) → (v.step t).warnings.length ≤ 1 ∧ ((v.step t).vixWarned = false →
        (v.step t).warnings = []) := by
    intro v t hv
    change (v.liveVix t.now t.fetch).1.warnings.length ≤ 1 ∧
      ((v.liveVix t.now t.fetch).1.vixWarned = false → (v.liveVix t.now t.fetch).1.warnings = [])
    have hfall : ∀ warning, (v.fallBack t.now warning).warnings.length ≤ 1 ∧
        ((v.fallBack t.now warning).vixWarned = false →
          (v.fallBack t.now warning).warnings = []) := by
      intro warning
      refine ⟨?_, by rintro ⟨⟩⟩
      unfold fallBack
      cases hw : v.vixWarned with
      | false => simp [hv.2 hw]
      | true => simpa using hv.1
    unfold liveVix
    rcases v.cached? t.now with _ | answer
    · cases t.fetch with
      | bar close => exact hv
      | noBar => exact hfall _
      | failed => exact hfall _
    · exact hv
  exact (run_invariant hwarned ⟨Nat.zero_le _, fun _ => rfl⟩ ticks).1

/-! ### The two buckets -/

/-- With a value that is not zero both places see one bucket, and otherwise they see two, which
are worth a different leverage each – but for the value zero. -/
theorem vixScalars_eq_iff (reading : Option Decimal) :
    vixScalars (classifyVix (App.vixOrDefault reading)) = vixScalars (bucketOf reading) ↔
      ∃ vix, reading = some vix ∧ vix ≠ 0 := by
  have hdefault : classifyVix 18 = .elevated := by
    norm_num [classifyVix]
  rcases reading with _ | vix
  · refine iff_of_false ?_ (by simp)
    rw [App.vixOrDefault, hdefault, bucketOf]
    norm_num [vixScalars]
  · by_cases hzero : vix = 0
    · have hlow : classifyVix 0 = .veryLow := by norm_num [classifyVix]
      refine iff_of_false ?_ (by simp [hzero])
      rw [App.vixOrDefault, if_pos hzero, hdefault, bucketOf, hzero, hlow]
      norm_num [vixScalars]
    · rw [App.vixOrDefault, if_neg hzero, bucketOf]
      exact iff_of_true rfl ⟨vix, rfl, hzero⟩

/-- **When two buckets make no difference**: they are worth the same, or another factor of the
leverage is not positive. -/
theorem effectiveMaxGross_eq_iff {agentId : AgentId} {settings : SizingSettings}
    (hrange : settings.masterCapability ≤ maxMasterCapability) (bucket bucket' : VixBucket)
    (drawdownBucket : DrawdownBucket) :
    effectiveMaxGross agentId settings bucket drawdownBucket =
        effectiveMaxGross agentId settings bucket' drawdownBucket ↔
      vixScalars bucket = vixScalars bucket' ∨ settings.masterCapability ≤ 0 ∨
        drawdownBucket = .forcedCash := by
  have hbase : 0 < agentBaseMaxGross agentId := by
    cases agentId <;> norm_num [agentBaseMaxGross]
  have hscalar : ∀ bucket, 0 < vixScalars bucket := by
    intro bucket
    cases bucket <;> norm_num [vixScalars]
  have hsleeve : (0 : Decimal) <
      max (25 / 100) (min 2 ((settings.sleeveWeights.get? agentId).getD 1)) :=
    lt_of_lt_of_le (by norm_num) (le_max_left _ _)
  have hdrawdown : 0 ≤ drawdownScalars drawdownBucket ∧
      (drawdownScalars drawdownBucket = 0 ↔ drawdownBucket = .forcedCash) := by
    cases drawdownBucket with
    | forcedCash => exact ⟨le_rfl, iff_of_true rfl rfl⟩
    | _ => exact ⟨by norm_num [drawdownScalars], iff_of_false (by norm_num [drawdownScalars])
        (by rintro ⟨⟩)⟩
  unfold effectiveMaxGross
  rw [if_neg hrange.not_gt, if_neg hrange.not_gt, Except.ok.injEq, ← hdrawdown.2]
  generalize max (25 / 100) (min 2 ((settings.sleeveWeights.get? agentId).getD 1)) = sleeveW
    at hsleeve
  generalize drawdownScalars drawdownBucket = drawdown at hdrawdown
  generalize settings.masterCapability = mc
  -- the leverage is the scalar of the bucket times the other factors
  have hfactor : ∀ scalar : Decimal, agentBaseMaxGross agentId * mc * scalar * drawdown * sleeveW =
      scalar * (mc * (agentBaseMaxGross agentId * drawdown * sleeveW)) := fun scalar => by ring
  rw [hfactor, hfactor]
  have hothers : 0 ≤ agentBaseMaxGross agentId * drawdown * sleeveW :=
    mul_nonneg (mul_nonneg hbase.le hdrawdown.1) hsleeve.le
  rcases le_or_gt mc 0 with hneg | hpos
  · have hnone : ∀ scalar : Decimal, 0 < scalar →
        scalar * (mc * (agentBaseMaxGross agentId * drawdown * sleeveW)) ≤ 0 := fun scalar hs =>
      mul_nonpos_of_nonneg_of_nonpos hs.le (mul_nonpos_of_nonpos_of_nonneg hneg hothers)
    rw [max_eq_right (hnone _ (hscalar bucket)), max_eq_right (hnone _ (hscalar bucket'))]
    exact iff_of_true rfl (Or.inr (Or.inl hneg))
  · have hnonneg : ∀ scalar : Decimal, 0 < scalar →
        0 ≤ scalar * (mc * (agentBaseMaxGross agentId * drawdown * sleeveW)) := fun scalar hs =>
      mul_nonneg hs.le (mul_nonneg hpos.le hothers)
    rw [max_eq_left (hnonneg _ (hscalar bucket)), max_eq_left (hnonneg _ (hscalar bucket')),
      mul_eq_mul_right_iff, or_iff_right (a := mc ≤ 0) hpos.not_ge]
    refine or_congr_right ?_
    rw [mul_eq_zero, or_iff_right hpos.ne', mul_eq_zero, or_iff_left hsleeve.ne', mul_eq_zero,
      or_iff_right hbase.ne']

/-- **One tick**: the planner enforces the cap the agent was shown exactly when the condition
holds. -/
theorem Classified.sameCap_iff (h : v.Classified) (sqrt : Decimal → Decimal) (t : LeverageTick) :
    v.SameCap sqrt t ↔ v.CapReadable t := by
  rcases lt_or_ge maxMasterCapability t.settings.masterCapability with hout | hrange
  · -- no state is built at all
    refine iff_of_true ?_ (Or.inr (Or.inr (Or.inl hout)))
    intro s hs
    simp only [buildAgentState, effectiveMaxGross, if_pos hout, Except.map] at hs
    cases hs
  have hread : (v.liveVix t.now t.fetch).2 = (v.reading t, bucketOf (v.reading t)) := h.liveVix t
  obtain ⟨emg, hemg⟩ : ∃ emg, effectiveMaxGross t.agentId t.settings (bucketOf (v.reading t))
      t.drawdownBucket = .ok emg := by
    unfold effectiveMaxGross
    rw [if_neg hrange.not_gt]
    exact ⟨_, rfl⟩
  have hbuilt : (v.buildAgentState t).2 = .ok ⟨App.buildAgentState t.lots t.brokerPositions
      { t.market with effectiveMaxGross := emg } t.agentId, v.reading t⟩ := by
    unfold buildAgentState
    dsimp only
    rw [show (v.liveVix t.now t.fetch).2.2 = _ from congrArg Prod.snd hread,
      show (v.liveVix t.now t.fetch).2.1 = _ from congrArg Prod.fst hread, hemg]
    rfl
  have hiff := (@effectiveMaxGross_eq_iff t.agentId t.settings hrange
    (classifyVix (App.vixOrDefault (v.reading t))) (bucketOf (v.reading t)) t.drawdownBucket)
  rw [hemg, vixScalars_eq_iff] at hiff
  have hcondition : v.CapReadable t ↔ ((∃ vix, v.reading t = some vix ∧ vix ≠ 0) ∨
      t.settings.masterCapability ≤ 0 ∨ t.drawdownBucket = .forcedCash) := by
    rw [CapReadable, or_iff_right (a := maxMasterCapability < _) hrange.not_gt]
  rw [hcondition, ← hiff]
  constructor
  · intro hsame
    exact hsame _ hbuilt
      { id := 0, agentId := t.agentId, symbol := "", action := .buy, targetWeight := 0,
        sleeve := .equity, conviction := 1 }
      ⟨t.agentId, 0, 0, t.drawdownBucket, none, 0, false, none⟩ rfl rfl
  · intro heq s hs intent agentState hagent hbucket
    rw [hbuilt, Except.ok.injEq] at hs
    subst hs
    rw [ExecutionPlanner.enforcedMaxGross, hagent, hbucket]
    exact heq

/-- **When the planner and the agents use one leverage cap**: along every run of ticks, exactly
when each tick has a value of the index that is not zero, or a leverage that is zero in every
bucket or out of range. -/
theorem sameCap_run_iff (sqrt : Decimal → Decimal) (ticks : List LeverageTick) :
    Along step (SameCap sqrt) new ticks ↔ Along step CapReadable new ticks := by
  have hstep : ∀ v t, Classified v → Classified (v.step t) := fun _ t h => h.step t
  exact along_congr_of_invariant hstep (fun _ t h => h.sameCap_iff sqrt t) classified_new ticks

/-- Sonnet's tick when the index cannot be fetched: nothing is held, no symbol has bars, and every
setting is at its default. -/
def failedTick : LeverageTick where
  now := 0
  fetch := .failed
  agentId := .sonnet
  lots := .empty
  brokerPositions := []
  market := ⟨.empty, .ok, 0, "", []⟩
  settings := ⟨1, .empty⟩
  drawdownBucket := .normal

/-- **A tick with two caps**: Sonnet is shown a leverage of 1.25, and the planner allows 1. -/
theorem not_sameCap_failedTick : ¬Along step (SameCap id) new [failedTick] := by
  rintro ⟨hsame, -⟩
  have hemg : effectiveMaxGross .sonnet failedTick.settings .sweetSpot .normal =
      .ok (125 / 100) := by
    decide +kernel
  have hcap := hsame _ (congrArg (Except.map fun emg =>
      (⟨App.buildAgentState .empty [] ⟨.empty, .ok, emg, "", []⟩ .sonnet, none⟩ : LeveredState))
      hemg)
    { id := 0, agentId := .sonnet, symbol := "SPY", action := .buy, targetWeight := 10 / 100,
      sleeve := .equity, conviction := 1 } ⟨.sonnet, 0, 0, .normal, none, 0, false, none⟩ rfl rfl
  exact absurd hcap (by decide +kernel)

end VixFeed

end TradingPlatform
