import TradingPlatform.App
import TradingPlatform.Lock

/-!
# The tracker's lock

The tracker does its work under a lock that is not reentrant, and it publishes while it holds it.
The event bus runs the subscribers in the publishing thread. One of them is the application, which
wakes the Manager when an agent falls into one of the three worst buckets, and to do so asks the
tracker for the state of the Manager.

`TradingPlatform.TrackerThread.updateOnMark` and `TradingPlatform.TrackerThread.updateOnFill` are
the two operations with the lock and the subscribers in them. They do what the operations of
`TradingPlatform.AgentStateTracker` do, or they block
(`TradingPlatform.TrackerThread.updateOnMark_cases`).

Alerts are sent by subscribers too, but these never call the tracker, and are left out.
-/

namespace TradingPlatform

/-- What the tracker's lock guards, and the kill switch it writes to. -/
structure TrackerThread where
  tracker : AgentStateTracker
  kill : KillSwitchEngine

/-- What the tracker and the application get from outside. -/
structure TrackerEnv where
  now : Time
  ledger : LotLedger
  /-- Whether the tracker keeps its rows in a database. -/
  hasDb : Bool
  /-- What the application does once it has built the Manager's state. -/
  respond : DrawdownBucket → Call TrackerThread Unit

namespace TrackerThread

open Call

variable (env : TrackerEnv)

/-- Write an agent's record. -/
def store (agentId : AgentId) (record : PerAgentRecord) : Call TrackerThread Unit :=
  update fun s => { s with tracker := s.tracker.setRecord agentId record }

def getState (agentId : AgentId) : Call TrackerThread AgentState :=
  withLock do
    let s ← read
    let (tracker, state) := s.tracker.getState agentId env.now
    update fun s => { s with tracker := tracker }
    return state

/-- What the tracker has to say in the state an agent is given. -/
def buildAgentState (agentId : AgentId) : Call TrackerThread DrawdownBucket := do
  let state ← getState env agentId
  return state.drawdownBucket

/-- Wake the Manager when another agent falls below the yellow bucket. -/
def onDrawdownLadderFired (agentId : AgentId) (newBucket : DrawdownBucket) :
    Call TrackerThread Unit :=
  if agentId = .manager then pure ()
  else if newBucket = .normal ∨ newBucket = .yellow then pure ()
  else do
    let bucket ← buildAgentState env .manager
    env.respond bucket

/-- The subscribers of an event that call the tracker, as the application wires them. -/
def subscribers : TrackerEvent → Call TrackerThread Unit
  | .agentBenched .. => pure ()
  | .drawdownLadderFired agentId _ newBucket => onDrawdownLadderFired env agentId newBucket

/-- Publish an event: run its subscribers, here and now. -/
def publish (event : TrackerEvent) : Call TrackerThread Unit := do
  let s ← read
  if s.tracker.hasBus then
    update fun s => { s with tracker := s.tracker.publish event }
    subscribers env event
  else pure ()

/-- Read the rows to be written to the database. -/
def maybePersist : Call TrackerThread Unit :=
  if env.hasDb then withLock (pure ()) else pure ()

/-- Tighten at once, and tell of it; loosen only after enough days. -/
def applyBucketWithRecovery (agentId : AgentId) (record : PerAgentRecord) (drawdown : Decimal) :
    Call TrackerThread Unit := do
  let rawBucket := classifyDrawdown drawdown
  if record.sizingBucket.rank < rawBucket.rank then
    publish env (.drawdownLadderFired agentId drawdown rawBucket)
  else pure ()
  store agentId (record.applyBucketWithRecovery rawBucket env.now.date)

/-- Recompute an agent's equity and bucket at some marks. -/
def updateOnMark (agentId : AgentId) (markPrices : Dict String Decimal) :
    Call TrackerThread Unit := do
  withLock do
    let s ← read
    let record := s.tracker.records agentId
    let realized := env.ledger.agentRealizedPnl agentId
    let unrealized := env.ledger.agentUnrealizedPnl agentId markPrices
    let newEquity := record.startingEquity + realized + unrealized
    let record := { record with currentEquity := newEquity }.expireBench env.now
    let record := { record with peakEquity := max record.peakEquity newEquity }
    store agentId record
    let drawdown :=
      if 0 < record.peakEquity then (record.peakEquity - newEquity) / record.peakEquity else 0
    applyBucketWithRecovery env agentId record drawdown
  maybePersist env

/-- Recompute an agent's state after a fill. -/
def updateOnFill (fill : Fill) : Call TrackerThread Unit := do
  withLock do
    let s ← read
    let record := s.tracker.records fill.agentId
    match fill.side with
    | .buy => store fill.agentId (record.updateAvgCost fill)
    | .sell =>
      let cleared := record.clearAvgCost fill
      if record.isLoss fill then
        let losses := record.consecutiveLosses + 1
        store fill.agentId { cleared with consecutiveLosses := losses }
        if consecutiveLossBenchTrigger ≤ losses then
          update fun s => { s with kill := (s.kill.recordAgentResult fill.agentId true env.now).1 }
          store fill.agentId
            { cleared with
              consecutiveLosses := losses
              isBenched := true
              benchUntil := some (env.now + benchDuration) }
          publish env (.agentBenched fill.agentId losses)
        else pure ()
      else
        store fill.agentId
          { cleared with
            consecutiveLosses := 0
            isBenched := false
            benchUntil := if record.isBenched then none else record.benchUntil }
  maybePersist env

/-! ### What blocks, and what returns -/

/-- **The Manager is to be woken**: the marks put another agent into one of the three worst
buckets, from a better one. -/
def Escalates (s : TrackerThread) (agentId : AgentId) (markPrices : Dict String Decimal) : Prop :=
  s.tracker.hasBus = true ∧ agentId ≠ .manager ∧
    10 / 100 ≤ s.tracker.drawdownAt env.ledger agentId markPrices ∧
    (s.tracker.records agentId).sizingBucket.rank <
      (classifyDrawdown (s.tracker.drawdownAt env.ledger agentId markPrices)).rank

instance (s : TrackerThread) (agentId : AgentId) (markPrices : Dict String Decimal) :
    Decidable (Escalates env s agentId markPrices) :=
  inferInstanceAs (Decidable (_ ∧ _ ∧ _ ∧ _))

section Rules

variable {env} {s : TrackerThread}

theorem returns_maybePersist (env : TrackerEnv) (s : TrackerThread) :
    (maybePersist env).Returns ⟨s, false⟩ () ⟨s, false⟩ := by
  rw [maybePersist]
  split_ifs
  · exact (returns_pure () _).withLock
  · exact returns_pure () _

/-- Building a state under the tracker's lock blocks. -/
theorem blocks_buildAgentState (agentId : AgentId) {g : Guarded TrackerThread}
    (h : g.locked = true) : (buildAgentState env agentId).Blocks g :=
  (blocks_withLock _ h).bind _

/-- The subscriber of the ladder blocks when it is run under the tracker's lock, if it builds a
state at all. -/
theorem onDrawdownLadderFired_cases (env : TrackerEnv) (agentId : AgentId)
    (newBucket : DrawdownBucket)
    {g : Guarded TrackerThread} (h : g.locked = true) :
    if agentId ≠ .manager ∧ newBucket ≠ .normal ∧ newBucket ≠ .yellow then
      (onDrawdownLadderFired env agentId newBucket).Blocks g
    else (onDrawdownLadderFired env agentId newBucket).Returns g () g := by
  rw [onDrawdownLadderFired]
  by_cases hagent : agentId = .manager
  · rw [if_pos hagent, if_neg fun hc => hc.1 hagent]
    exact returns_pure () g
  · rw [if_neg hagent]
    by_cases hbucket : newBucket = .normal ∨ newBucket = .yellow
    · rw [if_pos hbucket, if_neg fun hc => hbucket.elim hc.2.1 hc.2.2]
      exact returns_pure () g
    · rw [if_neg hbucket, if_pos ⟨hagent, not_or.mp hbucket⟩]
      exact (blocks_buildAgentState .manager h).bind _

theorem ten_le_iff (drawdown : Decimal) :
    classifyDrawdown drawdown ≠ .normal ∧ classifyDrawdown drawdown ≠ .yellow ↔
      10 / 100 ≤ drawdown := by
  rw [classifyDrawdown]
  constructor
  · intro h
    split_ifs at h with h₁ h₂ h₃ h₄
    · linarith
    · linarith
    · exact h₃
    · exact absurd rfl h.2
    · exact absurd rfl h.1
  · intro h
    split_ifs <;> simp

theorem returns_store (agentId : AgentId) (record : PerAgentRecord) (s : TrackerThread)
    (locked : Bool) :
    (store agentId record).Returns ⟨s, locked⟩ ()
      ⟨{ s with tracker := s.tracker.setRecord agentId record }, locked⟩ :=
  returns_update _ _

/-- Publishing what nobody who listens to calls the tracker for. -/
theorem returns_publish {event : TrackerEvent} {locked : Bool} {s' : TrackerThread}
    (hs' : s' = { s with tracker := s.tracker.publish event })
    (h : s.tracker.hasBus = true → (subscribers env event).Returns ⟨s', locked⟩ () ⟨s', locked⟩) :
    (publish env event).Returns ⟨s, locked⟩ () ⟨s', locked⟩ := by
  refine Returns.bind (a := s) rfl ?_
  by_cases hbus : s.tracker.hasBus = true
  · rw [if_pos hbus]
    subst hs'
    exact (returns_update _ _).bind (h hbus)
  · rw [if_neg hbus]
    have hsame : s.tracker.publish event = s.tracker := if_neg hbus
    rw [hs', hsame]
    exact returns_pure () _

/-- The record the tracker works on, once the positions are marked. -/
def markedRecord (env : TrackerEnv) (s : TrackerThread) (agentId : AgentId)
    (markPrices : Dict String Decimal) : PerAgentRecord :=
  let equity := s.tracker.equityAt env.ledger agentId markPrices
  let record := { s.tracker.records agentId with currentEquity := equity }.expireBench env.now
  { record with peakEquity := max record.peakEquity equity }

/-- The tracker's pure operation, in terms of the marked record. -/
theorem updateOnMark_eq (s : TrackerThread) (agentId : AgentId)
    (markPrices : Dict String Decimal) :
    s.tracker.updateOnMark env.ledger agentId markPrices env.now =
      let drawdown := s.tracker.drawdownAt env.ledger agentId markPrices
      let t := s.tracker.setRecord agentId
        ((markedRecord env s agentId markPrices).applyBucketWithRecovery
          (classifyDrawdown drawdown) env.now.date)
      if (s.tracker.records agentId).sizingBucket.rank < (classifyDrawdown drawdown).rank then
        t.publish (.drawdownLadderFired agentId drawdown (classifyDrawdown drawdown))
      else t := by
  have hpeak : (markedRecord env s agentId markPrices).peakEquity =
      max (s.tracker.records agentId).peakEquity
        (s.tracker.equityAt env.ledger agentId markPrices) := by
    simp [markedRecord]
  have hsizing : (markedRecord env s agentId markPrices).sizingBucket =
      (s.tracker.records agentId).sizingBucket := by
    simp [markedRecord]
  rw [← hsizing, AgentStateTracker.drawdownAt, ← hpeak]
  rfl

/-- An agent's record may be written before or after an event is published. -/
theorem setRecord_publish (t : AgentStateTracker) (agentId : AgentId) (record : PerAgentRecord)
    (event : TrackerEvent) :
    (t.publish event).setRecord agentId record = (t.setRecord agentId record).publish event := by
  unfold AgentStateTracker.publish AgentStateTracker.setRecord
  by_cases hbus : t.hasBus = true
  · rw [if_pos hbus, if_pos hbus]
  · rw [if_neg hbus, if_neg hbus]

theorem setRecord_setRecord (t : AgentStateTracker) (agentId : AgentId)
    (record record' : PerAgentRecord) :
    (t.setRecord agentId record).setRecord agentId record' = t.setRecord agentId record' := by
  simp [AgentStateTracker.setRecord]

/-- **The rule for the buckets, under the lock**: it blocks if it tells of a fall that the Manager
is woken for. -/
theorem applyBucketWithRecovery_cases (env : TrackerEnv) (s : TrackerThread) (agentId : AgentId)
    (record : PerAgentRecord) (drawdown : Decimal) :
    let rawBucket := classifyDrawdown drawdown
    if s.tracker.hasBus = true ∧ agentId ≠ .manager ∧ 10 / 100 ≤ drawdown ∧
        record.sizingBucket.rank < rawBucket.rank then
      (applyBucketWithRecovery env agentId record drawdown).Blocks ⟨s, true⟩
    else
      (applyBucketWithRecovery env agentId record drawdown).Returns ⟨s, true⟩ ()
        ⟨{ s with
            tracker :=
              let t := s.tracker.setRecord agentId
                (record.applyBucketWithRecovery rawBucket env.now.date)
              if record.sizingBucket.rank < rawBucket.rank then
                t.publish (.drawdownLadderFired agentId drawdown rawBucket)
              else t }, true⟩ := by
  intro rawBucket
  set event := TrackerEvent.drawdownLadderFired agentId drawdown rawBucket with hevent
  let told : TrackerThread := { s with tracker := s.tracker.publish event }
  have hladder := onDrawdownLadderFired_cases env agentId rawBucket (g := ⟨told, true⟩) rfl
  rw [applyBucketWithRecovery]
  by_cases hrank : record.sizingBucket.rank < rawBucket.rank
  · split_ifs with hesc
    · obtain ⟨hbus, hagent, hten, -⟩ := hesc
      rw [if_pos ⟨hagent, (ten_le_iff drawdown).mpr hten⟩] at hladder
      have hpublish : (publish env event).Blocks ⟨s, true⟩ := by
        refine Returns.bind_blocks (a := s) rfl ?_
        rw [if_pos hbus]
        exact (returns_update _ _).bind_blocks hladder
      exact hpublish.bind _
    · have hpublish : (publish env event).Returns ⟨s, true⟩ () ⟨told, true⟩ := by
        refine returns_publish rfl fun hbus => ?_
        rw [if_neg] at hladder
        · exact hladder
        · exact fun hc => hesc ⟨hbus, hc.1, (ten_le_iff drawdown).mp hc.2, hrank⟩
      rw [← setRecord_publish]
      exact hpublish.bind (returns_store _ _ _ _)
  · rw [if_neg hrank, if_neg hrank, if_neg fun hc => hrank hc.2.2.2]
    exact returns_store _ _ _ _

/-- **Marking an agent's positions**: it blocks when the Manager is to be woken, and else does what
the tracker's operation does. -/
theorem updateOnMark_cases (env : TrackerEnv) (s : TrackerThread) (agentId : AgentId)
    (markPrices : Dict String Decimal) :
    if Escalates env s agentId markPrices then
      (updateOnMark env agentId markPrices).Blocks ⟨s, false⟩
    else
      (updateOnMark env agentId markPrices).Returns ⟨s, false⟩ ()
        ⟨{ s with
            tracker := s.tracker.updateOnMark env.ledger agentId markPrices env.now }, false⟩ := by
  set record := markedRecord env s agentId markPrices with hrecord
  set drawdown := s.tracker.drawdownAt env.ledger agentId markPrices with hdrawdown
  have hsizing : record.sizingBucket = (s.tracker.records agentId).sizingBucket := by
    simp [hrecord, markedRecord]
  -- what is done under the lock, up to the rule for the buckets
  have hbody : updateOnMark env agentId markPrices ⟨s, false⟩ =
      ((withLock do
          store agentId record
          applyBucketWithRecovery env agentId record drawdown) >>= fun _ => maybePersist env)
        ⟨s, false⟩ := by
    have hpeak : record.peakEquity = max (s.tracker.records agentId).peakEquity
        (s.tracker.equityAt env.ledger agentId markPrices) := by
      simp [hrecord, markedRecord]
    rw [hdrawdown, AgentStateTracker.drawdownAt, ← hpeak]
    rfl
  have hstore := returns_store agentId record s true
  have hrule := applyBucketWithRecovery_cases env
    { s with tracker := s.tracker.setRecord agentId record } agentId record drawdown
  rw [hsizing] at hrule
  by_cases hesc : Escalates env s agentId markPrices
  · rw [if_pos hesc]
    rw [if_pos (by exact hesc)] at hrule
    exact hbody.trans ((hstore.bind_blocks hrule).withLock.bind _)
  · rw [if_neg hesc, updateOnMark_eq]
    rw [if_neg (by exact hesc), setRecord_setRecord] at hrule
    exact hbody.trans ((hstore.bind hrule).withLock.bind (returns_maybePersist env _))

/-- **A fill never blocks**: nobody who hears of a bench calls the tracker. -/
theorem returns_updateOnFill (env : TrackerEnv) (s : TrackerThread) (fill : Fill) :
    (updateOnFill env fill).Returns ⟨s, false⟩ ()
      ⟨⟨(s.tracker.updateOnFill s.kill fill env.now).1,
        (s.tracker.updateOnFill s.kill fill env.now).2⟩, false⟩ := by
  rw [updateOnFill]
  refine Returns.bind (a := ()) (Returns.withLock ?_) (returns_maybePersist env _)
  refine Returns.bind (a := s) rfl ?_
  rw [AgentStateTracker.updateOnFill]
  cases fill.side with
  | buy => exact returns_store _ _ _ _
  | sell =>
    dsimp only
    by_cases hloss : (s.tracker.records fill.agentId).isLoss fill = true
    · rw [if_pos hloss, if_pos hloss]
      refine (returns_store _ _ _ _).bind ?_
      by_cases hbench : consecutiveLossBenchTrigger ≤
          (s.tracker.records fill.agentId).consecutiveLosses + 1
      · rw [if_pos hbench, if_pos hbench]
        refine (returns_update _ _).bind ((returns_store _ _ _ _).bind ?_)
        rw [setRecord_setRecord]
        exact returns_publish rfl fun _ => returns_pure () _
      · rw [if_neg hbench, if_neg hbench]
        exact returns_pure () _
    · rw [if_neg hloss, if_neg hloss]
      exact returns_store _ _ _ _

end Rules

/-- **When the tracker blocks on its own lock**: never at a fill, and at some marks exactly when
they make an agent other than the Manager fall into one of the three worst buckets. -/
theorem not_blocks_iff (env : TrackerEnv) (s : TrackerThread) :
    (∀ fill, ¬(updateOnFill env fill).Blocks ⟨s, false⟩) ∧
      ∀ agentId markPrices, ¬(updateOnMark env agentId markPrices).Blocks ⟨s, false⟩ ↔
        ¬Escalates env s agentId markPrices := by
  refine ⟨fun fill => (returns_updateOnFill env s fill).not_blocks, fun agentId markPrices => ?_⟩
  have hcases := updateOnMark_cases env s agentId markPrices
  split_ifs at hcases with hesc
  · exact iff_of_false (fun hc => hc hcases) fun hc => hc hesc
  · exact iff_of_true hcases.not_blocks hesc

/-- Sonnet holds a hundred shares, bought at a hundred dollars. -/
def hundredShares : LotLedger :=
  LotLedger.empty.openLot
    { id := 1, orderId := 1, agentId := .sonnet, symbol := "SPY", side := .buy, qty := 100,
      price := 100, timestamp := 0 } 1

def hundredSharesEnv : TrackerEnv where
  now := 0
  ledger := hundredShares
  hasDb := true
  respond _ := pure ()

/-- **A fall that hangs the thread**: at sixty dollars a share Sonnet's sleeve is down by more than
an eighth, and the tracker waits for its own lock. -/
theorem blocks_updateOnMark_hundredShares :
    (updateOnMark hundredSharesEnv .sonnet (Dict.empty.set "SPY" 60)).Blocks
      ⟨⟨.new 30000 true, .new 120⟩, false⟩ := by
  have hesc : Escalates hundredSharesEnv ⟨.new 30000 true, .new 120⟩ .sonnet
      (Dict.empty.set "SPY" 60) := by
    decide +kernel
  have hcases := updateOnMark_cases hundredSharesEnv ⟨.new 30000 true, .new 120⟩ .sonnet
    (Dict.empty.set "SPY" 60)
  rwa [if_pos hesc] at hcases

end TrackerThread

end TradingPlatform
