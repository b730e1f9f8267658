import TradingPlatform.App
import TradingPlatform.Run

/-!
# What the guards of the gate see

Two checks of the risk gate look at the past: a purchase within thirty days of a loss sale, and a
leveraged fund whose exposure was reopened too often. They read two registries, which somebody has
to fill. The application hears of every fill, and books it to the lot ledger and to the tracker,
and to neither registry.

So after any fills the two registries are what they were at the start, which is empty
(`TradingPlatform.App.unfed_run`), and the two checks never veto anything. What the guards are for
happens all the same when some other check vetoes the intent
(`TradingPlatform.App.guardsHold_iff`).
-/

namespace TradingPlatform

namespace RiskGate

variable {g : RiskGate} {intent : Intent} {agentState : AgentState} {ts : Time}

/-! ### The checks that do not look at a registry -/

/-- The checks that come first: the kill switch, the bench, the drawdown bucket. -/
def ShutOut (g : RiskGate) (agentState : AgentState) (ts : Time) : Prop :=
  g.kill.state = .drawdownLiquidate ∨ g.kill.canOpenNew = false ∨
    (g.kill.isAgentBenched agentState.agentId ts).2 = true ∨
    agentState.drawdownBucket = .forcedCash

instance (g : RiskGate) (agentState : AgentState) (ts : Time) :
    Decidable (g.ShutOut agentState ts) :=
  inferInstanceAs (Decidable (_ ∨ _ ∨ _ ∨ _))

/-- **Some check without a registry vetoes an opening**: one of the first, the holding period of a
leveraged fund, a rule for options, or the last check. -/
def VetoedElsewhere (g : RiskGate) (intent : Intent) (agentState : AgentState)
    (effectiveGross : Decimal) (positions : List Position) (ts : Time) : Prop :=
  g.ShutOut agentState ts ∨
    (intent.sleeve = .equity ∧ intent.symbol ∈ letfWhitelist ∧
      (g.checkLetf intent ts).isSome = true) ∨
    (checkOptionsRules intent agentState positions).isSome = true ∨
    (checkWeight intent effectiveGross).allowed = false

instance (g : RiskGate) (intent : Intent) (agentState : AgentState) (effectiveGross : Decimal)
    (positions : List Position) (ts : Time) :
    Decidable (g.VetoedElsewhere intent agentState effectiveGross positions ts) :=
  inferInstanceAs (Decidable (_ ∨ (_ ∧ _ ∧ _) ∨ _ ∨ _))

/-- The registries are empty. -/
structure Unfed (g : RiskGate) : Prop where
  wash : g.wash.records = []
  letfActivity : g.letfActivity = []

theorem checkWashSale_of_unfed (h : g.Unfed) (intent : Intent) (ts : Time) :
    g.checkWashSale intent ts = none := by
  have hblocked : ∀ symbol, g.wash.isBlocked intent.agentId symbol ts.date = false := by
    intro symbol
    rw [WashSaleChecker.isBlocked, h.wash]
    rfl
  rw [checkWashSale, hblocked, if_neg Bool.false_ne_true]
  split
  · rfl
  · rw [hblocked, if_neg Bool.false_ne_true]

theorem checkLetfRotation_of_unfed (h : g.Unfed) (intent : Intent) (ts : Time) :
    g.checkLetfRotation intent ts = (g, none) := by
  rw [checkLetfRotation]
  split
  · rfl
  · rw [h.letfActivity, List.filter_nil]
    exact if_neg (by decide)

/-- What is left of the checks of a leveraged fund. -/
theorem checkLetfRules_of_unfed (h : g.Unfed) (intent : Intent) (ts : Time) :
    g.checkLetfRules intent ts =
      (g, if intent.sleeve = .equity ∧ intent.symbol ∈ letfWhitelist
        then g.checkLetf intent ts else none) := by
  rw [checkLetfRules, checkLetfRotation_of_unfed h, ite_self]
  by_cases hletf : intent.sleeve = .equity ∧ intent.symbol ∈ letfWhitelist
  · rw [if_pos hletf, if_pos hletf]
    cases g.checkLetf intent ts with
    | none => rfl
    | some decision => rfl
  · rw [if_neg hletf, if_neg hletf]

/-! ### Every decision of a check is a veto -/

theorem not_allowed_of_checkLetf {decision : RiskDecision}
    (h : g.checkLetf intent ts = some decision) : decision.allowed = false := by
  unfold checkLetf at h
  split_ifs at h
  split at h
  · cases h
  · dsimp only at h
    split_ifs at h
    cases h
    rfl

theorem not_allowed_of_checkOptionsRules {positions : List Position} {decision : RiskDecision}
    (h : checkOptionsRules intent agentState positions = some decision) :
    decision.allowed = false := by
  have hoptions : ∀ d, checkOptions intent positions agentState.sleeveEquity = some d →
      d.allowed = false := by
    intro d hd
    unfold checkOptions at hd
    dsimp only at hd
    split_ifs at hd
    cases hd
    rfl
  have hstructure : ∀ d, checkOptionsStructure intent = some d → d.allowed = false := by
    intro d hd
    unfold checkOptionsStructure at hd
    split at hd
    · cases hd
      rfl
    · split_ifs at hd
      cases hd
      rfl
  rw [checkOptionsRules] at h
  by_cases hsleeve : intent.sleeve = .options
  · rw [if_pos hsleeve] at h
    rcases hd : checkOptions intent positions agentState.sleeveEquity with _ | d
    · rw [hd] at h
      dsimp only at h
      split_ifs at h
      exact hstructure decision h
    · rw [hd] at h
      cases h
      exact hoptions decision hd
  · rw [if_neg hsleeve] at h
    cases h

/-- The checks after the first, with empty registries. -/
theorem not_allowed_checkRules_iff (h : g.Unfed) (effectiveGross : Decimal)
    (positions : List Position) :
    (g.checkRules intent agentState effectiveGross positions ts).2.allowed = false ↔
      (intent.sleeve = .equity ∧ intent.symbol ∈ letfWhitelist ∧
        (g.checkLetf intent ts).isSome = true) ∨
      (checkOptionsRules intent agentState positions).isSome = true ∨
      (checkWeight intent effectiveGross).allowed = false := by
  rw [checkRules, checkWashSale_of_unfed h, ite_self, checkLetfRules_of_unfed h]
  dsimp only
  rcases hheld : (if intent.sleeve = .equity ∧ intent.symbol ∈ letfWhitelist
    then g.checkLetf intent ts else none) with _ | decision
  · -- the fund is not held for too long, and the other checks decide
    have hnone : ¬(intent.sleeve = .equity ∧ intent.symbol ∈ letfWhitelist ∧
        (g.checkLetf intent ts).isSome = true) := by
      rintro ⟨hsleeve, hsymbol, hsome⟩
      rw [if_pos ⟨hsleeve, hsymbol⟩] at hheld
      rw [hheld] at hsome
      exact Bool.false_ne_true hsome
    rw [or_iff_right hnone]
    rcases hoptions : checkOptionsRules intent agentState positions with _ | decision
    · simp
    · simpa using not_allowed_of_checkOptionsRules hoptions
  · rw [ite_eq_iff] at hheld
    obtain ⟨hletf, hheld⟩ := hheld.resolve_right fun hc => Option.some_ne_none _ hc.2.symm
    exact iff_of_true (not_allowed_of_checkLetf hheld)
      (Or.inl ⟨hletf.1, hletf.2, hheld ▸ rfl⟩)

/-- **What an opening meets**: the first checks, and then the others. -/
theorem not_allowed_checkIntent_iff (hopen : intent.action.Opening) (effectiveGross : Decimal)
    (positions : List Position) :
    (g.checkIntent intent agentState effectiveGross positions ts).2.allowed = false ↔
      g.ShutOut agentState ts ∨
        (checkRules { g with kill := (g.kill.isAgentBenched agentState.agentId ts).1 } intent
          agentState effectiveGross positions ts).2.allowed = false := by
  rw [checkIntent, ShutOut]
  by_cases hliquidate : g.kill.state = .drawdownLiquidate
  · rw [if_pos ⟨hliquidate, hopen.not_closing⟩]
    exact iff_of_true rfl (Or.inl (Or.inl hliquidate))
  by_cases hblocked : g.kill.canOpenNew = false
  · rw [if_neg fun hc => hliquidate hc.1, if_pos ⟨hopen, hblocked⟩]
    exact iff_of_true rfl (Or.inl (Or.inr (Or.inl hblocked)))
  rw [if_neg fun hc => hliquidate hc.1, if_neg fun hc => hblocked hc.2]
  dsimp only
  by_cases hbenched : (g.kill.isAgentBenched agentState.agentId ts).2 = true
  · rw [if_pos hbenched]
    exact iff_of_true rfl (Or.inl (Or.inr (Or.inr (Or.inl hbenched))))
  by_cases hcash : agentState.drawdownBucket = .forcedCash
  · rw [if_neg hbenched, if_pos ⟨hcash, hopen⟩]
    exact iff_of_true rfl (Or.inl (Or.inr (Or.inr (Or.inr hcash))))
  rw [if_neg hbenched, if_neg fun hc => hcash hc.1, or_iff_right]
  rintro (hc | hc | hc | hc)
  · exact hliquidate hc
  · exact hblocked hc
  · exact hbenched hc
  · exact hcash hc

/-- **What an opening meets when the registries are empty.** -/
theorem not_allowed_iff_vetoedElsewhere (h : g.Unfed) (hopen : intent.action.Opening)
    (effectiveGross : Decimal) (positions : List Position) :
    (g.checkIntent intent agentState effectiveGross positions ts).2.allowed = false ↔
      g.VetoedElsewhere intent agentState effectiveGross positions ts := by
  rw [not_allowed_checkIntent_iff hopen, VetoedElsewhere]
  refine or_congr Iff.rfl (not_allowed_checkRules_iff (g := { g with
    kill := (g.kill.isAgentBenched agentState.agentId ts).1 }) ?_ effectiveGross positions)
  exact ⟨h.wash, h.letfActivity⟩

end RiskGate

/-! ### What the application feeds -/

/-- A fill as it is delivered. -/
structure Delivery where
  fill : Fill
  /-- The identifier drawn for a new lot. -/
  lotId : LotId
  now : Time
  deriving DecidableEq

namespace App

/-- The application as it is constructed: the gate is new, and so are its registries. -/
def init (kill : KillSwitchEngine) (lots : LotLedger) (tracker : AgentStateTracker) : App where
  gate :=
    { kill := kill, wash := ⟨[]⟩, lots := lots, hasBus := true, letfActivity := [],
      published := [] }
  tracker := tracker

/-- Book a fill to the lot ledger, then update the tracker. -/
def onFillReceived (app : App) (d : Delivery) : App :=
  let lots := app.gate.lots.bookFill d.fill d.lotId .fifo
  let (tracker, kill) := app.tracker.updateOnFill app.gate.kill d.fill d.now
  { gate := { app.gate with lots := lots, kill := kill }, tracker := tracker }

/-- Run an intent through the gate. The gate is told of no position. -/
def evaluateWithRiskGate (app : App) (intent : Intent) (effectiveMaxGross : Decimal)
    (timestamp : Time) (coreState : AgentState) : RiskGate × RiskDecision :=
  app.gate.checkIntent intent coreState effectiveMaxGross [] timestamp

/-- Fills feed no registry. -/
theorem unfed_run (kill : KillSwitchEngine) (lots : LotLedger) (tracker : AgentStateTracker)
    (deliveries : List Delivery) :
    (run onFillReceived (init kill lots tracker) deliveries).gate.Unfed := by
  have hstep : ∀ (app : App) (d : Delivery), app.gate.Unfed → (app.onFillReceived d).gate.Unfed :=
    fun _ _ h => ⟨h.wash, h.letfActivity⟩
  have hinit : (init kill lots tracker).gate.Unfed := ⟨rfl, rfl⟩
  have hrun := run_invariant hstep hinit deliveries
  exact hrun

/-! ### What the guards are for -/

/-- A lot of the symbol was closed at a loss within the window before a day. -/
def LossClosed (lots : LotLedger) (agentId : AgentId) (symbol : String) (today : Date) : Prop :=
  ∃ lot ∈ lots.allLots, lot.agentId = agentId ∧ lot.symbol = normalizeSymbol symbol ∧
    lot.isClosed = true ∧ (lot.realizedPnl.any fun pnl => pnl < 0) = true ∧
    (lot.exitDate.any fun exitDate =>
      0 ≤ today - exitDate ∧ today - exitDate ≤ washSaleWindowDays) = true

instance (lots : LotLedger) (agentId : AgentId) (symbol : String) (today : Date) :
    Decidable (LossClosed lots agentId symbol today) :=
  inferInstanceAs (Decidable (∃ _ ∈ _, _ ∧ _ ∧ _ ∧ _ ∧ _))

/-- **A wash sale**: the agent closed a lot of the symbol, or of its proxy, at a loss. -/
def Washes (lots : LotLedger) (intent : Intent) (ts : Time) : Prop :=
  LossClosed lots intent.agentId intent.symbol ts.date ∨
    (washSaleProxies.lookup intent.symbol).any fun proxy =>
      LossClosed lots intent.agentId proxy ts.date

/-- The purchases of an agent among some fills that open an exposure, within the window before a
day. A fill that is delivered twice is one purchase. -/
def reopens (deliveries : List Delivery) (agentId : AgentId) (category : String) (today : Date) :
    ℕ :=
  ((deliveries.filter fun d =>
    d.fill.side = .buy ∧ d.fill.agentId = agentId ∧
      letfEquivMap.lookup d.fill.symbol = some category ∧
      0 ≤ today - d.fill.timestamp.date ∧
      today - d.fill.timestamp.date ≤ letfRotationWindowDays).map (·.fill.id)).dedup.length

/-- **A rotation**: the agent bought the exposure of the fund three times already. -/
def Rotates (deliveries : List Delivery) (intent : Intent) (ts : Time) : Prop :=
  (letfEquivMap.lookup intent.symbol).any fun category =>
    letfRotationThreshold ≤ reopens deliveries intent.agentId category ts.date

instance (lots : LotLedger) (intent : Intent) (ts : Time) : Decidable (Washes lots intent ts) :=
  inferInstanceAs (Decidable (_ ∨ _))

instance (deliveries : List Delivery) (intent : Intent) (ts : Time) :
    Decidable (Rotates deliveries intent ts) :=
  inferInstanceAs (Decidable (_ = true))

/-- **The guards see what happened**: after some fills, an intent that washes a sale or rotates a
fund is vetoed. -/
def GuardsHold (app : App) (deliveries : List Delivery) (intent : Intent)
    (effectiveMaxGross : Decimal) (ts : Time) (coreState : AgentState) : Prop :=
  let after := run onFillReceived app deliveries
  Washes after.gate.lots intent ts ∨ Rotates deliveries intent ts →
    (after.evaluateWithRiskGate intent effectiveMaxGross ts coreState).2.allowed = false

/-- **When the guards hold**: when there is nothing for them to veto, or something else vetoes
it. -/
theorem guardsHold_iff (kill : KillSwitchEngine) (lots : LotLedger) (tracker : AgentStateTracker)
    (deliveries : List Delivery) {intent : Intent} (hopen : intent.action.Opening)
    (effectiveMaxGross : Decimal) (ts : Time) (coreState : AgentState) :
    GuardsHold (init kill lots tracker) deliveries intent effectiveMaxGross ts coreState ↔
      let after := run onFillReceived (init kill lots tracker) deliveries
      (¬Washes after.gate.lots intent ts ∧ ¬Rotates deliveries intent ts) ∨
        after.gate.VetoedElsewhere intent coreState effectiveMaxGross [] ts := by
  set after := run onFillReceived (init kill lots tracker) deliveries with hafter
  have hveto : (after.evaluateWithRiskGate intent effectiveMaxGross ts coreState).2.allowed =
      false ↔ after.gate.VetoedElsewhere intent coreState effectiveMaxGross [] ts :=
    RiskGate.not_allowed_iff_vetoedElsewhere (unfed_run kill lots tracker deliveries) hopen _ _
  dsimp only
  rw [← hveto, ← not_or]
  exact Decidable.imp_iff_not_or

/-- Sonnet's state on a day on which nothing is wrong with it. -/
def calmState : AgentState where
  agentId := .sonnet
  sleeveEquity := 30000
  sleevePeakEquity := 30000
  drawdownBucket := .normal
  drawdownBucketEntryDate := none
  consecutiveLosses := 0
  isBenched := false
  benchUntil := none

/-- Sonnet proposes to put a tenth of its sleeve into a fund. -/
def tenthOf (symbol : String) : Intent where
  id := 1
  agentId := .sonnet
  symbol := symbol
  action := .buy
  targetWeight := 10 / 100
  sleeve := .equity
  conviction := 5

/-- A fill of ten shares for Sonnet. -/
def tenFill (id : FillId) (side : OrderSide) (symbol : String) (price : Decimal) : Delivery where
  fill :=
    { id := id, orderId := id, agentId := .sonnet, symbol := symbol, side := side, qty := 10,
      price := price, timestamp := 0 }
  lotId := id
  now := 0

/-- A sleeve in the last bucket buys nothing, after a loss as little as at any other time. -/
theorem guardsHold_forcedCash :
    GuardsHold (init (.new 120) .empty (.new 30000 true))
      [tenFill 1 .buy "SPY" 100, tenFill 2 .sell "SPY" 90] (tenthOf "IVV") 1 0
      { calmState with drawdownBucket := .forcedCash } :=
  (guardsHold_iff _ _ _ _ (Or.inl rfl) _ _ _).mpr (Or.inr (Or.inl (Or.inr (Or.inr (Or.inr rfl)))))

/-- **Two guards that see nothing**: a fund is bought back on the day it was sold at a loss, and a
leveraged fund is opened a fourth time. -/
theorem not_guardsHold_calmState :
    ¬GuardsHold (init (.new 120) .empty (.new 30000 true))
        [tenFill 1 .buy "SPY" 100, tenFill 2 .sell "SPY" 90] (tenthOf "SPY") 1 0 calmState ∧
      ¬GuardsHold (init (.new 120) .empty (.new 30000 true))
        [tenFill 1 .buy "TQQQ" 100, tenFill 2 .buy "UPRO" 100, tenFill 3 .buy "TQQQ" 100]
        (tenthOf "UPRO") 1 0 calmState := by
  constructor
  · intro h
    exact absurd (h (Or.inl (by decide +kernel))) (by decide +kernel)
  · intro h
    exact absurd (h (Or.inr (by decide +kernel))) (by decide +kernel)

end App

end TradingPlatform
