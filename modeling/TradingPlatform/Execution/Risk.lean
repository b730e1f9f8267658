import TradingPlatform.Execution.KillSwitch
import TradingPlatform.Execution.Lots
import TradingPlatform.Execution.Tax

/-!
# The risk gate

Every intent must pass the gate before it becomes an order. The checks come in a fixed order
and the first one that fails decides. Two of them leave a trace: asking whether the agent is
benched lifts a bench that is over, and a veto for rotating leveraged funds is published.

What the rest of the development uses of the gate is which checks come before which. An agent
that is benched gets nothing through (`TradingPlatform.RiskGate.not_allowed_of_benched`), and an
agent that is not gets at least a plain sell through (`TradingPlatform.RiskGate.allowed_sell`).
-/

namespace TradingPlatform

/-! ### Policy -/

/-- The single-name weight cap of each agent. -/
def agentSingleNameCaps : AgentId → Decimal
  | .haiku => 25 / 100
  | .sonnet => 12 / 100
  | .opus => 18 / 100
  | .manager => 30 / 100

def letfWhitelist : List String :=
  ["TQQQ", "SQQQ", "UPRO", "SPXU", "SOXL", "SOXS", "TMF", "TMV"]

def letfMaxHoldCalendarDays : ℤ := 5

/-- A fifth of the sleeve. -/
def optionsMaxSleeveFraction : Decimal := 20 / 100

/-- Pairs of substantially identical securities. -/
def washSaleProxies : List (String × String) :=
  [("SPY", "IVV"), ("IVV", "SPY"), ("QQQ", "QQQM"), ("QQQM", "QQQ"), ("TQQQ", "UPRO"),
    ("UPRO", "TQQQ"), ("SQQQ", "SPXU"), ("SPXU", "SQQQ")]

/-- The exposure a leveraged fund stands for. -/
def letfEquivMap : List (String × String) :=
  [("TQQQ", "NDX_LONG_3X"), ("UPRO", "NDX_LONG_3X"), ("SQQQ", "NDX_SHORT_3X"),
    ("SPXU", "NDX_SHORT_3X"), ("SOXL", "SOX_LONG_3X"), ("SOXS", "SOX_SHORT_3X"),
    ("TMF", "BOND_LONG_3X"), ("TMV", "BOND_SHORT_3X")]

def letfRotationWindowDays : ℤ := 21

def letfRotationThreshold : ℕ := 3

def Action.Opening (action : Action) : Prop := action = .buy ∨ action = .rebalanceTo

instance : DecidablePred Action.Opening := fun _ => inferInstanceAs (Decidable (_ ∨ _))

def Action.Closing (action : Action) : Prop := action = .sell ∨ action = .close

instance : DecidablePred Action.Closing := fun _ => inferInstanceAs (Decidable (_ ∨ _))

theorem Action.Opening.not_closing {action : Action} (h : action.Opening) : ¬action.Closing := by
  rintro (rfl | rfl)
  · exact absurd h (by decide)
  · exact absurd h (by decide)

/-! ### Percentages in messages -/

/-- The nearest integer, the even one of two. -/
def roundHalfEven (q : Decimal) : ℤ :=
  let rest := q - q.floor
  if rest < 1 / 2 then q.floor
  else if 1 / 2 < rest then q.floor + 1
  else if q.floor % 2 = 0 then q.floor else q.floor + 1

/-- A fraction as a percentage with some digits after the point. -/
def percentText (digits : ℕ) (q : Decimal) : String :=
  let n := (roundHalfEven (q * 100 * 10 ^ digits)).natAbs
  let fraction := toString (n % 10 ^ digits)
  let padding := String.ofList (List.replicate (digits - fraction.length) '0')
  (if q < 0 then "-" else "") ++ toString (n / 10 ^ digits) ++
    (if digits = 0 then "" else "." ++ padding ++ fraction) ++ "%"

/-! ### The gate -/

/-- A leveraged fund that was opened. -/
structure LetfActivityRecord where
  agentId : AgentId
  category : String
  actionDate : Date
  deriving DecidableEq

/-- What the gate publishes when it vetoes a rotation. -/
structure LeverageRotationFlag where
  agentId : AgentId
  symbol : String
  category : String
  reopenCount : ℕ
  deriving DecidableEq

structure RiskDecision where
  allowed : Bool
  vetoReason : Option String := none
  /-- The weight the intent should be reduced to. -/
  cappedWeight : Option Decimal := none
  deriving DecidableEq

def RiskDecision.veto (reason : String) : RiskDecision := { allowed := false, vetoReason := reason }

structure RiskGate where
  kill : KillSwitchEngine
  wash : WashSaleChecker
  lots : LotLedger
  /-- Whether it was given an event bus. -/
  hasBus : Bool
  letfActivity : List LetfActivityRecord
  published : List LeverageRotationFlag

namespace RiskGate

/-- A gate over components that have just been constructed. -/
def new (heartbeatTimeoutSecs : ℤ) : RiskGate where
  kill := .new heartbeatTimeoutSecs
  wash := ⟨[]⟩
  lots := .empty
  hasBus := true
  letfActivity := []
  published := []

/-- Record the opening of a leveraged fund. -/
def recordLetfOpen (g : RiskGate) (agentId : AgentId) (symbol : String) (openDate : Date) :
    RiskGate :=
  match letfEquivMap.lookup symbol with
  | none => g
  | some category => { g with letfActivity := g.letfActivity ++ [⟨agentId, category, openDate⟩] }

/-- Reject a purchase within the window of a loss sale of the symbol or of its proxy. -/
def checkWashSale (g : RiskGate) (intent : Intent) (ts : Time) : Option RiskDecision :=
  let today := ts.date
  if g.wash.isBlocked intent.agentId intent.symbol today then
    some <| .veto <| "wash_sale:" ++ intent.symbol ++ " loss-sale within 30-day window (" ++
      toString (g.wash.daysRemaining intent.agentId intent.symbol today) ++ "d remaining)"
  else
    match washSaleProxies.lookup intent.symbol with
    | none => none
    | some proxy =>
      if g.wash.isBlocked intent.agentId proxy today then
        some <| .veto <| "wash_sale:" ++ intent.symbol ++ " proxy=" ++ proxy ++ " blocked (" ++
          toString (g.wash.daysRemaining intent.agentId proxy today) ++ "d remaining)"
      else none

/-- Reject a purchase of a leveraged fund held for too long. -/
def checkLetf (g : RiskGate) (intent : Intent) (ts : Time) : Option RiskDecision :=
  -- a sell may be the liquidation the rule calls for
  if intent.action.Closing then none
  else
    match (g.lots.openLots intent.agentId intent.symbol).map (·.entryDate) with
    | [] => none
    | date :: dates =>
      let daysHeld := ts.date - dates.foldl min date
      if letfMaxHoldCalendarDays < daysHeld then
        some <| .veto <| "letf:" ++ intent.symbol ++ " already held " ++ toString daysHeld ++
          " days (max " ++ toString letfMaxHoldCalendarDays ++ "); liquidate before re-entry"
      else none

/-- Reject a leveraged fund whose exposure was reopened too often. -/
def checkLetfRotation (g : RiskGate) (intent : Intent) (ts : Time) :
    RiskGate × Option RiskDecision :=
  match letfEquivMap.lookup intent.symbol with
  | none => (g, none)
  | some category =>
    let reopenCount := (g.letfActivity.filter fun record =>
      record.agentId = intent.agentId ∧ record.category = category ∧
        ts.date - letfRotationWindowDays ≤ record.actionDate).length
    if letfRotationThreshold ≤ reopenCount then
      ({ g with
          published := if g.hasBus
            then g.published ++ [⟨intent.agentId, intent.symbol, category, reopenCount⟩]
            else g.published },
        some <| .veto <| "letf_rotation:" ++ intent.symbol ++ " category=" ++ category ++
          " reopened " ++ toString reopenCount ++ "× in " ++ toString letfRotationWindowDays ++
          "d window")
    else (g, none)

/-- The checks of a leveraged fund on the whitelist. -/
def checkLetfRules (g : RiskGate) (intent : Intent) (ts : Time) : RiskGate × Option RiskDecision :=
  if intent.sleeve = .equity ∧ intent.symbol ∈ letfWhitelist then
    match g.checkLetf intent ts with
    | some decision => (g, some decision)
    | none => if intent.action.Opening then g.checkLetfRotation intent ts else (g, none)
  else (g, none)

/-- Enforce the cap on the exposure to options. -/
def checkOptions (intent : Intent) (positions : List Position) (sleeveEquity : Decimal) :
    Option RiskDecision :=
  if sleeveEquity = 0 then none
  else
    let optionsValue := (positions.map fun position =>
      if position.agentId = intent.agentId ∧ position.sleeve = .options
      then |position.marketValue| else 0).sum
    let newFraction := optionsValue / sleeveEquity + intent.targetWeight
    if optionsMaxSleeveFraction < newFraction then
      some <| .veto <| "options:" ++ intent.symbol ++ " would push options to " ++
        percentText 1 newFraction ++ " of sleeve (max " ++
        percentText 0 optionsMaxSleeveFraction ++ ")"
    else none

/-- Reject naked options: both sides must be there. -/
def checkOptionsStructure (intent : Intent) : Option RiskDecision :=
  match intent.legs with
  | [] =>
    some <| .veto <| "options:naked — " ++ intent.symbol ++
      " has no legs; specify a defined-risk structure (vertical/condor/CC/CSP)"
  | leg :: legs =>
    if legs.all fun leg' => leg'.side = leg.side then
      some <| .veto <| "options:one-sided — " ++ intent.symbol ++ " legs are all " ++
        leg.side.value ++ "; defined-risk requires both long and short legs"
    else none

/-- The checks of an intent in the options sleeve. -/
def checkOptionsRules (intent : Intent) (agentState : AgentState) (positions : List Position) :
    Option RiskDecision :=
  if intent.sleeve = .options then
    match checkOptions intent positions agentState.sleeveEquity with
    | some decision => some decision
    | none => if intent.action.Opening then checkOptionsStructure intent else none
  else none

/-- The weight cap, which reduces and does not veto, and the last check. -/
def checkWeight (intent : Intent) (effectiveGross : Decimal) : RiskDecision :=
  let cap := agentSingleNameCaps intent.agentId
  if cap < intent.targetWeight then { allowed := true, cappedWeight := some cap }
  else if effectiveGross = 0 ∧ intent.action.Opening then
    .veto "effective_gross=0 — all leverage caps are zero"
  else { allowed := true }

/-- The checks that come after the kill switch, the bench and the drawdown bucket. -/
def checkRules (g : RiskGate) (intent : Intent) (agentState : AgentState)
    (effectiveGross : Decimal) (positions : List Position) (ts : Time) : RiskGate × RiskDecision :=
  match (if intent.action.Opening then g.checkWashSale intent ts else none) with
  | some decision => (g, decision)
  | none =>
    match g.checkLetfRules intent ts with
    | (g, some decision) => (g, decision)
    | (g, none) =>
      match checkOptionsRules intent agentState positions with
      | some decision => (g, decision)
      | none => (g, checkWeight intent effectiveGross)

/-- Run all checks; the first one that fails decides. -/
def checkIntent (g : RiskGate) (intent : Intent) (agentState : AgentState)
    (effectiveGross : Decimal) (positions : List Position) (ts : Time) : RiskGate × RiskDecision :=
  if g.kill.state = .drawdownLiquidate ∧ ¬intent.action.Closing then
    (g, .veto ("kill_switch:" ++ g.kill.state.value ++ " — only sell/close allowed"))
  else if intent.action.Opening ∧ g.kill.canOpenNew = false then
    (g, .veto ("kill_switch:" ++ g.kill.state.value ++ " — new entries blocked"))
  else
    let (kill, benched) := g.kill.isAgentBenched agentState.agentId ts
    let g := { g with kill := kill }
    if benched then
      (g, .veto ("agent:" ++ agentState.agentId.value ++
        " is benched (5 consecutive losses — 24h cooldown)"))
    else if agentState.drawdownBucket = .forcedCash ∧ intent.action.Opening then
      (g, .veto "drawdown_bucket:FORCED_CASH — no new buys; sleeve down >25%")
    else g.checkRules intent agentState effectiveGross positions ts

/-! ### The order of the checks -/

variable {g : RiskGate} {intent : Intent} {agentState : AgentState} {ts : Time}

/-- **A benched agent gets nothing through.** -/
theorem not_allowed_of_benched (h : (g.kill.isAgentBenched agentState.agentId ts).2 = true)
    (intent : Intent) (effectiveGross : Decimal) (positions : List Position) :
    (g.checkIntent intent agentState effectiveGross positions ts).2.allowed = false := by
  rw [checkIntent]
  split
  · rfl
  · split
    · rfl
    · dsimp only
      rw [if_pos h]
      rfl

/-- **An agent that is not benched can sell**, whatever else is wrong. -/
theorem allowed_sell (h : (g.kill.isAgentBenched agentState.agentId ts).2 = false)
    (haction : intent.action = .sell) (hsleeve : intent.sleeve = .equity)
    (hsymbol : intent.symbol ∉ letfWhitelist) (effectiveGross : Decimal)
    (positions : List Position) :
    (g.checkIntent intent agentState effectiveGross positions ts).2.allowed = true := by
  have hclosing : intent.action.Closing := Or.inl haction
  have hopening : ¬intent.action.Opening := fun hc => hc.not_closing hclosing
  rw [checkIntent, if_neg fun hc => hc.2 hclosing, if_neg fun hc => hopening hc.1]
  dsimp only
  rw [h, if_neg Bool.false_ne_true, if_neg fun hc => hopening hc.2, checkRules, if_neg hopening]
  have hletf : ∀ g : RiskGate, g.checkLetfRules intent ts = (g, none) := fun g =>
    if_neg fun hc => hsymbol hc.2
  have hoptions : checkOptionsRules intent agentState positions = none := by
    rw [checkOptionsRules, if_neg]
    rw [hsleeve]
    decide
  dsimp only
  rw [hletf, hoptions, checkWeight]
  dsimp only
  split_ifs with hcap hgross
  · rfl
  · exact absurd hgross.2 hopening
  · rfl

/-! ### What the checks leave alone -/

theorem kill_checkLetfRotation (g : RiskGate) (intent : Intent) (ts : Time) :
    (g.checkLetfRotation intent ts).1.kill = g.kill := by
  rw [checkLetfRotation]
  split
  · rfl
  · dsimp only
    split_ifs <;> rfl

theorem kill_checkLetfRules (g : RiskGate) (intent : Intent) (ts : Time) :
    (g.checkLetfRules intent ts).1.kill = g.kill := by
  rw [checkLetfRules]
  split
  · split
    · rfl
    · split
      · exact kill_checkLetfRotation g intent ts
      · rfl
  · rfl

theorem kill_checkRules (g : RiskGate) (intent : Intent) (agentState : AgentState)
    (effectiveGross : Decimal) (positions : List Position) (ts : Time) :
    (g.checkRules intent agentState effectiveGross positions ts).1.kill = g.kill := by
  have hletf := kill_checkLetfRules g intent ts
  rw [checkRules]
  split
  · rfl
  · rcases hrules : g.checkLetfRules intent ts with ⟨g', _ | decision⟩
    · rw [hrules] at hletf
      dsimp only
      split <;> exact hletf
    · rw [hrules] at hletf
      exact hletf

/-- A check leaves the kill switch alone, but for lifting a bench that is over. -/
theorem kill_checkIntent (g : RiskGate) (intent : Intent) (agentState : AgentState)
    (effectiveGross : Decimal) (positions : List Position) (ts : Time) :
    (g.checkIntent intent agentState effectiveGross positions ts).1.kill = g.kill ∨
      (g.checkIntent intent agentState effectiveGross positions ts).1.kill =
        (g.kill.isAgentBenched agentState.agentId ts).1 := by
  rw [checkIntent]
  split
  · exact Or.inl rfl
  · split
    · exact Or.inl rfl
    · dsimp only
      split_ifs
      · exact Or.inr rfl
      · exact Or.inr rfl
      · exact Or.inr (kill_checkRules _ _ _ _ _ _)

/-- A decision about the registry of loss sales is a veto. -/
theorem not_allowed_of_checkWashSale {g : RiskGate} {intent : Intent} {ts : Time}
    {decision : RiskDecision} (h : g.checkWashSale intent ts = some decision) :
    decision.allowed = false := by
  unfold checkWashSale at h
  dsimp only at h
  split_ifs at h
  · cases h
    rfl
  · split at h
    · cases h
    · split_ifs at h
      cases h
      rfl

end RiskGate

end TradingPlatform
