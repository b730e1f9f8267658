import TradingPlatform.Core.Types
import TradingPlatform.Dict

/-!
# Leverage caps and volatility targets

Two numbers bound what an agent may hold. The *effective gross cap* is its base leverage, scaled
down by the volatility of the market and by its own drawdown, and scaled either way by the
settings an operator and the manager turn. The *volatility target* says what a weight is worth in
a symbol: less the more the symbol moves.

Both are pure functions of their arguments here. The settings are read anew for every intent, so
they are an argument too.
-/

namespace TradingPlatform

inductive VixBucket
  | veryLow | sweetSpot | elevated | stress | crisis
  deriving DecidableEq, Repr

/-! ### Policy -/

def volFloorAnnual : Decimal := 8 / 100

/-- How far a quiet symbol may be leveraged. -/
def volTargetCapLeverage : Decimal := 175 / 100

def maxMasterCapability : Decimal := 15 / 10

def agentBaseMaxGross : AgentId → Decimal
  | .haiku => 150 / 100
  | .sonnet => 125 / 100
  | .opus => 1
  | .manager => 1

theorem agentBaseMaxGross_pos (agentId : AgentId) : 0 < agentBaseMaxGross agentId := by
  cases agentId <;> norm_num [agentBaseMaxGross]

def agentBaseVolTarget : AgentId → Decimal
  | .haiku => 30 / 100
  | .sonnet => 25 / 100
  | .opus => 20 / 100
  | .manager => 10 / 100

theorem agentBaseVolTarget_pos (agentId : AgentId) : 0 < agentBaseVolTarget agentId := by
  cases agentId <;> norm_num [agentBaseVolTarget]

def vixScalars : VixBucket → Decimal
  | .veryLow => 6 / 10
  | .sweetSpot => 1
  | .elevated => 8 / 10
  | .stress => 5 / 10
  | .crisis => 25 / 100

theorem vixScalars_nonneg (bucket : VixBucket) : 0 ≤ vixScalars bucket := by
  cases bucket <;> norm_num [vixScalars]

def drawdownScalars : DrawdownBucket → Decimal
  | .normal => 1
  | .yellow => 75 / 100
  | .orange => 50 / 100
  | .red => 25 / 100
  | .forcedCash => 0

theorem drawdownScalars_nonneg (bucket : DrawdownBucket) : 0 ≤ drawdownScalars bucket := by
  cases bucket <;> norm_num [drawdownScalars]

/-! ### The cap on the gross exposure -/

/-- What can be turned while the program runs: the dashboard's slider, and the weights the manager
gives the sleeves. -/
structure SizingSettings where
  masterCapability : Decimal
  sleeveWeights : Dict AgentId Decimal

/-- The master capability is out of range; the number is the one the message shows. -/
structure MasterCapabilityError where
  masterCapability : Decimal
  deriving DecidableEq

/-- The gross leverage an agent may have. -/
def effectiveMaxGross (agentId : AgentId) (settings : SizingSettings) (vixBucket : VixBucket)
    (drawdownBucket : DrawdownBucket) : Except MasterCapabilityError Decimal :=
  if maxMasterCapability < settings.masterCapability then .error ⟨settings.masterCapability⟩
  else
    let sleeveW := (settings.sleeveWeights.get? agentId).getD 1
    -- one call of the manager can neither wipe out a sleeve nor quadruple it
    let sleeveW := max (25 / 100) (min 2 sleeveW)
    .ok (max (agentBaseMaxGross agentId * settings.masterCapability * vixScalars vixBucket *
      drawdownScalars drawdownBucket * sleeveW) 0)

/-- The volatility an agent aims at. -/
def effectiveVolTarget (agentId : AgentId) (settings : SizingSettings) : Decimal :=
  agentBaseVolTarget agentId * settings.masterCapability

/-- What a weight is worth. -/
def volTargetedPositionValue (targetWeight agentEquity realizedVolAnnual volTarget : Decimal) :
    Decimal :=
  let realizedVol := max realizedVolAnnual volFloorAnnual
  let sizingMult := min (volTarget / realizedVol) volTargetCapLeverage
  targetWeight * agentEquity * sizingMult

theorem effectiveMaxGross_nonneg {agentId : AgentId} {settings : SizingSettings}
    {vixBucket : VixBucket} {drawdownBucket : DrawdownBucket} {emg : Decimal}
    (h : effectiveMaxGross agentId settings vixBucket drawdownBucket = .ok emg) : 0 ≤ emg := by
  unfold effectiveMaxGross at h
  split_ifs at h
  cases h
  exact le_max_right _ _

/-- **A weight is worth something negative only against the sign of the volatility target.** -/
theorem volTargetedPositionValue_nonneg {targetWeight agentEquity volTarget : Decimal}
    (hequity : 0 ≤ agentEquity) (h : 0 ≤ targetWeight * volTarget) (realizedVolAnnual : Decimal) :
    0 ≤ volTargetedPositionValue targetWeight agentEquity realizedVolAnnual volTarget := by
  unfold volTargetedPositionValue
  dsimp only
  have hfloor : 0 < max realizedVolAnnual volFloorAnnual :=
    lt_of_lt_of_le (by norm_num [volFloorAnnual]) (le_max_right _ _)
  have hcap : (0 : Decimal) ≤ volTargetCapLeverage := by norm_num [volTargetCapLeverage]
  rw [mul_right_comm]
  refine mul_nonneg ?_ hequity
  -- the multiplier has the sign of the target
  rcases le_total 0 volTarget with htarget | htarget
  · have hmult : 0 ≤ min (volTarget / max realizedVolAnnual volFloorAnnual)
        volTargetCapLeverage := le_min (div_nonneg htarget hfloor.le) hcap
    rcases htarget.eq_or_lt with hzero | hpos
    · rw [← hzero, zero_div, min_eq_left hcap, mul_zero]
    · exact mul_nonneg (nonneg_of_mul_nonneg_left h hpos) hmult
  · have hmult : min (volTarget / max realizedVolAnnual volFloorAnnual) volTargetCapLeverage ≤ 0 :=
      (min_le_left _ _).trans (div_nonpos_of_nonpos_of_nonneg htarget hfloor.le)
    rcases htarget.eq_or_lt with hzero | hneg
    · rw [hzero, zero_div, min_eq_left hcap, mul_zero]
    · exact mul_nonneg_of_nonpos_of_nonpos (nonpos_of_mul_nonneg_left h hneg) hmult

/-! ### Estimated slippage -/

inductive LiquidityTier
  | mega | large | mid | small | letf | crypto
  deriving DecidableEq, Repr

/-- In basis points, for one side of a trade. -/
def slippageBpsByTier : LiquidityTier → Decimal
  | .mega => 2
  | .large => 4
  | .mid => 8
  | .small => 18
  | .letf => 6
  | .crypto => 8

/-- The symbols of each tier. -/
def symbolsOfTier : LiquidityTier → List String
  | .mega => ["SPY", "QQQ", "AAPL", "NVDA", "MSFT", "GOOGL", "AMZN", "META"]
  | .large => ["IWM", "EFA", "EEM", "TLT", "IEF", "GLD", "USO", "VNQ", "AVGO", "ORCL", "CRM",
      "ADBE", "JPM", "BAC", "GS", "MS", "BLK", "V", "MA", "AXP", "SCHW", "UNH", "JNJ", "LLY",
      "PFE", "ABBV", "TMO", "MRK", "DHR", "ISRG", "TSLA", "HD", "MCD", "NKE", "LOW", "SBUX",
      "BKNG", "WMT", "COST", "PG", "KO", "PEP", "XOM", "CVX", "COP", "EOG", "GE", "BA", "CAT",
      "HON", "UPS", "RTX", "NFLX", "DIS", "VZ", "CMCSA", "NEE", "LIN", "PLD", "AMT"]
  | .mid => ["DDOG", "NET", "CRWD", "SNOW", "MDB", "PLTR", "SHOP", "COIN"]
  | .small => ["RBLX", "HIMS", "CELH", "SOFI", "AFRM", "RIVN", "PINS"]
  | .letf => ["TQQQ", "SQQQ", "UPRO", "SOXL"]
  | .crypto => ["BTCUSD", "ETHUSD", "SOLUSD"]

/-- The tier of a symbol. One that is not listed counts as large. -/
def liquidityTier (symbol : String) : LiquidityTier :=
  ([.mega, .large, .mid, .small, .letf, .crypto].find? fun tier =>
    symbol ∈ symbolsOfTier tier).getD .large

def estimatedSlippageBps (symbol : String) : Decimal := slippageBpsByTier (liquidityTier symbol)

end TradingPlatform
