import TradingPlatform.Agents.Llm
import TradingPlatform.Data.BarCache
import TradingPlatform.Execution.Broker

/-!
# The sleeve agents

Each of the three sleeve agents looks at a snapshot of the system, asks its model once, and
returns intents. It also gives a fingerprint of the inputs it keys on, so that a look at an
unchanged snapshot can be skipped: trends and holdings for Haiku, the leading names and holdings
for Sonnet, holdings, watchlist and directive for Opus.

An agent keeps its failures to itself. Whatever the call raises, `observe` returns no intents
(`TradingPlatform.Agents.observe`), as it does when the model answers that nothing is to be done.

How a number is written as text, and what a hash makes of a text, is left open
(`TradingPlatform.Agents.Format`).
-/

namespace TradingPlatform

/-- An order of the last days that the broker rejected. -/
structure RecentRejection where
  ts : String
  symbol : String
  side : String
  reason : String
  deriving DecidableEq

namespace Agents

/-- The snapshot of the system that an agent gets, its `AgentState` in the source. -/
structure AgentSnapshot where
  barsBySymbol : Dict String (List Bar)
  positions : List BrokerPosition
  killSwitchState : KillSwitchState
  effectiveMaxGross : Decimal
  managerDirective : String
  recentRejections : List RecentRejection

/-- How numbers are written, and the hash of Opus's inputs. -/
structure Format where
  str : Decimal → String
  /-- With so many digits after the point. -/
  quantized : ℕ → Decimal → String
  sha256 : List (String × String) → List String → String → String → String

/-! ### Signals -/

/-- The simple moving average of the last closes, if there are enough. -/
def sma (closes : List Decimal) (period : ℕ) : Option Decimal :=
  if closes.length < period then none
  else some ((closes.drop (closes.length - period)).sum / period)

/-- The change over so many days, if there is enough history. -/
def momentum (closes : List Decimal) (days : ℕ) : Option Decimal :=
  if closes.length < days + 1 then none
  else
    match closes[closes.length - (days + 1)]?, closes.getLast? with
    | some first, some last => if first = 0 then none else some (last / first - 1)
    | _, _ => none

/-- The change over a year that ends a month ago, if there is enough history. -/
def priceMomentum (closes : List Decimal) (lookback skip : ℕ) : Option Decimal :=
  if closes.length < lookback + skip then none
  else
    match closes[closes.length - (lookback + skip)]?, closes[closes.length - skip]? with
    | some entry, some exit => if entry = 0 then none else some (exit / entry - 1)
    | _, _ => none

/-- The closes of a symbol, by time. -/
def closes (barsBySymbol : Dict String (List Bar)) (symbol : String) : List Decimal :=
  (((barsBySymbol.get? symbol).getD []).mergeSort fun a b => a.timestamp ≤ b.timestamp).map
    Bar.close

/-- The last close is above the moving average. -/
def aboveSma (closes : List Decimal) (period : ℕ) : Bool :=
  match closes.getLast?, sma closes period with
  | some last, some sma => sma < last
  | _, _ => false

/-! ### Fingerprints -/

/-- One holding, as it is shown to the model. -/
def holding (fmt : Format) (p : BrokerPosition) : String := p.symbol ++ ":" ++ fmt.str p.qty

/-- The holdings, in an order of their own. -/
def held (fmt : Format) (positions : List BrokerPosition) : String :=
  ",".intercalate ((positions.map (holding fmt)).mergeSort fun a b => a ≤ b)

/-- Hundredths of leverage, rounded towards zero. -/
def emgBp (effectiveMaxGross : Decimal) : ℤ :=
  (effectiveMaxGross * 100).num.tdiv (effectiveMaxGross * 100).den

/-! ### Asking the model -/

/-- What one look at a snapshot meets outside: the prompt the agent makes of it, unless that
raises, how the requests to the model come out, and what the agent makes of the answer, unless
that raises. -/
structure Look where
  system : String
  context : Option String
  ts : Time
  attempts : ℕ → Attempt
  process : String → Option (List Intent)

/-- The answer a look obtained from the model, and the intents it returned, unless it raised. -/
structure Observed where
  response : Option String
  intents : Option (List Intent)

/-- One look: the call of the model, and what comes of it. A call that raises is as good as an
answer without intents. -/
def observe (client : LLMClient) (agentId : AgentId) (callType : String) (maxTokens : ℕ)
    (budget : BudgetLedger) (state : AgentSnapshot) (look : Look) : BudgetLedger × Observed :=
  if state.killSwitchState = .drawdownLiquidate then (budget, ⟨none, some []⟩)
  else
    match look.context with
    | none => (budget, ⟨none, none⟩)
    | some context =>
      let request := ⟨look.system, context, agentId, callType, maxTokens⟩
      match client.call budget request look.ts look.attempts with
      | (budget, .error _) => (budget, ⟨none, some []⟩)
      | (budget, .ok text) => (budget, ⟨some text, look.process text⟩)

/-- A look that the model answers, or that raises before the model is asked. -/
def Answers (client : LLMClient) (agentId : AgentId) (callType : String) (maxTokens : ℕ)
    (budget : BudgetLedger) (state : AgentSnapshot) (look : Look) : Prop :=
  state.killSwitchState ≠ .drawdownLiquidate ∧ ∀ context ∈ look.context,
    client.affords budget ⟨look.system, context, agentId, callType, maxTokens⟩ = true ∧
      (client.answer look.attempts).isSome = true

/-- **A look that returns without an answer** is one that the model does not answer. -/
theorem answers_iff (client : LLMClient) (agentId : AgentId) (callType : String)
    (maxTokens : ℕ) (budget : BudgetLedger) (state : AgentSnapshot) (look : Look) :
    Answers client agentId callType maxTokens budget state look ↔
      (observe client agentId callType maxTokens budget state look).2.intents = none ∨
        (observe client agentId callType maxTokens budget state look).2.response.isSome = true := by
  unfold Answers observe
  by_cases hkill : state.killSwitchState = .drawdownLiquidate
  · simp [hkill]
  rw [if_neg hkill]
  cases look.context with
  | none => simp [hkill]
  | some context =>
    dsimp only
    unfold LLMClient.call
    cases haffords : client.affords budget
        ⟨look.system, context, agentId, callType, maxTokens⟩ <;>
      cases hanswer : client.answer look.attempts <;> simp [hkill, haffords]

end Agents

namespace HaikuAgent

open Agents

def equityUniverse : List String :=
  ["SPY", "QQQ", "IWM", "EFA", "EEM", "TLT", "IEF", "GLD", "USO", "VNQ"]

def cryptoUniverse : List String := ["BTCUSD", "ETHUSD", "SOLUSD"]

def smaPeriodEquity : ℕ := 210

def smaPeriodCrypto : ℕ := 50

def momentumDays : ℕ := 14

def equityInTrend (barsBySymbol : Dict String (List Bar)) (symbol : String) : Bool :=
  aboveSma (closes barsBySymbol symbol) smaPeriodEquity

def cryptoInTrend (barsBySymbol : Dict String (List Bar)) (symbol : String) : Bool :=
  aboveSma (closes barsBySymbol symbol) smaPeriodCrypto &&
    match momentum (closes barsBySymbol symbol) momentumDays with
    | none => false
    | some mom => 0 < mom

/-- Trend bits, holdings, leverage and rejections. -/
def signalFingerprint (fmt : Format) (state : AgentSnapshot) : Option String :=
  let bit (b : Bool) : String := if b then "1" else "0"
  let eqBits := String.join (equityUniverse.map fun s => bit (equityInTrend state.barsBySymbol s))
  let crBits := String.join (cryptoUniverse.map fun s => bit (cryptoInTrend state.barsBySymbol s))
  let rejKey := "|".intercalate
    ((state.recentRejections.map fun r => r.ts ++ ":" ++ r.symbol ++ ":" ++ r.reason).mergeSort
      fun a b => a ≤ b)
  some ("eq=" ++ eqBits ++ "|cr=" ++ crBits ++ "|held=" ++ held fmt state.positions ++
    "|emg=" ++ toString (emgBp state.effectiveMaxGross) ++ "|rej=" ++ rejKey)

def observe (llm : LLMClient) : BudgetLedger → AgentSnapshot → Look → BudgetLedger × Observed :=
  Agents.observe llm .haiku "trend_observe" 1024

def Answers (llm : LLMClient) : BudgetLedger → AgentSnapshot → Look → Prop :=
  Agents.Answers llm .haiku "trend_observe" 1024

end HaikuAgent

namespace SonnetAgent

open Agents

def equityUniverse : List String :=
  ["AAPL", "NVDA", "MSFT", "GOOGL", "AMZN", "META", "AVGO", "ORCL", "CRM", "ADBE",
    "JPM", "BAC", "GS", "MS", "BLK", "V", "MA", "AXP", "SCHW",
    "UNH", "JNJ", "LLY", "PFE", "ABBV", "TMO", "MRK", "DHR", "ISRG",
    "TSLA", "HD", "MCD", "NKE", "LOW", "SBUX", "BKNG",
    "WMT", "COST", "PG", "KO", "PEP",
    "XOM", "CVX", "COP", "EOG",
    "GE", "BA", "CAT", "HON", "UPS", "RTX",
    "NFLX", "DIS", "VZ", "CMCSA",
    "NEE", "LIN", "PLD", "AMT"]

def growthSliceUniverse : List String :=
  ["RBLX", "HIMS", "CELH", "SOFI", "PLTR", "DDOG", "NET", "CRWD",
    "SNOW", "MDB", "AFRM", "SHOP", "COIN", "RIVN", "PINS"]

def tradable : List String := equityUniverse ++ growthSliceUniverse

def momentumLookback : ℕ := 252

def momentumSkip : ℕ := 21

/-- The momentum of each tradable symbol that has enough history. -/
def factorSignals (barsBySymbol : Dict String (List Bar)) : List (String × Decimal) :=
  barsBySymbol.keys.filterMap fun symbol =>
    if symbol ∈ tradable then
      (priceMomentum (closes barsBySymbol symbol) momentumLookback momentumSkip).map fun mom =>
        (symbol, mom)
    else none

/-- The ten leading names, holdings and leverage. -/
def signalFingerprint (fmt : Format) (state : AgentSnapshot) : Option String :=
  let ranked := (factorSignals state.barsBySymbol).mergeSort fun a b => b.2 ≤ a.2
  let top10 := ",".intercalate ((ranked.take 10).map Prod.fst)
  some ("top10=" ++ top10 ++ "|held=" ++ held fmt state.positions ++
    "|emg=" ++ toString (emgBp state.effectiveMaxGross))

def observe (llm : LLMClient) : BudgetLedger → AgentSnapshot → Look → BudgetLedger × Observed :=
  Agents.observe llm .sonnet "factor_observe" 1536

def Answers (llm : LLMClient) : BudgetLedger → AgentSnapshot → Look → Prop :=
  Agents.Answers llm .sonnet "factor_observe" 1536

end SonnetAgent

namespace OpusAgent

open Agents

def targetHoldings : ℕ := 5

/-- A hash of holdings, watchlist, leverage and directive; none while the book is being built. -/
def signalFingerprint (fmt : Format) (watchlist : List String) (state : AgentSnapshot) :
    Option String :=
  if state.positions.length < targetHoldings then none
  else
    let holdings :=
      (state.positions.map fun p => (p.symbol.toUpper, fmt.quantized 2 p.qty)).mergeSort
      fun a b => toLex a ≤ toLex b
    some (fmt.sha256 holdings (watchlist.mergeSort fun a b => a ≤ b)
      (fmt.quantized 4 state.effectiveMaxGross) state.managerDirective.trimAscii.toString)

/-- While the book is being built, the cheaper client is asked. -/
def observe (llm llmLite : LLMClient) (budget : BudgetLedger) (state : AgentSnapshot)
    (look : Look) : BudgetLedger × Observed :=
  if state.positions.length < targetHoldings then
    Agents.observe llmLite .opus "daily_check_lite" 2048 budget state look
  else Agents.observe llm .opus "daily_check" 2048 budget state look

def Answers (llm llmLite : LLMClient) (budget : BudgetLedger) (state : AgentSnapshot)
    (look : Look) : Prop :=
  if state.positions.length < targetHoldings then
    Agents.Answers llmLite .opus "daily_check_lite" 2048 budget state look
  else Agents.Answers llm .opus "daily_check" 2048 budget state look

end OpusAgent

/-- One of the three, with its client or clients. -/
inductive SleeveAgent
  | haiku (llm : LLMClient)
  | sonnet (llm : LLMClient)
  | opus (llm llmLite : LLMClient)

namespace SleeveAgent

def agentId : SleeveAgent → AgentId
  | .haiku _ => .haiku
  | .sonnet _ => .sonnet
  | .opus _ _ => .opus

theorem agentId_ne_manager (agent : SleeveAgent) : agent.agentId ≠ .manager := by
  cases agent <;> exact AgentId.noConfusion

/-- The watchlist is Opus's, kept in its memory. -/
def signalFingerprint (fmt : Agents.Format) (watchlist : List String)
    (state : Agents.AgentSnapshot) : SleeveAgent → Option String
  | .haiku _ => HaikuAgent.signalFingerprint fmt state
  | .sonnet _ => SonnetAgent.signalFingerprint fmt state
  | .opus _ _ => OpusAgent.signalFingerprint fmt watchlist state

def observe : SleeveAgent → BudgetLedger → Agents.AgentSnapshot → Agents.Look →
    BudgetLedger × Agents.Observed
  | .haiku llm => HaikuAgent.observe llm
  | .sonnet llm => SonnetAgent.observe llm
  | .opus llm llmLite => OpusAgent.observe llm llmLite

def Answers : SleeveAgent → BudgetLedger → Agents.AgentSnapshot → Agents.Look → Prop
  | .haiku llm => HaikuAgent.Answers llm
  | .sonnet llm => SonnetAgent.Answers llm
  | .opus llm llmLite => OpusAgent.Answers llm llmLite

theorem answers_iff (agent : SleeveAgent) (budget : BudgetLedger) (state : Agents.AgentSnapshot)
    (look : Agents.Look) :
    agent.Answers budget state look ↔
      (agent.observe budget state look).2.intents = none ∨
        (agent.observe budget state look).2.response.isSome = true := by
  cases agent with
  | haiku llm => exact Agents.answers_iff ..
  | sonnet llm => exact Agents.answers_iff ..
  | opus llm llmLite =>
    change OpusAgent.Answers .. ↔ (OpusAgent.observe ..).2.intents = none ∨
      (OpusAgent.observe ..).2.response.isSome = true
    unfold OpusAgent.Answers OpusAgent.observe
    split_ifs
    · exact Agents.answers_iff ..
    · exact Agents.answers_iff ..

end SleeveAgent

end TradingPlatform
