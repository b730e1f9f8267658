import TradingPlatform.Execution.Budget

/-!
# The language model client

A client prices a call from the length of its prompt and refuses it if that is more than the
budget has left; otherwise it calls the model, with retries, and records what the answer's
tokens cost. The three are separate steps, with the model's whole answer between the check and
the record.

`TradingPlatform.LLMClient.call` is the three steps in a row. A call on its own keeps the
recorded total within the limit if it costs no more than it was priced at
(`TradingPlatform.LLMClient.total_call_le`).
-/

namespace TradingPlatform

/-- The price of a thousand tokens of each kind, in dollars. -/
structure Pricing where
  input : Decimal
  cacheWrite : Decimal
  cacheHit : Decimal
  output : Decimal
  deriving DecidableEq

def haikuModel : String := "claude-haiku-4-5-20251001"

def sonnetModel : String := "claude-sonnet-4-6"

def opusModel : String := "claude-opus-4-7"

def haikuPricing : Pricing := ⟨80 / 100000, 100 / 100000, 8 / 100000, 400 / 100000⟩

/-- The prices of a model, Haiku's for an unknown one. -/
def pricing (model : String) : Pricing :=
  if model = haikuModel then haikuPricing
  else if model = sonnetModel then ⟨300 / 100000, 375 / 100000, 30 / 100000, 1500 / 100000⟩
  else if model = opusModel then ⟨1500 / 100000, 1875 / 100000, 150 / 100000, 7500 / 100000⟩
  else haikuPricing

/-- The tokens an answer is billed for. -/
structure Usage where
  inputTokens : ℕ
  outputTokens : ℕ
  cacheCreationInputTokens : ℕ
  cacheReadInputTokens : ℕ
  deriving DecidableEq

def cost (model : String) (usage : Usage) : Decimal :=
  (usage.inputTokens * (pricing model).input +
    usage.cacheCreationInputTokens * (pricing model).cacheWrite +
    usage.cacheReadInputTokens * (pricing model).cacheHit +
    usage.outputTokens * (pricing model).output) / 1000

/-- An answer; the text is missing if the content is not as expected. -/
structure LlmResponse where
  text : Option String
  usage : Usage
  deriving DecidableEq

/-- What one request to the model comes to. -/
inductive Attempt
  | response (r : LlmResponse)
  | rateLimit
  | apiStatus (statusCode : Option ℕ)
  /-- A timeout or a broken connection. -/
  | connection
  /-- Any other exception. -/
  | other
  deriving DecidableEq

/-- Seconds to wait after an overloaded server. -/
def backoff529Secs : List Decimal := [1, 4, 16]

/-- The wait before the next attempt, without its jitter. -/
def Attempt.backoff (attempt : ℕ) : Attempt → Decimal
  | .rateLimit => 2 ^ attempt
  | .apiStatus statusCode => if statusCode = some 529 then backoff529Secs.getD attempt 1 else 1
  | .connection => backoff529Secs.getD attempt 16
  | .response _ | .other => 0

structure LLMClient where
  model : String
  maxRetries : ℕ
  deriving DecidableEq

structure LlmRequest where
  system : String
  user : String
  agentId : AgentId
  callType : String
  maxTokens : ℕ
  deriving DecidableEq

namespace LLMClient

/-- The tokens a request is priced at: four characters each, and every token it may return. -/
def estUsage (request : LlmRequest) : Usage where
  inputTokens := (request.system.length + request.user.length) / 4
  outputTokens := request.maxTokens
  cacheCreationInputTokens := 0
  cacheReadInputTokens := 0

def estCost (client : LLMClient) (request : LlmRequest) : Decimal :=
  cost client.model (estUsage request)

/-- The budget gate of a call. -/
def affords (client : LLMClient) (budget : BudgetLedger) (request : LlmRequest) : Bool :=
  client.estCost request ≤ budget.remaining

/-- Try the request up to `left` more times: the response, if one comes, and the waits. The
last failure is raised, and a failure that is not one of the retried kinds is raised at once. -/
def callWithRetry (attempts : ℕ → Attempt) : (attempt left : ℕ) → Option LlmResponse × List Decimal
  | _, 0 => (none, [])
  | attempt, left + 1 =>
    match attempts attempt with
    | .response r => (some r, [])
    | .other => (none, [])
    | failure =>
      if left = 0 then (none, [])
      else
        let (r, waits) := callWithRetry attempts (attempt + 1) left
        (r, failure.backoff attempt :: waits)

/-- The text and the tokens of the answer, if the request gets one. -/
def answer (client : LLMClient) (attempts : ℕ → Attempt) : Option (String × Usage) :=
  (callWithRetry attempts 0 client.maxRetries).1.bind fun r =>
    r.text.map fun text => (text, r.usage)

/-- Why a call raises. -/
inductive CallError
  | budgetExhausted
  | api
  deriving DecidableEq

/-- Record what an answer cost. The instant was read before the request. -/
def recordAnswer (client : LLMClient) (budget : BudgetLedger) (request : LlmRequest) (ts : Time)
    (usage : Usage) : BudgetLedger :=
  budget.recordSpend request.agentId.value (cost client.model usage) request.callType ts

/-- A call, with nothing else going on. -/
def call (client : LLMClient) (budget : BudgetLedger) (request : LlmRequest) (ts : Time)
    (attempts : ℕ → Attempt) : BudgetLedger × Except CallError String :=
  if client.affords budget request then
    match client.answer attempts with
    | none => (budget, .error .api)
    | some (text, usage) => (client.recordAnswer budget request ts usage, .ok text)
  else (budget, .error .budgetExhausted)

end LLMClient

/-! ### What a call costs -/

theorem pricing_nonneg (model : String) :
    0 ≤ (pricing model).input ∧ 0 ≤ (pricing model).cacheWrite ∧ 0 ≤ (pricing model).cacheHit ∧
      0 ≤ (pricing model).output := by
  unfold pricing haikuPricing
  split_ifs <;> norm_num

theorem cost_nonneg (model : String) (usage : Usage) : 0 ≤ cost model usage := by
  obtain ⟨hi, hw, hh, ho⟩ := pricing_nonneg model
  unfold cost
  positivity

namespace BudgetLedger

/-- What the ledger holds against a date: nothing, if it holds another one. -/
def spentOn (ledger : BudgetLedger) (day : Date) : Decimal :=
  if ledger.today = some day then ledger.total else 0

theorem total_ensureDate (ledger : BudgetLedger) (day : Date) :
    (ledger.ensureDate day).total = ledger.spentOn day := by
  unfold ensureDate spentOn
  by_cases h : ledger.today = some day <;> simp [h]

theorem today_ensureDate (ledger : BudgetLedger) (day : Date) :
    (ledger.ensureDate day).today = some day := by
  unfold ensureDate
  by_cases h : ledger.today = some day <;> simp [h]

section RecordSpend

variable {ledger : BudgetLedger} {agentId : String} {costUsd : Decimal} {callType : String}
  {ts : Time}

theorem total_recordSpend_eq :
    (ledger.recordSpend agentId costUsd callType ts).total = ledger.spentOn ts.date + costUsd := by
  rw [total_recordSpend, total_ensureDate]

theorem spentOn_recordSpend :
    (ledger.recordSpend agentId costUsd callType ts).spentOn ts.date =
      ledger.spentOn ts.date + costUsd :=
  (if_pos (ledger.today_ensureDate ts.date)).trans total_recordSpend_eq

end RecordSpend

theorem spentOn_le {ledger : BudgetLedger} (h : 0 ≤ ledger.total) (day : Date) :
    ledger.spentOn day ≤ ledger.total := by
  unfold spentOn
  split_ifs
  · exact le_rfl
  · exact h

end BudgetLedger

/-- **A call on its own keeps to the limit** if it costs no more than it was priced at. -/
theorem LLMClient.total_call_le {client : LLMClient} {budget : BudgetLedger}
    {request : LlmRequest} {ts : Time} {attempts : ℕ → Attempt} (h₀ : 0 ≤ budget.total)
    (hlimit : budget.total ≤ budget.limit)
    (hcost : ∀ text usage, client.answer attempts = some (text, usage) →
      cost client.model usage ≤ client.estCost request) :
    (client.call budget request ts attempts).1.total ≤ budget.limit := by
  unfold call
  by_cases ha : client.affords budget request = true
  · rw [if_pos ha]
    cases hr : client.answer attempts with
    | none => exact hlimit
    | some r =>
      obtain ⟨text, usage⟩ := r
      have hest : client.estCost request ≤ max (budget.limit - budget.total) 0 := by
        simpa [affords, BudgetLedger.remaining] using ha
      have hmax : max (budget.limit - budget.total) 0 = budget.limit - budget.total :=
        max_eq_left (sub_nonneg.mpr hlimit)
      have hspent := BudgetLedger.spentOn_le h₀ ts.date
      have hc := hcost text usage hr
      change (client.recordAnswer budget request ts usage).total ≤ _
      rw [recordAnswer, BudgetLedger.total_recordSpend_eq]
      linarith
  · rw [if_neg ha]
    exact hlimit

end TradingPlatform
