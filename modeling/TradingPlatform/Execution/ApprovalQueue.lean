import TradingPlatform.Core.MarketHours
import TradingPlatform.Dict
import TradingPlatform.Run

/-!
# Intents that wait for approval

An intent that a human has to approve is put into a queue. It leaves the queue for the system when
it is approved, if that is in time, and never if it is rejected, by the human or for being too late.

A decision is final for the intent as it was put in. An intent that is put in again under its
identifier waits again, whatever was decided about it before. So what there is to say is said of the
history of an identifier (`TradingPlatform.ApprovalDesk.history_run`): between two decisions about
it there is another arrival, and what waits is what has arrived last and was not decided about.
-/

namespace TradingPlatform

/-- The source's `PendingIntent`. -/
structure PendingIntent where
  intent : Intent
  receivedAt : Time
  expiresAt : Time
  approved : Bool := false
  rejected : Bool := false
  deriving DecidableEq

namespace PendingIntent

def isPending (p : PendingIntent) : Bool := !p.approved && !p.rejected

/-- Whether it was rejected: by the human, or because its window has closed. -/
def isExpired (p : PendingIntent) : Bool := p.rejected && !p.approved

end PendingIntent

/-- The source's `ApprovalQueue`. -/
structure ApprovalQueue where
  queue : Dict IntentId PendingIntent
  expiryHours : ℤ

/-- How long an intent waits, at most. -/
def approvalExpiryHours : ℤ := 4

namespace ApprovalQueue

def new (expiryHours : ℤ) : ApprovalQueue := ⟨.empty, expiryHours⟩

/-- The entry of an intent that arrives. -/
def arrival (q : ApprovalQueue) (intent : Intent) (ts : Time) : PendingIntent where
  intent := intent
  receivedAt := ts
  expiresAt := ts + q.expiryHours * microsPerHour

/-- It takes the place of an entry of its identifier. -/
def enqueue (q : ApprovalQueue) (intent : Intent) (ts : Time) : ApprovalQueue × PendingIntent :=
  ({ q with queue := q.queue.set intent.id (q.arrival intent ts) }, q.arrival intent ts)

def pending (q : ApprovalQueue) : List PendingIntent := q.queue.values.filter (·.isPending)

def markApproved (q : ApprovalQueue) (id : IntentId) : ApprovalQueue :=
  { q with queue := q.queue.modify id fun p => { p with approved := true } }

def markRejected (q : ApprovalQueue) (id : IntentId) : ApprovalQueue :=
  { q with queue := q.queue.modify id fun p => { p with rejected := true } }

/-- The entry of an identifier, if it is waiting. -/
def waiting? (q : ApprovalQueue) (id : IntentId) : Option PendingIntent :=
  (q.queue.get? id).filter (·.isPending)

/-- The queue, and the intent if it is approved. -/
def approve (q : ApprovalQueue) (id : IntentId) (ts : Time) : ApprovalQueue × Option Intent :=
  match q.waiting? id with
  | none => (q, none)
  | some p =>
    if p.expiresAt < ts then (q.markRejected id, none) else (q.markApproved id, some p.intent)

/-- The queue, and whether something was rejected. -/
def reject (q : ApprovalQueue) (id : IntentId) : ApprovalQueue × Bool :=
  match q.waiting? id with
  | none => (q, false)
  | some _ => (q.markRejected id, true)

/-- An entry after the time is checked. -/
def expire (ts : Time) (p : PendingIntent) : PendingIntent :=
  if p.isPending ∧ p.expiresAt < ts then { p with rejected := true } else p

/-- The queue, and the entries that are rejected for being too late, as they are then. -/
def expireOld (q : ApprovalQueue) (ts : Time) : ApprovalQueue × List PendingIntent :=
  ({ q with queue := q.queue.mapValues (expire ts) },
    (q.pending.filter fun p => p.expiresAt < ts).map (expire ts))

def all (q : ApprovalQueue) : List PendingIntent := q.queue.values

end ApprovalQueue

/-! ### Histories -/

/-- What happens to an intent. -/
inductive ApprovalEvent
  | enqueued (p : PendingIntent)
  | approved (intent : Intent) (ts : Time)
  | rejected (id : IntentId)
  deriving DecidableEq

namespace ApprovalEvent

def id : ApprovalEvent → IntentId
  | enqueued p => p.intent.id
  | approved intent _ => intent.id
  | rejected id => id

/-- **What may come after what.** An intent is approved as it arrived, and in time; and nothing is
decided twice. -/
def Follows : ApprovalEvent → ApprovalEvent → Prop
  | _, enqueued _ => True
  | enqueued p, approved intent ts => intent = p.intent ∧ ts ≤ p.expiresAt
  | enqueued _, rejected _ => True
  | _, _ => False

/-- The entry that the last event of an identifier leaves. -/
def Leaves : Option ApprovalEvent → Option PendingIntent → Prop
  | none, entry => entry = none
  | some (enqueued p), entry => entry = some p ∧ p.isPending = true
  | some (approved intent _), entry =>
    ∃ p, entry = some p ∧ p.intent = intent ∧ p.approved = true ∧ p.rejected = false
  | some (rejected _), entry => ∃ p, entry = some p ∧ p.approved = false ∧ p.rejected = true

end ApprovalEvent

/-- What may be asked of the queue. -/
inductive ApprovalOp
  | enqueue (intent : Intent) (ts : Time)
  | approve (id : IntentId) (ts : Time)
  | reject (id : IntentId)
  | expireOld (ts : Time)
  deriving DecidableEq

/-- The queue, and what has happened. -/
structure ApprovalDesk where
  queue : ApprovalQueue
  log : List ApprovalEvent

namespace ApprovalDesk

def new (expiryHours : ℤ) : ApprovalDesk := ⟨.new expiryHours, []⟩

/-- What an approval comes to: an approval, a rejection, or nothing. -/
def approvalEvents (q : ApprovalQueue) (id : IntentId) (ts : Time) : List ApprovalEvent :=
  match (q.approve id ts).2 with
  | some intent => [.approved intent ts]
  | none => if (q.waiting? id).isSome then [.rejected id] else []

def step (s : ApprovalDesk) : ApprovalOp → ApprovalDesk
  | .enqueue intent ts =>
    let (queue, p) := s.queue.enqueue intent ts
    ⟨queue, s.log ++ [.enqueued p]⟩
  | .approve id ts => ⟨(s.queue.approve id ts).1, s.log ++ approvalEvents s.queue id ts⟩
  | .reject id =>
    let (queue, found) := s.queue.reject id
    ⟨queue, s.log ++ if found then [.rejected id] else []⟩
  | .expireOld ts =>
    let (queue, expired) := s.queue.expireOld ts
    ⟨queue, s.log ++ expired.map fun p => .rejected p.intent.id⟩

/-- The events of an identifier, oldest first. -/
def historyOf (s : ApprovalDesk) (id : IntentId) : List ApprovalEvent :=
  s.log.filter fun e => e.id = id

end ApprovalDesk

/-! ### What a step does to one identifier -/

namespace ApprovalQueue

/-- Every entry is under the identifier of its intent. -/
def Keyed (q : ApprovalQueue) : Prop := ∀ id p, q.queue.get? id = some p → p.intent.id = id

variable {q : ApprovalQueue} {id : IntentId} {p : PendingIntent}

theorem waiting?_eq_some : q.waiting? id = some p ↔
    q.queue.get? id = some p ∧ p.isPending = true := Option.filter_eq_some_iff

theorem Keyed.values_filter (hq : q.Keyed) (id : IntentId) :
    (q.queue.values.filter fun p => p.intent.id = id) = (q.queue.get? id).toList := by
  have hentries : (q.queue.entries.filter ((fun p : PendingIntent => decide (p.intent.id = id)) ∘
      Prod.snd)) = q.queue.entries.filter fun e => e.1 = id := by
    refine List.filter_congr fun e he => ?_
    have hkey := hq e.1 e.2 (Dict.get?_eq_some_iff.mpr he)
    simp [hkey]
  rw [Dict.values, List.filter_map, hentries, Dict.filter_key_eq, List.map_map]
  exact List.map_id _

theorem intent_expire (ts : Time) (p : PendingIntent) : (expire ts p).intent = p.intent := by
  rw [expire]
  split_ifs
  · rfl
  · rfl

/-- The rejections of one identifier when the time is checked. -/
theorem Keyed.expired_filter (hq : q.Keyed) (ts : Time) (id : IntentId) :
    ((q.expireOld ts).2.map fun p => ApprovalEvent.rejected p.intent.id).filter
        (fun e => e.id = id) =
      ((q.waiting? id).filter fun p => p.expiresAt < ts).toList.map fun _ => .rejected id := by
  have hid : ((fun e : ApprovalEvent => decide (e.id = id)) ∘
      (fun p : PendingIntent => ApprovalEvent.rejected p.intent.id) ∘ expire ts) =
        fun p => decide (p.intent.id = id) := by
    funext p
    simp [ApprovalEvent.id, intent_expire]
  have hlate : (q.pending.filter fun p => p.expiresAt < ts).filter (fun p => p.intent.id = id) =
      ((q.waiting? id).filter fun p => p.expiresAt < ts).toList := by
    have hsplit : (q.pending.filter fun p => p.expiresAt < ts).filter (fun p => p.intent.id = id) =
        (((q.queue.values.filter fun p => p.intent.id = id).filter (·.isPending)).filter
          fun p => p.expiresAt < ts) := by
      simp only [pending, List.filter_filter]
      refine List.filter_congr fun p _ => ?_
      ac_rfl
    rw [hsplit, hq.values_filter, waiting?]
    rcases q.queue.get? id with _ | p
    · rfl
    · rcases hp : p.isPending with _ | _
      · simp [Option.filter, hp]
      · by_cases hts : p.expiresAt < ts
        · simp [Option.filter, hp, hts]
        · simp [Option.filter, hp, hts]
  show (((q.pending.filter fun p => p.expiresAt < ts).map (expire ts)).map _).filter _ = _
  rw [List.map_map, List.filter_map, hid, hlate]
  refine List.map_congr_left fun p hp => ?_
  have hwaiting := (Option.filter_eq_some_iff.mp (Option.mem_toList.mp hp)).1
  show ApprovalEvent.rejected (expire ts p).intent.id = _
  rw [intent_expire, hq id p (waiting?_eq_some.mp hwaiting).1]

end ApprovalQueue

namespace ApprovalEvent

/-- An event that may come after the last one of its identifier. -/
def Allowed : Option ApprovalEvent → ApprovalEvent → Prop
  | none, e => ∃ p, e = enqueued p
  | some last, e => Follows last e

/-- The history of an identifier, and its entry. -/
structure Sound (history : List ApprovalEvent) (entry : Option PendingIntent) : Prop where
  arrives : ∀ e ∈ history.head?, ∃ p, e = enqueued p
  chain : history.IsChain Follows
  leaves : Leaves history.getLast? entry

theorem sound_nil : Sound [] none := ⟨by simp, .nil, rfl⟩

theorem Sound.push {history : List ApprovalEvent} {entry entry' : Option PendingIntent}
    (h : Sound history entry) {e : ApprovalEvent} (he : Allowed history.getLast? e)
    (hleaves : Leaves (some e) entry') : Sound (history ++ [e]) entry' where
  arrives := by
    rcases history with _ | ⟨e₀, history⟩
    · intro e' he'
      obtain rfl : e = e' := Option.some.inj he'
      exact he
    · exact h.arrives
  chain := by
    refine List.isChain_append.mpr ⟨h.chain, .singleton _, fun last hlast e' he' => ?_⟩
    obtain rfl : e = e' := Option.some.inj he'
    rw [hlast] at he
    exact he
  leaves := by
    rw [List.getLast?_concat]
    exact hleaves

/-- What waits has arrived last. -/
theorem Sound.getLast?_of_pending {history : List ApprovalEvent} {p : PendingIntent}
    (h : Sound history (some p)) (hp : p.isPending = true) :
    history.getLast? = some (.enqueued p) := by
  have hleaves := h.leaves
  rw [PendingIntent.isPending] at hp
  rcases hlast : history.getLast? with _ | (p' | ⟨intent, ts⟩ | id)
  all_goals rw [hlast] at hleaves
  · cases hleaves
  · obtain ⟨hp', -⟩ := hleaves
    rw [Option.some.inj hp']
  · obtain ⟨p', hp', -, happroved, -⟩ := hleaves
    obtain rfl := Option.some.inj hp'
    simp [happroved] at hp
  · obtain ⟨p', hp', -, hrejected⟩ := hleaves
    obtain rfl := Option.some.inj hp'
    simp [hrejected] at hp

end ApprovalEvent

/-! ### Runs -/

namespace ApprovalDesk

/-- Every identifier has a sound history, for its entry. -/
structure Inv (s : ApprovalDesk) : Prop where
  keyed : s.queue.Keyed
  sound : ∀ id, ApprovalEvent.Sound (s.historyOf id) (s.queue.queue.get? id)

variable {s : ApprovalDesk}

/-- A step that adds at most one event about each identifier. -/
theorem Inv.of_events (hs : s.Inv) {queue : ApprovalQueue} {events : List ApprovalEvent}
    (hkeyed : queue.Keyed)
    (h : ∀ id, (events.filter fun e => e.id = id) = [] ∧
        queue.queue.get? id = s.queue.queue.get? id ∨
      ∃ e, (events.filter fun e => e.id = id) = [e] ∧
        ApprovalEvent.Allowed (s.historyOf id).getLast? e ∧
        ApprovalEvent.Leaves (some e) (queue.queue.get? id)) :
    Inv ⟨queue, s.log ++ events⟩ where
  keyed := hkeyed
  sound id := by
    have hhistory : historyOf ⟨queue, s.log ++ events⟩ id =
        s.historyOf id ++ events.filter fun e => e.id = id := List.filter_append ..
    rw [hhistory]
    rcases h id with ⟨hnone, hsame⟩ | ⟨e, hone, hallowed, hleaves⟩
    · rw [hnone, List.append_nil, hsame]
      exact hs.sound id
    · rw [hone]
      exact (hs.sound id).push hallowed hleaves

/-- Nothing happens. -/
theorem Inv.same (hs : s.Inv) : Inv ⟨s.queue, s.log ++ []⟩ := by
  rw [List.append_nil]
  exact hs

/-- A step that decides about one identifier, which is waiting. -/
theorem Inv.settle (hs : s.Inv) {id : IntentId} {p p' : PendingIntent}
    (hp : s.queue.waiting? id = some p) (f : PendingIntent → PendingIntent) (hf : f p = p')
    (hintent : p'.intent = p.intent) {e : ApprovalEvent} (hid : e.id = id)
    (hfollows : ApprovalEvent.Follows (.enqueued p) e)
    (hleaves : ApprovalEvent.Leaves (some e) (some p')) :
    Inv ⟨{ s.queue with queue := s.queue.queue.modify id f }, s.log ++ [e]⟩ := by
  obtain ⟨hget, hpending⟩ := ApprovalQueue.waiting?_eq_some.mp hp
  have hmodify : ∀ k, (s.queue.queue.modify id f).get? k =
      if k = id then some p' else s.queue.queue.get? k := by
    intro k
    rw [Dict.get?_modify]
    split_ifs with hk
    · rw [hk, hget, Option.map_some, hf]
    · rfl
  refine hs.of_events ?_ fun k => ?_
  · intro k p₀ hp₀
    rw [hmodify] at hp₀
    split_ifs at hp₀ with hk
    · obtain rfl := Option.some.inj hp₀
      rw [hintent, hk]
      exact hs.keyed id p hget
    · exact hs.keyed k p₀ hp₀
  · rw [hmodify]
    by_cases hk : k = id
    · rw [if_pos hk]
      refine .inr ⟨e, by simp [hid, hk], ?_, hleaves⟩
      have hlast := ((hget ▸ hs.sound id :) : ApprovalEvent.Sound _ (some p)).getLast?_of_pending
        hpending
      rw [hk, hlast]
      exact hfollows
    · rw [if_neg hk]
      exact .inl ⟨by simp [hid, Ne.symm hk], rfl⟩

/-- A rejection of what is waiting. -/
theorem Inv.markRejected (hs : s.Inv) {id : IntentId} {p : PendingIntent}
    (hp : s.queue.waiting? id = some p) :
    Inv ⟨s.queue.markRejected id, s.log ++ [.rejected id]⟩ := by
  have hpending := (ApprovalQueue.waiting?_eq_some.mp hp).2
  have happroved : p.approved = false := by
    simp only [PendingIntent.isPending, Bool.and_eq_true, Bool.not_eq_true'] at hpending
    exact hpending.1
  exact hs.settle hp _ rfl rfl rfl trivial ⟨_, rfl, happroved, rfl⟩

/-- Two entries of an identifier are the entry before and after the time is checked. -/
theorem Inv.expireOld (hs : s.Inv) (ts : Time) : (s.step (.expireOld ts)).Inv := by
  have hget : ∀ k, (s.queue.expireOld ts).1.queue.get? k =
      (s.queue.queue.get? k).map (ApprovalQueue.expire ts) := fun k => Dict.get?_mapValues ..
  show Inv ⟨(s.queue.expireOld ts).1,
    s.log ++ (s.queue.expireOld ts).2.map fun p => .rejected p.intent.id⟩
  refine hs.of_events ?_ fun k => ?_
  · intro k p hp
    rw [hget] at hp
    obtain ⟨p₀, hp₀, rfl⟩ := Option.map_eq_some_iff.mp hp
    rw [ApprovalQueue.intent_expire]
    exact hs.keyed k p₀ hp₀
  · rw [hs.keyed.expired_filter, hget]
    rcases hwaiting : (s.queue.waiting? k).filter fun p => p.expiresAt < ts with _ | p
    · -- nothing of this identifier is late
      refine .inl ⟨by rw [hwaiting]; rfl, ?_⟩
      rcases hp : s.queue.queue.get? k with _ | p
      · rfl
      · rw [ApprovalQueue.waiting?, hp] at hwaiting
        rw [Option.map_some, ApprovalQueue.expire, if_neg]
        rintro ⟨hpending, hlate⟩
        simp [Option.filter, hpending, hlate] at hwaiting
    · obtain ⟨hp, hlate⟩ := Option.filter_eq_some_iff.mp hwaiting
      obtain ⟨hp, hpending⟩ := ApprovalQueue.waiting?_eq_some.mp hp
      refine .inr ⟨.rejected k, by rw [hwaiting]; rfl, ?_, ?_⟩
      · have hlast := ((hp ▸ hs.sound k :) : ApprovalEvent.Sound _ (some p)).getLast?_of_pending
          hpending
        rw [hlast]
        trivial
      · have happroved : p.approved = false := by
          simp only [PendingIntent.isPending, Bool.and_eq_true, Bool.not_eq_true'] at hpending
          exact hpending.1
        rw [hp, Option.map_some, ApprovalQueue.expire,
          if_pos ⟨hpending, of_decide_eq_true hlate⟩]
        exact ⟨_, rfl, happroved, rfl⟩

/-- **Every step keeps the histories sound.** -/
theorem Inv.step (hs : s.Inv) (op : ApprovalOp) : (s.step op).Inv := by
  cases op with
  | enqueue intent ts =>
    have hget : ∀ k, (s.queue.enqueue intent ts).1.queue.get? k =
        if k = intent.id then some (s.queue.arrival intent ts) else s.queue.queue.get? k :=
      fun k => Dict.get?_set ..
    show Inv ⟨(s.queue.enqueue intent ts).1, s.log ++ [.enqueued (s.queue.arrival intent ts)]⟩
    refine hs.of_events ?_ fun k => ?_
    · intro k p hp
      rw [hget] at hp
      split_ifs at hp with hk
      · obtain rfl := Option.some.inj hp
        exact hk.symm
      · exact hs.keyed k p hp
    · rw [hget]
      by_cases hk : k = intent.id
      · rw [if_pos hk]
        refine .inr ⟨.enqueued (s.queue.arrival intent ts), by
          simp [ApprovalEvent.id, ApprovalQueue.arrival, hk], ?_, rfl, rfl⟩
        rcases (s.historyOf k).getLast? with _ | last
        · exact ⟨_, rfl⟩
        · cases last <;> trivial
      · rw [if_neg hk]
        exact .inl ⟨by
          simp [ApprovalEvent.id, ApprovalQueue.arrival, Ne.symm hk], rfl⟩
  | approve id ts =>
    show Inv ⟨(s.queue.approve id ts).1, s.log ++ approvalEvents s.queue id ts⟩
    rw [approvalEvents, ApprovalQueue.approve]
    rcases hp : s.queue.waiting? id with _ | p
    · exact hs.same
    · dsimp only
      by_cases hlate : p.expiresAt < ts
      · rw [if_pos hlate]
        exact hs.markRejected hp
      · rw [if_neg hlate]
        obtain ⟨hget, hpending⟩ := ApprovalQueue.waiting?_eq_some.mp hp
        have hrejected : p.rejected = false := by
          simp only [PendingIntent.isPending, Bool.and_eq_true, Bool.not_eq_true'] at hpending
          exact hpending.2
        exact hs.settle (e := .approved p.intent ts) hp (fun p => { p with approved := true }) rfl
          rfl (hs.keyed id p hget) ⟨rfl, not_lt.mp hlate⟩ ⟨_, rfl, rfl, rfl, hrejected⟩
  | reject id =>
    show Inv ⟨(s.queue.reject id).1, s.log ++ if (s.queue.reject id).2 then [.rejected id] else []⟩
    rw [ApprovalQueue.reject]
    rcases hp : s.queue.waiting? id with _ | p
    · exact hs.same
    · exact hs.markRejected hp
  | expireOld ts => exact hs.expireOld ts

theorem inv_new (expiryHours : ℤ) : (new expiryHours).Inv where
  keyed _ _ h := by cases h
  sound _ := ApprovalEvent.sound_nil

/-- **Nothing is decided twice, and nothing is approved late**, in whatever order intents arrive and
are decided about. The history of an identifier begins with an arrival; an approval comes right
after an arrival, in time, and hands out the intent that arrived; a rejection comes right after an
arrival too. What is pending is what has arrived last, with nothing decided about it; and when the
time has been checked, nothing that is late is pending. -/
theorem history_run (expiryHours : ℤ) (ops : List ApprovalOp) :
    let s := run step (new expiryHours) ops
    (∀ id, (s.historyOf id).IsChain ApprovalEvent.Follows ∧
      ∀ e ∈ (s.historyOf id).head?, ∃ p, e = .enqueued p) ∧
    (∀ p, p ∈ s.queue.pending ↔ (s.historyOf p.intent.id).getLast? = some (.enqueued p)) ∧
    ∀ ts, ∀ p ∈ (s.step (.expireOld ts)).queue.pending, ts ≤ p.expiresAt := by
  have hinv : (run step (new expiryHours) ops).Inv :=
    (along_of_forall (fun _ _ => trivial) ops).invariant (fun _ op hs _ => hs.step op)
      (inv_new expiryHours)
  refine ⟨fun id => ⟨(hinv.sound id).chain, (hinv.sound id).arrives⟩, fun p => ⟨fun h => ?_,
    fun h => ?_⟩, fun ts p h => ?_⟩
  · obtain ⟨hvalue, hpending⟩ := List.mem_filter.mp h
    obtain ⟨id, hget⟩ := Dict.mem_values_iff.mp hvalue
    have hsound := hinv.sound id
    rw [hget] at hsound
    rw [hinv.keyed id p hget]
    exact hsound.getLast?_of_pending hpending
  · have hleaves := (hinv.sound p.intent.id).leaves
    rw [h] at hleaves
    exact List.mem_filter.mpr ⟨Dict.mem_values_iff.mpr ⟨_, hleaves.1⟩, hleaves.2⟩
  · obtain ⟨hvalue, hpending⟩ := List.mem_filter.mp h
    obtain ⟨id, hget⟩ := Dict.mem_values_iff.mp hvalue
    rw [step, ApprovalQueue.expireOld, Dict.get?_mapValues] at hget
    obtain ⟨p₀, -, rfl⟩ := Option.map_eq_some_iff.mp hget
    -- an entry that was late is not pending any more
    rw [ApprovalQueue.expire] at hpending ⊢
    split_ifs at hpending ⊢ with hlate
    · simp [PendingIntent.isPending] at hpending
    · exact not_lt.mp fun hlt => hlate ⟨hpending, hlt⟩

end ApprovalDesk

end TradingPlatform
