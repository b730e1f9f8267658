import TradingPlatform.Core.Types
import TradingPlatform.Dict
import TradingPlatform.Run
import TradingPlatform.SlidingWindow

/-!
# The alerts of the kill switch

The alert manager posts a notification for every event of the kill switch, unless it posted one
under the same key within the dedupe window. The key of a trip is its state, the key of a reset is
its own. So a trip that comes back soon after a reset is not posted, and the last thing the
operator was told is that trading resumed (`TradingPlatform.AlertManager.resumed_after_trip`).

A suppression compares an event with the last posting under its key; what the operator believes is
the last posting under any key. `TradingPlatform.AlertManager.shows_iff` says when the two agree:
in exactly those runs in which an event that differs from the one before it is never suppressed.
It is stated for whatever part of an event one asks the notification to show, as long as the
notification shows it: for the situation, and for the whole text.
-/

namespace TradingPlatform

/-- What the kill switch publishes. -/
inductive KillSwitchEvent
  | tripped (newState : KillSwitchState) (reason : String)
  | reset
  deriving DecidableEq

/-- What an event says of the switch: the state it tripped to, or that it was reset. -/
def KillSwitchEvent.situation : KillSwitchEvent → Option KillSwitchState
  | .tripped newState _ => some newState
  | .reset => none

/-- A POST to the topic. -/
structure Post where
  url : String
  body : String
  title : String
  priority : String
  tags : String
  deriving DecidableEq

/-- The settings of the alert manager. -/
structure AlertManager (T : Type*) where
  topic : String
  dedupeWindow : T

/-- What the alert manager remembers, and what it has posted. -/
structure AlertState (T : Type*) where
  lastSent : Dict String T
  sentCount : ℕ
  dedupCount : ℕ
  posted : List Post

namespace AlertManager

def ntfyBaseUrl : String := "https://ntfy.sh"

variable {T : Type*} [AddCommGroup T] [LinearOrder T]

def initial : AlertState T := ⟨.empty, 0, 0, []⟩

section Send

variable (manager : AlertManager T) (fl : Rounding T)

/-- There was a posting under the key within the dedupe window. -/
def Suppressed (s : AlertState T) (now : T) (key : String) : Prop :=
  ∃ last, s.lastSent.get? key = some last ∧ fl.round (now - last) < manager.dedupeWindow

instance (s : AlertState T) (now : T) (key : String) :
    Decidable (manager.Suppressed fl s now key) :=
  match h : s.lastSent.get? key with
  | none => isFalse (by simp [Suppressed, h])
  | some last => decidable_of_iff (fl.round (now - last) < manager.dedupeWindow)
      (by simp [Suppressed, h])

/-- Post a message, unless it is suppressed. Without a topic nothing is sent. -/
def send (s : AlertState T) (now : T) (title message key priority : String) : AlertState T :=
  if manager.topic = "" then s
  else if manager.Suppressed fl s now key then { s with dedupCount := s.dedupCount + 1 }
  else
    { lastSent := s.lastSent.set key now
      sentCount := s.sentCount + 1
      dedupCount := s.dedupCount
      posted := s.posted ++
        [⟨ntfyBaseUrl ++ "/" ++ manager.topic, message, title, priority, "warning"⟩] }

def onKillSwitch (s : AlertState T) (now : T) (newState : KillSwitchState) (reason : String) :
    AlertState T :=
  manager.send fl s now "🚨 Kill switch tripped"
    ("state=" ++ newState.value ++ " reason=" ++ reason) ("ks:" ++ newState.value) "urgent"

def onKillSwitchReset (s : AlertState T) (now : T) : AlertState T :=
  manager.send fl s now "✅ Kill switch cleared" "Trading resumed" "ks:reset" "default"

/-- The handler of an event that is published at a reading of the clock. -/
def step (s : AlertState T) : T × KillSwitchEvent → AlertState T
  | (now, .tripped newState reason) => manager.onKillSwitch fl s now newState reason
  | (now, .reset) => manager.onKillSwitchReset fl s now

end Send

/-! ### What an event is posted as -/

/-- The key that a situation is remembered by. -/
def key : Option KillSwitchState → String
  | some newState => "ks:" ++ newState.value
  | none => "ks:reset"

/-- No state is called like a reset, and no two states alike. -/
theorem key_injective : Function.Injective key := by
  rintro (_ | st) (_ | st') h
  · rfl
  · exact absurd h (by cases st' <;> decide)
  · exact absurd h (by cases st <;> decide)
  · revert h
    cases st <;> cases st' <;> decide

section Post

variable {T : Type*}

/-- The notification of an event. -/
def post (manager : AlertManager T) : KillSwitchEvent → Post
  | .tripped newState reason =>
    ⟨ntfyBaseUrl ++ "/" ++ manager.topic, "state=" ++ newState.value ++ " reason=" ++ reason,
      "🚨 Kill switch tripped", "urgent", "warning"⟩
  | .reset =>
    ⟨ntfyBaseUrl ++ "/" ++ manager.topic, "Trading resumed", "✅ Kill switch cleared", "default",
      "warning"⟩

/-- The message of a trip begins with its state, which holds no blank. -/
theorem state_eq_of_message_eq {st st' : KillSwitchState} {reason reason' : String}
    (h : "state=" ++ st.value ++ " reason=" ++ reason =
      "state=" ++ st'.value ++ " reason=" ++ reason') : st = st' := by
  have htake := congrArg (fun m : String => m.toList.takeWhile (· ≠ ' ')) h
  cases st <;> cases st' <;> first | rfl | simp [KillSwitchState.value] at htake

/-- A notification shows the situation of its event. -/
theorem situation_eq_of_post_eq (manager : AlertManager T) {e e' : KillSwitchEvent}
    (h : manager.post e = manager.post e') : e.situation = e'.situation := by
  rcases e with ⟨st, reason⟩ | _ <;> rcases e' with ⟨st', reason'⟩ | _
  · exact congrArg some (state_eq_of_message_eq (congrArg Post.body h))
  · simp [post] at h
  · simp [post] at h
  · rfl

end Post

/-! ### One event -/

variable {manager : AlertManager T} {fl : Rounding T} {s : AlertState T}

/-- **What an event does**: it is dropped, or it is posted and remembered under its key. -/
theorem step_eq (htopic : manager.topic ≠ "") (x : T × KillSwitchEvent) :
    manager.step fl s x =
      if manager.Suppressed fl s x.1 (key x.2.situation) then
        { s with dedupCount := s.dedupCount + 1 }
      else
        { lastSent := s.lastSent.set (key x.2.situation) x.1
          sentCount := s.sentCount + 1
          dedupCount := s.dedupCount
          posted := s.posted ++ [manager.post x.2] } := by
  obtain ⟨now, ⟨newState, reason⟩ | _⟩ := x
  · exact if_neg htopic
  · exact if_neg htopic

theorem posted_step_of_suppressed (htopic : manager.topic ≠ "") {x : T × KillSwitchEvent}
    (h : manager.Suppressed fl s x.1 (key x.2.situation)) :
    (manager.step fl s x).posted = s.posted := by
  rw [step_eq htopic, if_pos h]

theorem getLast?_posted_step (htopic : manager.topic ≠ "") {x : T × KillSwitchEvent}
    (h : ¬manager.Suppressed fl s x.1 (key x.2.situation)) :
    (manager.step fl s x).posted.getLast? = some (manager.post x.2) := by
  rw [step_eq htopic, if_neg h]
  exact List.getLast?_concat

/-- A key is remembered with the time of the event, or as before. -/
theorem get?_lastSent_step (htopic : manager.topic ≠ "") (x : T × KillSwitchEvent) (k : String) :
    (manager.step fl s x).lastSent.get? k =
      if ¬manager.Suppressed fl s x.1 (key x.2.situation) ∧ k = key x.2.situation then some x.1
      else s.lastSent.get? k := by
  rw [step_eq htopic]
  by_cases h : manager.Suppressed fl s x.1 (key x.2.situation)
  · rw [if_pos h, if_neg (fun hc => hc.1 h)]
  · rw [if_neg h, Dict.get?_set]
    simp [h]

/-! ### Every sequence of events -/

variable {events : List (T × KillSwitchEvent)}

/-- The state after a sequence of events. -/
def after (manager : AlertManager T) (fl : Rounding T) (events : List (T × KillSwitchEvent)) :
    AlertState T := run (manager.step fl) initial events

theorem after_concat (pre : List (T × KillSwitchEvent)) (x : T × KillSwitchEvent) :
    manager.after fl (pre ++ [x]) = manager.step fl (manager.after fl pre) x := run_concat pre x

/-- An event that is dropped after a sequence of events. -/
def Drops (manager : AlertManager T) (fl : Rounding T) (pre : List (T × KillSwitchEvent))
    (x : T × KillSwitchEvent) : Prop :=
  manager.Suppressed fl (manager.after fl pre) x.1 (key x.2.situation)

instance (pre : List (T × KillSwitchEvent)) (x : T × KillSwitchEvent) :
    Decidable (manager.Drops fl pre x) :=
  inferInstanceAs (Decidable (manager.Suppressed fl _ _ _))

/-- What is remembered under a key was posted then, under that key. -/
theorem exists_posted_of_get?_lastSent (htopic : manager.topic ≠ "")
    (pre : List (T × KillSwitchEvent)) {k : String} {t : T}
    (h : (manager.after fl pre).lastSent.get? k = some t) :
    ∃ before y, before ++ [y] <+: pre ∧ ¬manager.Drops fl before y ∧ key y.2.situation = k ∧
      y.1 = t := by
  induction pre using List.reverseRecOn with
  | nil => simp [after, initial] at h
  | append_singleton pre x ih =>
    rw [after_concat, get?_lastSent_step htopic] at h
    split_ifs at h with hsent
    · exact ⟨pre, x, List.prefix_refl _, hsent.1, hsent.2.symm, Option.some_inj.mp h⟩
    · obtain ⟨before, y, hpre, hy⟩ := ih h
      exact ⟨before, y, hpre.trans (List.prefix_append _ _), hy⟩

/-- **What is dropped repeats something**: a notification of the same situation was posted within
the dedupe window. -/
theorem exists_posted_of_drops (htopic : manager.topic ≠ "") {pre : List (T × KillSwitchEvent)}
    {x : T × KillSwitchEvent} (h : manager.Drops fl pre x) :
    ∃ before y, before ++ [y] <+: pre ∧ ¬manager.Drops fl before y ∧
      y.2.situation = x.2.situation ∧ fl.round (x.1 - y.1) < manager.dedupeWindow := by
  obtain ⟨t, hlast, hwindow⟩ := h
  obtain ⟨before, y, hpre, hy, hkey, rfl⟩ := exists_posted_of_get?_lastSent htopic pre hlast
  exact ⟨before, y, hpre, hy, key_injective hkey, hwindow⟩

/-- The first event is posted. -/
theorem not_drops_nil (x : T × KillSwitchEvent) : ¬manager.Drops fl [] x := by
  rintro ⟨t, hlast, -⟩
  simp [after, initial] at hlast

section Shows

variable {β : Type*} (f : KillSwitchEvent → β)

/-- The notification posted last is one of an event that `f` takes to the same value. -/
def Shows (manager : AlertManager T) (s : AlertState T) (e : KillSwitchEvent) : Prop :=
  ∃ e₀, s.posted.getLast? = some (manager.post e₀) ∧ f e₀ = f e

/-- **When the last notification is true**: after every event it shows what is asked of it exactly
if no event that differs in that from the event before it is dropped. -/
theorem shows_iff (htopic : manager.topic ≠ "")
    (hf : ∀ e e', manager.post e = manager.post e' → f e = f e') :
    (∀ pre x, pre ++ [x] <+: events → manager.Shows f (manager.after fl (pre ++ [x])) x.2) ↔
      ∀ pre x y, pre ++ [x] ++ [y] <+: events → f x.2 ≠ f y.2 →
        ¬manager.Drops fl (pre ++ [x]) y := by
  constructor
  · intro h pre x y hpre hne hdrops
    obtain ⟨e, he, hex⟩ := h pre x ((List.prefix_append _ _).trans hpre)
    obtain ⟨e', he', hey⟩ := h (pre ++ [x]) y hpre
    -- the event was dropped, so the last notification is still the one that showed the event before
    rw [after_concat, posted_step_of_suppressed htopic hdrops, he] at he'
    exact hne (hex.symm.trans ((hf e e' (Option.some_inj.mp he')).trans hey))
  · intro h pre
    induction pre using List.reverseRecOn with
    | nil =>
      intro x hpre
      exact ⟨x.2, getLast?_posted_step htopic (not_drops_nil x), rfl⟩
    | append_singleton pre x ih =>
      intro y hpre
      by_cases hdrops : manager.Drops fl (pre ++ [x]) y
      · have hxy : f x.2 = f y.2 := by
          by_contra hne
          exact h pre x y hpre hne hdrops
        obtain ⟨e, he, hex⟩ := ih x ((List.prefix_append _ _).trans hpre)
        refine ⟨e, ?_, hex.trans hxy⟩
        rw [after_concat, posted_step_of_suppressed htopic hdrops, he]
      · refine ⟨y.2, ?_, rfl⟩
        rw [after_concat]
        exact getLast?_posted_step htopic hdrops

end Shows

/-- What is dropped is the notification posted last, word for word, exactly if no event whose
notification differs from that of the event before it is dropped. -/
theorem repeats_iff (htopic : manager.topic ≠ "") :
    (∀ pre x, pre ++ [x] <+: events → manager.Drops fl pre x →
        (manager.after fl pre).posted.getLast? = some (manager.post x.2)) ↔
      ∀ pre x y, pre ++ [x] ++ [y] <+: events → manager.post x.2 ≠ manager.post y.2 →
        ¬manager.Drops fl (pre ++ [x]) y := by
  refine Iff.trans ?_ (shows_iff manager.post htopic fun e e' he => he)
  refine forall_congr' fun pre => forall_congr' fun x => forall_congr' fun hpre => ?_
  by_cases hdrops : manager.Drops fl pre x
  · rw [Shows, after_concat, posted_step_of_suppressed htopic hdrops]
    constructor
    · intro h
      exact ⟨x.2, h hdrops, rfl⟩
    · rintro ⟨e, he, hex⟩ -
      rw [he, hex]
  · refine iff_of_true (fun h => absurd h hdrops) ⟨x.2, ?_, rfl⟩
    rw [after_concat]
    exact getLast?_posted_step htopic hdrops

/-- **What the last alert says.** An event is posted and is then the last notification, or it is
dropped, and then a notification of its situation was posted within the dedupe window. The last
notification shows the situation of every event exactly if no event whose situation differs from
that of the event before it is dropped; and what is dropped is always a repetition of the
notification posted last exactly if none is whose text differs from that of the event before. -/
theorem last_alert (manager : AlertManager T) (htopic : manager.topic ≠ "") (fl : Rounding T)
    (events : List (T × KillSwitchEvent)) :
    (∀ pre x, pre ++ [x] <+: events →
      (manager.after fl (pre ++ [x])).posted.getLast? = some (manager.post x.2) ∨
        ((manager.after fl (pre ++ [x])).posted = (manager.after fl pre).posted ∧
          ∃ before y, before ++ [y] <+: pre ∧ ¬manager.Drops fl before y ∧
            y.2.situation = x.2.situation ∧ fl.round (x.1 - y.1) < manager.dedupeWindow)) ∧
    ((∀ pre x, pre ++ [x] <+: events →
        manager.Shows KillSwitchEvent.situation (manager.after fl (pre ++ [x])) x.2) ↔
      ∀ pre x y, pre ++ [x] ++ [y] <+: events → x.2.situation ≠ y.2.situation →
        ¬manager.Drops fl (pre ++ [x]) y) ∧
    ((∀ pre x, pre ++ [x] <+: events → manager.Drops fl pre x →
        (manager.after fl pre).posted.getLast? = some (manager.post x.2)) ↔
      ∀ pre x y, pre ++ [x] ++ [y] <+: events → manager.post x.2 ≠ manager.post y.2 →
        ¬manager.Drops fl (pre ++ [x]) y) := by
  refine ⟨fun pre x _ => ?_, shows_iff _ htopic fun _ _ => situation_eq_of_post_eq manager,
    repeats_iff htopic⟩
  rw [after_concat]
  by_cases hdrops : manager.Drops fl pre x
  · exact Or.inr ⟨posted_step_of_suppressed htopic hdrops, exists_posted_of_drops htopic hdrops⟩
  · exact Or.inl (getLast?_posted_step htopic hdrops)

/-! ### A switch that trips again -/

/-- Sixty seconds. -/
def pagesOps : AlertManager ℤ := ⟨"ops", 60⟩

/-- A trip, a reset ten seconds later, and the same trip ten seconds after that. -/
def tripsAgain : List (ℤ × KillSwitchEvent) :=
  [(0, .tripped .dailyLoss "down"), (10, .reset), (20, .tripped .dailyLoss "down")]

theorem posted_tripsAgain :
    (pagesOps.after (.exact ℤ) tripsAgain).posted =
      [pagesOps.post (.tripped .dailyLoss "down"), pagesOps.post .reset] := by
  decide +kernel

/-- **The operator is told last that trading resumed, while the switch is tripped.** -/
theorem resumed_after_trip :
    (tripsAgain.map Prod.fst).Pairwise (· ≤ ·) ∧
      (pagesOps.after (.exact ℤ) tripsAgain).posted.getLast? = some (pagesOps.post .reset) ∧
      ¬∀ pre x, pre ++ [x] <+: tripsAgain →
        pagesOps.Shows KillSwitchEvent.situation (pagesOps.after (.exact ℤ) (pre ++ [x])) x.2 := by
  have hlast : (pagesOps.after (.exact ℤ) tripsAgain).posted.getLast? =
      some (pagesOps.post .reset) := by
    rw [posted_tripsAgain]
    rfl
  refine ⟨by decide, hlast, fun h => ?_⟩
  obtain ⟨e, he, hsituation⟩ := h (tripsAgain.take 2) (20, .tripped .dailyLoss "down")
    (List.prefix_refl tripsAgain)
  have hreset : some (pagesOps.post .reset) = some (pagesOps.post e) := hlast.symm.trans he
  rw [← situation_eq_of_post_eq pagesOps (Option.some_inj.mp hreset)] at hsituation
  exact Option.some_ne_none _ hsituation.symm

/-- The trip that is dropped had been posted twenty seconds before. -/
theorem last_alert_tripsAgain :
    ∃ before y, before ++ [y] <+: tripsAgain.take 2 ∧
      ¬pagesOps.Drops (.exact ℤ) before y ∧ y.2.situation = some .dailyLoss ∧ 20 - y.1 < 60 := by
  rcases (last_alert pagesOps (by decide) (.exact ℤ) tripsAgain).1 (tripsAgain.take 2)
      (20, .tripped .dailyLoss "down") (List.prefix_refl tripsAgain) with hposted | ⟨-, h⟩
  · have hlast : (pagesOps.after (.exact ℤ) tripsAgain).posted.getLast? =
        some (pagesOps.post (.tripped .dailyLoss "down")) := hposted
    rw [posted_tripsAgain] at hlast
    exact absurd hlast (by decide +kernel)
  · exact h

end AlertManager

end TradingPlatform
