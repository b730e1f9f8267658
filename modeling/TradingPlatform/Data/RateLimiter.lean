import TradingPlatform.Run
import TradingPlatform.SlidingWindow

/-!
# The rate limiter of the news fetcher

`_RateLimiter.acquire` is a loop around a lock. Under the lock a caller reads the clock, evicts
from the deque what is older than the window, and is granted the call if there is room; otherwise
it gives the lock back, sleeps, and tries again. Any number of callers may be in the loop at once,
and nothing is assumed of how long a sleep takes.

A state (`TradingPlatform.RateLimiter.State`) is the deque, the grants made so far and where each
caller stands. A step (`TradingPlatform.RateLimiter.Event`) is a caller entering the loop, one
section under the lock at some reading of the clock, or a sleep that ends. The order of the steps
is arbitrary; the readings of the clock do not decrease.

The readings are floats, so the cutoff is rounded (`TradingPlatform.Rounding`). What is evicted is
still truly out of the window, and the invariant is the library's `TradingPlatform.SlidingWindow`.
-/

namespace TradingPlatform

/-- `_RateLimiter`: its two settings. -/
structure RateLimiter (T : Type*) where
  max_calls : ℤ
  window_s : T

namespace RateLimiter

variable {T : Type*} [Field T] [LinearOrder T]

/-- What one pass of the loop ends with. -/
inductive Outcome (T : Type*)
  | granted
  | sleep (wait : T)
  | indexError
  deriving DecidableEq

/-- Where a caller stands: not in `acquire`, before the lock, asleep, or thrown out. -/
inductive Phase (T : Type*)
  | out
  | atLock
  | asleep (wait : T)
  | raised
  deriving DecidableEq

def Phase.Sleeping : Phase T → Prop
  | .asleep _ => True
  | _ => False

instance : DecidablePred (Phase.Sleeping (T := T))
  | .asleep _ => isTrue trivial
  | .out | .atLock | .raised => isFalse id

section Attempt

variable (limiter : RateLimiter T) (fl : Rounding T)

def cutoff (now : T) : T := fl.round (now - limiter.window_s)

/-- The inner loop: the front of the deque leaves it while it is older than the cutoff. -/
def evict (now : T) (calls : List T) : List T :=
  calls.dropWhile fun t => decide (t < limiter.cutoff fl now)

/-- One pass of the loop under the lock, at a reading of the clock: the deque it leaves and what it
ends with. -/
def attempt (now : T) (calls : List T) : List T × Outcome T :=
  let kept := limiter.evict fl now calls
  if (kept.length : ℤ) < limiter.max_calls then
    (kept ++ [now], .granted)
  else
    match kept with
    | [] => (kept, .indexError)
    | first :: _ =>
      let wait := fl.round (limiter.window_s - fl.round (now - first))
      (kept, .sleep (max wait (fl.round (1 / 1000))))

end Attempt

/-- The deque, the grants so far, the last reading of the clock, and the callers. -/
structure State (κ T : Type*) where
  calls : List T
  granted : List T
  clock : T
  phase : κ → Phase T

inductive Event (κ T : Type*)
  /-- a caller enters `acquire` -/
  | call (c : κ)
  /-- a caller takes the lock and reads the clock -/
  | lock (c : κ) (now : T)
  /-- a caller's sleep ends -/
  | wake (c : κ)

variable {κ : Type*}

def State.setPhase [DecidableEq κ] (s : State κ T) (c : κ) (p : Phase T) : State κ T :=
  { s with phase := Function.update s.phase c p }

/-- A new limiter, made at a reading of the clock. -/
def initial (t₀ : T) : State κ T := ⟨[], [], t₀, fun _ => .out⟩

variable (limiter : RateLimiter T) (fl : Rounding T)

def step [DecidableEq κ] (s : State κ T) : Event κ T → State κ T
  -- with no calls allowed the limiter is off, and the lock is not taken
  | .call c => if limiter.max_calls ≤ 0 then s else s.setPhase c .atLock
  | .lock c now =>
    let (calls, outcome) := limiter.attempt fl now s.calls
    let s' := { s with calls, clock := now }
    match outcome with
    | .granted => { s' with granted := s.granted ++ [now] }.setPhase c .out
    | .sleep wait => s'.setPhase c (.asleep wait)
    | .indexError => s'.setPhase c .raised
  | .wake c => s.setPhase c .atLock

/-- **What may happen next**: a caller that is not in `acquire` enters it, one that is before the
lock takes it at a reading of the clock that is not before the last, one that is asleep wakes up,
early or late. -/
def Admissible (fl : Rounding T) (s : State κ T) : Event κ T → Prop
  | .call c => s.phase c = .out
  | .lock c now => s.phase c = .atLock ∧ s.clock ≤ now ∧ fl.Holds now
  | .wake c => (s.phase c).Sleeping

instance (fl : Rounding T) (s : State κ T) : ∀ e, Decidable (Admissible fl s e)
  | .call c => inferInstanceAs (Decidable (s.phase c = .out))
  | .lock c now => inferInstanceAs (Decidable (s.phase c = .atLock ∧ s.clock ≤ now ∧ fl.Holds now))
  | .wake c => inferInstanceAs (Decidable (s.phase c).Sleeping)

/-! ### One pass under the lock -/

variable {limiter fl} {s : State κ T} {now : T} {calls : List T}

/-- What a pass under the lock can do: it grants the call because there is room, or it finds the
deque full and leaves the caller to sleep. -/
theorem attempt_cases (fl : Rounding T) (hmax : 0 < limiter.max_calls) (now : T)
    (calls : List T) :
    (((limiter.evict fl now calls).length : ℤ) < limiter.max_calls ∧
      limiter.attempt fl now calls = (limiter.evict fl now calls ++ [now], .granted)) ∨
    (limiter.max_calls ≤ (limiter.evict fl now calls).length ∧
      ∃ wait, limiter.attempt fl now calls = (limiter.evict fl now calls, .sleep wait)) := by
  rw [attempt]
  rcases lt_or_ge ((limiter.evict fl now calls).length : ℤ) limiter.max_calls with h | h
  · exact Or.inl ⟨h, if_pos h⟩
  · refine Or.inr ⟨h, ?_⟩
    rcases hkept : limiter.evict fl now calls with _ | ⟨first, rest⟩
    · rw [hkept, List.length_nil] at h
      omega
    · rw [hkept] at h
      exact ⟨_, if_neg (not_lt.mpr h)⟩

/-! ### The invariant -/

/-- The deque is the window on the grants, it holds readings of the clock as the format has them,
and no caller was thrown out. -/
structure Inv (limiter : RateLimiter T) (fl : Rounding T) (s : State κ T) : Prop where
  window : SlidingWindow limiter.window_s limiter.max_calls.toNat s.clock s.granted s.calls
  holds : ∀ t ∈ s.calls, fl.Holds t
  not_raised : ∀ c, s.phase c ≠ .raised

theorem inv_initial (t₀ : T) : Inv limiter fl (initial t₀ : State κ T) where
  window := SlidingWindow.nil
  holds := by simp [initial]
  not_raised := by simp [initial]

/-- Where a caller stands is not part of the window. -/
theorem Inv.setPhase [DecidableEq κ] (h : Inv limiter fl s) (c : κ) {p : Phase T}
    (hp : p ≠ .raised) :
    Inv limiter fl (s.setPhase c p) where
  window := h.window
  holds := h.holds
  not_raised := by
    intro d
    show Function.update s.phase c p d ≠ .raised
    rw [Function.update_apply]
    split
    · exact hp
    · exact h.not_raised d

/-- A reading of the clock and the eviction at it keep the invariant. -/
theorem Inv.evict [IsStrictOrderedRing T] (h : Inv limiter fl s) (hle : s.clock ≤ now) :
    Inv limiter fl { s with calls := limiter.evict fl now s.calls, clock := now } where
  window := by
    refine (h.window.advance hle).evict fun t ht hlt => ?_
    exact Rounding.lt_sub_of_lt_round (h.holds t ht) (of_decide_eq_true hlt)
  holds := fun t ht => h.holds t ((List.dropWhile_sublist _).mem ht)
  not_raised := h.not_raised

/-- So does a grant, while there is room. -/
theorem Inv.grant (h : Inv limiter fl s) (hfl : fl.Holds s.clock)
    (hroom : (s.calls.length : ℤ) < limiter.max_calls) :
    Inv limiter fl { s with calls := s.calls ++ [s.clock], granted := s.granted ++ [s.clock] } where
  window := h.window.enter (by omega)
  holds := by
    intro t ht
    rcases List.mem_append.mp ht with ht | ht
    · exact h.holds t ht
    · rw [List.mem_singleton.mp ht]
      exact hfl
  not_raised := h.not_raised

variable [DecidableEq κ] [IsStrictOrderedRing T]

/-- **Every admissible step keeps the invariant.** -/
theorem inv_step (hmax : 0 < limiter.max_calls) {e : Event κ T} (h : Inv limiter fl s)
    (he : Admissible fl s e) : Inv limiter fl (step limiter fl s e) := by
  cases e with
  | call c =>
    rw [step, if_neg (by omega)]
    exact h.setPhase c (by simp)
  | wake c => exact h.setPhase c (by simp)
  | lock c now =>
    obtain ⟨-, hle, hfl⟩ := he
    have hevict := h.evict hle
    rcases attempt_cases fl hmax now s.calls with ⟨hroom, heq⟩ | ⟨-, wait, heq⟩
    · simp only [step, heq]
      exact (hevict.grant hfl hroom).setPhase c (by simp)
    · simp only [step, heq]
      exact hevict.setPhase c (by simp)

/-! ### Every run -/

/-- **The limiter keeps its window.** Whatever the callers do and however long they sleep, the
grants are made in order, any `max_calls + 1` of them in a row take more than `window_s`, and the
deque is in order and never holds more than `max_calls` of them. -/
theorem keeps_window (limiter : RateLimiter T) (hmax : 0 < limiter.max_calls) (fl : Rounding T)
    (t₀ : T) {events pre : List (Event κ T)}
    (h : Along (step limiter fl) (Admissible fl) (initial t₀) events) (hpre : pre <+: events) :
    (run (step limiter fl) (initial t₀) pre).granted.Pairwise (· ≤ ·) ∧
      Spaced limiter.window_s limiter.max_calls.toNat
        (run (step limiter fl) (initial t₀) pre).granted ∧
      ((run (step limiter fl) (initial t₀) pre).calls.length : ℤ) ≤ limiter.max_calls ∧
      (run (step limiter fl) (initial t₀) pre).calls.Pairwise (· ≤ ·) := by
  have hinv : Inv limiter fl (run (step limiter fl) (initial t₀) pre) :=
    h.invariant_reached (fun s e hs he => inv_step hmax hs he) (inv_initial t₀) hpre
  have hlength := hinv.window.length_le
  exact ⟨hinv.window.sorted, hinv.window.spaced, by omega, hinv.window.queue_sorted⟩

/-- Two calls a second, and three callers. -/
def twoASecond : RateLimiter ℚ := ⟨2, 1⟩

/-- Whole seconds. -/
def wholeSeconds : Rounding ℚ := ⟨fun t => ⌊t⌋, fun _ _ h => Int.cast_le.mpr (Int.floor_mono h)⟩

/-- The third caller finds the deque full, wakes up when the first call is exactly a second old,
is sent to sleep once more, and is granted the call after that. -/
def thirdWaits : List (Event (Fin 3) ℚ) :=
  [.call 0, .call 1, .call 2, .lock 0 0, .lock 1 0, .lock 2 0, .wake 2, .lock 2 1, .wake 2,
    .lock 2 2]

theorem keeps_window_thirdWaits :
    (run (step twoASecond wholeSeconds) (initial 0) thirdWaits).granted = [0, 0, 2] ∧
      Spaced 1 2 (run (step twoASecond wholeSeconds) (initial 0) thirdWaits).granted := by
  have h : Along (step twoASecond wholeSeconds) (Admissible wholeSeconds) (initial 0)
      thirdWaits := by
    decide +kernel
  exact ⟨by decide +kernel,
    (keeps_window twoASecond (by decide) wholeSeconds 0 h (List.prefix_refl _)).2.1⟩

end RateLimiter

end TradingPlatform
