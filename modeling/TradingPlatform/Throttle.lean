import TradingPlatform.Dict
import TradingPlatform.Run
import TradingPlatform.SlidingWindow

/-!
# At most one of a key in an interval

Events come at times and under keys. One is let through if no other of its key was let through in
the interval before it. What matters about such a throttle is what it keeps back, and there are two
halves to it.

* `TradingPlatform.Throttle.spaced_run`: what is let through of one key is spaced by the interval.
* `TradingPlatform.Throttle.covered_run`: what is kept back comes so soon after another of its key
  that was let through, and the first of a key is always let through
  (`TradingPlatform.Throttle.head?_run`).

The differences of times are rounded. No clock is asked to be monotone. Nothing here is about any
one program.
-/

namespace TradingPlatform

variable {κ T : Type*} [DecidableEq κ]

/-- When the last event of each key was let through, and all that were. -/
structure Throttle (κ T : Type*) where
  last : Dict κ T
  passed : List (T × κ)

namespace Throttle

def empty : Throttle κ T := ⟨.empty, []⟩

/-- What was let through under a key. -/
def passedOf (s : Throttle κ T) (k : κ) : List T := (s.passed.filter fun e => e.2 = k).map Prod.fst

variable [AddCommGroup T] [LinearOrder T] (fl : Rounding T) (interval : T)

/-- The last event of the key is so long ago. -/
def Open (last : Dict κ T) (now : T) (k : κ) : Prop :=
  ∀ t ∈ last.get? k, interval ≤ fl.round (now - t)

instance (last : Dict κ T) (now : T) (k : κ) : Decidable (Open fl interval last now k) :=
  match h : last.get? k with
  | none => isTrue (by simp [Open, h])
  | some t => decidable_of_iff (interval ≤ fl.round (now - t)) (by simp [Open, h])

def step (s : Throttle κ T) (e : T × κ) : Throttle κ T :=
  if Open fl interval s.last e.1 e.2 then ⟨s.last.set e.2 e.1, s.passed ++ [e]⟩ else s

variable {fl interval} {s : Throttle κ T}

theorem step_of_open {e : T × κ} (h : Open fl interval s.last e.1 e.2) :
    step fl interval s e = ⟨s.last.set e.2 e.1, s.passed ++ [e]⟩ := if_pos h

theorem step_of_not_open {e : T × κ} (h : ¬Open fl interval s.last e.1 e.2) :
    step fl interval s e = s := if_neg h

omit [AddCommGroup T] [LinearOrder T] in
/-- One more is let through. -/
theorem passedOf_concat (last : Dict κ T) (passed : List (T × κ)) (e : T × κ) (k : κ) :
    passedOf ⟨last, passed ++ [e]⟩ k =
      if e.2 = k then passedOf ⟨last, passed⟩ k ++ [e.1] else passedOf ⟨last, passed⟩ k := by
  rw [passedOf, passedOf, List.filter_append, List.map_append]
  split_ifs with h
  · rw [List.filter_cons_of_pos (by simpa using h)]
    rfl
  · rw [List.filter_cons_of_neg (by simpa using h)]
    exact List.append_nil _

/-- **What is remembered** is when the last one was let through. -/
theorem get?_last_run (es : List (T × κ)) (k : κ) :
    (run (step fl interval) empty es).last.get? k =
      ((run (step fl interval) empty es).passedOf k).getLast? := by
  induction es using List.reverseRecOn with
  | nil => rfl
  | append_singleton es e ih =>
    rw [run_concat]
    by_cases h : Open fl interval (run (step fl interval) empty es).last e.1 e.2
    · rw [step_of_open h, passedOf_concat, Dict.get?_set]
      by_cases hk : k = e.2
      · rw [if_pos hk, if_pos hk.symm, List.getLast?_concat]
      · rw [if_neg hk, if_neg (Ne.symm hk)]
        exact ih
    · rw [step_of_not_open h]
      exact ih

/-- **What is let through is spaced**: each one of a key comes so long after the one before. -/
theorem spaced_run (es : List (T × κ)) (k : κ) :
    ((run (step fl interval) empty es).passedOf k).IsChain
      fun t t' => interval ≤ fl.round (t' - t) := by
  induction es using List.reverseRecOn with
  | nil => exact .nil
  | append_singleton es e ih =>
    rw [run_concat]
    by_cases h : Open fl interval (run (step fl interval) empty es).last e.1 e.2
    · rw [step_of_open h, passedOf_concat]
      split_ifs with hk
      · refine List.isChain_append.mpr ⟨ih, .singleton _, fun t ht t' ht' => ?_⟩
        obtain rfl := Option.mem_some_iff.mp ht'
        exact h t (hk ▸ (get?_last_run es k).trans ht)
      · exact ih
    · rw [step_of_not_open h]
      exact ih

/-- Nothing that was let through is taken back. -/
theorem mem_passed_step {e e' : T × κ} (h : e ∈ s.passed) : e ∈ (step fl interval s e').passed := by
  rw [step]
  split_ifs
  · exact List.mem_append_left _ h
  · exact h

/-- **What is kept back is covered**: another of its key was let through in the interval before
it. -/
theorem covered_run (es : List (T × κ)) : ∀ e ∈ es, e ∈ (run (step fl interval) empty es).passed ∨
    ∃ e' ∈ (run (step fl interval) empty es).passed,
      e'.2 = e.2 ∧ fl.round (e.1 - e'.1) < interval := by
  induction es using List.reverseRecOn with
  | nil => exact fun e he => absurd he List.not_mem_nil
  | append_singleton es e ih =>
    rw [run_concat]
    intro e₁ he₁
    rcases List.mem_append.mp he₁ with he₁ | he₁
    · rcases ih e₁ he₁ with h | ⟨e', he', h⟩
      · exact .inl (mem_passed_step h)
      · exact .inr ⟨e', mem_passed_step he', h⟩
    · obtain rfl := List.mem_singleton.mp he₁
      by_cases h : Open fl interval (run (step fl interval) empty es).last e₁.1 e₁.2
      · rw [step_of_open h]
        exact .inl (List.mem_append_right _ (List.mem_singleton_self _))
      · rw [step_of_not_open h]
        rw [Open] at h
        push Not at h
        obtain ⟨t, ht, hlt⟩ := h
        have hlast := Option.mem_def.mp ht
        rw [get?_last_run] at hlast
        obtain ⟨e', he', rfl⟩ := List.mem_map.mp (List.mem_of_getLast? hlast)
        obtain ⟨hmem, hkey⟩ := List.mem_filter.mp he'
        exact .inr ⟨e', hmem, of_decide_eq_true hkey, hlt⟩

/-- **The first of a key is let through.** -/
theorem head?_run (es : List (T × κ)) (k : κ) :
    ((run (step fl interval) empty es).passedOf k).head? =
      ((es.filter fun e => e.2 = k).map Prod.fst).head? := by
  induction es using List.reverseRecOn with
  | nil => rfl
  | append_singleton es e ih =>
    rw [run_concat, List.filter_append, List.map_append, List.head?_append, ← ih]
    by_cases hk : e.2 = k
    swap
    · rw [List.filter_cons_of_neg (by simpa using hk)]
      by_cases h : Open fl interval (run (step fl interval) empty es).last e.1 e.2
      · rw [step_of_open h, passedOf_concat, if_neg hk]
        exact (Option.or_none).symm
      · rw [step_of_not_open h]
        exact (Option.or_none).symm
    rw [List.filter_cons_of_pos (by simpa using hk)]
    by_cases h : Open fl interval (run (step fl interval) empty es).last e.1 e.2
    · rw [step_of_open h, passedOf_concat, if_pos hk, List.head?_append]
      rfl
    · -- something of the key was let through before
      rw [step_of_not_open h]
      rw [Open] at h
      push Not at h
      obtain ⟨t, ht, -⟩ := h
      have hlast := Option.mem_def.mp ht
      rw [get?_last_run, hk] at hlast
      rcases hpassed : (run (step fl interval) empty es).passedOf k with _ | ⟨t', ts⟩
      · rw [hpassed] at hlast
        cases hlast
      · rfl

end Throttle

end TradingPlatform
