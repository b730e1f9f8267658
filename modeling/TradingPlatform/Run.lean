import Mathlib

/-!
# Runs of a step function, and runs that avoid something

A program that takes one operation after another is a step function folded over
a list of operations. This file holds the induction over such a list, once.

* `TradingPlatform.run` is the state a list of operations leads to.
* `TradingPlatform.Along` says that a condition on the state before a step and on
  the operation taken there holds at every step of a run. It is how a development
  says that a run stays away from something.
* `TradingPlatform.Along.invariant` is the invariant rule: what every admitted step
  preserves, every admitted run preserves, in every state it passes through.
* `TradingPlatform.forall_reached_iff_along` is the same rule read both ways. Where
  a property survives a step exactly when the step meets the condition, the runs
  all of whose states have the property are exactly the runs that meet the
  condition throughout – so the condition is not merely enough, it is the right one.

Nothing here mentions a particular state, operation or property.
-/

namespace TradingPlatform

variable {σ α : Type*}

/-- The state a list of operations leads to. -/
def run (step : σ → α → σ) (s : σ) (ops : List α) : σ := ops.foldl step s

/-- Every step of a run meets a condition on the state it is taken in. -/
def Along (step : σ → α → σ) (ok : σ → α → Prop) : σ → List α → Prop
  | _, [] => True
  | s, a :: as => ok s a ∧ Along step ok (step s a) as

instance Along.decidable {step : σ → α → σ} {ok : σ → α → Prop} [∀ s a, Decidable (ok s a)] :
    ∀ (s : σ) (ops : List α), Decidable (Along step ok s ops)
  | _, [] => isTrue trivial
  | s, a :: as =>
    haveI : Decidable (Along step ok (step s a) as) := Along.decidable (step s a) as
    inferInstanceAs (Decidable (ok s a ∧ Along step ok (step s a) as))

variable {step : σ → α → σ} {ok : σ → α → Prop} {s : σ}

@[simp] theorem run_nil : run step s [] = s := rfl

@[simp] theorem run_cons (a : α) (as : List α) :
    run step s (a :: as) = run step (step s a) as := rfl

theorem run_append (as bs : List α) : run step s (as ++ bs) = run step (run step s as) bs :=
  List.foldl_append

theorem run_concat (as : List α) (a : α) : run step s (as ++ [a]) = step (run step s as) a :=
  run_append as [a]

@[simp] theorem along_nil : Along step ok s [] := trivial

@[simp] theorem along_cons {a : α} {as : List α} :
    Along step ok s (a :: as) ↔ ok s a ∧ Along step ok (step s a) as := Iff.rfl

theorem along_append {as bs : List α} :
    Along step ok s (as ++ bs) ↔ Along step ok s as ∧ Along step ok (run step s as) bs := by
  induction as generalizing s with
  | nil => simp
  | cons a as ih => simp [ih, and_assoc]

theorem along_concat {as : List α} {a : α} :
    Along step ok s (as ++ [a]) ↔ Along step ok s as ∧ ok (run step s as) a := by
  simp [along_append]

theorem Along.of_isPrefix {as bs : List α} (h : Along step ok s bs) (hp : as <+: bs) :
    Along step ok s as := by
  obtain ⟨cs, rfl⟩ := hp
  exact (along_append.mp h).1

theorem Along.and {ok' : σ → α → Prop} {ops : List α} (h : Along step ok s ops)
    (h' : Along step ok' s ops) : Along step (fun s a => ok s a ∧ ok' s a) s ops := by
  induction ops generalizing s with
  | nil => trivial
  | cons a as ih => exact ⟨⟨h.1, h'.1⟩, ih h.2 h'.2⟩

/-- A condition that always holds is met by every run. -/
theorem along_of_forall (h : ∀ s a, ok s a) (ops : List α) : Along step ok s ops := by
  induction ops generalizing s with
  | nil => trivial
  | cons a as ih => exact ⟨h s a, ih⟩

/-- A condition on the operations alone. -/
theorem along_iff_forall_mem {ok : α → Prop} {ops : List α} :
    Along step (fun _ a => ok a) s ops ↔ ∀ a ∈ ops, ok a := by
  induction ops generalizing s with
  | nil => simp
  | cons a as ih => simp [ih]

/-- A condition at every step, by the operations taken before. -/
theorem along_iff_forall_before {ops : List α} :
    Along step ok s ops ↔ ∀ pre a, pre ++ [a] <+: ops → ok (run step s pre) a := by
  induction ops generalizing s with
  | nil => simp
  | cons a as ih =>
    rw [along_cons, ih]
    constructor
    · rintro ⟨ha, h⟩ pre b hp
      rcases pre with _ | ⟨c, pre⟩
      · obtain rfl : b = a := by simpa using hp
        exact ha
      · obtain ⟨rfl, hp'⟩ := List.cons_prefix_cons.mp hp
        exact h pre b hp'
    · intro h
      refine ⟨h [] a (by simp), fun pre b hp => ?_⟩
      exact h (a :: pre) b (by simpa using hp)

/-- Two conditions that agree in every state an invariant allows, along a run that keeps it. -/
theorem along_congr_of_invariant {ok' : σ → α → Prop} {Inv : σ → Prop}
    (hInv : ∀ s a, Inv s → Inv (step s a)) (h : ∀ s a, Inv s → (ok s a ↔ ok' s a)) (h₀ : Inv s)
    (ops : List α) : Along step ok s ops ↔ Along step ok' s ops := by
  induction ops generalizing s with
  | nil => exact Iff.rfl
  | cons a as ih => exact and_congr (h s a h₀) (ih (hInv s a h₀))

/-- Two conditions that agree in every state an invariant allows, along the admitted runs that
meet the second as long as they keep it. -/
theorem along_congr_within {adm ok' : σ → α → Prop} {Inv : σ → Prop}
    (hstep : ∀ s a, Inv s → adm s a → ok' s a → Inv (step s a))
    (h : ∀ s a, Inv s → adm s a → (ok s a ↔ ok' s a)) (h₀ : Inv s) {ops : List α}
    (hadm : Along step adm s ops) : Along step ok s ops ↔ Along step ok' s ops := by
  induction ops generalizing s with
  | nil => exact Iff.rfl
  | cons a as ih =>
    refine (and_congr_left' (h s a h₀ hadm.1)).trans (and_congr_right fun ha => ?_)
    exact ih (hstep s a h₀ hadm.1 ha) hadm.2

section Component

variable {τ : Type*} {step' : τ → α → τ} (f : σ → τ)

/-- A component that steps on its own runs on its own. -/
theorem run_component (hf : ∀ s a, f (step s a) = step' (f s) a) (ops : List α) :
    f (run step s ops) = run step' (f s) ops := by
  induction ops generalizing s with
  | nil => rfl
  | cons a as ih => exact ih.trans (congrArg (run step' · as) (hf s a))

/-- A condition on such a component. -/
theorem along_component {ok : τ → α → Prop} (hf : ∀ s a, f (step s a) = step' (f s) a)
    (ops : List α) :
    Along step (fun s a => ok (f s) a) s ops ↔ Along step' ok (f s) ops := by
  induction ops generalizing s with
  | nil => exact Iff.rfl
  | cons a as ih => rw [along_cons, along_cons, ih, hf]

end Component

/-- **The invariant rule**: what every admitted step preserves holds where an
admitted run ends. -/
theorem Along.invariant {Inv : σ → Prop} (hstep : ∀ s a, Inv s → ok s a → Inv (step s a))
    {ops : List α} (h : Along step ok s ops) (h₀ : Inv s) : Inv (run step s ops) := by
  induction ops generalizing s with
  | nil => exact h₀
  | cons a as ih => exact ih h.2 (hstep s a h₀ h.1)

/-- The invariant rule, at every state the run passes through. -/
theorem Along.invariant_reached {Inv : σ → Prop}
    (hstep : ∀ s a, Inv s → ok s a → Inv (step s a)) {ops : List α} (h : Along step ok s ops)
    (h₀ : Inv s) {pre : List α} (hpre : pre <+: ops) : Inv (run step s pre) :=
  (h.of_isPrefix hpre).invariant hstep h₀

/-- A run meets a condition that an invariant and the admission of a step imply. -/
theorem Along.imp_of_invariant {ok' : σ → α → Prop} {Inv : σ → Prop}
    (hstep : ∀ s a, Inv s → ok s a → ok' s a ∧ Inv (step s a)) {ops : List α}
    (h : Along step ok s ops) (h₀ : Inv s) : Along step ok' s ops := by
  induction ops generalizing s with
  | nil => trivial
  | cons a as ih =>
    obtain ⟨hok, hInv⟩ := hstep s a h₀ h.1
    exact ⟨hok, ih h.2 hInv⟩

/-- An invariant no step can break holds where any run ends. -/
theorem run_invariant {Inv : σ → Prop} (hstep : ∀ s a, Inv s → Inv (step s a)) (h₀ : Inv s)
    (ops : List α) : Inv (run step s ops) := by
  induction ops generalizing s with
  | nil => exact h₀
  | cons a as ih => exact ih (hstep s a h₀)

/-- **The exact condition**: if a property survives a step exactly when the step
meets a condition, the runs that keep the property throughout are the runs that
meet the condition throughout. -/
theorem forall_reached_iff_along {Inv P : σ → Prop} (hInv : ∀ s a, Inv s → Inv (step s a))
    (hiff : ∀ s a, Inv s → P s → (P (step s a) ↔ ok s a)) (h₀ : Inv s) (hP : P s)
    (ops : List α) : (∀ pre, pre <+: ops → P (run step s pre)) ↔ Along step ok s ops := by
  constructor
  · intro h
    induction ops generalizing s with
    | nil => trivial
    | cons a as ih =>
      have ha : P (step s a) := h [a] (by simp)
      refine ⟨(hiff s a h₀ hP).mp ha, ih (hInv s a h₀) ha fun pre hpre => ?_⟩
      exact h (a :: pre) (by simpa using hpre)
  · intro h pre hpre
    have hstep : ∀ s a, Inv s ∧ P s → ok s a → Inv (step s a) ∧ P (step s a) :=
      fun s a hs ha => ⟨hInv s a hs.1, (hiff s a hs.1 hs.2).mpr ha⟩
    exact (h.invariant_reached hstep ⟨h₀, hP⟩ hpre).2

/-- **The exact condition, from an invariant, within the admitted runs**: if an invariant
implies the property, survives every admitted step that meets a condition, and an admitted step
that does not meet it loses the property, then the admitted runs that keep the property
throughout are those that meet the condition throughout. -/
theorem forall_reached_iff_along_within {adm : σ → α → Prop} {Inv P : σ → Prop}
    (hstep : ∀ s a, Inv s → adm s a → ok s a → Inv (step s a)) (hP : ∀ s, Inv s → P s)
    (hnot : ∀ s a, Inv s → adm s a → ¬ok s a → ¬P (step s a)) (h₀ : Inv s) {ops : List α}
    (hadm : Along step adm s ops) :
    (∀ pre, pre <+: ops → P (run step s pre)) ↔ Along step ok s ops := by
  constructor
  · intro h
    induction ops generalizing s with
    | nil => trivial
    | cons a as ih =>
      have ha : P (step s a) := h [a] (by simp)
      have hok : ok s a := by
        by_contra hc
        exact hnot s a h₀ hadm.1 hc ha
      refine ⟨hok, ih (hstep s a h₀ hadm.1 hok) hadm.2 fun pre hpre => ?_⟩
      exact h (a :: pre) (by simpa using hpre)
  · intro h pre hpre
    induction ops generalizing s pre with
    | nil =>
      rw [List.prefix_nil.mp hpre]
      exact hP s h₀
    | cons a as ih =>
      rcases pre with _ | ⟨b, pre⟩
      · exact hP s h₀
      · obtain ⟨rfl, hpre'⟩ := List.cons_prefix_cons.mp hpre
        exact ih (hstep s b h₀ hadm.1 h.1) hadm.2 h.2 pre hpre'

/-- **The exact condition, from an invariant**: the invariant need not survive the first bad
step, nor hold where the property does. -/
theorem forall_reached_iff_along_of_invariant {Inv P : σ → Prop}
    (hstep : ∀ s a, Inv s → ok s a → Inv (step s a)) (hP : ∀ s, Inv s → P s)
    (hnot : ∀ s a, Inv s → ¬ok s a → ¬P (step s a)) (h₀ : Inv s) (ops : List α) :
    (∀ pre, pre <+: ops → P (run step s pre)) ↔ Along step ok s ops := by
  have hadm : Along step (fun _ _ => True) s ops := along_of_forall (fun _ _ => trivial) ops
  exact forall_reached_iff_along_within (fun s a hs _ => hstep s a hs) hP
    (fun s a hs _ => hnot s a hs) h₀ hadm

end TradingPlatform
