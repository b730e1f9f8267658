import Mathlib

/-!
# Calls that take a lock

A lock that is not reentrant can be taken once: a thread that takes it again while it holds it
waits for itself. What one thread does with something that such a lock guards is a
`TradingPlatform.Call`. It returns a value and leaves a new state, or it blocks for good, and then
nothing that comes after it is done. The whole state is handed on with the flag that says whether
the lock is held, so a call may leave the lock held, and only `TradingPlatform.Call.withLock`
takes it.
-/

namespace TradingPlatform

/-- Something shared, and whether its lock is held. -/
structure Guarded (σ : Type) where
  value : σ
  locked : Bool

/-- What one thread does: it returns, or it blocks. -/
abbrev Call (σ α : Type) := StateT (Guarded σ) Option α

namespace Call

variable {σ α β : Type}

/-- Take the lock. -/
def acquire : Call σ Unit := fun g =>
  if g.locked then none else some ((), { g with locked := true })

def release : Call σ Unit := fun g => some ((), { g with locked := false })

/-- Hold the lock for the time of a call. -/
def withLock (body : Call σ α) : Call σ α := do
  acquire
  let a ← body
  release
  return a

/-- Change what is shared. -/
def update (f : σ → σ) : Call σ Unit := fun g => some ((), { g with value := f g.value })

/-- Read what is shared. -/
def read : Call σ σ := fun g => some (g.value, g)

/-- **The call never returns**: it waits for a lock that only it could give back. -/
def Blocks (call : Call σ α) (g : Guarded σ) : Prop := call g = none

instance (call : Call σ α) (g : Guarded σ) : Decidable (call.Blocks g) :=
  decidable_of_iff ((call g).isNone = true) Option.isNone_iff_eq_none

/-- The call returns a value. -/
def Returns (call : Call σ α) (g : Guarded σ) (a : α) (g' : Guarded σ) : Prop :=
  call g = some (a, g')

theorem Returns.not_blocks {call : Call σ α} {g g' : Guarded σ} {a : α}
    (h : call.Returns g a g') : ¬call.Blocks g := by
  intro hc
  rw [Blocks, show call g = _ from h] at hc
  exact Option.some_ne_none _ hc

/-! ### The rules -/

theorem returns_pure (a : α) (g : Guarded σ) : (pure a : Call σ α).Returns g a g := rfl

theorem returns_update (f : σ → σ) (g : Guarded σ) :
    (update f).Returns g () { g with value := f g.value } := rfl

/-- One call after the other. -/
theorem Returns.bind {call : Call σ α} {next : α → Call σ β} {g g' g'' : Guarded σ} {a : α} {b : β}
    (h : call.Returns g a g') (h' : (next a).Returns g' b g'') :
    (call >>= next).Returns g b g'' := by
  change ((call g).bind fun p => next p.1 p.2) = _
  rw [show call g = _ from h]
  exact h'

/-- What follows a call that blocks is not reached. -/
theorem Blocks.bind {call : Call σ α} {g : Guarded σ} (h : call.Blocks g) (next : α → Call σ β) :
    (call >>= next).Blocks g := by
  change ((call g).bind fun p => next p.1 p.2) = _
  rw [show call g = _ from h]
  rfl

/-- What follows a call may block. -/
theorem Returns.bind_blocks {call : Call σ α} {next : α → Call σ β} {g g' : Guarded σ} {a : α}
    (h : call.Returns g a g') (h' : (next a).Blocks g') : (call >>= next).Blocks g := by
  change ((call g).bind fun p => next p.1 p.2) = _
  rw [show call g = _ from h]
  exact h'

/-- **Taking the lock twice blocks.** -/
theorem blocks_withLock (body : Call σ α) {g : Guarded σ} (h : g.locked = true) :
    (withLock body).Blocks g := by
  have hacquire : acquire.Blocks g := if_pos h
  exact hacquire.bind _

/-- A free lock is taken, and given back when the call returns. -/
theorem Returns.withLock {body : Call σ α} {s s' : σ} {a : α}
    (h : body.Returns ⟨s, true⟩ a ⟨s', true⟩) :
    (withLock body).Returns ⟨s, false⟩ a ⟨s', false⟩ := by
  have hacquire : acquire.Returns (⟨s, false⟩ : Guarded σ) () ⟨s, true⟩ := rfl
  have hrelease : release.Returns (⟨s', true⟩ : Guarded σ) () ⟨s', false⟩ := rfl
  exact hacquire.bind (h.bind (hrelease.bind (returns_pure a _)))

theorem Blocks.withLock {body : Call σ α} {s : σ} (h : body.Blocks ⟨s, true⟩) :
    (Call.withLock body).Blocks ⟨s, false⟩ := by
  have hacquire : acquire.Returns (⟨s, false⟩ : Guarded σ) () ⟨s, true⟩ := rfl
  exact hacquire.bind_blocks (h.bind _)

end Call

end TradingPlatform
