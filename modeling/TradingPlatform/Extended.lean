import Mathlib

/-!
# Numbers that may be infinite, or none, with operations that trap

A decimal arithmetic has infinities and not-a-numbers beside its finite numbers, and an operation
without a result raises an exception if it is trapped. `TradingPlatform.Extended` has the numbers,
over any ordered field, and the operations return nothing where they trap. A not-a-number passes
through the arithmetic, unless it is a signalling one, and every comparison with it traps.

What is said of the operations here is that they do not depend on the unit the numbers are
measured in (`TradingPlatform.Extended.scale`): a quotient of two of them stays what it is.
-/

namespace TradingPlatform

/-- A number of a decimal arithmetic. -/
inductive Extended (K : Type*)
  | finite (x : K)
  | infinity (negative : Bool)
  | nan (signaling : Bool)
  deriving DecidableEq

namespace Extended

variable {K : Type*}

/-- The finite number it is, if it is one. -/
def toFinite? : Extended K → Option K
  | .finite x => some x
  | .infinity _ | .nan _ => none

@[simp] theorem toFinite?_finite (x : K) : (finite x).toFinite? = some x := rfl

section Operations

variable [Field K] [LinearOrder K]

def add? : Extended K → Extended K → Option (Extended K)
  | .finite x, .finite y => some (.finite (x + y))
  | .infinity a, .infinity b => if a = b then some (.infinity a) else none
  | .infinity a, .finite _ | .finite _, .infinity a => some (.infinity a)
  | .nan true, _ | _, .nan true => none
  | .nan false, _ | _, .nan false => some (.nan false)

/-- The sum of a list, which begins with zero. -/
def sum? (l : List (Extended K)) : Option (Extended K) := l.foldlM add? (.finite 0)

def div? : Extended K → Extended K → Option (Extended K)
  | .finite x, .finite y => if y = 0 then none else some (.finite (x / y))
  | .infinity _, .infinity _ => none
  | .infinity a, .finite y => some (.infinity (a != decide (y < 0)))
  | .finite _, .infinity _ => some (.finite 0)
  | .nan true, _ | _, .nan true => none
  | .nan false, _ | _, .nan false => some (.nan false)

/-- Whether a number is greater than zero. -/
def isPos? : Extended K → Option Bool
  | .finite x => some (decide (0 < x))
  | .infinity negative => some !negative
  | .nan _ => none

/-- The number between two bounds that is closest. -/
def clamp? (lo hi : K) : Extended K → Option K
  | .finite x => some (max lo (min hi x))
  | .infinity negative => some (if negative then lo else max lo hi)
  | .nan _ => none

/-- The number in another unit, of which there are so many to one. -/
def scale (c : K) : Extended K → Extended K
  | .finite x => .finite (c * x)
  | .infinity negative => .infinity negative
  | .nan signaling => .nan signaling

end Operations

@[simp] theorem scale_finite [Field K] (c x : K) : (finite x).scale c = finite (c * x) := rfl

@[simp] theorem add?_finite [Field K] (x y : K) :
    (finite x).add? (finite y) = some (finite (x + y)) := rfl

@[simp] theorem clamp?_finite [LinearOrder K] (lo hi x : K) :
    (finite x).clamp? lo hi = some (max lo (min hi x)) := rfl

/-- A sum of finite numbers. -/
theorem sum?_finite [Field K] (l : List K) : sum? (l.map finite) = some (finite l.sum) := by
  have hfold : ∀ (l : List K) (x : K),
      (l.map finite).foldlM add? (finite x) = some (finite (x + l.sum)) := by
    intro l
    induction l with
    | nil => simp
    | cons y l ih =>
      intro x
      rw [List.map_cons, List.foldlM_cons, add?_finite, Option.bind_eq_bind, Option.bind_some, ih,
        List.sum_cons, add_assoc]
  rw [sum?, hfold, zero_add]

variable [Field K] [LinearOrder K]

theorem div?_finite (x : K) {y : K} (hy : y ≠ 0) :
    (finite x).div? (finite y) = some (finite (x / y)) := if_neg hy

variable [IsStrictOrderedRing K]

/-- Whether a number is positive does not depend on the unit. -/
theorem isPos?_scale {c : K} (hc : 0 < c) (x : Extended K) : (x.scale c).isPos? = x.isPos? := by
  cases x with
  | finite x => exact congrArg some (decide_eq_decide.mpr (mul_pos_iff_of_pos_left hc))
  | infinity negative => rfl
  | nan signaling => rfl

/-- **A quotient does not depend on the unit.** -/
theorem div?_scale {c : K} (hc : 0 < c) (x y : Extended K) :
    (x.scale c).div? (y.scale c) = x.div? y := by
  cases x with
  | finite x =>
    cases y with
    | finite y =>
      rw [scale_finite, scale_finite, div?, div?, mul_div_mul_left x y hc.ne']
      simp only [mul_eq_zero, hc.ne', false_or]
    | infinity negative => rfl
    | nan signaling => cases signaling <;> rfl
  | infinity negative =>
    cases y with
    | finite y =>
      have hneg : c * y < 0 ↔ y < 0 :=
        ⟨fun h => (pos_iff_neg_of_mul_neg h).mp hc, mul_neg_of_pos_of_neg hc⟩
      simp only [scale, div?, hneg]
    | infinity negative' => rfl
    | nan signaling => cases signaling <;> rfl
  | nan signaling =>
    cases signaling <;> cases y with
    | finite y => rfl
    | infinity negative => rfl
    | nan signaling => cases signaling <;> rfl

end Extended

end TradingPlatform
