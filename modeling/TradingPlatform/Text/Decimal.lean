import Mathlib

/-!
# Decimals

A decimal floating-point number has a sign, a coefficient and an exponent, so that `1.0` and
`1.00` are two numbers of one value. `TradingPlatform.FiniteDecimal` is what an implementation
with bounded exponents holds, `TradingPlatform.DecimalValue` has the infinities and the
not-a-numbers too.
-/

namespace TradingPlatform

def maxPrec : ℕ := 999999999999999999
def maxEmax : ℤ := 999999999999999999
def minEtiny : ℤ := -1999999999999999997

/-- The digits of the coefficient are not too many, and the exponent is neither too large nor too
small for it. -/
def DecimalInRange (coefficient : ℕ) (exponent : ℤ) : Prop :=
  (Nat.toDigits 10 coefficient).length ≤ maxPrec ∧ minEtiny ≤ exponent ∧
    exponent + (Nat.toDigits 10 coefficient).length - 1 ≤ maxEmax

instance (coefficient : ℕ) (exponent : ℤ) : Decidable (DecimalInRange coefficient exponent) :=
  inferInstanceAs (Decidable (_ ∧ _ ∧ _))

structure FiniteDecimal where
  negative : Bool
  coefficient : ℕ
  exponent : ℤ
  inRange : DecimalInRange coefficient exponent
  deriving DecidableEq

/-- A decimal, finite or not. -/
inductive DecimalValue
  | finite (d : FiniteDecimal)
  | infinity (negative : Bool)
  | nan (negative signaling : Bool) (payload : List Char)
  deriving DecidableEq

namespace FiniteDecimal

variable (d : FiniteDecimal)

/-- The value of a decimal. -/
def toRat : ℚ :=
  (if d.negative then -1 else 1) * d.coefficient * (10 : ℚ) ^ d.exponent

/-- The decimal zero. -/
def zero : FiniteDecimal := ⟨false, 0, 0, by decide⟩

@[simp] theorem toRat_zero : zero.toRat = 0 := by
  simp [toRat, zero]

end FiniteDecimal

end TradingPlatform
