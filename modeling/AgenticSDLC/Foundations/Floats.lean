import Mathlib.Data.Rat.Defs
import Mathlib.Algebra.Order.Ring.Rat
import Mathlib.Order.WithBot

/-!
# Numbers with a NaN

The values of floating point as rationals with two infinities and a NaN.  Every comparison
with a NaN is false, so a comparison that fails says nothing about its opposite.
-/

inductive Number where
  | nan
  | value (x : WithBot (WithTop ℚ))
  deriving DecidableEq

namespace Number

def le : Number → Number → Bool
  | .value x, .value y => x ≤ y
  | _, _ => false

def gt : Number → Number → Bool
  | .value x, .value y => y < x
  | _, _ => false

def ofRat (x : ℚ) : Number := .value ((x : WithTop ℚ) : WithBot (WithTop ℚ))

/-- Not greater is less or equal, or not comparable. -/
theorem gt_eq_false_iff (a b : Number) :
    gt a b = false ↔ le a b = true ∨ a = nan ∨ b = nan := by
  cases a with
  | nan => simp [gt]
  | value x =>
      cases b with
      | nan => simp [gt]
      | value y => simp [gt, le]

theorem not_nan_of_le {a b : Number} (h : le a b = true) : a ≠ nan ∧ b ≠ nan := by
  cases a <;> cases b <;> simp_all [le]

end Number
