import Mathlib.Data.Rat.Floor
import Mathlib.Algebra.Order.Field.Basic
import Mathlib.Tactic.Linarith

/-!
# Rounding to decimals

Python rounds to the nearest decimal, and to the even one of two that are as near.
-/

namespace Rounding

/-- `round(x)`. -/
def halfEven (x : ℚ) : ℤ :=
  let below := ⌊x⌋
  if x - below < 1 / 2 then below
  else if 1 / 2 < x - below then below + 1
  else if below % 2 = 0 then below
  else below + 1

theorem floor_le_halfEven (x : ℚ) : ⌊x⌋ ≤ halfEven x := by
  simp only [halfEven]
  split_ifs <;> omega

theorem halfEven_le_ceil (x : ℚ) : halfEven x ≤ ⌈x⌉ := by
  have hle := Int.floor_le_ceil x
  have hup (h : ¬x - ⌊x⌋ < 1 / 2) : ⌊x⌋ + 1 ≤ ⌈x⌉ := by
    rw [Int.add_one_le_iff, Int.lt_ceil]
    linarith
  simp only [halfEven]
  split_ifs with hlow
  · exact hle
  · exact hup hlow
  · exact hle
  · exact hup hlow

/-- `round(x, digits)`. -/
def round (x : ℚ) (digits : ℕ) : ℚ := halfEven (x * 10 ^ digits) / 10 ^ digits

/-- A share stays one. -/
theorem round_mem_unit {x : ℚ} (hnonneg : 0 ≤ x) (hle : x ≤ 1) (digits : ℕ) :
    0 ≤ round x digits ∧ round x digits ≤ 1 := by
  have hpos : (0 : ℚ) < 10 ^ digits := by positivity
  have hlow : (0 : ℤ) ≤ halfEven (x * 10 ^ digits) :=
    (Int.floor_nonneg.mpr (mul_nonneg hnonneg hpos.le)).trans (floor_le_halfEven _)
  have hhigh : halfEven (x * 10 ^ digits) ≤ ((10 ^ digits : ℕ) : ℤ) := by
    apply (halfEven_le_ceil _).trans
    rw [Int.ceil_le]
    push_cast
    exact mul_le_of_le_one_left hpos.le hle
  constructor
  · exact div_nonneg (Int.cast_nonneg hlow) hpos.le
  · rw [round, div_le_one hpos]
    exact_mod_cast hhigh

/-- `f"{x:.2%}"` of a number that is not negative. -/
def percent (x : ℚ) : String :=
  let hundredths := (halfEven (x * 10000)).toNat
  toString (hundredths / 100) ++ "." ++ toString (hundredths % 100 / 10) ++
    toString (hundredths % 10) ++ "%"

example : percent (2 / 3) = "66.67%" := by decide +kernel

end Rounding
