import Mathlib.Data.Rat.Defs
import Mathlib.Data.List.Basic

/-!
# JSON values

A JSON document as a parser hands it on: an object is the list of its members
in the order they were written, and a number is either an integer or a finite
float.  Nothing here belongs to one host language; the two evaluators that read
these trees are in the modules on Python and on Rego.
-/

/-- A finite float, by the shortest decimal `± digits * 10 ^ exponent` that
denotes it.  The decimal is reduced, so two equal floats are equal structures
(the two zeros apart). -/
structure Decimal where
  negative : Bool
  digits : ℕ
  exponent : ℤ
  reduced : if digits = 0 then exponent = 0 else digits % 10 ≠ 0
  deriving DecidableEq

namespace Decimal

def zero : Decimal := ⟨false, 0, 0, rfl⟩

def isZero (x : Decimal) : Bool := x.digits == 0

/-- `x < 0`; the negative zero is not below zero. -/
def isNegative (x : Decimal) : Bool := x.negative && !x.isZero

def magnitude (x : Decimal) : ℚ :=
  if 0 ≤ x.exponent then x.digits * (10 : ℚ) ^ x.exponent.toNat
  else x.digits / (10 : ℚ) ^ (-x.exponent).toNat

def toRat (x : Decimal) : ℚ := if x.negative then -x.magnitude else x.magnitude

end Decimal

inductive Json where
  | null
  | bool (value : Bool)
  | int (value : ℤ)
  | float (value : Decimal)
  | str (value : String)
  | arr (items : List Json)
  | obj (members : List (String × Json))

namespace Json

mutual

def decEq : (a b : Json) → Decidable (a = b)
  | .null, .null => isTrue rfl
  | .bool a, .bool b => decidable_of_iff (a = b) (by simp)
  | .int a, .int b => decidable_of_iff (a = b) (by simp)
  | .float a, .float b => decidable_of_iff (a = b) (by simp)
  | .str a, .str b => decidable_of_iff (a = b) (by simp)
  | .arr as, .arr bs =>
      have := decEqItems as bs
      decidable_of_iff (as = bs) (by simp)
  | .obj as, .obj bs =>
      have := decEqMembers as bs
      decidable_of_iff (as = bs) (by simp)
  | .null, .bool _ | .null, .int _ | .null, .float _ | .null, .str _
  | .null, .arr _ | .null, .obj _ => isFalse (by simp)
  | .bool _, .null | .bool _, .int _ | .bool _, .float _ | .bool _, .str _
  | .bool _, .arr _ | .bool _, .obj _ => isFalse (by simp)
  | .int _, .null | .int _, .bool _ | .int _, .float _ | .int _, .str _
  | .int _, .arr _ | .int _, .obj _ => isFalse (by simp)
  | .float _, .null | .float _, .bool _ | .float _, .int _ | .float _, .str _
  | .float _, .arr _ | .float _, .obj _ => isFalse (by simp)
  | .str _, .null | .str _, .bool _ | .str _, .int _ | .str _, .float _
  | .str _, .arr _ | .str _, .obj _ => isFalse (by simp)
  | .arr _, .null | .arr _, .bool _ | .arr _, .int _ | .arr _, .float _
  | .arr _, .str _ | .arr _, .obj _ => isFalse (by simp)
  | .obj _, .null | .obj _, .bool _ | .obj _, .int _ | .obj _, .float _
  | .obj _, .str _ | .obj _, .arr _ => isFalse (by simp)

def decEqItems : (as bs : List Json) → Decidable (as = bs)
  | [], [] => isTrue rfl
  | a :: as, b :: bs =>
      have := decEq a b
      have := decEqItems as bs
      decidable_of_iff (a = b ∧ as = bs) (by simp)
  | [], _ :: _ | _ :: _, [] => isFalse (by simp)

def decEqMembers : (as bs : List (String × Json)) → Decidable (as = bs)
  | [], [] => isTrue rfl
  | (k, a) :: as, (l, b) :: bs =>
      have := decEq a b
      have := decEqMembers as bs
      decidable_of_iff (k = l ∧ a = b ∧ as = bs) (by simp [and_assoc])
  | [], _ :: _ | _ :: _, [] => isFalse (by simp)

end

instance : DecidableEq Json := decEq

instance : Inhabited Json := ⟨.null⟩

def object? : Json → Option (List (String × Json))
  | .obj members => some members
  | _ => none

def objects (values : List Json) : List (List (String × Json)) := values.filterMap object?

@[simp] theorem mem_objects {values : List Json} {members : List (String × Json)} :
    members ∈ objects values ↔ .obj members ∈ values := by
  simp only [objects, List.mem_filterMap]
  constructor
  · rintro ⟨value, hvalue, hmembers⟩
    cases value with
    | obj other => simpa [← Option.some.inj hmembers] using hvalue
    | _ => simp [object?] at hmembers
  · exact fun h ↦ ⟨.obj members, h, rfl⟩

end Json
