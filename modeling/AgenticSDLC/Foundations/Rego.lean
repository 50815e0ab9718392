import AgenticSDLC.Foundations.Json
import AgenticSDLC.Foundations.Text

/-!
# The fragment of Rego used by merge policies

A Rego term denotes a JSON value or is undefined, `none`.  A reference through
a missing key is undefined, an expression over an undefined term is undefined,
and an expression holds when it is defined and not `false`.  A rule that builds
a set is the list of the values its bodies produce.
-/

namespace Rego

/-- The value of a term, `none` when it is undefined. -/
abbrev Term := Option Json

/-- `object.key`: only an object has string keys. -/
def ref : Term → String → Term
  | some (.obj members), key => members.lookup key
  | _, _ => none

/-- The values `some x in collection` binds: the elements of an array, the
values of an object, and nothing else. -/
def membersOf : Term → List Json
  | some (.arr items) => items
  | some (.obj members) => members.map Prod.snd
  | _ => []

def holds : Term → Bool
  | none | some (.bool false) => false
  | _ => true

/-- `not expression`. -/
def negation (t : Term) : Bool := !holds t

/-- `a == b`, for terms that are never numbers of two kinds. -/
def eq (a b : Term) : Term := do return .bool ((← a) = (← b))

def neq (a b : Term) : Term := do return .bool ((← a) ≠ (← b))

def isString : Term → Term
  | some (.str _) => some (.bool true)
  | some _ => some (.bool false)
  | none => none

/-- Unicode white space, which is what `trim_space` removes. -/
def isSpace (c : Char) : Bool :=
  let n := c.toNat
  (9 ≤ n && n ≤ 13) || n == 32 || n == 0x85 || n == 0xA0 || n == 0x1680 ||
    (0x2000 ≤ n && n ≤ 0x200A) || n == 0x2028 || n == 0x2029 || n == 0x202F ||
    n == 0x205F || n == 0x3000

def trimSpaceText (s : String) : String := Text.trim isSpace s

/-- `trim_space(x)`, undefined off strings. -/
def trimSpace : Term → Term
  | some (.str s) => some (.str (trimSpaceText s))
  | _ => none

/-- `lower(x)` on ASCII text, undefined off strings. -/
def lower : Term → Term
  | some (.str s) => some (.str (Text.asciiLower s))
  | _ => none

/-- ``regex.match(`^[\x00-\x7f]+$`, x)``, undefined off strings. -/
def matchAscii : Term → Term
  | some (.str s) => some (.bool (s ≠ "" && Text.isAscii s))
  | _ => none

/-- `object.get(object, key, default)`, undefined off objects. -/
def objectGet : Term → String → Json → Term
  | some (.obj members), key, default => some ((members.lookup key).getD default)
  | _, _, _ => none

@[simp] theorem holds_none : holds none = false := rfl

@[simp] theorem holds_bool (b : Bool) : holds (some (.bool b)) = b := by
  cases b <;> rfl

@[simp] theorem holds_str (s : String) : holds (some (.str s)) = true := rfl

@[simp] theorem holds_obj (members : List (String × Json)) :
    holds (some (.obj members)) = true := rfl

@[simp] theorem ref_obj (members : List (String × Json)) (key : String) :
    ref (some (.obj members)) key = members.lookup key := rfl

@[simp] theorem ref_none (key : String) : ref none key = none := rfl

theorem exists_of_ref_eq_some {t : Term} {key : String} {value : Json}
    (h : ref t key = some value) :
    ∃ members, t = some (.obj members) ∧ members.lookup key = some value := by
  match t, h with
  | some (.obj members), h => exact ⟨members, rfl, h⟩

@[simp] theorem eq_some (t : Term) (value : Json) :
    holds (eq t (some value)) = decide (t = some value) := by
  cases t with
  | none => rfl
  | some v => simp [eq]

@[simp] theorem neq_some (t : Term) (value : Json) :
    holds (neq t (some value)) = decide (∃ v, t = some v ∧ v ≠ value) := by
  cases t with
  | none => simp [neq]
  | some v => simp [neq]

end Rego
