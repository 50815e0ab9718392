import AgenticSDLC.Foundations.Json
import AgenticSDLC.Foundations.Text
import Mathlib.Data.List.Sort
import Mathlib.Order.Lex

/-!
# Python's reading of JSON values

The part of Python that code over parsed JSON uses: dictionary lookups,
iteration, truth, white space, and the exceptions these raise.  `None` and the
JSON `null` are one value, as they are in Python.
-/

namespace Python

/-- An exception, by `type(exc).__name__` and `str(exc)`. -/
structure Exception where
  name : String
  detail : String
  deriving DecidableEq

def Exception.text (exc : Exception) : String := exc.name ++ ": " ++ exc.detail

/-- The library functions no result depends on the inside of: `repr` of a JSON
value, the hex digest of a text's UTF-8, and `datetime.fromisoformat`, which
either fails or says whether the timestamp carries an offset. -/
structure Stdlib where
  repr : Json → String
  sha256 : String → String
  fromisoformat : String → Option Bool

def typeName : Json → String
  | .null => "NoneType"
  | .bool _ => "bool"
  | .int _ => "int"
  | .float _ => "float"
  | .str _ => "str"
  | .arr _ => "list"
  | .obj _ => "dict"

def noAttribute (value : Json) (field : String) : Exception :=
  ⟨"AttributeError",
    "'" ++ typeName value ++ "' object has no attribute '" ++ field ++ "'"⟩

def notIterable (value : Json) : Exception :=
  ⟨"TypeError", "'" ++ typeName value ++ "' object is not iterable"⟩

def unhashable (value : Json) : Exception :=
  ⟨"TypeError", "unhashable type: '" ++ typeName value ++ "'"⟩

def truthy : Json → Bool
  | .null => false
  | .bool b => b
  | .int n => n != 0
  | .float x => !x.isZero
  | .str s => s != ""
  | .arr items => !items.isEmpty
  | .obj members => !members.isEmpty

/-- `d.get(key)` on a dictionary; a missing key reads as `None`. -/
def get (members : List (String × Json)) (key : String) : Json :=
  (members.lookup key).getD .null

def getD (members : List (String × Json)) (key : String) (default : Json) : Json :=
  (members.lookup key).getD default

/-- `value.get`, which only dictionaries have. -/
def asDict : Json → Except Exception (List (String × Json))
  | .obj members => .ok members
  | value => .error (noAttribute value "get")

/-- `value[key]` for a string key. -/
def subscript (value : Json) (key : String) : Except Exception Json :=
  match value with
  | .obj members =>
      match members.lookup key with
      | some member => .ok member
      | none => .error ⟨"KeyError", "'" ++ key ++ "'"⟩
  | .str _ => .error ⟨"TypeError", "string indices must be integers, not 'str'"⟩
  | .arr _ => .error ⟨"TypeError", "list indices must be integers or slices, not str"⟩
  | value => .error ⟨"TypeError", "'" ++ typeName value ++ "' object is not subscriptable"⟩

/-- What a `for` loop over `value` runs through. -/
def iterate : Json → Except Exception (List Json)
  | .arr items => .ok items
  | .obj members => .ok (members.map fun m ↦ .str m.1)
  | .str s => .ok (s.toList.map fun c ↦ .str c.toString)
  | value => .error (notIterable value)

def str (repr : Json → String) : Json → String
  | .str s => s
  | value => repr value

/-- The hash key of a scalar.  Numbers and booleans are one key when they are
equal as numbers. -/
inductive Key where
  | none
  | number (value : ℚ)
  | str (value : String)
  deriving DecidableEq

/-- The dictionary key a value stands for; lists and dictionaries have none. -/
def hashKey : Json → Except Exception Key
  | .null => .ok .none
  | .bool b => .ok (.number (if b then 1 else 0))
  | .int n => .ok (.number n)
  | .float x => .ok (.number x.toRat)
  | .str s => .ok (.str s)
  | value => .error (unhashable value)

/-- Lists and dictionaries have no hash. -/
def Hashable (value : Json) : Prop := ∃ key, hashKey value = .ok key

/-- `c.isspace()`: the Unicode white space, and the four information separators. -/
def isspace (c : Char) : Bool :=
  let n := c.toNat
  (9 ≤ n && n ≤ 13) || (28 ≤ n && n ≤ 32) || n == 0x85 || n == 0xA0 || n == 0x1680 ||
    (0x2000 ≤ n && n ≤ 0x200A) || n == 0x2028 || n == 0x2029 || n == 0x202F ||
    n == 0x205F || n == 0x3000

def strip (s : String) : String := Text.trim isspace s

/-- `s.casefold()` of an ASCII text. -/
def casefold (s : String) : String := Text.asciiLower s

/-- Stable `sorted(values, key=key)` over string keys. -/
def sortedBy {α : Type} (key : α → String) (values : List α) : List α :=
  values.insertionSort fun a b ↦ key a ≤ key b

theorem perm_sortedBy {α : Type} (key : α → String) (values : List α) :
    (sortedBy key values).Perm values :=
  List.perm_insertionSort _ values

@[simp] theorem mem_sortedBy {α : Type} (key : α → String) (values : List α) (a : α) :
    a ∈ sortedBy key values ↔ a ∈ values :=
  List.mem_insertionSort _

@[simp] theorem sortedBy_eq_nil {α : Type} (key : α → String) (values : List α) :
    sortedBy key values = [] ↔ values = [] := by
  rw [← List.length_eq_zero_iff, sortedBy, List.length_insertionSort,
    List.length_eq_zero_iff]

@[simp] theorem sortedBy_sortedBy {α : Type} (key : α → String) (values : List α) :
    sortedBy key (sortedBy key values) = sortedBy key values := by
  have : Std.Total fun a b : α ↦ key a ≤ key b := ⟨fun a b ↦ String.le_total (key a) (key b)⟩
  have : IsTrans α fun a b ↦ key a ≤ key b := ⟨fun _ _ _ ↦ String.le_trans⟩
  exact (List.pairwise_insertionSort (fun a b : α ↦ key a ≤ key b) values).insertionSort_eq

/-- `values[-n:]`, for a positive `n`. -/
def lastItems {α : Type} (n : ℕ) : List α → List α
  | [] => []
  | a :: values => if n < (a :: values).length then lastItems n values else a :: values

theorem lastItems_suffix {α : Type} (n : ℕ) (values : List α) : lastItems n values <:+ values := by
  induction values with
  | nil => exact List.suffix_rfl
  | cons a values ih =>
      rw [lastItems]
      split_ifs
      · exact ih.trans (List.suffix_cons a values)
      · exact List.suffix_rfl

theorem lastItems_of_length_le {α : Type} {n : ℕ} {values : List α} (h : values.length ≤ n) :
    lastItems n values = values := by
  cases values with
  | nil => rfl
  | cons a values => exact if_neg (Nat.not_lt.mpr h)

theorem mem_lastItems_append {α : Type} {n : ℕ} (hn : 0 < n) (values : List α) (a : α) :
    a ∈ lastItems n (values ++ [a]) := by
  induction values with
  | nil => simp [lastItems, Nat.not_lt.mpr hn]
  | cons b values ih =>
      rw [List.cons_append, lastItems]
      split_ifs
      · exact ih
      · simp

theorem hashKey_eq_str_iff {value : Json} {text : String} :
    hashKey value = .ok (.str text) ↔ value = .str text := by
  cases value <;> simp [hashKey]

theorem get_eq_iff_of_ne_null {members : List (String × Json)} {key : String} {value : Json}
    (hvalue : value ≠ .null) :
    get members key = value ↔ members.lookup key = some value := by
  cases h : members.lookup key with
  | none => simp [get, h, hvalue.symm]
  | some v => simp [get, h]

theorem subscript_eq_ok_iff {value member : Json} {key : String} :
    subscript value key = .ok member ↔
      ∃ members, value = .obj members ∧ members.lookup key = some member := by
  cases value with
  | obj members => cases h : members.lookup key <;> simp [subscript, h]
  | _ => simp [subscript]

theorem subscript_obj_eq_ok_iff {members : List (String × Json)} {key : String} {member : Json} :
    subscript (.obj members) key = .ok member ↔ members.lookup key = some member := by
  simp [subscript_eq_ok_iff]

/-! ## Equality -/

mutual

/-- A value by which Python's `==` goes: booleans and integral floats as integers,
and dictionaries without the order of their keys. -/
def canonical : Json → Json
  | .bool b => .int (if b then 1 else 0)
  | .float x => if x.toRat.den = 1 then .int x.toRat.num else .float x
  | .arr items => .arr (canonicalItems items)
  | .obj members => .obj (sortedBy Prod.fst (canonicalMembers members))
  | value => value

def canonicalItems : List Json → List Json
  | [] => []
  | item :: items => canonical item :: canonicalItems items

def canonicalMembers : List (String × Json) → List (String × Json)
  | [] => []
  | (key, value) :: members => (key, canonical value) :: canonicalMembers members

end

/-- `a == b`. -/
def eq (a b : Json) : Bool := canonical a = canonical b

theorem eq_iff (a b : Json) : eq a b = true ↔ canonical a = canonical b := by simp [eq]

@[simp] theorem eq_self (a : Json) : eq a a = true := by simp [eq]

theorem eq_comm (a b : Json) : eq a b = eq b a := by simp [eq, Eq.comm]

theorem eq_str_iff {value : Json} {text : String} : eq value (.str text) = true ↔ value = .str text := by
  rw [eq_iff]
  cases value with
  | float x =>
      simp only [canonical]
      split <;> simp
  | _ => simp [canonical]

/-! ## Order -/

def number? : Json → Option ℚ
  | .bool b => some (if b then 1 else 0)
  | .int n => some n
  | .float x => some x.toRat
  | _ => none

def notComparable (a b : Json) : Exception :=
  ⟨"TypeError", "'<' not supported between instances of '" ++ typeName a ++ "' and '" ++
    typeName b ++ "'"⟩

mutual

/-- `a < b`. -/
def less : Json → Json → Except Exception Bool
  | .arr items, .arr others => lessItems items others
  | .str s, .str t => .ok (s < t)
  | a, b =>
      match number? a, number? b with
      | some x, some y => .ok (x < y)
      | _, _ => .error (notComparable a b)

def lessItems : List Json → List Json → Except Exception Bool
  | _, [] => .ok false
  | [], _ :: _ => .ok true
  | item :: items, other :: others =>
      if eq item other then lessItems items others else less item other

end

/-- Put an item before the first one that is not less. -/
def insertByKey {α : Type} (item : Json × α) :
    List (Json × α) → Except Exception (List (Json × α))
  | [] => .ok [item]
  | other :: items => do
      if ← less other.1 item.1 then return other :: (← insertByKey item items)
      else return item :: other :: items

/-- Stable `sorted` of items by their keys. -/
def sortByKey {α : Type} : List (Json × α) → Except Exception (List (Json × α))
  | [] => .ok []
  | item :: items => do insertByKey item (← sortByKey items)

theorem less_int (m n : ℤ) : less (.int m) (.int n) = .ok (m < n) := by
  have hcast : ((m : ℚ) < (n : ℚ)) ↔ m < n := Rat.intCast_lt_intCast
  simp [less, number?, hcast]

section SortByKey

variable {α β : Type} {le : α → α → Prop} [DecidableRel le] {key : α → Json}

/-- Where the keys are compared by a relation, an item is put where that relation has it. -/
theorem insertByKey_map (hless : ∀ a b, less (key a) (key b) = .ok (!decide (le b a))) (f : α → β)
    (item : α) (items : List α) :
    insertByKey (key item, f item) (items.map fun a ↦ (key a, f a)) =
      .ok ((items.orderedInsert le item).map fun a ↦ (key a, f a)) := by
  induction items with
  | nil => rfl
  | cons other items ih =>
      rw [List.map_cons, insertByKey, hless, List.orderedInsert_cons]
      by_cases hle : le item other
      · simp only [hle, decide_true, Bool.not_true]
        rfl
      · simp only [hle, decide_false, Bool.not_false, ih]
        rfl

theorem sortByKey_map (hless : ∀ a b, less (key a) (key b) = .ok (!decide (le b a))) (f : α → β)
    (items : List α) :
    sortByKey (items.map fun a ↦ (key a, f a)) =
      .ok ((items.insertionSort le).map fun a ↦ (key a, f a)) := by
  induction items with
  | nil => rfl
  | cons item items ih =>
      rw [List.map_cons, sortByKey, ih, List.insertionSort_cons]
      exact insertByKey_map hless f item _

end SortByKey

/-- On integer keys the sort is the ordinary one. -/
theorem sortByKey_int {α β : Type} (key : α → ℤ) (f : α → β) (items : List α) :
    sortByKey (items.map fun a ↦ (.int (key a), f a)) =
      .ok ((items.insertionSort fun a b ↦ key a ≤ key b).map fun a ↦ (.int (key a), f a)) := by
  apply sortByKey_map _ f items
  intro a b
  rw [less_int, ← decide_not]
  congr 2
  exact propext not_le.symm

theorem sortByKey_str {α β : Type} (key : α → String) (f : α → β) (items : List α) :
    sortByKey (items.map fun a ↦ (.str (key a), f a)) =
      .ok ((sortedBy key items).map fun a ↦ (.str (key a), f a)) := by
  apply sortByKey_map _ f items
  intro a b
  rw [less, ← decide_not]
  congr 2
  exact propext String.not_le.symm

end Python
