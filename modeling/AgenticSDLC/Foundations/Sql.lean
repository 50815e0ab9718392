import AgenticSDLC.Foundations.Dict
import AgenticSDLC.Foundations.Keyed
import AgenticSDLC.Foundations.Outcome
import AgenticSDLC.Foundations.Python

/-!
# Rows of SQL tables

The part of SQLite that a store of plain inserts needs.  A bound value takes on the
affinity of its column, a row is checked before it is stored, and an insert whose key is
there already updates the row of the key.  How numbers are written as text and read from
it is the engine's.
-/

namespace Sql

open Python (Exception)

inductive Value where
  | null
  | integer (n : ℤ)
  | real (x : Decimal)
  | text (s : String)
  deriving DecidableEq

structure Engine where
  realText : Decimal → String
  realText_digit : ∀ x, ∃ c ∈ (realText x).toList, c.isDigit = true
  /-- The number that a text reads as, if it is one. -/
  numeral : String → Option Value
  /-- The integer that a real is, if it is one. -/
  realInteger : Decimal → Option ℤ
  integerReal : ℤ → Decimal

inductive Affinity where
  | text
  | integer
  | real

/-- The integers of 64 bits. -/
def IsInt64 (n : ℤ) : Prop := -9223372036854775808 ≤ n ∧ n < 9223372036854775808

instance (n : ℤ) : Decidable (IsInt64 n) := inferInstanceAs (Decidable (_ ∧ _))

/-- The value of a parameter, by its place in the statement. -/
def bind (place : ℕ) : Json → Except Exception Value
  | .null => .ok .null
  | .bool b => .ok (.integer (if b then 1 else 0))
  | .int n =>
      if IsInt64 n then .ok (.integer n)
      else .error ⟨"OverflowError", "Python int too large to convert to SQLite INTEGER"⟩
  | .float x => .ok (.real x)
  | .str s => .ok (.text s)
  | value => .error ⟨"ProgrammingError", "Error binding parameter " ++ toString place ++
      ": type '" ++ Python.typeName value ++ "' is not supported"⟩

abbrev Row := List (String × Value)

/-- A row's value in a column; a missing one is NULL. -/
def Row.get (row : Row) (name : String) : Value := (row.lookup name).getD .null

def bindAll : ℕ → List (String × Json) → Except Exception Row
  | _, [] => .ok []
  | place, (name, value) :: params => do
      let value ← bind place value
      let rest ← bindAll (place + 1) params
      return (name, value) :: rest

structure Column where
  name : String
  affinity : Affinity
  notNull : Bool
  default : Value

/-- A constraint by its text; it holds where SQL has it true or NULL. -/
structure Check where
  text : String
  holds : Row → Bool

structure Table where
  name : String
  columns : List Column
  checks : List Check
  nodup : (columns.map Column.name).Nodup

def integrityError (detail : String) : Exception := ⟨"IntegrityError", detail⟩

/-- `name IN (values)`, of a text column. -/
def Check.isIn (text name : String) (values : List String) : Check :=
  ⟨text, fun row ↦ row.get name = .null || values.any fun value ↦ row.get name = .text value⟩

/-- `name IN (0, 1)`. -/
def Check.isBit (text name : String) : Check :=
  ⟨text, fun row ↦ row.get name = .null || row.get name = .integer 0 || row.get name = .integer 1⟩

section Rows

variable (engine : Engine)

def Affinity.apply : Affinity → Value → Value
  | .text, .integer n => .text (toString n)
  | .text, .real x => .text (engine.realText x)
  | .integer, .text s => (engine.numeral s).getD (.text s)
  | .integer, .real x => ((engine.realInteger x).map Value.integer).getD (.real x)
  | .real, .integer n => .real (engine.integerReal n)
  | .real, .text s =>
      match engine.numeral s with
      | some (.integer n) => .real (engine.integerReal n)
      | some value => value
      | none => .text s
  | _, value => value

def Column.stored (values : Row) (column : Column) : Value :=
  column.affinity.apply engine ((values.lookup column.name).getD column.default)

def Table.fill (table : Table) (values : Row) : Row :=
  table.columns.map fun column ↦ (column.name, column.stored engine values)

/-- The row that is stored for the values, or the constraint that they break. -/
def Table.row (table : Table) (values : Row) : Except Exception Row :=
  match table.columns.find? fun column ↦ column.notNull && column.stored engine values = .null with
  | some column =>
      .error (integrityError ("NOT NULL constraint failed: " ++ table.name ++ "." ++ column.name))
  | none =>
      match table.checks.find? fun check ↦ !check.holds (table.fill engine values) with
      | some check => .error (integrityError ("CHECK constraint failed: " ++ check.text))
      | none => .ok (table.fill engine values)

end Rows

/-- The row with the old values of the columns that are not updated. -/
def Row.merge (updated : List String) (old new : Row) : Row :=
  new.map fun item ↦ if item.1 ∈ updated then item else (item.1, old.get item.1)

/-- `INSERT ... ON CONFLICT (key) DO UPDATE SET column = excluded.column, ...`; both rows
have passed the checks of their columns.  A NULL is in conflict with nothing. -/
def upsert (key : String) (updated : List String) (row : Row) (rows : List Row) : List Row :=
  if row.get key ≠ .null ∧ ∃ old ∈ rows, old.get key = row.get key then
    rows.map fun old ↦ if old.get key = row.get key then Row.merge updated old row else old
  else rows ++ [row]

/-- The row with the value in the key column. -/
def rowOf (key : String) (value : Value) (rows : List Row) : Option Row :=
  rows.find? fun row ↦ row.get key = value

/-- A foreign key refers to a row, or is NULL. -/
def refers (value : Value) (key : String) (rows : List Row) : Prop :=
  value = .null ∨ ∃ row ∈ rows, row.get key = value

instance (value : Value) (key : String) (rows : List Row) : Decidable (refers value key rows) :=
  inferInstanceAs (Decidable (value = .null ∨ ∃ row ∈ rows, row.get key = value))

/-! ## Values and rows -/

variable {engine : Engine}

theorem apply_text_text (s : String) : Affinity.text.apply engine (.text s) = .text s := rfl

@[simp] theorem apply_null (affinity : Affinity) : affinity.apply engine .null = .null := by
  cases affinity <;> rfl

theorem lookup_map_of_nodup {columns : List Column} (hnodup : (columns.map Column.name).Nodup)
    (f : Column → Value) {column : Column} (hmem : column ∈ columns) :
    (columns.map fun other ↦ (other.name, f other)).lookup column.name = some (f column) := by
  induction columns with
  | nil => cases hmem
  | cons first columns ih =>
      rw [List.map_cons, List.nodup_cons] at hnodup
      rw [List.map_cons, Dict.lookup_cons]
      rcases List.mem_cons.mp hmem with rfl | hrest
      · exact if_pos rfl
      · have hne : column.name ≠ first.name := fun hsame ↦
          hnodup.1 (hsame ▸ List.mem_map_of_mem hrest)
        rw [if_neg hne]
        exact ih hnodup.2 hrest

theorem get_fill {table : Table} (values : Row) {column : Column} (hmem : column ∈ table.columns) :
    (table.fill engine values).get column.name = column.stored engine values := by
  rw [Row.get, Table.fill, lookup_map_of_nodup table.nodup _ hmem, Option.getD_some]

theorem names_fill (table : Table) (values : Row) :
    (table.fill engine values).map Prod.fst = table.columns.map Column.name := by
  simp [Table.fill]

/-- A row is stored just when it meets the constraints. -/
theorem row_eq_ok_iff {table : Table} {values row : Row} :
    table.row engine values = .ok row ↔ table.fill engine values = row ∧
      (∀ column ∈ table.columns, column.notNull = true → column.stored engine values ≠ .null) ∧
      ∀ check ∈ table.checks, check.holds (table.fill engine values) = true := by
  rw [Table.row]
  constructor
  · intro h
    split at h
    · cases h
    · rename_i hnull
      split at h
      · cases h
      · rename_i hcheck
        refine ⟨Except.ok.inj h, fun column hcolumn hnot hvalue ↦ ?_, fun check hmem ↦ ?_⟩
        · have hno := List.find?_eq_none.mp hnull column hcolumn
          simp [hnot, hvalue] at hno
        · have hno := List.find?_eq_none.mp hcheck check hmem
          simpa using hno
  · rintro ⟨hrow, hnull, hcheck⟩
    have hnonull : table.columns.find? (fun column ↦
        column.notNull && column.stored engine values = .null) = none := by
      refine List.find?_eq_none.mpr fun column hcolumn hyes ↦ ?_
      rw [Bool.and_eq_true] at hyes
      exact hnull column hcolumn hyes.1 (of_decide_eq_true hyes.2)
    have hnocheck : table.checks.find? (fun check ↦ !check.holds (table.fill engine values)) =
        none := by
      refine List.find?_eq_none.mpr fun check hmem hyes ↦ ?_
      rw [hcheck check hmem] at hyes
      cases hyes
    rw [hnonull]
    simp only
    rw [hnocheck]
    simp only [hrow]

/-- The constraints of a row that is given, by evaluation. -/
theorem row_of_all {table : Table} {values : Row}
    (hnull : (table.columns.all fun column ↦
      !(column.notNull && column.stored engine values = .null)) = true)
    (hcheck : (table.checks.all fun check ↦ check.holds (table.fill engine values)) = true) :
    table.row engine values = .ok (table.fill engine values) := by
  refine row_eq_ok_iff.mpr ⟨rfl, fun column hcolumn hnot hvalue ↦ ?_, List.all_eq_true.mp hcheck⟩
  have hmeets := List.all_eq_true.mp hnull column hcolumn
  simp [hnot, hvalue] at hmeets

theorem isIn_holds_iff {text name : String} {values : List String} {row : Row} :
    (Check.isIn text name values).holds row = true ↔
      row.get name = .null ∨ ∃ value ∈ values, row.get name = .text value := by
  simp [Check.isIn]

theorem isBit_holds_iff {text name : String} {row : Row} :
    (Check.isBit text name).holds row = true ↔
      row.get name = .null ∨ row.get name = .integer 0 ∨ row.get name = .integer 1 := by
  simp [Check.isBit, or_assoc]

theorem bindAll_cons_eq_ok_iff {place : ℕ} {name : String} {value : Json}
    {params : List (String × Json)} {values : Row} :
    bindAll place ((name, value) :: params) = .ok values ↔
      ∃ bound rest, bind place value = .ok bound ∧ bindAll (place + 1) params = .ok rest ∧
        values = (name, bound) :: rest := by
  rw [bindAll, Outcome.bind_eq_ok_iff]
  constructor
  · rintro ⟨bound, hbound, hrest⟩
    obtain ⟨rest, hparams, hvalues⟩ := Outcome.bind_eq_ok_iff.mp hrest
    exact ⟨bound, rest, hbound, hparams, (Except.ok.inj hvalues).symm⟩
  · rintro ⟨bound, rest, hbound, hparams, rfl⟩
    exact ⟨bound, hbound, Outcome.bind_eq_ok_iff.mpr ⟨rest, hparams, rfl⟩⟩

/-- Each parameter is bound under its own name. -/
theorem lookup_bindAll {place : ℕ} {params : List (String × Json)} {values : Row}
    (h : bindAll place params = .ok values) {name : String} {value : Json}
    (hvalue : params.lookup name = some value) :
    ∃ other bound, bind other value = .ok bound ∧ values.lookup name = some bound := by
  induction params generalizing place values with
  | nil => cases hvalue
  | cons param params ih =>
      obtain ⟨label, first⟩ := param
      obtain ⟨bound, rest, hbound, hparams, rfl⟩ := bindAll_cons_eq_ok_iff.mp h
      rw [Dict.lookup_cons] at hvalue ⊢
      split_ifs at hvalue ⊢ with hsame
      · rw [← Option.some.inj hvalue]
        exact ⟨place, bound, hbound, rfl⟩
      · exact ih hparams hvalue

theorem bind_place {place other : ℕ} {value : Json} {bound : Value}
    (h : bind place value = .ok bound) : bind other value = .ok bound := by
  cases value with
  | arr items => cases h
  | obj members => cases h
  | _ => exact h

theorem exists_bindAll_iff (place : ℕ) (params : List (String × Json)) :
    (∃ values, bindAll place params = .ok values) ↔
      ∀ param ∈ params, ∃ bound, bind 1 param.2 = .ok bound := by
  induction params generalizing place with
  | nil => exact ⟨fun _ param hparam ↦ absurd hparam List.not_mem_nil, fun _ ↦ ⟨[], rfl⟩⟩
  | cons param params ih =>
      obtain ⟨name, value⟩ := param
      constructor
      · rintro ⟨values, h⟩ param hparam
        obtain ⟨bound, rest, hbound, hrest, -⟩ := bindAll_cons_eq_ok_iff.mp h
        rcases List.mem_cons.mp hparam with rfl | hmem
        · exact ⟨bound, bind_place hbound⟩
        · exact (ih (place + 1)).mp ⟨rest, hrest⟩ param hmem
      · intro h
        obtain ⟨bound, hbound⟩ := h (name, value) List.mem_cons_self
        obtain ⟨rest, hrest⟩ := (ih (place + 1)).mpr fun param hparam ↦
          h param (List.mem_cons_of_mem _ hparam)
        exact ⟨_, bindAll_cons_eq_ok_iff.mpr ⟨bound, rest, bind_place hbound, hrest, rfl⟩⟩

/-- What a stored row has in a column. -/
theorem get_of_row {table : Table} {values row : Row} (h : table.row engine values = .ok row)
    (column : Column) (hmem : column ∈ table.columns) :
    row.get column.name = column.stored engine values := by
  obtain ⟨rfl, -⟩ := row_eq_ok_iff.mp h
  exact get_fill values hmem

theorem names_of_row {table : Table} {values row : Row} (h : table.row engine values = .ok row) :
    row.map Prod.fst = table.columns.map Column.name := by
  obtain ⟨rfl, -⟩ := row_eq_ok_iff.mp h
  exact names_fill table values

/-- A value that a text column without NULL can hold. -/
def Storable : Json → Prop
  | .null | .arr _ | .obj _ => False
  | .int n => IsInt64 n
  | .bool _ | .float _ | .str _ => True

variable (engine) in
theorem storable_iff (place : ℕ) (value : Json) :
    Storable value ↔ ∃ bound, bind place value = .ok bound ∧
      Affinity.text.apply engine bound ≠ .null := by
  cases value with
  | int n =>
      by_cases h : IsInt64 n
      · exact ⟨fun _ ↦ ⟨.integer n, if_pos h, Value.noConfusion⟩, fun _ ↦ h⟩
      · refine ⟨fun hyes ↦ absurd hyes h, ?_⟩
        rintro ⟨bound, hbound, -⟩
        rw [bind, if_neg h] at hbound
        cases hbound
  | null =>
      refine ⟨False.elim, ?_⟩
      rintro ⟨bound, hbound, hnull⟩
      obtain rfl := Except.ok.inj hbound
      exact hnull rfl
  | bool b => exact ⟨fun _ ↦ ⟨_, rfl, Value.noConfusion⟩, fun _ ↦ trivial⟩
  | float x => exact ⟨fun _ ↦ ⟨_, rfl, Value.noConfusion⟩, fun _ ↦ trivial⟩
  | str s => exact ⟨fun _ ↦ ⟨_, rfl, Value.noConfusion⟩, fun _ ↦ trivial⟩
  | arr items =>
      refine ⟨False.elim, ?_⟩
      rintro ⟨bound, hbound, -⟩
      cases hbound
  | obj members =>
      refine ⟨False.elim, ?_⟩
      rintro ⟨bound, hbound, -⟩
      cases hbound

theorem Storable.exists_bind {value : Json} (h : Storable value) :
    ∃ bound, bind 1 value = .ok bound := by
  cases value with
  | null => exact h.elim
  | arr items => exact h.elim
  | obj members => exact h.elim
  | int n => exact ⟨.integer n, if_pos h⟩
  | _ => exact ⟨_, rfl⟩

/-! ## Stored texts -/

theorem exists_digit_of_int (n : ℤ) : ∃ c ∈ (toString n).toList, c.isDigit = true := by
  have hdigits : ∀ m : ℕ, ∃ c ∈ (toString m).toList, c.isDigit = true := by
    intro m
    have htext : (toString m).toList = Nat.toDigits 10 m := Nat.toList_repr
    obtain ⟨c, hc⟩ := List.exists_mem_of_ne_nil _ (Nat.toDigits_ne_nil (n := m) (b := 10))
    rw [htext]
    exact ⟨c, hc, Nat.isDigit_of_mem_toDigits (by decide) (by decide) hc⟩
  cases n with
  | ofNat m => exact hdigits m
  | negSucc m =>
      obtain ⟨c, hc, hdigit⟩ := hdigits (m + 1)
      have happend : toString (Int.negSucc m) = "-" ++ toString (m + 1) := rfl
      rw [happend, String.toList_append]
      exact ⟨c, List.mem_append_right _ hc, hdigit⟩

/-- Only a text without digits itself is stored as one: no number reads like it. -/
theorem apply_bound_eq_text_iff {text : String} (hdigit : text.toList.all (!·.isDigit) = true)
    {place : ℕ} {value : Json} {bound : Value} (h : bind place value = .ok bound) :
    Affinity.text.apply engine bound = .text text ↔ value = .str text := by
  have hne : ∀ other : String, (∃ c ∈ other.toList, c.isDigit = true) → other ≠ text := by
    rintro other ⟨c, hc, hyes⟩ rfl
    have hno := List.all_eq_true.mp hdigit c hc
    rw [hyes] at hno
    cases hno
  cases value with
  | str other =>
      obtain rfl := Except.ok.inj h
      rw [apply_text_text, Value.text.injEq, Json.str.injEq]
  | int n =>
      rw [bind] at h
      split_ifs at h
      obtain rfl := Except.ok.inj h
      refine iff_of_false (fun hsame ↦ ?_) Json.noConfusion
      exact hne _ (exists_digit_of_int n) (Value.text.inj hsame)
  | float x =>
      obtain rfl := Except.ok.inj h
      refine iff_of_false (fun hsame ↦ ?_) Json.noConfusion
      exact hne _ (engine.realText_digit x) (Value.text.inj hsame)
  | bool b =>
      obtain rfl := Except.ok.inj h
      refine iff_of_false (fun hsame ↦ ?_) Json.noConfusion
      exact hne _ (exists_digit_of_int _) (Value.text.inj hsame)
  | null =>
      obtain rfl := Except.ok.inj h
      exact iff_of_false Value.noConfusion Json.noConfusion
  | arr items => cases h
  | obj members => cases h

/-- A text column stores NULL for NULL alone. -/
theorem apply_bound_eq_null_iff {place : ℕ} {value : Json} {bound : Value}
    (h : bind place value = .ok bound) :
    Affinity.text.apply engine bound = .null ↔ value = .null := by
  cases value with
  | null =>
      obtain rfl := Except.ok.inj h
      simp
  | int n =>
      rw [bind] at h
      split_ifs at h
      obtain rfl := Except.ok.inj h
      exact iff_of_false Value.noConfusion Json.noConfusion
  | arr items => cases h
  | obj members => cases h
  | _ =>
      obtain rfl := Except.ok.inj h
      exact iff_of_false Value.noConfusion Json.noConfusion

theorem exists_bind_iff (place : ℕ) (value : Json) :
    (∃ bound, bind place value = .ok bound) ↔ value = .null ∨ Storable value := by
  constructor
  · rintro ⟨bound, hbound⟩
    cases value with
    | null => exact Or.inl rfl
    | int n =>
        rw [bind] at hbound
        split_ifs at hbound with hrange
        exact Or.inr hrange
    | arr items => cases hbound
    | obj members => cases hbound
    | _ => exact Or.inr trivial
  · rintro (rfl | hstorable)
    · exact ⟨.null, rfl⟩
    · obtain ⟨bound, hbound⟩ := hstorable.exists_bind
      exact ⟨bound, bind_place hbound⟩

theorem get_merge {updated : List String} {old new : Row} {name : String}
    (hname : name ∈ new.map Prod.fst) :
    (Row.merge updated old new).get name =
      if name ∈ updated then new.get name else old.get name := by
  induction new with
  | nil => cases hname
  | cons item new ih =>
      obtain ⟨other, value⟩ := item
      by_cases hsame : name = other
      · subst hsame
        by_cases hupdated : name ∈ updated <;>
          simp [Row.merge, Row.get, hupdated, Dict.lookup_cons]
      · have hrest : name ∈ new.map Prod.fst := by
          rcases List.mem_cons.mp hname with hfirst | hrest
          · exact absurd hfirst hsame
          · exact hrest
        have hold := ih hrest
        rw [Row.merge, Row.get] at hold
        rw [Row.merge, List.map_cons, Row.get, Dict.lookup_cons, apply_ite Prod.fst, ite_self,
          if_neg hsame, hold, Row.get.eq_def ((other, value) :: new), Dict.lookup_cons, if_neg hsame]
        rfl

/-! ## Inserts -/

variable {key : String} {updated : List String} {row : Row} {rows : List Row}

/-- Merging in a row of the same key leaves the key. -/
theorem get_merge_key {old : Row} (hkey : key ∈ row.map Prod.fst) (hsame : old.get key = row.get key) :
    (Row.merge updated old row).get key = row.get key := by
  rw [get_merge hkey]
  split_ifs
  · rfl
  · exact hsame

/-- A row after an insert was there before, or is the new one, alone or merged. -/
theorem mem_upsert {other : Row} (h : other ∈ upsert key updated row rows) :
    other ∈ rows ∨ other = row ∨
      ∃ old ∈ rows, old.get key = row.get key ∧ other = Row.merge updated old row := by
  rw [upsert] at h
  split_ifs at h
  · obtain ⟨old, hold, rfl⟩ := List.mem_map.mp h
    split_ifs with hsame
    · exact Or.inr (Or.inr ⟨old, hold, hsame, rfl⟩)
    · exact Or.inl hold
  · rcases List.mem_append.mp h with hold | hnew
    · exact Or.inl hold
    · exact Or.inr (Or.inl (List.mem_singleton.mp hnew))

theorem rowOf_cons (key : String) (value : Value) (row : Row) (rows : List Row) :
    rowOf key value (row :: rows) = if row.get key = value then some row else rowOf key value rows := by
  rw [rowOf, List.find?_cons]
  by_cases h : row.get key = value
  · simp only [h, decide_true, if_true]
  · simp only [h, decide_false, if_false, rowOf]

theorem rowOf_append_singleton (value : Value) (hnone : rowOf key (row.get key) rows = none) :
    rowOf key value (rows ++ [row]) =
      if row.get key = value then some row else rowOf key value rows := by
  induction rows with
  | nil => rw [List.nil_append, rowOf_cons]
  | cons old rows ih =>
      rw [rowOf_cons] at hnone
      split_ifs at hnone with hsame
      rw [List.cons_append, rowOf_cons, rowOf_cons, ih hnone]
      by_cases hvalue : row.get key = value
      · rw [if_neg fun hold ↦ hsame (hold.trans hvalue.symm), if_pos hvalue, if_pos hvalue]
      · rw [if_neg hvalue, if_neg hvalue]

theorem rowOf_map_merge (hkey : key ∈ row.map Prod.fst) (value : Value) :
    rowOf key value (rows.map fun old ↦
        if old.get key = row.get key then Row.merge updated old row else old) =
      (rowOf key value rows).map fun old ↦
        if row.get key = value then Row.merge updated old row else old := by
  induction rows with
  | nil => rfl
  | cons old rows ih =>
      have hfirst : (if old.get key = row.get key then Row.merge updated old row else old).get key =
          old.get key := by
        split_ifs with hsame
        · rw [get_merge_key hkey hsame, hsame]
        · rfl
      rw [List.map_cons, rowOf_cons, rowOf_cons, hfirst, ih]
      by_cases hvalue : old.get key = value
      · rw [if_pos hvalue, if_pos hvalue, Option.map_some, hvalue]
        simp only [eq_comm]
      · rw [if_neg hvalue, if_neg hvalue]

/-- An insert settles the row of its own key, and no other. -/
theorem rowOf_upsert (hkey : key ∈ row.map Prod.fst) (hnull : row.get key ≠ .null) (value : Value) :
    rowOf key value (upsert key updated row rows) =
      if row.get key = value then
        some (((rowOf key value rows).map fun old ↦ Row.merge updated old row).getD row)
      else rowOf key value rows := by
  rw [upsert]
  split_ifs with hconflict hvalue hvalue
  · obtain ⟨-, old, hold, hsame⟩ := hconflict
    rw [rowOf_map_merge hkey]
    simp only [if_pos hvalue]
    cases hfound : rowOf key value rows with
    | some found => rfl
    | none =>
        have hno := List.find?_eq_none.mp hfound old hold
        exact absurd (decide_eq_true (hsame.trans hvalue)) hno
  · rw [rowOf_map_merge hkey]
    simp only [if_neg hvalue, Option.map_id']
  · have hnone : rowOf key (row.get key) rows = none := by
      refine List.find?_eq_none.mpr fun old hold hsame ↦ ?_
      exact hconflict ⟨hnull, old, hold, of_decide_eq_true hsame⟩
    rw [rowOf_append_singleton value hnone, if_pos hvalue, ← hvalue, hnone]
    rfl
  · have hnone : rowOf key (row.get key) rows = none := by
      refine List.find?_eq_none.mpr fun old hold hsame ↦ ?_
      exact hconflict ⟨hnull, old, hold, of_decide_eq_true hsame⟩
    rw [rowOf_append_singleton value hnone, if_neg hvalue]

theorem get_of_rowOf {value : Value} (h : rowOf key value rows = some row) :
    row ∈ rows ∧ row.get key = value := by
  rw [rowOf] at h
  have hfound := List.find?_some h
  exact ⟨List.mem_of_find?_eq_some h, of_decide_eq_true hfound⟩

/-! ## Inserts of whole rows -/

section WholeRows

variable {table : Table} {values : Row}

theorem merge_of_row (hrow : table.row engine values = .ok row)
    (hfull : ∀ column ∈ table.columns, column.name ∈ updated ∨ column.name = key) {old : Row}
    (hsame : old.get key = row.get key) : Row.merge updated old row = row := by
  have hget := get_of_row hrow
  obtain ⟨rfl, -⟩ := row_eq_ok_iff.mp hrow
  rw [Row.merge, Table.fill, List.map_map]
  apply List.map_congr_left
  intro column hcolumn
  simp only [Function.comp_apply]
  split_ifs with hupdated
  · rfl
  · obtain rfl := (hfull column hcolumn).resolve_left hupdated
    rw [hsame, hget column hcolumn]

/-- An insert that updates every column puts the row under its key. -/
theorem upsert_eq_put (hrow : table.row engine values = .ok row)
    (hfull : ∀ column ∈ table.columns, column.name ∈ updated ∨ column.name = key)
    (hnull : row.get key ≠ .null) (rows : List Row) :
    upsert key updated row rows = Keyed.put (·.get key) row rows := by
  rw [upsert, Keyed.put]
  simp only [hnull, ne_eq, not_false_eq_true, true_and]
  split_ifs
  · apply List.map_congr_left
    intro old _
    split_ifs with hsame
    · exact merge_of_row hrow hfull hsame
    · rfl
  · rfl

end WholeRows

/-- An insert leaves the rows of the other keys. -/
theorem filter_upsert (hkey : key ∈ row.map Prod.fst) (rows : List Row) :
    (upsert key updated row rows).filter (fun other ↦ other.get key ≠ row.get key) =
      rows.filter fun other ↦ other.get key ≠ row.get key := by
  rw [upsert]
  split_ifs
  · apply Keyed.filter_map_ite
    intro old hsame
    simp [hsame, get_merge_key hkey hsame]
  · rw [List.filter_append, List.filter_cons_of_neg (by simp), List.filter_nil, List.append_nil]

end Sql
