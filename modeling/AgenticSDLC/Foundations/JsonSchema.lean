import AgenticSDLC.Foundations.Json

/-!
# JSON Schema

The keywords of draft-07 for types, texts, numbers, arrays and objects, and those that put
schemas together.  A keyword has nothing to say about values it is not for.  `enum` is that
of texts, `const` an `enum` of one, a pattern the predicate that the expression decides, and
`closed` is `additionalProperties: false` beside properties of these names.
-/

namespace JsonSchema

inductive Kind where
  | object
  | array
  | string
  | integer
  | boolean

def Kind.accepts : Kind → Json → Bool
  | .object, .obj _ | .array, .arr _ | .string, .str _ | .integer, .int _ | .boolean, .bool _ => true
  | .integer, .float x => x.toRat.den = 1
  | _, _ => false

inductive Schema where
  | type (kind : Kind)
  | enum (texts : List String)
  | minLength (bound : ℕ)
  | pattern (accepts : String → Bool)
  | minimum (bound : ℤ)
  | minItems (bound : ℕ)
  | items (each : Schema)
  | required (keys : List String)
  | properties (fields : List (String × Schema))
  | closed (keys : List String)
  | allOf (schemas : List Schema)
  | ifThen (condition consequence : Schema)

namespace Schema

mutual

def accepts : Schema → Json → Bool
  | .type kind, value => kind.accepts value
  | .enum texts, .str s => s ∈ texts
  | .enum _, _ => false
  | .minLength bound, .str s => bound ≤ s.length
  | .pattern matches?, .str s => matches? s
  | .minimum bound, .int n => bound ≤ n
  | .minimum bound, .float x => bound ≤ x.toRat
  | .minItems bound, .arr values => bound ≤ values.length
  | .items each, .arr values => values.all fun value ↦ each.accepts value
  | .required keys, .obj members => keys.all fun key ↦ (members.lookup key).isSome
  | .properties fields, .obj members => acceptsFields fields members
  | .closed keys, .obj members => members.all fun member ↦ member.1 ∈ keys
  | .allOf schemas, value => acceptsAll schemas value
  | .ifThen condition consequence, value => !condition.accepts value || consequence.accepts value
  | _, _ => true

def acceptsFields : List (String × Schema) → List (String × Json) → Bool
  | [], _ => true
  | (key, schema) :: fields, members =>
      (members.lookup key).all (fun value ↦ schema.accepts value) && acceptsFields fields members

def acceptsAll : List Schema → Json → Bool
  | [], _ => true
  | schema :: schemas, value => schema.accepts value && acceptsAll schemas value

end

theorem acceptsAll_cons (schema : Schema) (schemas : List Schema) (value : Json) :
    acceptsAll (schema :: schemas) value = (schema.accepts value && acceptsAll schemas value) := rfl

theorem acceptsFields_cons (field : String × Schema) (fields : List (String × Schema))
    (members : List (String × Json)) :
    acceptsFields (field :: fields) members =
      ((members.lookup field.1).all (fun value ↦ field.2.accepts value) &&
        acceptsFields fields members) := rfl

theorem accepts_type (kind : Kind) (value : Json) : (type kind).accepts value = kind.accepts value :=
  rfl

theorem acceptsAll_iff (schemas : List Schema) (value : Json) :
    acceptsAll schemas value = true ↔ ∀ schema ∈ schemas, schema.accepts value = true := by
  induction schemas with
  | nil => exact iff_of_true rfl (List.forall_mem_nil _)
  | cons schema schemas ih =>
      rw [acceptsAll_cons, Bool.and_eq_true, ih, List.forall_mem_cons]

theorem acceptsFields_iff (fields : List (String × Schema)) (members : List (String × Json)) :
    acceptsFields fields members = true ↔ ∀ field ∈ fields, ∀ value,
      members.lookup field.1 = some value → field.2.accepts value = true := by
  induction fields with
  | nil => exact iff_of_true rfl (List.forall_mem_nil _)
  | cons field fields ih =>
      rw [acceptsFields_cons, Bool.and_eq_true, Option.all_eq_true, ih, List.forall_mem_cons]

@[simp] theorem accepts_allOf_iff {schemas : List Schema} {value : Json} :
    (allOf schemas).accepts value = true ↔ ∀ schema ∈ schemas, schema.accepts value = true :=
  acceptsAll_iff schemas value

@[simp] theorem accepts_items_iff {each : Schema} {values : List Json} :
    (items each).accepts (.arr values) = true ↔ ∀ value ∈ values, each.accepts value = true :=
  List.all_eq_true

@[simp] theorem accepts_required_iff {keys : List String} {members : List (String × Json)} :
    (required keys).accepts (.obj members) = true ↔
      ∀ key ∈ keys, ∃ value, members.lookup key = some value := by
  apply List.all_eq_true.trans
  simp only [Option.isSome_iff_exists]

@[simp] theorem accepts_properties_iff {fields : List (String × Schema)}
    {members : List (String × Json)} :
    (properties fields).accepts (.obj members) = true ↔ ∀ field ∈ fields, ∀ value,
      members.lookup field.1 = some value → field.2.accepts value = true :=
  acceptsFields_iff fields members

theorem accepts_type_object_iff {value : Json} :
    (type .object).accepts value = true ↔ ∃ members, value = .obj members := by
  rw [accepts_type]
  cases value with
  | obj members => exact iff_of_true rfl ⟨members, rfl⟩
  | _ => exact iff_of_false Bool.false_ne_true nofun

theorem accepts_type_array_iff {value : Json} :
    (type .array).accepts value = true ↔ ∃ values, value = .arr values := by
  rw [accepts_type]
  cases value with
  | arr values => exact iff_of_true rfl ⟨values, rfl⟩
  | _ => exact iff_of_false Bool.false_ne_true nofun

theorem accepts_type_string_iff {value : Json} :
    (type .string).accepts value = true ↔ ∃ text, value = .str text := by
  rw [accepts_type]
  cases value with
  | str text => exact iff_of_true rfl ⟨text, rfl⟩
  | _ => exact iff_of_false Bool.false_ne_true nofun

end Schema

end JsonSchema
