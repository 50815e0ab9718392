import AgenticSDLC.Foundations.Python

/-!
# Canonical JSON text

`json.dumps(obj, sort_keys=True, separators=(",", ":"), ensure_ascii=False)`:
the members of every object by their keys, no white space, and no escape that is
not needed.
-/

namespace Json

/-! ## Sorted keys -/

mutual

/-- The value with the members of every object in the order of their keys. -/
def sortKeys : Json → Json
  | .arr items => .arr (sortItems items)
  | .obj members => .obj (Python.sortedBy Prod.fst (sortMembers members))
  | value => value

def sortItems : List Json → List Json
  | [] => []
  | item :: items => item.sortKeys :: sortItems items

def sortMembers : List (String × Json) → List (String × Json)
  | [] => []
  | (key, value) :: members => (key, value.sortKeys) :: sortMembers members

end

theorem sortItems_eq (items : List Json) : sortItems items = items.map sortKeys := by
  induction items with
  | nil => rfl
  | cons item items ih => simp [sortItems, ih]

theorem sortMembers_eq (members : List (String × Json)) :
    sortMembers members = members.map fun m ↦ (m.1, m.2.sortKeys) := by
  induction members with
  | nil => rfl
  | cons m members ih => simp [sortMembers, ih]

@[simp] theorem sortKeys_arr (items : List Json) :
    (Json.arr items).sortKeys = .arr (items.map sortKeys) := by
  rw [sortKeys, sortItems_eq]

@[simp] theorem sortKeys_obj (members : List (String × Json)) :
    (Json.obj members).sortKeys =
      .obj (Python.sortedBy Prod.fst (members.map fun m ↦ (m.1, m.2.sortKeys))) := by
  rw [sortKeys, sortMembers_eq]

@[simp] theorem sortKeys_str (s : String) : (Json.str s).sortKeys = .str s := by simp [sortKeys]

@[simp] theorem sortKeys_int (n : ℤ) : (Json.int n).sortKeys = .int n := by simp [sortKeys]

mutual

@[simp] theorem sortKeys_sortKeys : ∀ value : Json, value.sortKeys.sortKeys = value.sortKeys
  | .null | .bool _ | .int _ | .float _ | .str _ => by simp [sortKeys]
  | .arr items => by
      simp only [sortKeys_arr, List.map_map]
      exact congrArg Json.arr (List.map_congr_left (sortItems_fixed items))
  | .obj members => by
      have hfixed : ∀ m ∈ Python.sortedBy Prod.fst (members.map fun m ↦ (m.1, m.2.sortKeys)),
          (m.1, m.2.sortKeys) = m := by
        intro m hm
        obtain ⟨m', hm', rfl⟩ := List.mem_map.mp ((Python.mem_sortedBy _ _ m).mp hm)
        exact Prod.ext rfl (sortMembers_fixed members m' hm')
      simp only [sortKeys_obj]
      rw [(List.map_congr_left hfixed).trans (List.map_id' _), Python.sortedBy_sortedBy]

theorem sortItems_fixed : ∀ items : List Json,
    ∀ item ∈ items, item.sortKeys.sortKeys = item.sortKeys
  | [] => by simp
  | item :: items => by
      intro other hother
      rcases List.mem_cons.mp hother with hitem | htail
      · rw [hitem]
        exact sortKeys_sortKeys item
      · exact sortItems_fixed items other htail

theorem sortMembers_fixed : ∀ members : List (String × Json),
    ∀ m ∈ members, m.2.sortKeys.sortKeys = m.2.sortKeys
  | [] => by simp
  | (key, value) :: members => by
      intro m hm
      rcases List.mem_cons.mp hm with hitem | htail
      · rw [hitem]
        exact sortKeys_sortKeys value
      · exact sortMembers_fixed members m htail

end

/-! ## The text -/

def hexDigit (n : ℕ) : Char :=
  if n < 10 then Char.ofNat (48 + n) else Char.ofNat (87 + n)

/-- The escapes of `json.encoder`: the two delimiters and the control characters. -/
def escapeChar (c : Char) : String :=
  match c.toNat with
  | 34 => "\\\""
  | 92 => "\\\\"
  | 8 => "\\b"
  | 9 => "\\t"
  | 10 => "\\n"
  | 12 => "\\f"
  | 13 => "\\r"
  | n =>
      if n < 32 then "\\u00" ++ (hexDigit (n / 16)).toString ++ (hexDigit (n % 16)).toString
      else c.toString

def quote (s : String) : String := "\"" ++ String.join (s.toList.map escapeChar) ++ "\""

section Text

variable (repr : Json → String)

mutual

/-- The text of a value, over the `repr` of its floats. -/
def text : Json → String
  | .null => "null"
  | .bool true => "true"
  | .bool false => "false"
  | .int n => toString n
  | .float x => repr (.float x)
  | .str s => quote s
  | .arr items => "[" ++ ",".intercalate (itemTexts items) ++ "]"
  | .obj members => "\x7b" ++ ",".intercalate (memberTexts members) ++ "\x7d"

def itemTexts : List Json → List String
  | [] => []
  | item :: items => text item :: itemTexts items

def memberTexts : List (String × Json) → List String
  | [] => []
  | (key, value) :: members => (quote key ++ ":" ++ text value) :: memberTexts members

end

def dumps (value : Json) : String := text repr value.sortKeys

theorem dumps_sortKeys (value : Json) : dumps repr value.sortKeys = dumps repr value := by
  rw [dumps, dumps, sortKeys_sortKeys]

end Text

end Json
