import AgenticSDLC.Foundations.Outcome
import AgenticSDLC.Foundations.Python

/-!
# Completion by the coverage model

The completion query of `tools/coverage.py` and the input document of
`tools/opa_input.py`.  Both read `in_scope` by its truth and guard nothing, so a model
of another shape raises.
-/

namespace AgenticSDLC.Coverage

open Python (Exception)

/-- The items that a `for` loop over `model.get("items", [])` calls `get` on. -/
def itemsOf (model : Json) : Except Exception (List (List (String × Json))) := do
  let members ← Python.asDict model
  let items ← Python.iterate (Python.getD members "items" (.arr []))
  items.mapM Python.asDict

def inScopeItems (model : Json) : Except Exception (List (List (String × Json))) := do
  let items ← itemsOf model
  return items.filter fun item ↦ Python.truthy (Python.get item "in_scope")

def hasUnprovenInScope (model : Json) : Except Exception Bool := do
  let items ← inScopeItems model
  return items.any fun item ↦ Python.get item "status" ≠ .str "proven"

def isComplete (model : Json) : Except Exception Bool := do
  let items ← inScopeItems model
  if items.isEmpty then return false
  return !(← hasUnprovenInScope model)

structure OpaInput where
  unprovenInScope : List Json
  missingEvidence : List Json
  deriving DecidableEq

/-- One turn of the loop of `build_opa_input`. -/
def OpaInput.add (input : OpaInput) (item : List (String × Json)) : OpaInput :=
  if !Python.truthy (Python.get item "in_scope") then input
  else if Python.get item "status" ≠ .str "proven" then
    { input with unprovenInScope := input.unprovenInScope ++ [Python.get item "id"] }
  else if !Python.truthy (Python.get item "evidence") then
    { input with missingEvidence := input.missingEvidence ++ [Python.get item "id"] }
  else input

/-- `build_opa_input`, on the text of the feature list. -/
def buildOpaInput (loads : String → Except Exception Json) (featureList : String) :
    Except Exception OpaInput := do
  let model ← loads featureList
  let items ← itemsOf model
  return items.foldl OpaInput.add ⟨[], []⟩

/-! ## Lists of objects -/

section Objects

variable {members : List (String × Json)} {items : List Json}

theorem mapM_asDict (hobjects : ∀ value ∈ items, ∃ item, value = .obj item) :
    items.mapM Python.asDict = .ok (Json.objects items) := by
  induction items with
  | nil => rfl
  | cons value items ih =>
      obtain ⟨item, rfl⟩ := hobjects value List.mem_cons_self
      have hrest := ih fun other hother ↦ hobjects other (List.mem_cons_of_mem _ hother)
      rw [List.mapM_cons, hrest]
      rfl

theorem itemsOf_obj (hitems : Python.get members "items" = .arr items)
    (hobjects : ∀ value ∈ items, ∃ item, value = .obj item) :
    itemsOf (.obj members) = .ok (Json.objects items) := by
  have hlist : Python.getD members "items" (.arr []) = .arr items := by
    rw [Python.getD, (Python.get_eq_iff_of_ne_null Json.noConfusion).mp hitems, Option.getD_some]
  rw [itemsOf, Python.asDict, Outcome.ok_bind, hlist, Python.iterate, Outcome.ok_bind,
    mapM_asDict hobjects]

/-- Complete is a model with an item in scope and none there that is not proven. -/
theorem isComplete_iff (hitems : Python.get members "items" = .arr items)
    (hobjects : ∀ value ∈ items, ∃ item, value = .obj item) :
    isComplete (.obj members) = .ok true ↔
      (∃ item, .obj item ∈ items ∧ Python.truthy (Python.get item "in_scope") = true) ∧
        ∀ item, .obj item ∈ items → Python.truthy (Python.get item "in_scope") = true →
          Python.get item "status" = .str "proven" := by
  have hscope : inScopeItems (.obj members) = .ok ((Json.objects items).filter fun item ↦
      Python.truthy (Python.get item "in_scope")) := by
    rw [inScopeItems, itemsOf_obj hitems hobjects]
    rfl
  simp only [isComplete, hasUnprovenInScope, hscope, Outcome.ok_bind]
  cases hempty : ((Json.objects items).filter fun item ↦
      Python.truthy (Python.get item "in_scope")).isEmpty with
  | true =>
      apply iff_of_false (by simp [Pure.pure, Except.pure])
      rintro ⟨⟨item, hmem, htruthy⟩, -⟩
      rw [List.isEmpty_iff, List.filter_eq_nil_iff] at hempty
      exact hempty item (Json.mem_objects.mpr hmem) htruthy
  | false =>
      obtain ⟨item, hitem⟩ := List.isEmpty_eq_false_iff_exists_mem.mp hempty
      obtain ⟨hmem, htruthy⟩ := List.mem_filter.mp hitem
      have hsome : ∃ item, .obj item ∈ items ∧
          Python.truthy (Python.get item "in_scope") = true :=
        ⟨item, Json.mem_objects.mp hmem, htruthy⟩
      rw [and_iff_right hsome]
      simp [Pure.pure, Except.pure, List.any_eq_false]

/-- Nothing is listed that is out of scope, or proven with some evidence. -/
theorem foldl_add_eq_nil {items : List (List (String × Json))}
    (h : ∀ item ∈ items, Python.truthy (Python.get item "in_scope") = true →
      Python.get item "status" = .str "proven" ∧
        Python.truthy (Python.get item "evidence") = true) :
    items.foldl OpaInput.add ⟨[], []⟩ = ⟨[], []⟩ := by
  induction items with
  | nil => rfl
  | cons item items ih =>
      have hitem : OpaInput.add ⟨[], []⟩ item = ⟨[], []⟩ := by
        rw [OpaInput.add]
        split_ifs with hscope hstatus hevidence
        · rfl
        · exact absurd (h item List.mem_cons_self (by simpa using hscope)).1 hstatus
        · have htruthy := (h item List.mem_cons_self (by simpa using hscope)).2
          simp [htruthy] at hevidence
        · rfl
      rw [List.foldl_cons, hitem]
      exact ih fun other hother ↦ h other (List.mem_cons_of_mem item hother)

end Objects

end AgenticSDLC.Coverage
