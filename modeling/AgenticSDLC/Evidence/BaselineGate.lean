import AgenticSDLC.Coverage.CoverageGate
import AgenticSDLC.Foundations.Outcome
import Mathlib.Data.List.Dedup

/-!
# The protected baseline

`tools/baseline_gate.py`.  A trusted baseline names the item ids a delivery must
have in scope; ids are compared by `str`.  The first item with an id decides
whether the id is in scope.
-/

namespace AgenticSDLC.BaselineGate

open Python (Exception)

variable (repr : Json → String)

/-- The ids met so far and the in-scope ones among them. -/
structure Seen where
  ids : List String
  inScope : List String
  deriving DecidableEq

def Seen.visit (seen : Seen) (item : Json) : Except Exception Seen := do
  let fields ← Python.asDict item
  let iid := Python.str repr (Python.get fields "id")
  if iid ∈ seen.ids then return seen
  if Python.truthy (Python.get fields "in_scope") then
    return ⟨iid :: seen.ids, iid :: seen.inScope⟩
  return ⟨iid :: seen.ids, seen.inScope⟩

def payloadInScope (model : List (String × Json)) : Except Exception (List String) := do
  let items ← Python.iterate (Python.getD model "items" (.arr []))
  let seen ← items.foldlM (Seen.visit repr) ⟨[], []⟩
  return seen.inScope

def missingReasons (requiredSet inScope : List String) : List String :=
  (Python.sortedBy id (requiredSet.filter (· ∉ inScope))).map fun rid ↦
    "Merge denied: baseline-required item " ++ repr (.str rid) ++ " is missing or no " ++
      "longer in_scope in feature_list.json (RT-02: in-scope shrinking)."

def deny (reason : String) : MergeDecision := ⟨true, [reason]⟩

def baselineGate (baseline featureList : Json) : MergeDecision :=
  match baseline with
  | .null => ⟨false, []⟩
  | .obj fields =>
      match Python.get fields "required_in_scope" with
      | .null => ⟨false, []⟩
      | .arr required =>
          let requiredSet := (required.map (Python.str repr)).dedup
          if requiredSet = [] then ⟨false, []⟩
          else
            match featureList with
            | .obj model =>
                match payloadInScope repr model with
                | .ok inScope =>
                    let reasons := missingReasons repr requiredSet inScope
                    ⟨!reasons.isEmpty, reasons⟩
                | .error exc =>
                    deny ("Merge denied: baseline_gate raised " ++ exc.text ++ ". Fail closed.")
            | _ => deny ("Merge denied: a delivery is expected (baseline declares " ++
                toString requiredSet.length ++ " required in-scope item(s)) but " ++
                "feature_list.json is absent or malformed. Fail closed (RT-01).")
      | _ => deny "Merge denied: baseline.required_in_scope is not a list. Fail closed."
  | _ => deny ("Merge denied: baseline is present but not an object (got " ++
      Python.typeName baseline ++ "). Corrupted trusted baseline — fail closed.")

def InScopeWithId (items : List Json) (rid : String) : Prop :=
  ∃ item, .obj item ∈ items ∧ Python.str repr (Python.get item "id") = rid ∧
    Python.truthy (Python.get item "in_scope") = true

theorem visit_inScope {seen seen' : Seen} {item : Json}
    (h : seen.visit repr item = .ok seen') :
    ∀ rid ∈ seen'.inScope, rid ∈ seen.inScope ∨ InScopeWithId repr [item] rid := by
  obtain ⟨fields, hfields, hbody⟩ := Outcome.bind_eq_ok_iff.mp h
  obtain rfl : item = .obj fields := by
    cases item with
    | obj members => rw [Except.ok.inj hfields]
    | _ => cases hfields
  intro rid hrid
  dsimp only at hbody
  split_ifs at hbody with hseen hscope
  · obtain rfl := Except.ok.inj hbody
    exact Or.inl hrid
  · obtain rfl := Except.ok.inj hbody
    rcases List.mem_cons.mp hrid with hnew | hold
    · exact Or.inr ⟨fields, by simp, hnew.symm, hscope⟩
    · exact Or.inl hold
  · obtain rfl := Except.ok.inj hbody
    exact Or.inl hrid

theorem foldlM_visit_inScope {items : List Json} {seen seen' : Seen}
    (h : items.foldlM (Seen.visit repr) seen = .ok seen') :
    ∀ rid ∈ seen'.inScope, rid ∈ seen.inScope ∨ InScopeWithId repr items rid := by
  induction items generalizing seen with
  | nil =>
      obtain rfl := Except.ok.inj h
      exact fun rid hrid ↦ Or.inl hrid
  | cons item items ih =>
      obtain ⟨next, hvisit, hrest⟩ := Outcome.foldlM_cons_eq_ok_iff.mp h
      intro rid hrid
      rcases ih hrest rid hrid with hnext | ⟨fields, hmem, hid⟩
      · rcases visit_inScope repr hvisit rid hnext with hold | ⟨fields, hmem, hid⟩
        · exact Or.inl hold
        · exact Or.inr ⟨fields, by simpa using Or.inl (List.mem_singleton.mp hmem), hid⟩
      · exact Or.inr ⟨fields, List.mem_cons_of_mem _ hmem, hid⟩

theorem payloadInScope_spec {model : List (String × Json)} {inScope : List String}
    (h : payloadInScope repr model = .ok inScope) :
    ∃ items, Python.iterate (Python.getD model "items" (.arr [])) = .ok items ∧
      ∀ rid ∈ inScope, InScopeWithId repr items rid := by
  obtain ⟨items, hitems, h⟩ := Outcome.bind_eq_ok_iff.mp h
  obtain ⟨seen, hfold, h⟩ := Outcome.bind_eq_ok_iff.mp h
  obtain rfl := Except.ok.inj h
  exact ⟨items, hitems, fun rid hrid ↦ by simpa using foldlM_visit_inScope repr hfold rid hrid⟩

/-- What an allowed delivery guarantees: each required id has an in-scope item. -/
theorem exists_inScope_of_allowed {fields : List (String × Json)} {required : List Json}
    {featureList : Json} (hrequired : Python.get fields "required_in_scope" = .arr required)
    (hne : required ≠ [])
    (hallowed : (baselineGate repr (.obj fields) featureList).deny = false) :
    ∃ model items, featureList = .obj model ∧
      Python.iterate (Python.getD model "items" (.arr [])) = .ok items ∧
        ∀ rid ∈ required, InScopeWithId repr items (Python.str repr rid) := by
  have hset : (required.map (Python.str repr)).dedup ≠ [] := by
    obtain ⟨rid, hrid⟩ := List.exists_mem_of_ne_nil required hne
    exact List.ne_nil_of_mem (List.mem_dedup.mpr (List.mem_map_of_mem hrid))
  simp only [baselineGate, hrequired, hset, if_false] at hallowed
  cases featureList with
  | obj model =>
      cases hscope : payloadInScope repr model with
      | error exc => simp [hscope, deny] at hallowed
      | ok inScope =>
          simp only [hscope, missingReasons, Bool.not_eq_false', List.isEmpty_iff,
            List.map_eq_nil_iff, Python.sortedBy_eq_nil, List.filter_eq_nil_iff,
            List.mem_dedup, decide_eq_true_eq, not_not] at hallowed
          obtain ⟨items, hitems, hids⟩ := payloadInScope_spec repr hscope
          exact ⟨model, items, rfl, hitems, fun rid hrid ↦
            hids _ (hallowed _ (List.mem_map_of_mem hrid))⟩
  | _ => simp [deny] at hallowed

end AgenticSDLC.BaselineGate
