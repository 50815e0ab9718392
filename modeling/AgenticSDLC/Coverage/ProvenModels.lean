import AgenticSDLC.Coverage.Completion
import AgenticSDLC.Coverage.MergeParity

/-!
# The models the merge gate allows

`deny_merge` allows a model exactly when it has an item in scope and all of them are
proven with evidence; so neither the order of the items nor what is out of scope counts.
Of the three views of a finished model the gate is the strictest, and it differs from the
completion query by its rules on the evidence alone.
-/

namespace AgenticSDLC.ProvenModels

open CoverageGate (denyMerge evidenceFields evidenceObj normSession isInScope SessionsRejected)
open MergeParity (EvidenceRejected FieldBlank WiringRejected)

/-- What the gate asks of the evidence of an item in scope. -/
structure Evidenced (item ev : List (String × Json)) : Prop where
  fields : ∀ field ∈ evidenceFields, ∃ text, Python.get ev field = .str text ∧
    Python.strip text ≠ ""
  verifier : normSession (Python.get ev "verifier_session_id") ≠ ""
  implementer : normSession (Python.get ev "implementer_session_id") ≠ ""
  distinct : normSession (Python.get ev "verifier_session_id") ≠
    normSession (Python.get ev "implementer_session_id")
  wiring : Python.get item "type" = .str "WIRING" →
    Python.get ev "evidence_kind" = .str "integration"

/-- An item that the gate lets pass. -/
structure ProvenItem (item : List (String × Json)) : Prop where
  status : Python.get item "status" = .str "proven"
  evidence : ∃ ev, Python.get item "evidence" = .obj ev ∧ Evidenced item ev

/-- An object with a list of items, some of them in scope, and those proven. -/
def FullyProven (model : Json) : Prop :=
  ∃ members items, model = .obj members ∧ Python.get members "items" = .arr items ∧
    (∃ item, .obj item ∈ items ∧ Python.get item "in_scope" = .bool true) ∧
      ∀ item, .obj item ∈ items → Python.get item "in_scope" = .bool true → ProvenItem item

/-! ## Items -/

theorem not_fieldBlank_iff (ev : List (String × Json)) (field : String) :
    ¬FieldBlank Python.strip ev field ↔
      ∃ text, Python.get ev field = .str text ∧ Python.strip text ≠ "" := by
  simp only [FieldBlank, not_forall, Python.get_eq_iff_of_ne_null (Json.noConfusion :
    Json.str _ ≠ .null), exists_prop]

theorem evidenceObj_of_obj {item ev : List (String × Json)}
    (h : Python.get item "evidence" = .obj ev) : evidenceObj item = ev := by
  rw [evidenceObj, h]

theorem evidenced_iff {item ev : List (String × Json)}
    (h : Python.get item "evidence" = .obj ev) :
    Evidenced item ev ↔ ¬EvidenceRejected Python.strip normSession item := by
  simp only [EvidenceRejected, SessionsRejected, WiringRejected, evidenceObj_of_obj h, not_or,
    not_exists, not_and, not_fieldBlank_iff, not_not]
  constructor
  · intro hev
    exact ⟨hev.fields, ⟨hev.verifier, hev.implementer, hev.distinct⟩, hev.wiring⟩
  · rintro ⟨hfields, ⟨hverifier, himplementer, hdistinct⟩, hwiring⟩
    exact ⟨hfields, hverifier, himplementer, hdistinct, hwiring⟩

/-- Without an evidence object the required fields are missing. -/
theorem exists_evidence_of_not_rejected {item : List (String × Json)}
    (h : ¬EvidenceRejected Python.strip normSession item) :
    ∃ ev, Python.get item "evidence" = .obj ev := by
  by_contra hnone
  refine h (MergeParity.evidenceRejected_of_not_obj _ _ fun ev hev ↦ hnone ⟨ev, ?_⟩)
  exact (Python.get_eq_iff_of_ne_null Json.noConfusion).mpr hev

theorem truthy_of_scope {item : List (String × Json)}
    (h : Python.get item "in_scope" = .bool true) :
    Python.truthy (Python.get item "in_scope") = true := by
  rw [h, Python.truthy]

/-- Evidence with the required fields is no empty object. -/
theorem ProvenItem.truthy_evidence {item : List (String × Json)} (h : ProvenItem item) :
    Python.truthy (Python.get item "evidence") = true := by
  obtain ⟨ev, hev, hevidenced⟩ := h.evidence
  obtain ⟨text, htext, -⟩ := hevidenced.fields "test_file" (by simp [evidenceFields])
  rw [hev]
  cases ev with
  | nil => cases htext
  | cons member ev => exact Eq.refl true

theorem provenItem_iff (item : List (String × Json)) :
    ProvenItem item ↔ Python.get item "status" = .str "proven" ∧
      ¬EvidenceRejected Python.strip normSession item := by
  constructor
  · rintro ⟨hstatus, ev, hev, hevidenced⟩
    exact ⟨hstatus, (evidenced_iff hev).mp hevidenced⟩
  · rintro ⟨hstatus, haccepted⟩
    obtain ⟨ev, hev⟩ := exists_evidence_of_not_rejected haccepted
    exact ⟨hstatus, ev, hev, (evidenced_iff hev).mpr haccepted⟩

theorem itemReasons_eq_nil_iff (repr : Json → String) (item : List (String × Json)) :
    CoverageGate.itemReasons repr (.obj item) = [] ↔ ProvenItem item := by
  rw [provenItem_iff, ← not_iff_not, ← ne_eq, MergeParity.itemReasons_ne_nil_iff, not_and_or,
    not_not]

/-! ## Models -/

section Models

variable (repr : Json → String)

theorem isInScope_iff {value : Json} : isInScope value = true ↔
    ∃ item, value = .obj item ∧ Python.get item "in_scope" = .bool true := by
  cases value with
  | obj item => simp [isInScope]
  | _ => simp [isInScope]

/-- The decision on a list of items, by those in scope. -/
theorem deny_of_arr {members : List (String × Json)} {items : List Json}
    (hitems : Python.get members "items" = .arr items) :
    (denyMerge repr (.obj members)).deny = false ↔ items.filter isInScope ≠ [] ∧
      ∀ value ∈ items.filter isInScope, CoverageGate.itemReasons repr value = [] := by
  simp only [denyMerge, CoverageGate.modelShapeDenial, hitems]
  split_ifs with hempty
  · simp [hempty]
  · simp [hempty, List.isEmpty_iff]

/-- Only an object with a list of items is not denied out of hand. -/
theorem exists_items_of_allowed {model : Json} (h : (denyMerge repr model).deny = false) :
    ∃ members items, model = .obj members ∧ Python.get members "items" = .arr items := by
  by_contra hnone
  refine absurd (MergeParity.denyMerge_of_not_arr repr model fun items hitems ↦ hnone ?_) (by simp [h])
  obtain ⟨members, hmodel, hlookup⟩ := Rego.exists_of_ref_eq_some hitems
  exact ⟨members, items, Option.some.inj hmodel,
    (Python.get_eq_iff_of_ne_null Json.noConfusion).mpr hlookup⟩

theorem allowed_iff_of_arr {members : List (String × Json)} {items : List Json}
    (hitems : Python.get members "items" = .arr items) :
    (denyMerge repr (.obj members)).deny = false ↔
      (∃ item, .obj item ∈ items ∧ Python.get item "in_scope" = .bool true) ∧
        ∀ item, .obj item ∈ items → Python.get item "in_scope" = .bool true → ProvenItem item := by
  rw [deny_of_arr repr hitems, ← List.length_pos_iff,
    List.length_pos_iff_exists_mem]
  simp only [List.mem_filter, isInScope_iff]
  constructor
  · rintro ⟨⟨_, hmem, item, rfl, hscope⟩, hall⟩
    refine ⟨⟨item, hmem, hscope⟩, fun other hother hscoped ↦ ?_⟩
    exact (itemReasons_eq_nil_iff repr other).mp (hall _ ⟨hother, other, rfl, hscoped⟩)
  · rintro ⟨⟨item, hmem, hscope⟩, hall⟩
    refine ⟨⟨_, hmem, item, rfl, hscope⟩, ?_⟩
    rintro _ ⟨hother, other, rfl, hscoped⟩
    exact (itemReasons_eq_nil_iff repr other).mpr (hall other hother hscoped)

/-- The gate allows exactly the fully proven models; it sees the objects in scope, in
any order, and nothing else. -/
theorem allowed_iff_fullyProven (model : Json) :
    ((denyMerge repr model).deny = false ↔ FullyProven model) ∧
      ∀ members items, model = .obj members → Python.get members "items" = .arr items →
        ∀ members' items', Python.get members' "items" = .arr items' →
          (items.filter isInScope).Perm (items'.filter isInScope) →
            (denyMerge repr (.obj members')).deny = (denyMerge repr model).deny := by
  constructor
  · constructor
    · intro hallowed
      obtain ⟨members, items, rfl, hitems⟩ := exists_items_of_allowed repr hallowed
      exact ⟨members, items, rfl, hitems, (allowed_iff_of_arr repr hitems).mp hallowed⟩
    · rintro ⟨members, items, rfl, hitems, hproven⟩
      exact (allowed_iff_of_arr repr hitems).mpr hproven
  · rintro members items rfl hitems members' items' hitems' hperm
    have hsame : (denyMerge repr (.obj members')).deny = false ↔
        (denyMerge repr (.obj members)).deny = false := by
      rw [deny_of_arr repr hitems, deny_of_arr repr hitems', ← List.length_pos_iff,
        ← List.length_pos_iff, hperm.length_eq]
      simp only [hperm.mem_iff]
    cases hdeny : (denyMerge repr (.obj members)).deny with
    | false => exact hsame.mpr hdeny
    | true => simpa [hdeny] using hsame

/-! ## The three views of a finished model -/

/-- A list of objects whose `in_scope`, where it is given, is a boolean. -/
structure IsFeatureList (members : List (String × Json)) (items : List Json) : Prop where
  list : Python.get members "items" = .arr items
  objects : ∀ value ∈ items, ∃ item, value = .obj item
  booleans : ∀ item, .obj item ∈ items → ∀ scope, item.lookup "in_scope" = some scope →
    ∃ b, scope = .bool b

theorem IsFeatureList.scope_of_truthy {members : List (String × Json)} {items : List Json}
    (h : IsFeatureList members items) {item : List (String × Json)} (hmem : .obj item ∈ items)
    (htruthy : Python.truthy (Python.get item "in_scope") = true) :
    Python.get item "in_scope" = .bool true := by
  cases hlookup : item.lookup "in_scope" with
  | none => simp [Python.get, hlookup, Python.truthy] at htruthy
  | some scope =>
      obtain ⟨b, rfl⟩ := h.booleans item hmem scope hlookup
      simpa [Python.get, hlookup, Python.truthy] using htruthy

/-- The three views in order of strictness: what the gate allows is complete and leaves
the input document empty, and what is complete and not allowed breaks a rule on the
evidence. -/
theorem allowed_complete_chain {members : List (String × Json)} {items : List Json}
    (h : IsFeatureList members items) :
    ((denyMerge repr (.obj members)).deny = false →
        Coverage.isComplete (.obj members) = .ok true ∧
          ∀ loads text, loads text = .ok (.obj members) →
            Coverage.buildOpaInput loads text = .ok ⟨[], []⟩) ∧
      (Coverage.isComplete (.obj members) = .ok true →
        (denyMerge repr (.obj members)).deny = true →
          ∃ item, .obj item ∈ items ∧ Python.get item "in_scope" = .bool true ∧
            EvidenceRejected Python.strip normSession item) := by
  rw [allowed_iff_of_arr repr h.list, Coverage.isComplete_iff h.list h.objects]
  constructor
  · rintro ⟨⟨item, hmem, hscope⟩, hproven⟩
    refine ⟨⟨⟨item, hmem, truthy_of_scope hscope⟩, fun other hother htruthy ↦ ?_⟩, ?_⟩
    · exact (hproven other hother (h.scope_of_truthy hother htruthy)).status
    · intro loads text hloads
      rw [Coverage.buildOpaInput, hloads, Outcome.ok_bind, Coverage.itemsOf_obj h.list h.objects,
        Outcome.ok_bind, Coverage.foldl_add_eq_nil]
      · rfl
      · intro other hother htruthy
        have hmem := Json.mem_objects.mp hother
        have hother := hproven other hmem (h.scope_of_truthy hmem htruthy)
        exact ⟨hother.status, hother.truthy_evidence⟩
  · rintro ⟨⟨item, hmem, htruthy⟩, hstatus⟩ hdeny
    by_contra hnone
    refine absurd ((allowed_iff_of_arr repr h.list).mpr ⟨⟨item, hmem, ?_⟩, ?_⟩) (by simp [hdeny])
    · exact h.scope_of_truthy hmem htruthy
    · intro other hother hscope
      refine (provenItem_iff other).mpr ⟨hstatus other hother ?_, fun hrejected ↦ ?_⟩
      · exact truthy_of_scope hscope
      · exact hnone ⟨other, hother, hscope, hrejected⟩

end Models

/-! ## A proven wiring -/

def wiringEvidence : List (String × Json) :=
  [("test_file", .str "tests/wiring.py"), ("test_name", .str "test_route"),
    ("output_hash", .str "sha256:0f"), ("collected_at", .str "2025-01-01T00:00:00+00:00"),
    ("verifier_session_id", .str "V-1 "), ("implementer_session_id", .str "i-1"),
    ("evidence_kind", .str "integration")]

def wiringItem : List (String × Json) :=
  [("id", .str "W1"), ("type", .str "WIRING"), ("in_scope", .bool true),
    ("status", .str "proven"), ("evidence", .obj wiringEvidence)]

def wiringModel : List (String × Json) := [("items", .arr [.obj wiringItem])]

theorem wiringModel_isFeatureList : IsFeatureList wiringModel [.obj wiringItem] where
  list := rfl
  objects := by simp
  booleans := by
    intro item hitem scope hscope
    obtain rfl := Json.obj.inj (List.mem_singleton.mp hitem)
    exact ⟨true, (Option.some.inj hscope).symm⟩

theorem wiringModel_complete :
    Coverage.isComplete (.obj wiringModel) = .ok true ∧
      ∀ loads text, loads text = .ok (.obj wiringModel) →
        Coverage.buildOpaInput loads text = .ok ⟨[], []⟩ :=
  (allowed_complete_chain (fun _ ↦ "") wiringModel_isFeatureList).1 (by decide)

end AgenticSDLC.ProvenModels
