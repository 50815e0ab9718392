import AgenticSDLC.Coverage.CoverageGate
import AgenticSDLC.Coverage.CoverageQuery

/-!
# Where the two merge gates agree

Both gates deny for a reason about the whole model or about one in-scope item.
What they ask of a proven item is one predicate, `EvidenceRejected`, taken at
two ways of trimming text; they differ on a missing status and on an `items`
object besides.  The reasons split into those both gates see and those only one
of them sees, and the decisions are compared through the split.
-/

namespace AgenticSDLC.MergeParity

open CoverageGate (evidenceFields evidenceObj isNonemptyStrField SessionsRejected)

/-- The evidence holds no text under `field`, or a text that `strip` empties. -/
def FieldBlank (strip : String → String) (ev : List (String × Json)) (field : String) : Prop :=
  ∀ s, ev.lookup field = some (.str s) → strip s = ""

def WiringRejected (item : List (String × Json)) : Prop :=
  Python.get item "type" = .str "WIRING" ∧
    Python.get (evidenceObj item) "evidence_kind" ≠ .str "integration"

/-- What a gate that trims by `strip` and compares sessions by `norm` holds
against a proven item. -/
def EvidenceRejected (strip : String → String) (norm : Json → String)
    (item : List (String × Json)) : Prop :=
  (∃ field ∈ evidenceFields, FieldBlank strip (evidenceObj item) field) ∨
    SessionsRejected norm (evidenceObj item) ∨ WiringRejected item

/-! ## The Python gate -/

theorem isNonemptyStrField_eq_false_iff (ev : List (String × Json)) (field : String) :
    isNonemptyStrField ev field = false ↔ FieldBlank Python.strip ev field := by
  unfold isNonemptyStrField FieldBlank
  cases hfield : ev.lookup field with
  | none => simp [Python.get, hfield]
  | some value => cases value <;> simp [Python.get, hfield]

theorem evidenceComplete_eq_false_iff (item : List (String × Json)) :
    CoverageGate.evidenceComplete item = false ↔
      ∃ field ∈ evidenceFields, FieldBlank Python.strip (evidenceObj item) field := by
  simp only [← isNonemptyStrField_eq_false_iff]
  unfold CoverageGate.evidenceComplete evidenceObj
  cases Python.get item "evidence" with
  | obj ev => simp
  | _ => simp [evidenceFields, isNonemptyStrField, Python.get]

theorem itemReasons_ne_nil_iff (repr : Json → String) (item : List (String × Json)) :
    CoverageGate.itemReasons repr (.obj item) ≠ [] ↔
      Python.get item "status" ≠ .str "proven" ∨
        EvidenceRejected Python.strip CoverageGate.normSession item := by
  by_cases hproven : Python.get item "status" = .str "proven"
  · have hevidence : (CoverageGate.denyReasonEvidence repr
        (Python.getD item "id" (.str "<no-id>")) item).toList ≠ [] ↔
          CoverageGate.evidenceComplete item = false := by
      unfold CoverageGate.denyReasonEvidence
      cases CoverageGate.evidenceComplete item <;> simp
    have hwiring : (CoverageGate.denyReasonWiringKind repr
        (Python.getD item "id" (.str "<no-id>")) item (evidenceObj item)).toList ≠ [] ↔
          WiringRejected item := by
      unfold CoverageGate.denyReasonWiringKind WiringRejected
      split_ifs <;> simp_all
    have hsessions := CoverageGate.denyReasonsActorSep_ne_nil_iff repr
      (Python.getD item "id" (.str "<no-id>")) (evidenceObj item)
    simp only [CoverageGate.itemReasons, CoverageGate.denyReasonStatus, hproven, ne_eq,
      not_true_eq_false, if_false, false_or, EvidenceRejected, List.append_eq_nil_iff,
      not_and_or, ← evidenceComplete_eq_false_iff]
    rw [← hevidence, ← hwiring, ← hsessions]
    tauto
  · simp [CoverageGate.itemReasons, CoverageGate.denyReasonStatus, hproven]

/-! ## The Rego policy -/

/-- `_norm_session` of a defined value. -/
def regoNormSession : Json → String
  | .str value =>
      let s := Rego.trimSpaceText value
      if s = "" || !Text.isAscii s then "" else Text.asciiLower s
  | _ => ""

theorem normSession_some (value : Json) :
    CoverageQuery.normSession (some value) = some (.str (regoNormSession value)) := by
  cases value with
  | str s =>
      simp only [CoverageQuery.normSession, regoNormSession, Rego.isString, Rego.trimSpace,
        Rego.matchAscii, Rego.lower, Rego.holds_bool, Bool.true_and]
      by_cases hs : Rego.trimSpaceText s = ""
      · simp [hs]
      · cases hascii : Text.isAscii (Rego.trimSpaceText s) <;> simp [hs]
  | _ => rfl

theorem normSession_lookup (ev : List (String × Json)) (key : String) :
    Rego.holds (Rego.neq (CoverageQuery.normSession (ev.lookup key)) (some (.str ""))) =
      decide (regoNormSession (Python.get ev key) ≠ "") := by
  cases hkey : ev.lookup key with
  | none => simp [CoverageQuery.normSession, Python.get, hkey, regoNormSession]
  | some value => simp [normSession_some, Python.get, hkey]

theorem distinctSessions_eq_false_iff (ev : List (String × Json)) :
    CoverageQuery.distinctSessions (some (.obj ev)) = false ↔
      SessionsRejected regoNormSession ev := by
  simp only [CoverageQuery.distinctSessions, Rego.ref_obj, normSession_lookup, SessionsRejected]
  cases hv : ev.lookup "verifier_session_id" with
  | none => simp [Python.get, hv, regoNormSession]
  | some v =>
      cases hi : ev.lookup "implementer_session_id" with
      | none => simp [Python.get, hi, regoNormSession]
      | some i =>
          simp only [Python.get, hv, hi, normSession_some, Option.getD_some,
            Rego.neq_some, Option.some.injEq, exists_eq_left', ne_eq]
          simp only [Bool.and_eq_false_iff, decide_eq_false_iff_not, not_not, or_assoc]
          simp

theorem fieldMissingOrEmpty_eq_true_iff (ev : List (String × Json)) (field : String) :
    CoverageQuery.fieldMissingOrEmpty (some (.obj ev)) field = true ↔
      FieldBlank Rego.trimSpaceText ev field := by
  unfold CoverageQuery.fieldMissingOrEmpty FieldBlank
  cases hfield : ev.lookup field with
  | none => simp [hfield, Rego.negation]
  | some value =>
      cases value <;>
        simp [hfield, Rego.negation, Rego.isString, Rego.trimSpace]

theorem fieldBlank_nil (strip : String → String) (field : String) :
    FieldBlank strip [] field := by
  simp [FieldBlank]

theorem evidenceRejected_of_not_obj (strip : String → String) (norm : Json → String)
    {item : List (String × Json)} (hevidence : ∀ ev, item.lookup "evidence" ≠ some (.obj ev)) :
    EvidenceRejected strip norm item := by
  have hnil : evidenceObj item = [] := by
    unfold evidenceObj Python.get
    cases hlookup : item.lookup "evidence" with
    | none => rfl
    | some value =>
        cases value with
        | obj ev => exact absurd hlookup (hevidence ev)
        | _ => rfl
  exact Or.inl ⟨"test_file", by simp [evidenceFields], hnil ▸ fieldBlank_nil strip _⟩

section Item

variable (quote : Json → String) {item : List (String × Json)}

theorem denyStatus_ne_nil_iff :
    CoverageQuery.denyStatus quote (.obj item) ≠ [] ↔
      ∃ status, item.lookup "status" = some status ∧ status ≠ .str "proven" := by
  simp [CoverageQuery.denyStatus, CoverageQuery.itemId, Rego.objectGet]

theorem isProven_iff :
    CoverageQuery.isProven (.obj item) = true ↔
      item.lookup "status" = some (.str "proven") := by
  simp [CoverageQuery.isProven]

theorem denials_of_not_obj (hproven : item.lookup "status" = some (.str "proven"))
    (hevidence : ∀ ev, item.lookup "evidence" ≠ some (.obj ev)) :
    CoverageQuery.denyNoEvidence quote (.obj item) ≠ [] ∨
      CoverageQuery.denyMissingField quote (.obj item) ≠ [] := by
  have hitem := isProven_iff.mpr hproven
  cases hholds : Rego.holds (item.lookup "evidence") with
  | false =>
      left
      simp [CoverageQuery.denyNoEvidence, hitem, Rego.negation, hholds,
        CoverageQuery.itemId, Rego.objectGet]
  | true =>
      right
      have href : Rego.ref (item.lookup "evidence") "test_file" = none := by
        match hlookup : item.lookup "evidence" with
        | some (.obj ev) => exact absurd hlookup (hevidence ev)
        | none | some .null | some (.bool _) | some (.int _) | some (.float _)
        | some (.str _) | some (.arr _) => rfl
      simp [CoverageQuery.denyMissingField, hitem, hholds, CoverageQuery.evidenceFields,
        CoverageQuery.fieldMissingOrEmpty, href, Rego.negation, CoverageQuery.itemId,
        Rego.objectGet]

theorem denials_of_obj (hproven : item.lookup "status" = some (.str "proven"))
    {ev : List (String × Json)} (hevidence : item.lookup "evidence" = some (.obj ev)) :
    (CoverageQuery.denyMissingField quote (.obj item) ≠ [] ↔
        ∃ field ∈ evidenceFields, FieldBlank Rego.trimSpaceText ev field) ∧
      (CoverageQuery.denySessions quote (.obj item) ≠ [] ↔
        SessionsRejected regoNormSession ev) ∧
      (CoverageQuery.denyWiringKind quote (.obj item) ≠ [] ↔
        Python.get item "type" = .str "WIRING" ∧
          Python.get ev "evidence_kind" ≠ .str "integration") := by
  have hitem := isProven_iff.mpr hproven
  refine ⟨?_, ?_, ?_⟩
  · simp only [CoverageQuery.denyMissingField, hitem, Rego.ref_obj, hevidence,
      Rego.holds_obj, Bool.true_and, if_true, ne_eq, List.flatMap_eq_nil_iff, not_forall]
    simp [← fieldMissingOrEmpty_eq_true_iff, CoverageQuery.itemId, Rego.objectGet,
      CoverageQuery.evidenceFields, evidenceFields]
  · simp only [CoverageQuery.denySessions, hitem, Rego.ref_obj, hevidence,
      Rego.holds_obj, Bool.true_and]
    simp [distinctSessions_eq_false_iff, CoverageQuery.itemId, Rego.objectGet]
  · rw [Python.get_eq_iff_of_ne_null (by simp)]
    simp only [CoverageQuery.denyWiringKind, hitem, Rego.ref_obj, hevidence, Bool.true_and]
    cases hkind : ev.lookup "evidence_kind" <;>
      simp [hkind, hevidence, Python.get, CoverageQuery.itemId, Rego.objectGet]

theorem itemDenials_ne_nil_iff :
    CoverageQuery.itemDenials quote (.obj item) ≠ [] ↔
      (∃ status, item.lookup "status" = some status ∧ status ≠ .str "proven") ∨
        item.lookup "status" = some (.str "proven") ∧
          EvidenceRejected Rego.trimSpaceText regoNormSession item := by
  simp only [CoverageQuery.itemDenials, ne_eq, List.append_eq_nil_iff, not_and_or]
  simp only [← ne_eq, denyStatus_ne_nil_iff]
  by_cases hproven : item.lookup "status" = some (.str "proven")
  · by_cases hobj : ∃ ev, item.lookup "evidence" = some (.obj ev)
    · obtain ⟨ev, hevidence⟩ := hobj
      obtain ⟨hfield, hsessions, hwiring⟩ := denials_of_obj quote hproven hevidence
      have hnone : CoverageQuery.denyNoEvidence quote (.obj item) = [] := by
        simp only [CoverageQuery.denyNoEvidence, Rego.ref_obj, hevidence, Rego.negation,
          Rego.holds_obj, Bool.not_true, Bool.and_false, Bool.false_eq_true, if_false]
      have hev : evidenceObj item = ev := by simp [evidenceObj, Python.get, hevidence]
      rw [hfield, hsessions, hwiring]
      simp [hproven, hnone, EvidenceRejected, WiringRejected, hev, or_assoc]
    · have hnot : ∀ ev, item.lookup "evidence" ≠ some (.obj ev) := fun ev h ↦ hobj ⟨ev, h⟩
      have hdenied := denials_of_not_obj quote hproven hnot
      have hrejected := evidenceRejected_of_not_obj Rego.trimSpaceText regoNormSession hnot
      tauto
  · have hskip : CoverageQuery.isProven (.obj item) = false := by
      simpa using mt isProven_iff.mp hproven
    simp [CoverageQuery.denyNoEvidence, CoverageQuery.denyMissingField,
      CoverageQuery.denySessions, CoverageQuery.denyWiringKind, hskip, hproven]

end Item

/-! ## The two decisions -/

/-- The in-scope items, an `items` object being read by its values. -/
def inScope (D : Json) : List (List (String × Json)) :=
  Json.objects (CoverageQuery.inScopeItems D)

def HasStatusOtherThanProven (item : List (String × Json)) : Prop :=
  ∃ status, item.lookup "status" = some status ∧ status ≠ .str "proven"

def IsProven (item : List (String × Json)) : Prop :=
  item.lookup "status" = some (.str "proven")

/-- `field` holds a text of nothing but white space by Python's reading, and of
something else by OPA's: the separators U+001C to U+001F are the difference. -/
def SeparatorText (ev : List (String × Json)) (field : String) : Prop :=
  ∃ s, ev.lookup field = some (.str s) ∧ Python.strip s = "" ∧ Rego.trimSpaceText s ≠ ""

def SharedDefect (item : List (String × Json)) : Prop :=
  HasStatusOtherThanProven item ∨
    IsProven item ∧
      ((∃ field ∈ evidenceFields, FieldBlank Rego.trimSpaceText (evidenceObj item) field) ∨
        SessionsRejected CoverageGate.normSession (evidenceObj item) ∧
            SessionsRejected regoNormSession (evidenceObj item) ∨
          WiringRejected item)

def PythonOnlyDefect (item : List (String × Json)) : Prop :=
  item.lookup "status" = none ∨
    IsProven item ∧
      ((∃ field ∈ evidenceFields, SeparatorText (evidenceObj item) field) ∨
        SessionsRejected CoverageGate.normSession (evidenceObj item) ∧
          ¬SessionsRejected regoNormSession (evidenceObj item))

/-- Only the Rego policy rejects the item: it sees a non-ASCII session id where
Python has stripped the non-ASCII ends. -/
def RegoOnlyDefect (item : List (String × Json)) : Prop :=
  IsProven item ∧ SessionsRejected regoNormSession (evidenceObj item) ∧
    ¬SessionsRejected CoverageGate.normSession (evidenceObj item)

def SharedDenial (D : Json) : Prop :=
  inScope D = [] ∨ ∃ item ∈ inScope D, SharedDefect item

def PythonOnlyDenial (D : Json) : Prop :=
  (∃ members, Rego.ref (some D) "items" = some (.obj members)) ∨
    ∃ item ∈ inScope D, PythonOnlyDefect item

def RegoOnlyDenial (D : Json) : Prop := ∃ item ∈ inScope D, RegoOnlyDefect item

theorem isspace_of_isSpace (c : Char) (h : Rego.isSpace c = true) :
    Python.isspace c = true := by
  simp only [Rego.isSpace, Python.isspace, Bool.or_eq_true, Bool.and_eq_true,
    decide_eq_true_eq, beq_iff_eq] at h ⊢
  omega

theorem fieldBlank_strip_iff (ev : List (String × Json)) (field : String) :
    FieldBlank Python.strip ev field ↔
      FieldBlank Rego.trimSpaceText ev field ∨ SeparatorText ev field := by
  constructor
  · intro hblank
    by_cases hrego : FieldBlank Rego.trimSpaceText ev field
    · exact Or.inl hrego
    · right
      simp only [FieldBlank, not_forall] at hrego
      obtain ⟨s, hs, htrim⟩ := hrego
      exact ⟨s, hs, hblank s hs, htrim⟩
  · rintro (hrego | ⟨s, hs, hstrip, _⟩) t ht
    · exact Text.trim_eq_empty_of_imp isspace_of_isSpace (hrego t ht)
    · rwa [show t = s by simpa [hs] using ht.symm]

theorem mem_inScope {D : Json} {item : List (String × Json)} :
    item ∈ inScope D ↔ .obj item ∈ CoverageQuery.inScopeItems D :=
  Json.mem_objects

theorem inScope_eq_nil_iff (D : Json) :
    inScope D = [] ↔ CoverageQuery.inScopeItems D = [] := by
  constructor
  · intro h
    refine List.eq_nil_iff_forall_not_mem.mpr fun item hitem ↦ ?_
    obtain ⟨members, rfl, -⟩ := CoverageQuery.mem_inScopeItems hitem
    exact List.eq_nil_iff_forall_not_mem.mp h members (mem_inScope.mpr hitem)
  · intro h
    simp [inScope, Json.objects, h]

theorem mem_inScope_of_arr {D : Json} {items : List Json}
    (hitems : Rego.ref (some D) "items" = some (.arr items)) (item : List (String × Json)) :
    item ∈ inScope D ↔ .obj item ∈ items.filter CoverageGate.isInScope := by
  have hscope : CoverageGate.isInScope (.obj item) = true ↔
      item.lookup "in_scope" = some (.bool true) := by
    rw [← Python.get_eq_iff_of_ne_null (by simp)]
    exact decide_eq_true_iff
  rw [mem_inScope, CoverageQuery.inScopeItems, hitems, List.mem_filter, List.mem_filter,
    hscope, Rego.eq_some, Rego.membersOf, Rego.ref_obj]
  exact and_congr_right fun _ ↦ decide_eq_true_iff

theorem denyMerge_of_not_arr (repr : Json → String) (D : Json)
    (hitems : ∀ items, Rego.ref (some D) "items" ≠ some (.arr items)) :
    (CoverageGate.denyMerge repr D).deny = true := by
  cases D with
  | obj model =>
      simp only [CoverageGate.denyMerge, CoverageGate.modelShapeDenial]
      cases hlookup : Python.get model "items" with
      | arr items =>
          have hsome := (Python.get_eq_iff_of_ne_null (by simp)).mp hlookup
          exact absurd hsome (hitems items)
      | _ => rfl
  | _ => rfl

theorem denyMerge_of_arr (repr : Json → String) {D : Json} {items : List Json}
    (hitems : Rego.ref (some D) "items" = some (.arr items)) :
    (CoverageGate.denyMerge repr D).deny = true ↔
      inScope D = [] ∨
        ∃ item ∈ inScope D, CoverageGate.itemReasons repr (.obj item) ≠ [] := by
  have hmem := mem_inScope_of_arr hitems
  obtain ⟨model, hD, hlookup⟩ := Rego.exists_of_ref_eq_some hitems
  obtain rfl := Option.some.inj hD
  have hget : Python.get model "items" = .arr items := by simp [Python.get, hlookup]
  have hobj : ∀ value ∈ items.filter CoverageGate.isInScope, ∃ item, value = .obj item := by
    intro value hvalue
    cases value with
    | obj item => exact ⟨item, rfl⟩
    | _ => simp [CoverageGate.isInScope] at hvalue
  have hnil : inScope (.obj model) = [] ↔ items.filter CoverageGate.isInScope = [] := by
    simp only [List.eq_nil_iff_forall_not_mem, hmem]
    constructor
    · intro h value hvalue
      obtain ⟨item, rfl⟩ := hobj value hvalue
      exact h item hvalue
    · exact fun h item ↦ h (.obj item)
  simp only [CoverageGate.denyMerge, CoverageGate.modelShapeDenial, hget, hnil]
  split_ifs with hempty
  · simp [hempty]
  · simp only [hempty, false_or, Bool.not_eq_true', List.isEmpty_eq_false_iff, ne_eq,
      List.flatMap_eq_nil_iff, not_forall, Python.mem_sortedBy, hmem]
    constructor
    · rintro ⟨value, hvalue, hreasons⟩
      obtain ⟨item, rfl⟩ := hobj value hvalue
      exact ⟨item, hvalue, hreasons⟩
    · rintro ⟨item, hitem, hreasons⟩
      exact ⟨.obj item, hitem, hreasons⟩

theorem itemReasons_iff_defects (repr : Json → String) (item : List (String × Json)) :
    CoverageGate.itemReasons repr (.obj item) ≠ [] ↔
      SharedDefect item ∨ PythonOnlyDefect item := by
  rw [itemReasons_ne_nil_iff]
  unfold SharedDefect PythonOnlyDefect EvidenceRejected HasStatusOtherThanProven IsProven
  cases hstatus : item.lookup "status" with
  | none => simp [Python.get, hstatus]
  | some status =>
      by_cases hproven : status = .str "proven"
      · simp only [Python.get, hstatus, hproven, Option.getD_some, fieldBlank_strip_iff,
          and_or_left, exists_or]
        by_cases hrego : SessionsRejected regoNormSession (evidenceObj item)
        · simp [hrego, or_assoc, or_comm]
        · simp [hrego, or_assoc, or_comm, or_left_comm]
      · simp [Python.get, hstatus, hproven]

theorem itemDenials_iff_defects (quote : Json → String) (item : List (String × Json)) :
    CoverageQuery.itemDenials quote (.obj item) ≠ [] ↔
      SharedDefect item ∨ RegoOnlyDefect item := by
  rw [itemDenials_ne_nil_iff]
  unfold SharedDefect RegoOnlyDefect EvidenceRejected HasStatusOtherThanProven IsProven
  by_cases hpython : SessionsRejected CoverageGate.normSession (evidenceObj item)
  · simp [hpython]
  · simp [hpython, and_or_left, or_assoc, or_comm, or_left_comm]

theorem denyMerge_iff (repr : Json → String) (D : Json) :
    (CoverageGate.denyMerge repr D).deny = true ↔ SharedDenial D ∨ PythonOnlyDenial D := by
  unfold SharedDenial PythonOnlyDenial
  match hitems : Rego.ref (some D) "items" with
  | some (.arr items) =>
      simp only [denyMerge_of_arr repr hitems, itemReasons_iff_defects, and_or_left, exists_or]
      simp [or_assoc]
  | some (.obj members) =>
      have hdenied := denyMerge_of_not_arr repr D (by simp [hitems])
      simp [hdenied]
  | none | some .null | some (.bool _) | some (.int _) | some (.float _) | some (.str _) =>
      have hdenied := denyMerge_of_not_arr repr D (by simp [hitems])
      have hnil : inScope D = [] := by
        rw [inScope_eq_nil_iff]
        simp [CoverageQuery.inScopeItems, hitems, Rego.membersOf]
      simp [hdenied, hnil]

theorem deny_iff (quote : Json → String) (D : Json) :
    CoverageQuery.deny quote D ≠ [] ↔ SharedDenial D ∨ RegoOnlyDenial D := by
  unfold SharedDenial RegoOnlyDenial
  rw [CoverageQuery.deny_ne_nil_iff, ← inScope_eq_nil_iff, or_assoc, ← exists_or]
  simp only [← and_or_left, ← itemDenials_iff_defects quote, mem_inScope]
  constructor
  · rintro (hnil | ⟨item, hitem, hdenied⟩)
    · exact Or.inl hnil
    · obtain ⟨members, rfl, -⟩ := CoverageQuery.mem_inScopeItems hitem
      exact Or.inr ⟨members, hitem, hdenied⟩
  · rintro (hnil | ⟨members, hitem, hdenied⟩)
    · exact Or.inl hnil
    · exact Or.inr ⟨.obj members, hitem, hdenied⟩

/-- The gates decide alike exactly when some reason both see denies, or each of
them has a reason of its own, or neither has. -/
theorem gates_agree_iff (repr quote : Json → String) (D : Json) :
    ((CoverageGate.denyMerge repr D).deny = true ↔ CoverageQuery.deny quote D ≠ []) ↔
      SharedDenial D ∨ (PythonOnlyDenial D ↔ RegoOnlyDenial D) := by
  rw [denyMerge_iff, deny_iff]
  by_cases hshared : SharedDenial D <;> simp [hshared]

/-- An in-scope item without a `status`: Rule 1 of the policy compares an
undefined reference and never fires. -/
def statuslessModel : Json :=
  .obj [("items", .arr [.obj [("id", .str "F1"), ("in_scope", .bool true)]])]

theorem gates_disagree_on_statuslessModel :
    ¬((CoverageGate.denyMerge (fun _ ↦ "F1") statuslessModel).deny = true ↔
      CoverageQuery.deny (fun _ ↦ "F1") statuslessModel ≠ []) := by
  have hpython : (CoverageGate.denyMerge (fun _ ↦ "F1") statuslessModel).deny = true := rfl
  have hrego : CoverageQuery.deny (fun _ ↦ "F1") statuslessModel = [] := rfl
  simp [hpython, hrego]

end AgenticSDLC.MergeParity
