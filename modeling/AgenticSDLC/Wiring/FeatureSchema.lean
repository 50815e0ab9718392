import AgenticSDLC.Foundations.JsonSchema
import AgenticSDLC.Wiring.WiringChecker
import AgenticSDLC.Wiring.WiringIngest

/-!
# The schema of the model file

`schema/feature_list.schema.json`.  Descriptions and defaults say nothing about a value, and
`format` is no more than a remark.
-/

namespace AgenticSDLC.WiringIngest

open JsonSchema WiringChecker

/-- `^[A-Z]+-[A-Z]+-[0-9]{3}$`: what stands before a hyphen is all of the letters there. -/
def isItemId (s : String) : Bool :=
  let first := s.toList.takeWhile Char.isUpper
  let second := (s.toList.dropWhile Char.isUpper).drop 1 |>.takeWhile Char.isUpper
  let digits := (s.toList.dropWhile Char.isUpper).drop 1 |>.dropWhile Char.isUpper |>.drop 1
  first ≠ [] && second ≠ [] && digits.length = 3 && digits.all Char.isDigit &&
    s.toList = first ++ '-' :: second ++ '-' :: digits

/-- `^sha256:[a-f0-9]{64}$`. -/
def isOutputHash (s : String) : Bool :=
  let digits := s.toList.drop 7
  s.toList.take 7 = "sha256:".toList && digits.length = 64 &&
    digits.all fun c ↦ c.isDigit || ('a' ≤ c && c ≤ 'f')

namespace FeatureList

def text : Schema := .type .string

def oneOf (texts : List String) : Schema := .allOf [.type .string, .enum texts]

def nonEmptyText : Schema := .allOf [.type .string, .minLength 1]

def checklistRef : Schema :=
  .allOf [.type .object, .required ["path", "version", "sha"],
    .properties [("path", text), ("version", text), ("sha", text)]]

def evidenceRecord : Schema :=
  .allOf [.type .object, .required ["test_file", "test_name", "output_hash", "collected_at"],
    .closed ["test_file", "test_name", "output_hash", "collected_at", "actor_agent",
      "verifier_session_id", "implementer_session_id", "evidence_kind"],
    .properties [("test_file", nonEmptyText), ("test_name", nonEmptyText),
      ("output_hash", .allOf [.type .string, .pattern isOutputHash]),
      ("collected_at", nonEmptyText), ("actor_agent", nonEmptyText),
      ("verifier_session_id", nonEmptyText), ("implementer_session_id", nonEmptyText),
      ("evidence_kind", oneOf ["unit", "integration", "behavioral", "perf", "a11y"])]]

def itemId : Schema := .allOf [.type .string, .minLength 1, .pattern isItemId]

/-- The members of an item, apart from its id. -/
def itemFields : List (String × Schema) :=
  [("type", oneOf ["functional", "NFR", "WIRING"]),
    ("nfr_subtype", oneOf ["performance", "accessibility", "reliability", "security"]),
    ("subtype", oneOf ["performance", "accessibility", "ui-screen"]),
    ("declared_states", .allOf [.type .array, .items text]),
    ("priority", .allOf [.type .integer, .minimum 1]), ("title", text),
    ("ears_pattern", oneOf ["ubiquitous", "event-driven", "state-driven", "unwanted", "optional"]),
    ("ears_statement", text),
    ("dependencies", .allOf [.type .array, .items (.allOf [.type .string, .pattern isItemId])]),
    ("acceptance_criteria", .allOf [.type .array, .items text, .minItems 1]),
    ("provenance", oneOf ["stated", "inferred"]),
    ("status", oneOf ["unproven", "proven", "failed"]), ("in_scope", .type .boolean),
    ("evidence", evidenceRecord)]

def provenNeedsEvidence : Schema :=
  .ifThen (.allOf [.properties [("status", .enum ["proven"])], .required ["status"]])
    (.required ["evidence"])

def nfrNeedsSubtype : Schema :=
  .ifThen (.allOf [.properties [("type", .enum ["NFR"])], .required ["type"]])
    (.required ["nfr_subtype"])

def wiringNeedsIntegration : Schema :=
  .ifThen
    (.allOf [.properties [("type", .enum ["WIRING"]), ("status", .enum ["proven"])],
      .required ["type", "status"]])
    (.allOf [.properties [("evidence", .allOf [.required ["evidence_kind"],
      .properties [("evidence_kind", .enum ["integration"])]])], .required ["evidence"]])

def coverageItem : Schema :=
  .allOf [.type .object,
    .required ["id", "type", "priority", "dependencies", "acceptance_criteria", "status",
      "in_scope"],
    .properties (("id", itemId) :: itemFields), provenNeedsEvidence, nfrNeedsSubtype,
    wiringNeedsIntegration]

def schema : Schema :=
  .allOf [.type .object, .required ["schema_version", "product_class", "checklist_ref", "items"],
    .properties [("schema_version", text), ("product_class", text), ("checklist_ref", checklistRef),
      ("items", .allOf [.type .array, .items coverageItem])]]

end FeatureList

/-- `validate_against_schema` does not raise. -/
def validModel (content : Json) : Bool := FeatureList.schema.accepts content

/-- A model with one item, of this wiring. -/
def sampleFile (wiring : Json) : Json :=
  .obj [("schema_version", .str "1.0.0"), ("product_class", .str "agentic-sdlc-control-plane"),
    ("checklist_ref", .obj [("path", .str "checklist.md"), ("version", .str "1.0.0"),
      ("sha", .str "4b825dc6")]),
    ("items", .arr [.obj [("id", .str "REQ-WIRE-001"), ("type", .str "WIRING"),
      ("priority", .int 1), ("dependencies", .arr []), ("acceptance_criteria", .arr [.str "wired"]),
      ("status", .str "unproven"), ("in_scope", .bool true), ("wiring", wiring)]])]

/-- The schema has nothing to say about the wiring of an item. -/
theorem validModel_sampleFile (wiring : Json) : validModel (sampleFile wiring) = true := by
  rfl

/-- A valid model is a dictionary with a list of items. -/
theorem items_of_valid {content : Json} (h : validModel content = true) :
    ∃ members items, content = .obj members ∧ members.lookup "items" = some (.arr items) := by
  rw [validModel, FeatureList.schema, Schema.accepts_allOf_iff] at h
  obtain ⟨members, rfl⟩ := Schema.accepts_type_object_iff.mp (h _ (by simp))
  have hrequired := h (.required ["schema_version", "product_class", "checklist_ref", "items"])
    (by simp)
  obtain ⟨value, hvalue⟩ := Schema.accepts_required_iff.mp hrequired "items" (by simp)
  have hfields := h (.properties [("schema_version", FeatureList.text),
    ("product_class", FeatureList.text), ("checklist_ref", FeatureList.checklistRef),
    ("items", .allOf [.type .array, .items FeatureList.coverageItem])]) (by simp)
  have hitems := Schema.accepts_properties_iff.mp hfields
    ("items", .allOf [.type .array, .items FeatureList.coverageItem]) (by simp) value hvalue
  obtain ⟨items, rfl⟩ := Schema.accepts_type_array_iff.mp
    (Schema.accepts_allOf_iff.mp hitems _ List.mem_cons_self)
  exact ⟨members, items, rfl, hvalue⟩

/-- A valid item has an id, which is a text. -/
theorem id_of_valid {item : Json} (h : FeatureList.coverageItem.accepts item = true) :
    ∃ members id, item = .obj members ∧ members.lookup "id" = some (.str id) := by
  rw [FeatureList.coverageItem, Schema.accepts_allOf_iff] at h
  obtain ⟨members, rfl⟩ := Schema.accepts_type_object_iff.mp (h _ (by simp))
  have hrequired := h (.required ["id", "type", "priority", "dependencies", "acceptance_criteria",
    "status", "in_scope"]) (by simp)
  obtain ⟨value, hvalue⟩ := Schema.accepts_required_iff.mp hrequired "id" (by simp)
  have hfields := h (.properties (("id", FeatureList.itemId) :: FeatureList.itemFields)) (by simp)
  have hid := Schema.accepts_properties_iff.mp hfields ("id", FeatureList.itemId)
    List.mem_cons_self value hvalue
  obtain ⟨id, rfl⟩ := Schema.accepts_type_string_iff.mp
    (Schema.accepts_allOf_iff.mp hid _ List.mem_cons_self)
  exact ⟨members, id, rfl, hvalue⟩

/-! ## Models with other items -/

section Items

variable {members : List (String × Json)} {items : List Json}

theorem validModel_iff (hlookup : members.lookup "items" = some (.arr items)) :
    validModel (.obj members) = true ↔
      (Schema.allOf [.required ["schema_version", "product_class", "checklist_ref"],
        .properties [("schema_version", FeatureList.text), ("product_class", FeatureList.text),
          ("checklist_ref", FeatureList.checklistRef)]]).accepts (.obj members) = true ∧
        ∀ item ∈ items, FeatureList.coverageItem.accepts item = true := by
  have hobject : (Schema.type .object).accepts (.obj members) = true := rfl
  have harray : (Schema.type .array).accepts (.arr items) = true := rfl
  simp [validModel, FeatureList.schema, hlookup, hobject, harray, and_assoc]

/-- A valid model stays one just when it is given valid items. -/
theorem validModel_set (hvalid : validModel (.obj members) = true)
    (hlookup : members.lookup "items" = some (.arr items)) (values : List Json) :
    validModel (.obj (Dict.set "items" (.arr values) members)) = true ↔
      ∀ item ∈ values, FeatureList.coverageItem.accepts item = true := by
  have hheader := ((validModel_iff hlookup).mp hvalid).1
  rw [validModel_iff (by rw [Dict.lookup_set, if_pos rfl])]
  refine and_iff_right_of_imp fun _ ↦ ?_
  simpa [Dict.lookup_set] using hheader

theorem validModel_extend (hvalid : validModel (.obj members) = true)
    (hlookup : members.lookup "items" = some (.arr items)) (appended : List Json) :
    validModel (extend members items appended) = true ↔
      ∀ item ∈ appended, FeatureList.coverageItem.accepts item = true := by
  have hold := ((validModel_iff hlookup).mp hvalid).2
  rw [extend, validModel_set hvalid hlookup, List.forall_mem_append]
  exact and_iff_right hold

end Items

/-! ## Candidates -/

theorem accepts_itemId_iff (s : String) :
    FeatureList.itemId.accepts (.str s) = true ↔ isItemId s = true := by
  have hkind : (Schema.type .string).accepts (.str s) = true := rfl
  have hpattern : (Schema.pattern isItemId).accepts (.str s) = isItemId s := rfl
  rw [FeatureList.itemId, Schema.accepts_allOf_iff]
  constructor
  · intro h
    exact hpattern.symm.trans (h _ (by simp))
  · intro h
    have hsome : 0 < s.length := by
      simp only [isItemId, Bool.and_eq_true, decide_eq_true_eq] at h
      rw [← String.length_toList, List.length_pos_iff]
      intro hnil
      rw [hnil] at h
      exact h.1.1.1.1 rfl
    have hlength : (Schema.minLength 1).accepts (.str s) = true := decide_eq_true hsome
    simp [hkind, hlength, hpattern, h]

/-- A candidate has nothing but its id that the schema could refuse. -/
theorem coverageItem_candidate (ordinal : ℕ) (item : WiringItem) :
    FeatureList.coverageItem.accepts (.obj (candidate ordinal item)) = true ↔
      isItemId (itemId ordinal) = true := by
  have hid : (candidate ordinal item).lookup "id" = some (.str (itemId ordinal)) := rfl
  have hothers : (Schema.allOf [.type .object, .required ["id", "type", "priority", "dependencies",
      "acceptance_criteria", "status", "in_scope"], .properties FeatureList.itemFields,
      FeatureList.provenNeedsEvidence, FeatureList.nfrNeedsSubtype,
      FeatureList.wiringNeedsIntegration]).accepts (.obj (candidate ordinal item)) = true := rfl
  simp only [Schema.accepts_allOf_iff, Schema.accepts_properties_iff, List.forall_mem_cons] at hothers
  obtain ⟨hobject, hrequired, hfields, hproven, hnfr, hwiring, -⟩ := hothers
  rw [← accepts_itemId_iff, FeatureList.coverageItem]
  simp only [Schema.accepts_allOf_iff, Schema.accepts_properties_iff, List.forall_mem_cons, hid]
  constructor
  · rintro ⟨-, -, ⟨hitemId, -⟩, -⟩
    exact hitemId _ rfl
  · intro hitemId
    refine ⟨hobject, hrequired, ⟨?_, hfields⟩, hproven, hnfr, hwiring, by simp⟩
    rintro value ⟨⟩
    exact hitemId

theorem isItemId_itemId (ordinal : ℕ) : isItemId (itemId ordinal) = true ↔ ordinal ≤ 999 := by
  have htext : (itemId ordinal).toList =
      'R' :: 'E' :: 'Q' :: '-' :: 'W' :: 'I' :: 'R' :: 'E' :: '-' :: (ordinalText ordinal).toList := by
    simp [itemId, wiringReqPrefix]
  have hdigits : ∀ c ∈ (ordinalText ordinal).toList, c.isDigit = true := by
    intro c hc
    rw [ordinalText, String.toList_ofList, List.mem_append] at hc
    rcases hc with hzero | hdigit
    · rw [List.eq_of_mem_replicate hzero]
      rfl
    · exact Nat.isDigit_of_mem_toDigits (by decide) (by decide) hdigit
  have hlength : (ordinalText ordinal).toList.length = 3 ↔ ordinal ≤ 999 := by
    have hpos := @Nat.length_toDigits_pos 10 ordinal
    have hle : (Nat.toDigits 10 ordinal).length ≤ 3 ↔ ordinal < 10 ^ 3 :=
      Nat.length_toDigits_le_iff (by decide) (by decide)
    rw [ordinalText, String.toList_ofList, List.length_append, List.length_replicate]
    omega
  have hid : isItemId (itemId ordinal) = true ↔ (ordinalText ordinal).toList.length = 3 ∧
      ∀ c ∈ (ordinalText ordinal).toList, c.isDigit = true := by
    have hupper : 'R'.isUpper ∧ 'E'.isUpper ∧ 'Q'.isUpper ∧ 'W'.isUpper ∧ 'I'.isUpper ∧
        '-'.isUpper = false := by decide
    simp [isItemId, htext, hupper]
  rw [hid, hlength]
  exact and_iff_left hdigits

end AgenticSDLC.WiringIngest
