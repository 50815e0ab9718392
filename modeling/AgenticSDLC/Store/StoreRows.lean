import AgenticSDLC.Store.Store

/-!
# The rows that the store writes

What the row of a requirement, a coverage item or a piece of evidence holds, and when the
table takes it.
-/

namespace AgenticSDLC.Store

open Python (Exception Stdlib)
open Sql

section Rows

variable {py : Stdlib} {engine : Engine}

/-- The text of a text column that a string is bound to. -/
theorem get_fill_of_bound {table : Table} {place : ℕ} {params : List (String × Json)} {values : Row}
    (hbind : bindAll place params = .ok values) (column : Column) (hmem : column ∈ table.columns)
    (htext : column.affinity = .text) {text : String}
    (hparam : params.lookup column.name = some (.str text)) :
    (table.fill engine values).get column.name = .text text := by
  obtain ⟨other, bound, hbound, hlookup⟩ := lookup_bindAll hbind hparam
  obtain rfl := Except.ok.inj hbound
  rw [get_fill values hmem, Column.stored, hlookup, htext]
  rfl

theorem get_of_bound {table : Table} {place : ℕ} {params : List (String × Json)} {values row : Row}
    (hbind : bindAll place params = .ok values) (hrow : table.row engine values = .ok row)
    (column : Column) (hmem : column ∈ table.columns) (htext : column.affinity = .text)
    {text : String} (hparam : params.lookup column.name = some (.str text)) :
    row.get column.name = .text text := by
  obtain ⟨rfl, -⟩ := row_eq_ok_iff.mp hrow
  exact get_fill_of_bound hbind column hmem htext hparam

/-! ## Requirements -/

/-- The values that a requirement is written with for the sake of its id. -/
def defaultValues (requirementId : String) : Row :=
  [("id", .text requirementId), ("project_id", .text "default"), ("type", .text "functional"),
    ("nfr_subtype", .null), ("priority", .integer 1), ("ears_pattern", .text "ubiquitous"),
    ("ears_stmt", .text ""), ("provenance", .text "stated")]

variable (py engine) in
theorem requirementRow_default (requirementId : String) :
    requirementRow py engine (.default requirementId) =
      .ok (requirements.fill engine (defaultValues requirementId)) := by
  have htype : (Requirement.default requirementId).type ∈ requirementTypes.map Json.str := by
    simp [Requirement.default, requirementTypes]
  have hrow : requirements.row engine (defaultValues requirementId) =
      .ok (requirements.fill engine (defaultValues requirementId)) := row_of_all rfl rfl
  rw [requirementRow, if_neg (not_not_intro htype)]
  exact hrow

theorem requirementRow_spec {args : Requirement} {row : Row} {requirementId : String}
    (h : requirementRow py engine args = .ok row) (hid : args.requirementId = .str requirementId) :
    row.get "id" = .text requirementId ∧ "id" ∈ row.map Prod.fst := by
  rw [requirementRow] at h
  split_ifs at h
  obtain ⟨values, hbind, hrow⟩ := Outcome.bind_eq_ok_iff.mp h
  refine ⟨get_of_bound hbind hrow ⟨"id", .text, false, .null⟩ (by simp [requirements]) rfl ?_, ?_⟩
  · rw [hid]
    rfl
  · rw [names_of_row hrow]
    simp [requirements]

/-- The row that a requirement is given for the sake of its id. -/
def defaultRow (engine : Engine) (requirementId : String) : Row :=
  requirements.fill engine (defaultValues requirementId)

theorem defaultRow_id (engine : Engine) (requirementId : String) :
    (defaultRow engine requirementId).get "id" = .text requirementId := by
  have hid : ⟨"id", .text, false, .null⟩ ∈ requirements.columns := by simp [requirements]
  exact get_fill (defaultValues requirementId) hid

/-! ## Coverage rows -/

/-- A row that can stand in the coverage table, by its id and its status. -/
structure IsCoverageRow (row : Row) (requirementId status : String) : Prop where
  id : row.get "requirement_id" = .text requirementId
  status : row.get "status" = .text status
  names : row.map Prod.fst = coverageItems.columns.map Column.name

theorem coverageRow_spec {item : Item} {now : String} {row : Row}
    (h : coverageRow engine item now = .ok row) :
    IsCoverageRow row item.requirementId item.status := by
  obtain ⟨values, hbind, hrow⟩ := Outcome.bind_eq_ok_iff.mp h
  refine ⟨?_, ?_, names_of_row hrow⟩
  · exact get_of_bound hbind hrow ⟨"requirement_id", .text, true, .null⟩ (by simp [coverageItems])
      rfl rfl
  · exact get_of_bound hbind hrow ⟨"status", .text, true, .text "unproven"⟩
      (by simp [coverageItems]) rfl rfl

variable (engine) in
theorem exists_flipRow (requirementId now : String) :
    ∃ row, flipRow engine requirementId now = .ok row ∧
      IsCoverageRow row requirementId "proven" := by
  have hrow : flipRow engine requirementId now = .ok (coverageItems.fill engine
      [("requirement_id", .text requirementId), ("status", .text "proven"),
        ("in_scope", .integer 1), ("updated_at", .text now)]) :=
    row_of_all rfl rfl
  refine ⟨_, hrow, ?_, ?_, names_of_row hrow⟩
  · exact get_of_row hrow ⟨"requirement_id", .text, true, .null⟩ (by simp [coverageItems])
  · exact get_of_row hrow ⟨"status", .text, true, .text "unproven"⟩ (by simp [coverageItems])

def itemSubtypes : List String := ["performance", "accessibility", "ui-screen"]

/-- The coverage table can hold the subtype and the slice of an item. -/
def Placeable (members : List (String × Json)) : Prop :=
  Python.get members "subtype" ∈ Json.null :: itemSubtypes.map Json.str ∧
    (Python.get members "slice_id" = .null ∨ Storable (Python.get members "slice_id"))

def Item.inScopeInt (item : Item) : ℤ :=
  if Python.truthy (Python.getD item.members "in_scope" (.bool true)) then 1 else 0

theorem inScopeInt_eq (item : Item) : item.inScopeInt = 0 ∨ item.inScopeInt = 1 := by
  rw [Item.inScopeInt]
  split_ifs
  · exact Or.inr rfl
  · exact Or.inl rfl

/-- The values of a coverage row. -/
def Item.values (item : Item) (subtype slice : Value) (now : String) : Row :=
  [("requirement_id", .text item.requirementId), ("status", .text item.status),
    ("subtype", subtype), ("in_scope", .integer item.inScopeInt), ("slice_id", slice),
    ("updated_at", .text now)]

variable (engine) in
theorem coverageRow_eq (item : Item) (now : String) :
    coverageRow engine item now = (do
      let subtype ← Sql.bind 3 (Python.get item.members "subtype")
      let slice ← Sql.bind 5 (Python.get item.members "slice_id")
      coverageItems.row engine (item.values subtype slice now)) := by
  have hscope : Sql.bind 4 (.int item.inScopeInt) = .ok (.integer item.inScopeInt) := by
    rcases inScopeInt_eq item with h | h <;> rw [h] <;> rfl
  rw [Item.inScopeInt] at hscope
  rw [coverageRow]
  simp only [bindAll, Nat.reduceAdd, hscope]
  cases Sql.bind 3 (Python.get item.members "subtype") with
  | error exc => rfl
  | ok subtype =>
      cases Sql.bind 5 (Python.get item.members "slice_id") with
      | error exc => rfl
      | ok slice => rfl

theorem row_values_eq_ok_iff {item : Item} (hstatus : item.status ∈ coverageStatuses)
    {subtype slice : Value} {now : String} {row : Row} :
    coverageItems.row engine (item.values subtype slice now) = .ok row ↔
      coverageItems.fill engine (item.values subtype slice now) = row ∧
        (Affinity.text.apply engine subtype = .null ∨
          ∃ text ∈ itemSubtypes, Affinity.text.apply engine subtype = .text text) := by
  rw [row_eq_ok_iff]
  refine and_congr_right fun _ ↦ ?_
  simp only [coverageItems, List.forall_mem_cons, isIn_holds_iff, isBit_holds_iff]
  constructor
  · rintro ⟨-, -, hsubtype, -⟩
    exact hsubtype
  · intro hsubtype
    refine ⟨⟨fun _ ↦ Value.noConfusion, fun _ ↦ Value.noConfusion, Bool.noConfusion,
      fun _ ↦ Value.noConfusion, Bool.noConfusion, fun _ ↦ Value.noConfusion, by simp⟩,
      Or.inr ⟨item.status, hstatus, rfl⟩, hsubtype, ?_, by simp⟩
    rcases inScopeInt_eq item with h | h
    · exact Or.inr (Or.inl (congrArg Value.integer h))
    · exact Or.inr (Or.inr (congrArg Value.integer h))

theorem stored_subtype_iff {place : ℕ} {value : Json} {subtype : Value}
    (h : Sql.bind place value = .ok subtype) :
    (Affinity.text.apply engine subtype = .null ∨
        ∃ text ∈ itemSubtypes, Affinity.text.apply engine subtype = .text text) ↔
      value ∈ Json.null :: itemSubtypes.map Json.str := by
  have hdigit : ∀ text ∈ itemSubtypes, text.toList.all (!·.isDigit) = true := by decide
  rw [List.mem_cons, List.mem_map, apply_bound_eq_null_iff h]
  apply or_congr_right
  constructor
  · rintro ⟨text, hmem, hstored⟩
    exact ⟨text, hmem, ((apply_bound_eq_text_iff (hdigit text hmem) h).mp hstored).symm⟩
  · rintro ⟨text, hmem, hvalue⟩
    exact ⟨text, hmem, (apply_bound_eq_text_iff (hdigit text hmem) h).mpr hvalue.symm⟩

theorem coverageRow_eq_ok_iff {item : Item} (hstatus : item.status ∈ coverageStatuses)
    {now : String} {row : Row} :
    coverageRow engine item now = .ok row ↔
      ∃ subtype slice, Sql.bind 3 (Python.get item.members "subtype") = .ok subtype ∧
        Sql.bind 5 (Python.get item.members "slice_id") = .ok slice ∧
          Python.get item.members "subtype" ∈ Json.null :: itemSubtypes.map Json.str ∧
            coverageItems.fill engine (item.values subtype slice now) = row := by
  rw [coverageRow_eq]
  constructor
  · intro h
    obtain ⟨subtype, hsubtype, h⟩ := Outcome.bind_eq_ok_iff.mp h
    obtain ⟨slice, hslice, hrow⟩ := Outcome.bind_eq_ok_iff.mp h
    obtain ⟨hfill, hstored⟩ := (row_values_eq_ok_iff hstatus).mp hrow
    exact ⟨subtype, slice, hsubtype, hslice, (stored_subtype_iff hsubtype).mp hstored, hfill⟩
  · rintro ⟨subtype, slice, hsubtype, hslice, hmem, hfill⟩
    rw [hsubtype, Outcome.ok_bind, hslice, Outcome.ok_bind]
    exact (row_values_eq_ok_iff hstatus).mpr ⟨hfill, (stored_subtype_iff hsubtype).mpr hmem⟩

variable (engine) in
theorem exists_coverageRow_iff {item : Item} (hstatus : item.status ∈ coverageStatuses)
    (now : String) :
    (∃ row, coverageRow engine item now = .ok row) ↔ Placeable item.members := by
  simp only [coverageRow_eq_ok_iff hstatus]
  constructor
  · rintro ⟨row, subtype, slice, -, hslice, hmem, -⟩
    exact ⟨hmem, (exists_bind_iff 5 _).mp ⟨slice, hslice⟩⟩
  · rintro ⟨hmem, hslice⟩
    obtain ⟨slice, hslice⟩ := (exists_bind_iff 5 _).mpr hslice
    obtain ⟨subtype, hsubtype⟩ : ∃ subtype, Sql.bind 3 (Python.get item.members "subtype") =
        .ok subtype := by
      rcases List.mem_cons.mp hmem with hnull | htext
      · exact ⟨.null, by rw [hnull]; rfl⟩
      · obtain ⟨text, -, htext⟩ := List.mem_map.mp htext
        exact ⟨.text text, by rw [← htext]; rfl⟩
    exact ⟨_, subtype, slice, hsubtype, hslice, hmem, rfl⟩

/-! ## Evidence rows -/

/-- The four fields of the evidence are there, and none is empty. -/
def Complete (row : Row) : Prop :=
  ∀ field ∈ EvidenceCollector.requiredFields, ∃ text, row.get field = .text text ∧ text ≠ ""

theorem exists_lookup_of_valid {record : List (String × Json)}
    (h : EvidenceCollector.validateEvidenceRecord py (.obj record) = true) :
    ∀ field ∈ EvidenceCollector.requiredFields, ∃ text,
      record.lookup field = some (.str text) ∧ text ≠ "" := by
  intro field hfield
  rw [EvidenceCollector.validateEvidenceRecord, Bool.and_eq_true] at h
  have hpresent := List.all_eq_true.mp h.1 field hfield
  rw [EvidenceCollector.fieldPresent] at hpresent
  split at hpresent
  · rename_i text htext
    refine ⟨text, (Python.get_eq_iff_of_ne_null (by simp)).mp htext, ?_⟩
    rintro rfl
    exact absurd hpresent (by decide)
  · cases hpresent

/-- The parameters of the evidence insert, for the texts of a valid record. -/
def evidenceParams (requirementId : String) (record : List (String × Json))
    (commitSha actorAgent : Json) (testFile testName outputHash collectedAt : String) :
    List (String × Json) :=
  [("requirement_id", .str requirementId),
    ("commit_sha", orElse commitSha (Python.getD record "commit_sha" (.str ""))),
    ("test_file", .str testFile), ("test_name", .str testName), ("output_hash", .str outputHash),
    ("collected_at", .str collectedAt), ("actor_agent", Python.getD record "actor_agent" actorAgent)]

variable (engine) in
theorem evidenceRow_eq {record : List (String × Json)}
    (h : EvidenceCollector.validateEvidenceRecord py (.obj record) = true)
    (requirementId : String) (commitSha actorAgent : Json) :
    ∃ testFile testName outputHash collectedAt, testFile ≠ "" ∧ testName ≠ "" ∧ outputHash ≠ "" ∧
      collectedAt ≠ "" ∧ evidenceRow engine requirementId record commitSha actorAgent =
        (bindAll 1 (evidenceParams requirementId record commitSha actorAgent testFile testName
          outputHash collectedAt) >>= evidenceRecords.row engine) := by
  obtain ⟨testFile, hfile, hfile'⟩ := exists_lookup_of_valid h "test_file"
    (by simp [EvidenceCollector.requiredFields])
  obtain ⟨testName, hname, hname'⟩ := exists_lookup_of_valid h "test_name"
    (by simp [EvidenceCollector.requiredFields])
  obtain ⟨outputHash, hhash, hhash'⟩ := exists_lookup_of_valid h "output_hash"
    (by simp [EvidenceCollector.requiredFields])
  obtain ⟨collectedAt, hat, hat'⟩ := exists_lookup_of_valid h "collected_at"
    (by simp [EvidenceCollector.requiredFields])
  refine ⟨testFile, testName, outputHash, collectedAt, hfile', hname', hhash', hat', ?_⟩
  simp only [evidenceRow, Python.subscript, hfile, hname, hhash, hat, Outcome.ok_bind]
  rfl

theorem stored_of_storable {column : Column} (htext : column.affinity = .text) {place : ℕ}
    {params : List (String × Json)} {values : Row} (hbind : bindAll place params = .ok values)
    {value : Json} (hparam : params.lookup column.name = some value) :
    column.stored engine values ≠ .null ↔ Storable value := by
  obtain ⟨other, bound, hbound, hlookup⟩ := lookup_bindAll hbind hparam
  rw [Column.stored, hlookup, htext, Option.getD_some, storable_iff engine other value]
  constructor
  · exact fun hne ↦ ⟨bound, hbound, hne⟩
  · rintro ⟨same, hsame, hne⟩
    rw [Except.ok.inj (hbound.symm.trans hsame)]
    exact hne

theorem stored_of_str {column : Column} {place : ℕ} {params : List (String × Json)} {values : Row}
    (hbind : bindAll place params = .ok values) (htext : column.affinity = .text) {text : String}
    (hparam : params.lookup column.name = some (.str text)) :
    column.stored engine values ≠ .null :=
  (stored_of_storable htext hbind hparam).mpr trivial

variable (engine) in
/-- The row of a valid record is stored just when its commit and its actor can be. -/
theorem exists_evidenceRow_iff {record : List (String × Json)}
    (h : EvidenceCollector.validateEvidenceRecord py (.obj record) = true)
    (requirementId : String) (commitSha actorAgent : Json) :
    (∃ row, evidenceRow engine requirementId record commitSha actorAgent = .ok row) ↔
      Storable (orElse commitSha (Python.getD record "commit_sha" (.str ""))) ∧
        Storable (Python.getD record "actor_agent" actorAgent) := by
  obtain ⟨testFile, testName, outputHash, collectedAt, hfile, hname, hhash, hat, hrow⟩ :=
    evidenceRow_eq engine h requirementId commitSha actorAgent
  rw [hrow]
  constructor
  · rintro ⟨row, h⟩
    obtain ⟨values, hbind, hstored⟩ := Outcome.bind_eq_ok_iff.mp h
    obtain ⟨-, hnull, -⟩ := row_eq_ok_iff.mp hstored
    constructor
    · exact (stored_of_storable rfl hbind rfl).mp
        (hnull ⟨"commit_sha", .text, true, .null⟩ (by simp [evidenceRecords]) rfl)
    · exact (stored_of_storable rfl hbind rfl).mp
        (hnull ⟨"actor_agent", .text, true, .null⟩ (by simp [evidenceRecords]) rfl)
  · rintro ⟨hcommit, hactor⟩
    obtain ⟨values, hbind⟩ : ∃ values, bindAll 1 (evidenceParams requirementId record commitSha
        actorAgent testFile testName outputHash collectedAt) = .ok values := by
      rw [exists_bindAll_iff]
      simp only [evidenceParams, List.forall_mem_cons]
      exact ⟨⟨_, rfl⟩, hcommit.exists_bind, ⟨_, rfl⟩, ⟨_, rfl⟩, ⟨_, rfl⟩, ⟨_, rfl⟩,
        hactor.exists_bind, by simp⟩
    have hstored : ∀ field text, (evidenceParams requirementId record commitSha actorAgent testFile
        testName outputHash collectedAt).lookup field = some (.str text) →
          ⟨field, .text, true, .null⟩ ∈ evidenceRecords.columns →
            (evidenceRecords.fill engine values).get field = .text text :=
      fun field text hparam hmem ↦ get_fill_of_bound hbind _ hmem rfl hparam
    refine ⟨_, Outcome.bind_eq_ok_iff.mpr ⟨values, hbind, row_eq_ok_iff.mpr ⟨rfl, ?_, ?_⟩⟩⟩
    · simp only [evidenceRecords, List.forall_mem_cons]
      exact ⟨fun _ ↦ stored_of_str hbind rfl rfl,
        fun _ ↦ (stored_of_storable rfl hbind rfl).mpr hcommit,
        fun _ ↦ stored_of_str hbind rfl rfl, fun _ ↦ stored_of_str hbind rfl rfl,
        fun _ ↦ stored_of_str hbind rfl rfl, fun _ ↦ stored_of_str hbind rfl rfl,
        fun _ ↦ (stored_of_storable rfl hbind rfl).mpr hactor, by simp⟩
    · have htest := hstored "test_file" testFile rfl (by simp [evidenceRecords])
      have hnamed := hstored "test_name" testName rfl (by simp [evidenceRecords])
      have hhashed := hstored "output_hash" outputHash rfl (by simp [evidenceRecords])
      have hdated := hstored "collected_at" collectedAt rfl (by simp [evidenceRecords])
      intro check hcheck
      rw [List.mem_singleton.mp hcheck]
      simp [evidenceCheck, htest, hnamed, hhashed, hdated, hfile, hname, hhash]

/-- What the row of a valid record holds. -/
theorem evidenceRow_spec {record : List (String × Json)}
    (h : EvidenceCollector.validateEvidenceRecord py (.obj record) = true)
    {requirementId : String} {commitSha actorAgent : Json} {row : Row}
    (hrow : evidenceRow engine requirementId record commitSha actorAgent = .ok row) :
    row.get "requirement_id" = .text requirementId ∧ Complete row ∧
      ∃ bound, bind 7 (Python.getD record "actor_agent" actorAgent) = .ok bound ∧
        row.get "actor_agent" = Affinity.text.apply engine bound := by
  obtain ⟨testFile, testName, outputHash, collectedAt, hfile, hname, hhash, hat, heq⟩ :=
    evidenceRow_eq engine h requirementId commitSha actorAgent
  rw [heq] at hrow
  obtain ⟨values, hbind, hstored⟩ := Outcome.bind_eq_ok_iff.mp hrow
  refine ⟨?_, ?_, ?_⟩
  · exact get_of_bound hbind hstored ⟨"requirement_id", .text, true, .null⟩
      (by simp [evidenceRecords]) rfl rfl
  · simp only [Complete, EvidenceCollector.requiredFields, List.forall_mem_cons]
    refine ⟨⟨testFile, ?_, hfile⟩, ⟨testName, ?_, hname⟩, ⟨outputHash, ?_, hhash⟩,
      ⟨collectedAt, ?_, hat⟩, by simp⟩
    · exact get_of_bound hbind hstored ⟨"test_file", .text, true, .null⟩ (by simp [evidenceRecords])
        rfl rfl
    · exact get_of_bound hbind hstored ⟨"test_name", .text, true, .null⟩ (by simp [evidenceRecords])
        rfl rfl
    · exact get_of_bound hbind hstored ⟨"output_hash", .text, true, .null⟩
        (by simp [evidenceRecords]) rfl rfl
    · exact get_of_bound hbind hstored ⟨"collected_at", .text, true, .null⟩
        (by simp [evidenceRecords]) rfl rfl
  · obtain ⟨other, bound, hbound, hlookup⟩ := lookup_bindAll hbind
      (show (evidenceParams requirementId record commitSha actorAgent testFile testName outputHash
        collectedAt).lookup "actor_agent" = some (Python.getD record "actor_agent" actorAgent) from rfl)
    refine ⟨bound, bind_place hbound, ?_⟩
    rw [get_of_row hstored ⟨"actor_agent", .text, true, .null⟩ (by simp [evidenceRecords]),
      Column.stored, hlookup, Option.getD_some]

end Rows

/-! ## Arguments -/

section Arguments

variable (py : Stdlib)

theorem checkItem_spec {item : Json} {checked : Item} (h : checkItem py item = .ok checked) :
    item = .obj checked.members ∧
      Python.getD checked.members "status" (.str "unproven") = .str checked.status ∧
        checked.status ∈ coverageStatuses := by
  rw [checkItem.eq_def] at h
  split at h
  · rename_i members
    split at h
    · split_ifs at h
      split at h
      · rename_i status hstatus
        split_ifs at h with hknown
        obtain rfl := Except.ok.inj h
        exact ⟨rfl, hstatus, hknown⟩
      · cases h
    · cases h
  · cases h

theorem evidence_of_proven {item : Json} {checked : Item} (h : checkItem py item = .ok checked)
    (hproven : checked.status = "proven") :
    ∃ evidence, Python.get checked.members "evidence" = .obj evidence ∧
      EvidenceCollector.validateEvidenceRecord py (.obj evidence) = true := by
  have hvalid : EvidenceCollector.validateEvidenceRecord py
      (Python.get checked.members "evidence") = true := by
    rw [checkItem.eq_def] at h
    split at h
    · split at h
      · split_ifs at h
        split at h
        · split_ifs at h with hstatus hincomplete
          obtain rfl := Except.ok.inj h
          simp only at hproven
          subst hproven
          simpa using hincomplete
        · cases h
      · cases h
    · cases h
  obtain ⟨evidence, hevidence⟩ := EvidenceCollector.exists_of_validateEvidenceRecord py hvalid
  exact ⟨evidence, hevidence, hevidence ▸ hvalid⟩

theorem checkSubmission_spec {requirementId record actorAgent : Json} {submission : Submission}
    (h : checkSubmission py requirementId record actorAgent = .ok submission) :
    EvidenceCollector.validateEvidenceRecord py (.obj submission.record) = true ∧
      submission.actor = .str verifierRole := by
  rw [checkSubmission.eq_def] at h
  cases requirementId with
  | str id =>
      cases record with
      | obj members =>
          simp only at h
          split_ifs at h with hempty hactor hvalid
          obtain rfl := Except.ok.inj h
          exact ⟨hvalid, not_not.mp hactor⟩
      | _ =>
          simp only at h
          split_ifs at h
  | _ => cases h

theorem checkSubmission_requirementId {requirementId record actorAgent : Json}
    {submission : Submission}
    (h : checkSubmission py requirementId record actorAgent = .ok submission) :
    requirementId = .str submission.requirementId := by
  rw [checkSubmission.eq_def] at h
  cases requirementId with
  | str id =>
      cases record with
      | obj members =>
          simp only at h
          split_ifs at h
          obtain rfl := Except.ok.inj h
          rfl
      | _ =>
          simp only at h
          split_ifs at h
  | _ => cases h

theorem outputHash_of_valid {record : List (String × Json)}
    (h : EvidenceCollector.validateEvidenceRecord py (.obj record) = true) :
    EvidenceCollector.outputHashMatches
      (Python.str py.repr (Python.getD record "output_hash" (.str ""))) = true := by
  rw [EvidenceCollector.validateEvidenceRecord, Bool.and_eq_true] at h
  obtain ⟨-, h⟩ := h
  split at h
  · rename_i outputHash collectedAt hhash hat
    rw [Bool.and_eq_true] at h
    have hlookup := (Python.get_eq_iff_of_ne_null Json.noConfusion).mp hhash
    rw [Python.getD, hlookup]
    exact h.1
  · cases h

end Arguments

end AgenticSDLC.Store
