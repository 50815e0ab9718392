import AgenticSDLC.Store.StoreRows

/-!
# The tables after a call

A call that comes through puts whole rows under their keys, and appends the evidence.  One
that raises has put the rows of its earlier statements.
-/

namespace AgenticSDLC.Store

open Python (Exception Stdlib)
open Sql

def Tables.putRequirement (store : Tables) (row : Row) : Tables :=
  { store with requirements := Keyed.put (·.get "id") row store.requirements }

def Tables.putItem (store : Tables) (row : Row) : Tables :=
  { store with coverageItems := Keyed.put (·.get "requirement_id") row store.coverageItems }

def Tables.addProof (store : Tables) (row : Row) : Tables :=
  { store with evidenceRecords := store.evidenceRecords ++ [row] }

/-- The row is the one that its requirement has. -/
abbrev RequirementStands (row : Row) (store : Tables) : Prop :=
  Keyed.Stands (·.get "id") row store.requirements

/-- The row is the one that its coverage item has. -/
abbrev ItemStands (row : Row) (store : Tables) : Prop :=
  Keyed.Stands (·.get "requirement_id") row store.coverageItems

section Puts

variable {store : Tables} {row other : Row}

theorem putRequirement_putItem (store : Tables) (row other : Row) :
    (store.putItem other).putRequirement row = (store.putRequirement row).putItem other := rfl

theorem putRequirement_putRequirement (h : row.get "id" = other.get "id") (store : Tables) :
    (store.putRequirement row).putRequirement other = store.putRequirement other := by
  have hput := Keyed.put_put (·.get "id") h store.requirements
  rw [Tables.putRequirement, Tables.putRequirement, hput]
  rfl

theorem putItem_putItem (h : row.get "requirement_id" = other.get "requirement_id")
    (store : Tables) : (store.putItem row).putItem other = store.putItem other := by
  have hput := Keyed.put_put (·.get "requirement_id") h store.coverageItems
  rw [Tables.putItem, Tables.putItem, hput]
  rfl

theorem rowOf_putRequirement {requirementId : String} (h : row.get "id" = .text requirementId)
    (store : Tables) :
    rowOf "id" (.text requirementId) (store.putRequirement row).requirements = some row := by
  rw [← h]
  exact (Keyed.stands_put row store.requirements).find

theorem filter_putRequirement {requirementId : String} (h : row.get "id" = .text requirementId)
    (store : Tables) :
    (store.putRequirement row).requirements.filter (fun other ↦ other.get "id" ≠ .text requirementId) =
      store.requirements.filter fun other ↦ other.get "id" ≠ .text requirementId := by
  apply Keyed.filter_put
  intro other hsame
  simp [hsame, h]

theorem filter_putItem {requirementId : String}
    (h : row.get "requirement_id" = .text requirementId) (store : Tables) :
    (store.putItem row).coverageItems.filter
        (fun other ↦ other.get "requirement_id" ≠ .text requirementId) =
      store.coverageItems.filter fun other ↦ other.get "requirement_id" ≠ .text requirementId := by
  apply Keyed.filter_put
  intro other hsame
  simp [hsame, h]

theorem putRequirement_eq_self_iff :
    store.putRequirement row = store ↔ RequirementStands row store := by
  obtain ⟨requirements, coverageItems, evidenceRecords, runState⟩ := store
  simp only [Tables.putRequirement, Tables.mk.injEq, Keyed.put_eq_self_iff, and_true]

theorem putItem_putRequirement_eq_self_iff :
    (store.putRequirement row).putItem other = store ↔
      RequirementStands row store ∧ ItemStands other store := by
  obtain ⟨requirements, coverageItems, evidenceRecords, runState⟩ := store
  simp only [Tables.putRequirement, Tables.putItem, Tables.mk.injEq, Keyed.put_eq_self_iff,
    and_true]

end Puts

/-! ## Statements -/

section Statements

variable {py : Stdlib} {engine : Engine}

/-- An insert that updates every column puts the requirement under its id. -/
theorem upsert_requirementRow {args : Requirement} {row : Row} {requirementId : String}
    (h : requirementRow py engine args = .ok row) (hid : args.requirementId = .str requirementId)
    (rows : List Row) :
    upsert "id" ["project_id", "type", "nfr_subtype", "priority", "ears_pattern", "ears_stmt",
      "provenance"] row rows = Keyed.put (·.get "id") row rows := by
  have hnull : row.get "id" ≠ .null := by
    rw [(requirementRow_spec h hid).1]
    exact Value.noConfusion
  rw [requirementRow] at h
  split_ifs at h
  obtain ⟨values, -, hrow⟩ := Outcome.bind_eq_ok_iff.mp h
  exact upsert_eq_put hrow (by decide) hnull rows

theorem refers_putRequirement {row : Row} {requirementId : String}
    (h : row.get "id" = .text requirementId) (store : Tables) :
    refers (.text requirementId) "id" (store.putRequirement row).requirements :=
  Or.inr ⟨row, (Keyed.stands_put row store.requirements).mem, h⟩

theorem insertCoverage_ok {row : Row} {store : Tables} {requirementId : String}
    (hid : row.get "requirement_id" = .text requirementId)
    (hrefers : refers (.text requirementId) "id" store.requirements) (updated : List String) :
    insertCoverage row updated store =
      .ok { store with coverageItems := upsert "requirement_id" updated row store.coverageItems } := by
  rw [insertCoverage, hid, if_pos hrefers]

/-- The same for the coverage row of an item. -/
theorem upsert_coverageRow {item : Item} {now : String} {row : Row}
    (h : coverageRow engine item now = .ok row) (rows : List Row) :
    upsert "requirement_id" ["status", "subtype", "in_scope", "slice_id", "updated_at"] row rows =
      Keyed.put (·.get "requirement_id") row rows := by
  have hnull : row.get "requirement_id" ≠ .null := by
    rw [(coverageRow_spec h).id]
    exact Value.noConfusion
  obtain ⟨values, -, hrow⟩ := Outcome.bind_eq_ok_iff.mp h
  exact upsert_eq_put hrow (by decide) hnull rows

/-- The insert of a coverage row whose requirement is there. -/
theorem insertCoverage_eq_put {item : Item} {now : String} {row : Row} {store : Tables}
    (h : coverageRow engine item now = .ok row)
    (hrefers : refers (.text item.requirementId) "id" store.requirements) :
    insertCoverage row ["status", "subtype", "in_scope", "slice_id", "updated_at"] store =
      .ok (store.putItem row) := by
  rw [insertCoverage_ok (coverageRow_spec h).id hrefers, upsert_coverageRow h]
  rfl

end Statements

/-! ## Calls -/

section Calls

variable (py : Stdlib) (engine : Engine)

theorem upsertRequirement_eq_put {args : Requirement} {row : Row} {requirementId : String}
    (h : requirementRow py engine args = .ok row) (hid : args.requirementId = .str requirementId)
    (store : Tables) : upsertRequirement py engine args store = .ok (store.putRequirement row) := by
  rw [upsertRequirement, h]
  simp only [upsert_requirementRow h hid]
  rfl

/-- The requirement is put first, and stays when the evidence row is refused. -/
theorem storeEvidenceRow_eq {record : List (String × Json)}
    (h : EvidenceCollector.validateEvidenceRecord py (.obj record) = true)
    (requirementId : String) (commitSha actorAgent : Json) (store : Tables) :
    storeEvidenceRow py engine requirementId record commitSha actorAgent true store =
      match evidenceRow engine requirementId record commitSha actorAgent with
      | .error exc => .error (exc, store.putRequirement (defaultRow engine requirementId))
      | .ok proof =>
          .ok ((store.putRequirement (defaultRow engine requirementId)).addProof proof) := by
  have hdefault : requirementRow py engine (.default requirementId) =
      .ok (defaultRow engine requirementId) := requirementRow_default py engine requirementId
  rw [storeEvidenceRow, if_neg (by simp), upsertRequirement_eq_put py engine hdefault rfl,
    Outcome.ok_bind]
  cases hrow : evidenceRow engine requirementId record commitSha actorAgent with
  | error exc => rfl
  | ok proof =>
      simp only
      rw [(evidenceRow_spec h hrow).1, if_pos (refers_putRequirement
        (defaultRow_id engine requirementId) store)]
      rfl

section Items

variable {item : Json} {now : String} {checked : Item} {requirement : Row}
  (hcheck : checkItem py item = .ok checked)
  (hrequirement : requirementRow py engine checked.requirement = .ok requirement)

include hcheck hrequirement

theorem upsertCoverageItem_of_error {exc : Exception} (hrow : coverageRow engine checked now = .error exc)
    (store : Tables) :
    upsertCoverageItem py engine item now store = .error (exc, store.putRequirement requirement) := by
  simp only [upsertCoverageItem, hcheck, upsertRequirement_eq_put py engine hrequirement rfl,
    Outcome.ok_bind, hrow]

theorem upsertCoverageItem_of_unproven {row : Row} (hrow : coverageRow engine checked now = .ok row)
    (hstatus : checked.status ≠ "proven") (store : Tables) :
    upsertCoverageItem py engine item now store =
      .ok ((store.putRequirement requirement).putItem row) := by
  have hid := (requirementRow_spec hrequirement rfl).1
  rw [upsertCoverageItem, hcheck]
  simp only
  rw [upsertRequirement_eq_put py engine hrequirement rfl, Outcome.ok_bind, hrow]
  simp only
  rw [insertCoverage_eq_put hrow (refers_putRequirement hid store), Outcome.ok_bind, if_neg hstatus]
  rfl

/-- The requirement that the item brings is replaced by the one of its evidence. -/
theorem upsertCoverageItem_of_proven {row : Row} (hrow : coverageRow engine checked now = .ok row)
    (hproven : checked.status = "proven") {evidence : List (String × Json)}
    (hevidence : Python.get checked.members "evidence" = .obj evidence)
    (hvalid : EvidenceCollector.validateEvidenceRecord py (.obj evidence) = true) (store : Tables) :
    upsertCoverageItem py engine item now store =
      match evidenceRow engine checked.requirementId evidence (.str "") (.str verifierRole) with
      | .error exc =>
          .error (exc,
            (store.putRequirement (defaultRow engine checked.requirementId)).putItem row)
      | .ok proof =>
          .ok (((store.putRequirement (defaultRow engine checked.requirementId)).putItem
            row).addProof proof) := by
  have hid := (requirementRow_spec hrequirement rfl).1
  have hsame : requirement.get "id" = (defaultRow engine checked.requirementId).get "id" :=
    hid.trans (defaultRow_id engine checked.requirementId).symm
  rw [upsertCoverageItem, hcheck]
  simp only
  rw [upsertRequirement_eq_put py engine hrequirement rfl, Outcome.ok_bind, hrow]
  simp only
  rw [insertCoverage_eq_put hrow (refers_putRequirement hid store), Outcome.ok_bind, if_pos hproven]
  simp only [hevidence]
  rw [storeEvidenceRow_eq py engine hvalid, putRequirement_putItem,
    putRequirement_putRequirement hsame]

end Items

section Submissions

variable {requirementId record commitSha actorAgent : Json} {flipToProven : Bool} {now : String}

theorem storeEvidence_of_error {exc : Exception}
    (hcheck : checkSubmission py requirementId record actorAgent = .error exc) (store : Tables) :
    storeEvidence py engine requirementId record commitSha actorAgent flipToProven now store =
      .error (exc, store) := by
  rw [storeEvidence, hcheck]

variable {submission : Submission} {store : Tables}
  (hcheck : checkSubmission py requirementId record actorAgent = .ok submission)

include hcheck

theorem storeEvidence_of_move
    (hmove : (flipToProven && !allowed ((currentStatus submission.requirementId store).getD
      (.text "unproven")) (.text "proven")) = true) :
    ∃ exc, storeEvidence py engine requirementId record commitSha actorAgent flipToProven now store =
      .error (exc, store) := by
  have hvalid := (checkSubmission_spec py hcheck).1
  simp only [storeEvidence, hcheck, outputHash_of_valid py hvalid, Bool.not_true,
    Bool.false_eq_true, if_false]
  rw [if_pos hmove]
  exact ⟨_, rfl⟩

theorem storeEvidence_eq
    (hmove : ¬(flipToProven && !allowed ((currentStatus submission.requirementId store).getD
      (.text "unproven")) (.text "proven")) = true)
    {flip : Row} (hflip : flipRow engine submission.requirementId now = .ok flip) :
    storeEvidence py engine requirementId record commitSha actorAgent flipToProven now store =
      match evidenceRow engine submission.requirementId submission.record commitSha
        submission.actor with
      | .error exc =>
          .error (exc, store.putRequirement (defaultRow engine submission.requirementId))
      | .ok proof =>
          .ok { store.putRequirement (defaultRow engine submission.requirementId) with
            coverageItems :=
              if flipToProven then
                upsert "requirement_id" ["status", "updated_at"] flip store.coverageItems
              else store.coverageItems
            evidenceRecords := store.evidenceRecords ++ [proof] } := by
  have hvalid := (checkSubmission_spec py hcheck).1
  have hid : flip.get "requirement_id" = .text submission.requirementId := by
    obtain ⟨other, hother, hcoverage⟩ := exists_flipRow engine submission.requirementId now
    obtain rfl := Except.ok.inj (hflip.symm.trans hother)
    exact hcoverage.id
  simp only [storeEvidence, hcheck, outputHash_of_valid py hvalid, Bool.not_true,
    Bool.false_eq_true, if_false]
  rw [if_neg hmove, storeEvidenceRow_eq py engine hvalid]
  cases evidenceRow engine submission.requirementId submission.record commitSha
      submission.actor with
  | error exc => rfl
  | ok proof =>
      simp only [Outcome.ok_bind]
      cases flipToProven with
      | false => rfl
      | true =>
          simp only [if_true, hflip]
          have hrefers : refers (.text submission.requirementId) "id" ((store.putRequirement
              (defaultRow engine submission.requirementId)).addProof proof).requirements :=
            refers_putRequirement (defaultRow_id engine submission.requirementId) store
          rw [insertCoverage_ok hid hrefers]
          rfl

omit hcheck in
/-- What a call of `store_evidence` that comes through has checked, and what it has written. -/
theorem storeEvidence_eq_ok {next : Tables}
    (h : storeEvidence py engine requirementId record commitSha actorAgent flipToProven now store =
      .ok next) :
    ∃ submission flip proof, checkSubmission py requirementId record actorAgent = .ok submission ∧
      IsCoverageRow flip submission.requirementId "proven" ∧
        evidenceRow engine submission.requirementId submission.record commitSha submission.actor =
          .ok proof ∧
        next = { store.putRequirement (defaultRow engine submission.requirementId) with
          coverageItems :=
            if flipToProven then
              upsert "requirement_id" ["status", "updated_at"] flip store.coverageItems
            else store.coverageItems
          evidenceRecords := store.evidenceRecords ++ [proof] } := by
  cases hcheck : checkSubmission py requirementId record actorAgent with
  | error exc =>
      rw [storeEvidence_of_error py engine hcheck] at h
      cases h
  | ok submission =>
      obtain ⟨flip, hflip, hcoverage⟩ := exists_flipRow engine submission.requirementId now
      by_cases hmove : (flipToProven && !allowed ((currentStatus submission.requirementId
          store).getD (.text "unproven")) (.text "proven")) = true
      · obtain ⟨exc, hrefused⟩ : ∃ exc, storeEvidence py engine requirementId record commitSha
            actorAgent flipToProven now store = .error (exc, store) :=
          storeEvidence_of_move py engine hcheck hmove
        cases hrefused.symm.trans h
      · rw [storeEvidence_eq py engine hcheck hmove hflip] at h
        cases hproof : evidenceRow engine submission.requirementId submission.record commitSha
            submission.actor with
        | error exc =>
            rw [hproof] at h
            cases h
        | ok proof =>
            rw [hproof] at h
            exact ⟨submission, flip, proof, rfl, hcoverage, hproof, (Except.ok.inj h).symm⟩

end Submissions

end Calls

end AgenticSDLC.Store
