import AgenticSDLC.Store.StoreWrites

/-!
# How far the calls of the store come

A call writes a requirement first, then a coverage item or an evidence row.  Each call is
given here by how far it comes, and by the items and the evidence that it leaves behind.
-/

namespace AgenticSDLC.Store

open Python (Exception Stdlib)
open Sql

/-- The tables that a call leaves. -/
def Call.tables : Call → Tables
  | .ok next => next
  | .error (_, next) => next

section Calls

variable (py : Stdlib) (engine : Engine)

/-- The call comes to the insert of the coverage row. -/
structure Inserts (item : Json) (now : String) (checked : Item) (row : Row) : Prop where
  check : checkItem py item = .ok checked
  requirement : ∃ requirement, requirementRow py engine checked.requirement = .ok requirement
  row : coverageRow engine checked now = .ok row

/-- The evidence row that goes with a proven item. -/
def proofRow (checked : Item) : Option Row :=
  if checked.status = "proven" then
    match Python.get checked.members "evidence" with
    | .obj evidence =>
        (evidenceRow engine checked.requirementId evidence (.str "") (.str verifierRole)).toOption
    | _ => none
  else none

theorem upsertCoverageItem_of_not_inserts {item : Json} {now : String} (store : Tables)
    (h : ∀ checked row, ¬Inserts py engine item now checked row) :
    (upsertCoverageItem py engine item now store).tables.coverageItems = store.coverageItems ∧
      (upsertCoverageItem py engine item now store).tables.evidenceRecords =
        store.evidenceRecords := by
  cases hcheck : checkItem py item with
  | error exc => simp only [upsertCoverageItem, hcheck, Call.tables, and_self]
  | ok checked =>
      cases hreq : requirementRow py engine checked.requirement with
      | error exc =>
          simp only [upsertCoverageItem, hcheck, upsertRequirement, hreq]
          exact ⟨rfl, rfl⟩
      | ok requirement =>
          cases hrow : coverageRow engine checked now with
          | error exc =>
              rw [upsertCoverageItem_of_error py engine hcheck hreq hrow]
              exact ⟨rfl, rfl⟩
          | ok row => exact absurd ⟨hcheck, ⟨requirement, hreq⟩, hrow⟩ (h checked row)

theorem upsertCoverageItem_of_inserts {item : Json} {now : String} {checked : Item} {row : Row}
    (store : Tables) (h : Inserts py engine item now checked row) :
    (upsertCoverageItem py engine item now store).tables.coverageItems =
        upsert "requirement_id" ["status", "subtype", "in_scope", "slice_id", "updated_at"] row
          store.coverageItems ∧
      (upsertCoverageItem py engine item now store).tables.evidenceRecords =
        store.evidenceRecords ++ (proofRow engine checked).toList := by
  obtain ⟨requirement, hreq⟩ := h.requirement
  rw [upsert_coverageRow h.row, proofRow]
  split_ifs with hproven
  · obtain ⟨evidence, hevidence, hvalid⟩ := evidence_of_proven py h.check hproven
    rw [upsertCoverageItem_of_proven py engine h.check hreq h.row hproven hevidence hvalid]
    simp only [hevidence]
    cases evidenceRow engine checked.requirementId evidence (.str "") (.str verifierRole) with
    | error exc => exact ⟨rfl, (List.append_nil _).symm⟩
    | ok proof => exact ⟨rfl, rfl⟩
  · rw [upsertCoverageItem_of_unproven py engine h.check hreq h.row hproven]
    exact ⟨rfl, (List.append_nil _).symm⟩

/-- A call that comes through has come to the insert of the coverage row. -/
theorem inserts_of_ok {item : Json} {now : String} {store next : Tables}
    (h : upsertCoverageItem py engine item now store = .ok next) :
    ∃ checked row, Inserts py engine item now checked row := by
  cases hcheck : checkItem py item with
  | error exc =>
      rw [upsertCoverageItem, hcheck] at h
      cases h
  | ok checked =>
      cases hrequirement : requirementRow py engine checked.requirement with
      | error exc =>
          rw [upsertCoverageItem, hcheck] at h
          simp only [upsertRequirement, hrequirement] at h
          cases h
      | ok requirement =>
          cases hrow : coverageRow engine checked now with
          | error exc =>
              rw [upsertCoverageItem_of_error py engine hcheck hrequirement hrow] at h
              cases h
          | ok row => exact ⟨checked, row, hcheck, ⟨requirement, hrequirement⟩, hrow⟩

/-- The call comes to the insert of the evidence row. -/
structure Records (requirementId record commitSha actorAgent : Json) (flipToProven : Bool)
    (store : Tables) (submission : Submission) (row : Row) : Prop where
  check : checkSubmission py requirementId record actorAgent = .ok submission
  move : flipToProven = true → allowed ((currentStatus submission.requirementId store).getD
    (.text "unproven")) (.text "proven") = true
  row : evidenceRow engine submission.requirementId submission.record commitSha submission.actor =
    .ok row

section Submissions

variable {requirementId record commitSha actorAgent : Json} {flipToProven : Bool} (now : String)
  {store : Tables}

theorem storeEvidence_of_not_records (h : ∀ submission row,
    ¬Records py engine requirementId record commitSha actorAgent flipToProven store submission row) :
    (storeEvidence py engine requirementId record commitSha actorAgent flipToProven now
        store).tables.coverageItems = store.coverageItems ∧
      (storeEvidence py engine requirementId record commitSha actorAgent flipToProven now
        store).tables.evidenceRecords = store.evidenceRecords := by
  cases hcheck : checkSubmission py requirementId record actorAgent with
  | error exc =>
      rw [storeEvidence_of_error py engine hcheck]
      exact ⟨rfl, rfl⟩
  | ok submission =>
      by_cases hmove : (flipToProven && !allowed ((currentStatus submission.requirementId
          store).getD (.text "unproven")) (.text "proven")) = true
      · obtain ⟨exc, hrefused⟩ : ∃ exc, storeEvidence py engine requirementId record commitSha
            actorAgent flipToProven now store = .error (exc, store) :=
          storeEvidence_of_move py engine hcheck hmove
        rw [hrefused]
        exact ⟨rfl, rfl⟩
      · obtain ⟨flip, hflip, -⟩ := exists_flipRow engine submission.requirementId now
        rw [storeEvidence_eq py engine hcheck hmove hflip]
        cases hrow : evidenceRow engine submission.requirementId submission.record commitSha
            submission.actor with
        | error exc => exact ⟨rfl, rfl⟩
        | ok row =>
            refine absurd ⟨hcheck, fun hflip ↦ ?_, hrow⟩ (h submission row)
            simpa [hflip] using hmove

theorem storeEvidence_of_records {submission : Submission} {row : Row}
    (h : Records py engine requirementId record commitSha actorAgent flipToProven store submission
      row) :
    (storeEvidence py engine requirementId record commitSha actorAgent flipToProven now
        store).tables.evidenceRecords = store.evidenceRecords ++ [row] ∧
      ∃ flip, IsCoverageRow flip submission.requirementId "proven" ∧
        (storeEvidence py engine requirementId record commitSha actorAgent flipToProven now
            store).tables.coverageItems =
          if flipToProven then
            upsert "requirement_id" ["status", "updated_at"] flip store.coverageItems
          else store.coverageItems := by
  obtain ⟨flip, hflip, hcoverage⟩ := exists_flipRow engine submission.requirementId now
  have hmove : ¬(flipToProven && !allowed ((currentStatus submission.requirementId store).getD
      (.text "unproven")) (.text "proven")) = true := by
    cases flipToProven with
    | false => exact Bool.false_ne_true
    | true => simp [h.move rfl]
  rw [storeEvidence_eq py engine h.check hmove hflip, h.row]
  exact ⟨rfl, flip, hcoverage, rfl⟩

end Submissions

end Calls

/-! ## Steps -/

section Steps

variable (py : Stdlib) (engine : Engine)

theorem step_eq_tables (store : Tables) (operation : Operation) :
    store.step py engine operation = (store.call py engine operation).tables := by
  rw [Tables.step]
  cases store.call py engine operation <;> rfl

/-- A requirement alone changes no item and no evidence. -/
theorem step_upsertRequirement (args : Requirement) (store : Tables) :
    (store.step py engine (.upsertRequirement args)).coverageItems = store.coverageItems ∧
      (store.step py engine (.upsertRequirement args)).evidenceRecords = store.evidenceRecords := by
  rw [step_eq_tables, Tables.call, upsertRequirement]
  cases requirementRow py engine args <;> exact ⟨rfl, rfl⟩

theorem step_saveRunState (state : Json) (now : String) (store : Tables) :
    (store.step py engine (.saveRunState state now)).coverageItems = store.coverageItems ∧
      (store.step py engine (.saveRunState state now)).evidenceRecords = store.evidenceRecords := by
  rw [step_eq_tables, Tables.call, saveRunState]
  cases runStateRow py engine state now with
  | error exc => exact ⟨rfl, rfl⟩
  | ok row =>
      simp only
      split_ifs <;> exact ⟨rfl, rfl⟩

/-- A call comes to the insert of its coverage row, or changes no item and no evidence. -/
theorem step_upsertCoverageItem_cases (item : Json) (now : String) (store : Tables) :
    (∃ checked row, Inserts py engine item now checked row ∧
        (store.step py engine (.upsertCoverageItem item now)).coverageItems =
          upsert "requirement_id" ["status", "subtype", "in_scope", "slice_id", "updated_at"] row
            store.coverageItems ∧
        (store.step py engine (.upsertCoverageItem item now)).evidenceRecords =
          store.evidenceRecords ++ (proofRow engine checked).toList) ∨
      (∀ checked row, ¬Inserts py engine item now checked row) ∧
        (store.step py engine (.upsertCoverageItem item now)).coverageItems = store.coverageItems ∧
        (store.step py engine (.upsertCoverageItem item now)).evidenceRecords =
          store.evidenceRecords := by
  rw [step_eq_tables, Tables.call]
  by_cases hinserts : ∃ checked row, Inserts py engine item now checked row
  · obtain ⟨checked, row, hinsert⟩ := hinserts
    exact Or.inl ⟨checked, row, hinsert, upsertCoverageItem_of_inserts py engine store hinsert⟩
  · have hnone : ∀ checked row, ¬Inserts py engine item now checked row :=
      fun checked row hinsert ↦ hinserts ⟨checked, row, hinsert⟩
    exact Or.inr ⟨hnone, upsertCoverageItem_of_not_inserts py engine store hnone⟩

/-- The same for the insert of an evidence row. -/
theorem step_storeEvidence_cases (requirementId record commitSha actorAgent : Json)
    (flipToProven : Bool) (now : String) (store : Tables) :
    (∃ submission row, Records py engine requirementId record commitSha actorAgent flipToProven
          store submission row ∧
        (store.step py engine (.storeEvidence requirementId record commitSha actorAgent
          flipToProven now)).evidenceRecords = store.evidenceRecords ++ [row] ∧
        ∃ flip, IsCoverageRow flip submission.requirementId "proven" ∧
          (store.step py engine (.storeEvidence requirementId record commitSha actorAgent
              flipToProven now)).coverageItems =
            if flipToProven then
              upsert "requirement_id" ["status", "updated_at"] flip store.coverageItems
            else store.coverageItems) ∨
      (∀ submission row, ¬Records py engine requirementId record commitSha actorAgent flipToProven
          store submission row) ∧
        (store.step py engine (.storeEvidence requirementId record commitSha actorAgent
          flipToProven now)).coverageItems = store.coverageItems ∧
        (store.step py engine (.storeEvidence requirementId record commitSha actorAgent
          flipToProven now)).evidenceRecords = store.evidenceRecords := by
  rw [step_eq_tables, Tables.call]
  by_cases hrecords : ∃ submission row, Records py engine requirementId record commitSha actorAgent
      flipToProven store submission row
  · obtain ⟨submission, row, hrecord⟩ := hrecords
    exact Or.inl ⟨submission, row, hrecord, storeEvidence_of_records py engine now hrecord⟩
  · have hnone : ∀ submission row, ¬Records py engine requirementId record commitSha actorAgent
        flipToProven store submission row :=
      fun submission row hrecord ↦ hrecords ⟨submission, row, hrecord⟩
    exact Or.inr ⟨hnone, storeEvidence_of_not_records py engine now hnone⟩

theorem run_append_singleton (operations : List Operation) (last : Operation) :
    Tables.run py engine (operations ++ [last]) =
      (Tables.run py engine operations).step py engine last := by
  rw [Tables.run, List.foldl_append]
  rfl

end Steps

/-! ## The status of an item -/

section Status

variable {row : Row} {requirementId status : String} {updated : List String} {store next : Tables}

theorem IsCoverageRow.get_merge_status (h : IsCoverageRow row requirementId status)
    (hstatus : "status" ∈ updated) (old : Row) :
    (Row.merge updated old row).get "status" = .text status := by
  have hname : "status" ∈ row.map Prod.fst := by
    rw [h.names]
    simp [coverageItems]
  rw [get_merge hname, if_pos hstatus, h.status]

theorem IsCoverageRow.mem_names (h : IsCoverageRow row requirementId status) :
    "requirement_id" ∈ row.map Prod.fst := by
  rw [h.names]
  simp [coverageItems]

/-- The insert of a row sets the status of its own item, and of no other. -/
theorem currentStatus_upsert (h : IsCoverageRow row requirementId status)
    (hstatus : "status" ∈ updated)
    (hnext : next.coverageItems = upsert "requirement_id" updated row store.coverageItems)
    (other : String) :
    currentStatus other next =
      if requirementId = other then some (.text status) else currentStatus other store := by
  have hnull : row.get "requirement_id" ≠ .null := by
    rw [h.id]
    exact Value.noConfusion
  rw [currentStatus, hnext, rowOf_upsert h.mem_names hnull, h.id]
  by_cases hsame : requirementId = other
  · rw [if_pos (congrArg Value.text hsame), if_pos hsame, Option.map_some]
    cases rowOf "requirement_id" (.text other) store.coverageItems with
    | none => rw [Option.map_none, Option.getD_none, h.status]
    | some old => rw [Option.map_some, Option.getD_some, h.get_merge_status hstatus]
  · have hne : (Value.text requirementId) ≠ .text other := fun hyes ↦ hsame (Value.text.inj hyes)
    rw [if_neg hne, if_neg hsame]
    rfl

theorem currentStatus_congr (h : next.coverageItems = store.coverageItems) (id : String) :
    currentStatus id next = currentStatus id store := by
  rw [currentStatus, currentStatus, h]

end Status

end AgenticSDLC.Store
