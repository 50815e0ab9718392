import AgenticSDLC.Store.EvidenceFrame

/-!
# The same item twice

The requirement and the coverage item are put under their keys, so that a second upsert
finds its own rows.  The evidence has no key: a proven item brings one more row each time.
-/

namespace AgenticSDLC.Store

open Python (Exception Stdlib)
open Sql

/-- The rows without the time of their update. -/
def untimed (rows : List Row) : List Row :=
  rows.map fun row ↦ row.filter fun column ↦ column.1 ≠ "updated_at"

/-- The contents of the two stores are the same, but for the times that the store sets. -/
structure SameContents (once twice : Tables) : Prop where
  requirements : twice.requirements = once.requirements
  coverageItems : untimed twice.coverageItems = untimed once.coverageItems
  evidenceRecords : twice.evidenceRecords = once.evidenceRecords

section Calls

variable {py : Stdlib} {engine : Engine} {store once : Tables} {item : Json} {now later : String}
  {checked : Item}

/-- The coverage row of another time is the same but for the time. -/
theorem coverageRow_later (hstatus : checked.status ∈ coverageStatuses) {row : Row}
    (h : coverageRow engine checked now = .ok row) (later : String) :
    ∃ other, coverageRow engine checked later = .ok other ∧
      other.filter (fun column ↦ column.1 ≠ "updated_at") =
        row.filter fun column ↦ column.1 ≠ "updated_at" := by
  obtain ⟨subtype, slice, hsubtype, hslice, hmem, rfl⟩ := (coverageRow_eq_ok_iff hstatus).mp h
  refine ⟨coverageItems.fill engine (checked.values subtype slice later), ?_, rfl⟩
  exact (coverageRow_eq_ok_iff hstatus).mpr ⟨subtype, slice, hsubtype, hslice, hmem, rfl⟩

theorem untimed_putItem {row other : Row}
    (hid : row.get "requirement_id" = other.get "requirement_id")
    (h : row.filter (fun column ↦ column.1 ≠ "updated_at") =
      other.filter fun column ↦ column.1 ≠ "updated_at") (store : Tables) :
    untimed (store.putItem row).coverageItems = untimed (store.putItem other).coverageItems :=
  Keyed.map_put_congr hid h store.coverageItems

/-- An unproven item is there as it is, but for its time. -/
theorem sameContents_of_unproven (hcheck : checkItem py item = .ok checked)
    (hstatus : checked.status ≠ "proven")
    (h : upsertCoverageItem py engine item now store = .ok once) :
    ∃ twice, upsertCoverageItem py engine item later once = .ok twice ∧
      SameContents once twice := by
  obtain ⟨found, row, hfound, ⟨requirement, hrequirement⟩, hrow⟩ := inserts_of_ok py engine h
  obtain rfl := Except.ok.inj (hcheck.symm.trans hfound)
  obtain ⟨other, hother, hsame⟩ := coverageRow_later (checkItem_spec py hcheck).2.2 hrow later
  have hid : other.get "requirement_id" = row.get "requirement_id" := by
    rw [(coverageRow_spec hother).id, (coverageRow_spec hrow).id]
  rw [upsertCoverageItem_of_unproven py engine hcheck hrequirement hrow hstatus] at h
  obtain rfl := Except.ok.inj h
  have htwice : (((store.putRequirement requirement).putItem row).putRequirement
      requirement).putItem other = (store.putRequirement requirement).putItem other := by
    rw [putRequirement_putItem, putRequirement_putRequirement rfl, putItem_putItem hid.symm]
  refine ⟨_, upsertCoverageItem_of_unproven py engine hcheck hrequirement hother hstatus _, ?_⟩
  rw [htwice]
  exact {
    requirements := rfl
    coverageItems := untimed_putItem hid hsame (store.putRequirement requirement)
    evidenceRecords := rfl }

/-- A proven item brings a second row of evidence. -/
theorem not_sameContents_of_proven (hcheck : checkItem py item = .ok checked)
    (hproven : checked.status = "proven") {twice : Tables}
    (h : upsertCoverageItem py engine item later once = .ok twice) :
    ¬SameContents once twice := by
  obtain ⟨found, row, hfound, ⟨requirement, hrequirement⟩, -⟩ := inserts_of_ok py engine h
  obtain rfl := Except.ok.inj (hcheck.symm.trans hfound)
  have hevidences : Evidences py engine once checked.requirementId requirement
      (.upsertCoverageItem item later) := ⟨checked, hcheck, hproven, rfl, hrequirement⟩
  obtain ⟨proof, -, hproof⟩ := (frame_upsertCoverageItem hevidences h).2.evidence
  intro hsame
  have hnone := hproof.symm.trans hsame.evidenceRecords
  simp at hnone

/-- An item that has been upserted is upserted again to the same contents just when its
status is not `proven`. -/
theorem upsert_twice_iff (h : upsertCoverageItem py engine item now store = .ok once) :
    (∃ twice, upsertCoverageItem py engine item later once = .ok twice ∧
        SameContents once twice) ↔
      ∀ members, item = .obj members →
        Python.getD members "status" (.str "unproven") ≠ .str "proven" := by
  obtain ⟨checked, row, hcheck, -, -⟩ := inserts_of_ok py engine h
  obtain ⟨hitem, hstatus, -⟩ := checkItem_spec py hcheck
  constructor
  · rintro ⟨twice, htwice, hsame⟩ members hmembers hproven
    obtain rfl := Json.obj.inj (hitem.symm.trans hmembers)
    have hyes := Json.str.inj (hstatus.symm.trans hproven)
    exact not_sameContents_of_proven hcheck hyes htwice hsame
  · intro hunproven
    apply sameContents_of_unproven hcheck ?_ h
    rintro hproven
    rw [hproven] at hstatus
    exact hunproven checked.members hitem hstatus

end Calls

/-! ## An item once and again -/

def loginItem : Json := .obj [("id", .str "F1")]

def provenLoginItem : Json :=
  .obj [("id", .str "F1"), ("status", .str "proven"), ("evidence", .obj sampleEvidence)]

theorem login_item_twice :
    ∃ once, upsertCoverageItem sampleLibrary sampleEngine loginItem "2026-01-05T10:05:00+00:00"
        Tables.empty = .ok once ∧
      ∃ twice, upsertCoverageItem sampleLibrary sampleEngine loginItem "2026-01-05T10:06:00+00:00"
        once = .ok twice ∧ SameContents once twice := by
  obtain ⟨once, honce⟩ := Outcome.exists_of_isSome (show (upsertCoverageItem sampleLibrary
    sampleEngine loginItem "2026-01-05T10:05:00+00:00" Tables.empty).toOption.isSome = true by
      decide)
  refine ⟨once, honce, (upsert_twice_iff honce).mpr ?_⟩
  rintro members hmembers
  obtain rfl := Json.obj.inj hmembers
  decide

theorem proven_login_item_twice :
    ¬∀ once, upsertCoverageItem sampleLibrary sampleEngine provenLoginItem
        "2026-01-05T10:05:00+00:00" Tables.empty = .ok once →
      ∃ twice, upsertCoverageItem sampleLibrary sampleEngine provenLoginItem
        "2026-01-05T10:06:00+00:00" once = .ok twice ∧ SameContents once twice := by
  obtain ⟨once, honce⟩ := Outcome.exists_of_isSome (show (upsertCoverageItem sampleLibrary
    sampleEngine provenLoginItem "2026-01-05T10:05:00+00:00" Tables.empty).toOption.isSome = true by
      decide)
  have hcheck : checkItem sampleLibrary provenLoginItem = .ok ⟨[("id", .str "F1"),
      ("status", .str "proven"), ("evidence", .obj sampleEvidence)], "F1", "proven"⟩ := rfl
  intro h
  obtain ⟨twice, htwice, hsame⟩ := h once honce
  exact not_sameContents_of_proven hcheck rfl htwice hsame

end AgenticSDLC.Store
