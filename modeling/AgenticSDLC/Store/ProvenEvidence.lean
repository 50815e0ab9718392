import AgenticSDLC.Foundations.Runs
import AgenticSDLC.Store.StoreCalls

/-!
# Proven items and their evidence

Every proven item has a complete evidence row, as long as no item becomes proven on an
evidence object whose commit or actor the evidence table cannot hold: its coverage row is
committed before the evidence row is refused.
-/

namespace AgenticSDLC.Store

open Python (Exception Stdlib)
open Sql Runs

/-- The requirement has a complete evidence row. -/
def HasProof (requirementId : Value) (store : Tables) : Prop :=
  ∃ proof ∈ store.evidenceRecords, proof.get "requirement_id" = requirementId ∧ Complete proof

/-- Every proven item has a complete evidence row. -/
def Backed (store : Tables) : Prop :=
  ∀ row ∈ store.coverageItems, row.get "status" = .text "proven" →
    HasProof (row.get "requirement_id") store

/-- The table can hold the commit and the actor of an evidence object. -/
def Attributable (evidence : List (String × Json)) : Prop :=
  Storable (Python.getD evidence "commit_sha" (.str "")) ∧
    Storable (Python.getD evidence "actor_agent" (.str verifierRole))

/-- An item is written as proven on evidence that can be stored, or has a proof already. -/
def KeepsProof (py : Stdlib) (engine : Engine) (store : Tables) : Operation → Prop
  | .upsertCoverageItem item now =>
      ∀ checked row evidence, Inserts py engine item now checked row → checked.status = "proven" →
        Python.get checked.members "evidence" = .obj evidence →
          Attributable evidence ∨ HasProof (.text checked.requirementId) store
  | _ => True

section Proofs

variable {store next : Tables} {requirementId : Value}

theorem HasProof.mono (h : HasProof requirementId store) {proofs : List Row}
    (hnext : next.evidenceRecords = store.evidenceRecords ++ proofs) :
    HasProof requirementId next := by
  obtain ⟨proof, hproof, hcomplete⟩ := h
  refine ⟨proof, ?_, hcomplete⟩
  rw [hnext]
  exact List.mem_append_left _ hproof

/-- Where the items stay, the evidence may only grow. -/
theorem Backed.of_same_items (h : Backed store) (hitems : next.coverageItems = store.coverageItems)
    {proofs : List Row} (hproofs : next.evidenceRecords = store.evidenceRecords ++ proofs) :
    Backed next := by
  intro row hrow hproven
  rw [hitems] at hrow
  exact (h row hrow hproven).mono hproofs

/-- One item is written: the others keep their proofs, and it needs one when it is proven. -/
theorem Backed.upsert (h : Backed store) {row : Row} {id status : String} {updated : List String}
    (hcoverage : IsCoverageRow row id status) (hstatus : "status" ∈ updated)
    (hitems : next.coverageItems = Sql.upsert "requirement_id" updated row store.coverageItems)
    {proofs : List Row} (hproofs : next.evidenceRecords = store.evidenceRecords ++ proofs)
    (hproof : status = "proven" → HasProof (.text id) next) : Backed next := by
  intro other hother hproven
  rw [hitems] at hother
  rcases mem_upsert hother with hold | rfl | ⟨old, -, hsame, rfl⟩
  · exact (h other hold hproven).mono hproofs
  · rw [hcoverage.status] at hproven
    rw [hcoverage.id]
    exact hproof (Value.text.inj hproven)
  · rw [hcoverage.get_merge_status hstatus] at hproven
    rw [get_merge_key hcoverage.mem_names hsame, hcoverage.id]
    exact hproof (Value.text.inj hproven)

/-- What a backed store says of a status that it returns. -/
theorem Backed.hasProof (h : Backed store) {id : String}
    (hproven : currentStatus id store = some (.text "proven")) : HasProof (.text id) store := by
  obtain ⟨row, hrow, hstatus⟩ := Option.map_eq_some_iff.mp hproven
  obtain ⟨hmem, hid⟩ := get_of_rowOf hrow
  rw [← hid]
  exact h row hmem hstatus

end Proofs

section Steps

variable {py : Stdlib} {engine : Engine}

variable (engine) in
theorem exists_proofRow_iff {item : Json} {checked : Item} {evidence : List (String × Json)}
    (hcheck : checkItem py item = .ok checked) (hproven : checked.status = "proven")
    (hevidence : Python.get checked.members "evidence" = .obj evidence) :
    (∃ proof, proofRow engine checked = some proof) ↔ Attributable evidence := by
  obtain ⟨other, hother, hvalid⟩ := evidence_of_proven py hcheck hproven
  obtain rfl := Json.obj.inj (hevidence.symm.trans hother)
  have hiff := exists_evidenceRow_iff engine hvalid checked.requirementId (.str "")
    (.str verifierRole)
  rw [proofRow, if_pos hproven]
  simp only [hevidence]
  refine Iff.trans ?_ hiff
  cases evidenceRow engine checked.requirementId evidence (.str "") (.str verifierRole) with
  | error exc => simp [Except.toOption]
  | ok row => simp [Except.toOption]

theorem proofRow_spec {item : Json} {checked : Item} {proof : Row}
    (hcheck : checkItem py item = .ok checked) (h : proofRow engine checked = some proof) :
    ∃ evidence, Python.get checked.members "evidence" = .obj evidence ∧
      EvidenceCollector.validateEvidenceRecord py (.obj evidence) = true ∧
      evidenceRow engine checked.requirementId evidence (.str "") (.str verifierRole) =
        .ok proof := by
  rw [proofRow] at h
  split_ifs at h with hproven
  obtain ⟨evidence, hevidence, hvalid⟩ := evidence_of_proven py hcheck hproven
  simp only [hevidence] at h
  refine ⟨evidence, hevidence, hvalid, ?_⟩
  cases hrow : evidenceRow engine checked.requirementId evidence (.str "") (.str verifierRole) with
  | error exc =>
      rw [hrow] at h
      cases h
  | ok row =>
      rw [hrow] at h
      rw [Option.some.inj h]

theorem backed_upsertCoverageItem {store : Tables} (h : Backed store) (item : Json) (now : String) :
    KeepsProof py engine store (.upsertCoverageItem item now) ↔
      Backed (store.step py engine (.upsertCoverageItem item now)) := by
  rcases step_upsertCoverageItem_cases py engine item now store with
    ⟨checked, row, hinsert, hitems, hproofs⟩ | ⟨hnone, hitems, hproofs⟩
  · have hcoverage := coverageRow_spec hinsert.row
    generalize store.step py engine (.upsertCoverageItem item now) = next at hitems hproofs ⊢
    have hkeep : (checked.status = "proven" → HasProof (.text checked.requirementId) next) ↔
        KeepsProof py engine store (.upsertCoverageItem item now) := by
      constructor
      · intro hbacked other otherRow evidence hother hproven hevidence
        obtain rfl := Except.ok.inj (hinsert.check.symm.trans hother.check)
        obtain ⟨proof, hmem, hid, hcomplete⟩ := hbacked hproven
        rw [hproofs] at hmem
        rcases List.mem_append.mp hmem with hold | hnew
        · exact Or.inr ⟨proof, hold, hid, hcomplete⟩
        · exact Or.inl ((exists_proofRow_iff engine hinsert.check hproven hevidence).mp
            ⟨proof, Option.mem_toList.mp hnew⟩)
      · intro hkeep hproven
        obtain ⟨evidence, hevidence, hvalid⟩ := evidence_of_proven py hinsert.check hproven
        rcases hkeep checked row evidence hinsert hproven hevidence with hstored | hold
        · obtain ⟨proof, hproof⟩ :=
            (exists_proofRow_iff engine hinsert.check hproven hevidence).mpr hstored
          obtain ⟨other, -, hother, hrow⟩ := proofRow_spec hinsert.check hproof
          obtain ⟨hid, hcomplete, -⟩ := evidenceRow_spec hother hrow
          refine ⟨proof, ?_, hid, hcomplete⟩
          rw [hproofs, hproof]
          exact List.mem_append_right _ (List.mem_singleton_self proof)
        · exact hold.mono hproofs
    rw [← hkeep]
    constructor
    · exact fun hproof ↦ h.upsert hcoverage (by simp) hitems hproofs hproof
    · intro hbacked hproven
      apply hbacked.hasProof
      rw [currentStatus_upsert hcoverage (by simp) hitems, if_pos rfl, hproven]
  · constructor
    · exact fun _ ↦ h.of_same_items hitems (hproofs.trans (List.append_nil _).symm)
    · exact fun _ checked row _ hinsert ↦ absurd hinsert (hnone checked row)

theorem backed_storeEvidence {store : Tables} (h : Backed store)
    (requirementId record commitSha actorAgent : Json) (flipToProven : Bool) (now : String) :
    Backed (store.step py engine
      (.storeEvidence requirementId record commitSha actorAgent flipToProven now)) := by
  rcases step_storeEvidence_cases py engine requirementId record commitSha actorAgent flipToProven
    now store with ⟨submission, row, hrecord, hproofs, flip, hflip, hitems⟩ |
      ⟨-, hitems, hproofs⟩
  · obtain ⟨hid, hcomplete, -⟩ := evidenceRow_spec (checkSubmission_spec py hrecord.check).1
      hrecord.row
    cases flipToProven with
    | false => exact h.of_same_items hitems hproofs
    | true =>
        refine h.upsert hflip (by simp) hitems hproofs fun _ ↦ ⟨row, ?_, hid, hcomplete⟩
        rw [hproofs]
        exact List.mem_append_right _ (List.mem_singleton_self row)
  · exact h.of_same_items hitems (hproofs.trans (List.append_nil _).symm)

/-- A call keeps the proven items backed just when it meets the condition. -/
theorem backed_step {store : Tables} (h : Backed store) (operation : Operation) :
    KeepsProof py engine store operation ↔ Backed (store.step py engine operation) := by
  cases operation with
  | upsertCoverageItem item now => exact backed_upsertCoverageItem h item now
  | storeEvidence requirementId record commitSha actorAgent flipToProven now =>
      exact iff_of_true trivial (backed_storeEvidence h requirementId record commitSha actorAgent
        flipToProven now)
  | upsertRequirement args =>
      obtain ⟨hitems, hproofs⟩ := step_upsertRequirement py engine args store
      exact iff_of_true trivial (h.of_same_items hitems (hproofs.trans (List.append_nil _).symm))
  | saveRunState state now =>
      obtain ⟨hitems, hproofs⟩ := step_saveRunState py engine state now store
      exact iff_of_true trivial (h.of_same_items hitems (hproofs.trans (List.append_nil _).symm))

end Steps

/-! ## A commit that cannot be stored -/

/-- The library on the one timestamp of the samples. -/
def sampleLibrary : Stdlib where
  repr := fun _ ↦ "None"
  sha256 := fun _ ↦ ""
  fromisoformat := fun text ↦ if text = "2026-01-05T10:00:00+00:00" then some true else none

/-- The engine of the samples, none of which has a real. -/
def sampleEngine : Engine where
  realText := fun _ ↦ "0.0"
  realText_digit := fun _ ↦ ⟨'0', by decide, rfl⟩
  numeral := fun text ↦ text.toInt?.map Value.integer
  realInteger := fun _ ↦ some 0
  integerReal := fun _ ↦ Decimal.zero

def sampleEvidence : List (String × Json) :=
  [("test_file", .str "tests/test_login.py"), ("test_name", .str "test_login"),
    ("output_hash",
      .str "sha256:2f9acb02faa121bb2a3621951f57b4c690655337edee2e5ac350be2b3be88ea8"),
    ("collected_at", .str "2026-01-05T10:00:00+00:00")]

def sampleItem (status : String) (evidence : Json) : Operation :=
  .upsertCoverageItem (.obj [("id", .str "F1"), ("status", .str status), ("evidence", evidence)])
    "2026-01-05T10:05:00+00:00"

/-- The item's evidence is complete, and its commit is null. -/
def nullCommit : Operation := sampleItem "proven" (.obj (("commit_sha", .null) :: sampleEvidence))

theorem null_commit_tables :
    (Tables.run sampleLibrary sampleEngine [nullCommit]).evidenceRecords = [] ∧
      currentStatus "F1" (Tables.run sampleLibrary sampleEngine [nullCommit]) =
        some (.text "proven") := by
  decide

end AgenticSDLC.Store
