import AgenticSDLC.Foundations.Runs
import AgenticSDLC.Store.ProvenEvidence

/-!
# The actor of the evidence

`store_evidence` checks an effective actor and writes the record's own; the evidence of an
upserted item is written unchecked.  The rows name the verifier as long as the records
name nobody else.
-/

namespace AgenticSDLC.Store

open Python (Stdlib)
open Sql Runs

/-- Every evidence row was captured by the verifier. -/
def Verified (store : Tables) : Prop :=
  ∀ row ∈ store.evidenceRecords, row.get "actor_agent" = .text verifierRole

/-- Evidence that is written leaves the actor out, or names the verifier. -/
def NamesVerifier (py : Stdlib) (engine : Engine) (store : Tables) : Operation → Prop
  | .upsertCoverageItem item now =>
      ∀ checked row evidence, Inserts py engine item now checked row → checked.status = "proven" →
        Python.get checked.members "evidence" = .obj evidence → Attributable evidence →
          Python.getD evidence "actor_agent" (.str verifierRole) = .str verifierRole
  | .storeEvidence requirementId record commitSha actorAgent flipToProven _ =>
      ∀ submission row, Records py engine requirementId record commitSha actorAgent flipToProven
          store submission row →
        Python.getD submission.record "actor_agent" submission.actor = .str verifierRole
  | _ => True

section Actors

variable {engine : Engine}

theorem actor_eq_iff {py : Stdlib} {record : List (String × Json)} {requirementId : String}
    {commitSha actorAgent : Json} {row : Row}
    (h : EvidenceCollector.validateEvidenceRecord py (.obj record) = true)
    (hrow : evidenceRow engine requirementId record commitSha actorAgent = .ok row) :
    row.get "actor_agent" = .text verifierRole ↔
      Python.getD record "actor_agent" actorAgent = .str verifierRole := by
  obtain ⟨-, -, bound, hbound, hactor⟩ := evidenceRow_spec h hrow
  rw [hactor]
  exact apply_bound_eq_text_iff (by decide) hbound

end Actors

section Steps

variable {py : Stdlib} {engine : Engine} {store next : Tables}

theorem Verified.of_same_proofs (h : Verified store)
    (hproofs : next.evidenceRecords = store.evidenceRecords) : Verified next := by
  intro row hrow
  rw [hproofs] at hrow
  exact h row hrow

theorem Verified.append_iff (h : Verified store) {proofs : List Row}
    (hproofs : next.evidenceRecords = store.evidenceRecords ++ proofs) :
    Verified next ↔ ∀ row ∈ proofs, row.get "actor_agent" = .text verifierRole := by
  rw [Verified, hproofs]
  constructor
  · exact fun hall row hrow ↦ hall row (List.mem_append_right _ hrow)
  · intro hnew row hrow
    rcases List.mem_append.mp hrow with hold | hnew'
    · exact h row hold
    · exact hnew row hnew'

theorem verified_upsertCoverageItem (h : Verified store) (item : Json) (now : String) :
    NamesVerifier py engine store (.upsertCoverageItem item now) ↔
      Verified (store.step py engine (.upsertCoverageItem item now)) := by
  rcases step_upsertCoverageItem_cases py engine item now store with
    ⟨checked, row, hinsert, -, hproofs⟩ | ⟨hnone, -, hproofs⟩
  · rw [h.append_iff hproofs]
    constructor
    · intro hnames proof hproof
      have hsome := Option.mem_toList.mp hproof
      obtain ⟨evidence, hevidence, hvalid, hrow⟩ := proofRow_spec hinsert.check hsome
      have hproven : checked.status = "proven" := by
        by_contra hne
        rw [proofRow, if_neg hne] at hsome
        cases hsome
      rw [actor_eq_iff hvalid hrow]
      exact hnames checked row evidence hinsert hproven hevidence
        ((exists_proofRow_iff engine hinsert.check hproven hevidence).mp ⟨proof, hsome⟩)
    · intro hverified other otherRow evidence hother hproven hevidence hstored
      obtain rfl := Except.ok.inj (hinsert.check.symm.trans hother.check)
      obtain ⟨proof, hproof⟩ :=
        (exists_proofRow_iff engine hinsert.check hproven hevidence).mpr hstored
      obtain ⟨same, hsame, hvalid, hrow⟩ := proofRow_spec hinsert.check hproof
      obtain rfl := Json.obj.inj (hevidence.symm.trans hsame)
      exact (actor_eq_iff hvalid hrow).mp (hverified proof (Option.mem_toList.mpr hproof))
  · refine iff_of_true (fun checked row _ hinsert ↦ absurd hinsert (hnone checked row)) ?_
    exact h.of_same_proofs hproofs

theorem verified_storeEvidence (h : Verified store)
    (requirementId record commitSha actorAgent : Json) (flipToProven : Bool) (now : String) :
    NamesVerifier py engine store
        (.storeEvidence requirementId record commitSha actorAgent flipToProven now) ↔
      Verified (store.step py engine
        (.storeEvidence requirementId record commitSha actorAgent flipToProven now)) := by
  rcases step_storeEvidence_cases py engine requirementId record commitSha actorAgent flipToProven
    now store with ⟨submission, row, hrecord, hproofs, -⟩ | ⟨hnone, -, hproofs⟩
  · have hactor := actor_eq_iff (checkSubmission_spec py hrecord.check).1 hrecord.row
    rw [h.append_iff hproofs, List.forall_mem_singleton, hactor]
    constructor
    · exact fun hnames ↦ hnames submission row hrecord
    · intro hverifier other otherRow hother
      obtain rfl := Except.ok.inj (hrecord.check.symm.trans hother.check)
      exact hverifier
  · refine iff_of_true (fun submission row hrecord ↦ absurd hrecord (hnone submission row)) ?_
    exact h.of_same_proofs hproofs

theorem verified_step (h : Verified store) (operation : Operation) :
    NamesVerifier py engine store operation ↔ Verified (store.step py engine operation) := by
  cases operation with
  | upsertCoverageItem item now => exact verified_upsertCoverageItem h item now
  | storeEvidence requirementId record commitSha actorAgent flipToProven now =>
      exact verified_storeEvidence h requirementId record commitSha actorAgent flipToProven now
  | upsertRequirement args =>
      exact iff_of_true trivial (h.of_same_proofs (step_upsertRequirement py engine args store).2)
  | saveRunState state now =>
      exact iff_of_true trivial (h.of_same_proofs (step_saveRunState py engine state now store).2)

/-- The evidence rows all name the verifier, at each point of a run, just when no call that
writes one is given evidence with another actor. -/
theorem evidence_verified_iff (py : Stdlib) (engine : Engine) (operations : List Operation) :
    EachPoint (fun before ↦ Verified (Tables.run py engine before)) operations ↔
      EachStep (fun before operation ↦
        NamesVerifier py engine (Tables.run py engine before) operation) operations := by
  apply eachPoint_iff_eachStep
  · intro row hrow
    cases hrow
  · intro before operation h
    rw [run_append_singleton]
    exact verified_step h operation

end Steps

/-! ## An item with the implementer's evidence -/

def implementerEvidence : Operation :=
  sampleItem "proven" (.obj (("actor_agent", .str "implementer") :: sampleEvidence))

theorem implementer_actors :
    (Tables.run sampleLibrary sampleEngine [implementerEvidence]).evidenceRecords.map
      (fun row ↦ row.get "actor_agent") = [.text "implementer"] := by
  decide

theorem implementer_evidence_stored :
    ¬Verified (Tables.run sampleLibrary sampleEngine [implementerEvidence]) := by
  intro h
  have hall : ∀ actor ∈ (Tables.run sampleLibrary sampleEngine
      [implementerEvidence]).evidenceRecords.map (fun row ↦ row.get "actor_agent"),
        actor = .text verifierRole := List.forall_mem_map.mpr h
  rw [implementer_actors] at hall
  exact absurd (hall (.text "implementer") List.mem_cons_self) (by decide)

end AgenticSDLC.Store
