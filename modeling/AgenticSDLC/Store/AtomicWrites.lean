import AgenticSDLC.Store.ProvenEvidence

/-!
# Calls that raise

Each statement is committed by itself.  A call that raises leaves the tables as they were
as long as it raises at its first statement, or the statements before wrote what was there.
-/

namespace AgenticSDLC.Store

open Python (Exception Stdlib)
open Sql

/-- A call leaves nothing half written when it raises. -/
def Atomic (py : Stdlib) (engine : Engine) (store : Tables) (operation : Operation) : Prop :=
  ∀ exc next, store.call py engine operation = .error (exc, next) → next = store

/-- What a call writes before its last statement is there already, or the last one succeeds. -/
def WritesWhole (py : Stdlib) (engine : Engine) (store : Tables) : Operation → Prop
  | .upsertCoverageItem item now =>
      ∀ checked requirement, checkItem py item = .ok checked →
        requirementRow py engine checked.requirement = .ok requirement →
          (Placeable checked.members ∨ RequirementStands requirement store) ∧
            ∀ row evidence, coverageRow engine checked now = .ok row →
              checked.status = "proven" → Python.get checked.members "evidence" = .obj evidence →
                Attributable evidence ∨
                  RequirementStands (defaultRow engine checked.requirementId) store ∧
                    ItemStands row store
  | .storeEvidence requirementId record commitSha actorAgent flipToProven _ =>
      ∀ submission, checkSubmission py requirementId record actorAgent = .ok submission →
        (flipToProven = true → allowed ((currentStatus submission.requirementId store).getD
            (.text "unproven")) (.text "proven") = true) →
          Storable (orElse commitSha (Python.getD submission.record "commit_sha" (.str ""))) ∧
              Storable (Python.getD submission.record "actor_agent" submission.actor) ∨
            RequirementStands (defaultRow engine submission.requirementId) store
  | _ => True

section Calls

variable {py : Stdlib} {engine : Engine} {store : Tables}

theorem atomic_upsertRequirement (args : Requirement) :
    Atomic py engine store (.upsertRequirement args) := by
  intro exc next h
  rw [Tables.call, upsertRequirement] at h
  cases hrow : requirementRow py engine args with
  | error exc =>
      rw [hrow] at h
      cases h
      rfl
  | ok row =>
      rw [hrow] at h
      cases h

theorem atomic_saveRunState (state : Json) (now : String) :
    Atomic py engine store (.saveRunState state now) := by
  intro exc next h
  rw [Tables.call, saveRunState] at h
  cases hrow : runStateRow py engine state now with
  | error exc =>
      rw [hrow] at h
      cases h
      rfl
  | ok row =>
      rw [hrow] at h
      simp only at h
      split_ifs at h
      cases h
      rfl

theorem atomic_of_ok {operation : Operation} {next : Tables}
    (h : store.call py engine operation = .ok next) : Atomic py engine store operation := by
  intro exc other herror
  rw [h] at herror
  cases herror

theorem atomic_iff_of_error {operation : Operation} {exc : Exception} {next : Tables}
    (h : store.call py engine operation = .error (exc, next)) :
    Atomic py engine store operation ↔ next = store := by
  constructor
  · exact fun hatomic ↦ hatomic exc next h
  · rintro rfl other after herror
    rw [h] at herror
    cases herror
    rfl

section Items

variable {item : Json} {now : String} {checked : Item} {requirement : Row}
  (hcheck : checkItem py item = .ok checked)
  (hrequirement : requirementRow py engine checked.requirement = .ok requirement)

include hcheck hrequirement

theorem writesWhole_iff_of_checked :
    WritesWhole py engine store (.upsertCoverageItem item now) ↔
      (Placeable checked.members ∨ RequirementStands requirement store) ∧
        ∀ row evidence, coverageRow engine checked now = .ok row →
          checked.status = "proven" → Python.get checked.members "evidence" = .obj evidence →
            Attributable evidence ∨
              RequirementStands (defaultRow engine checked.requirementId) store ∧
                ItemStands row store := by
  constructor
  · exact fun h ↦ h checked requirement hcheck hrequirement
  · intro h other otherRow hother hrow
    obtain rfl := Except.ok.inj (hcheck.symm.trans hother)
    obtain rfl := Except.ok.inj (hrequirement.symm.trans hrow)
    exact h

/-- The coverage row is refused after the requirement has been written. -/
theorem atomic_iff_of_unplaced {exc : Exception} (hrow : coverageRow engine checked now = .error exc) :
    Atomic py engine store (.upsertCoverageItem item now) ↔
      WritesWhole py engine store (.upsertCoverageItem item now) := by
  have hplace : ¬Placeable checked.members := by
    rw [← exists_coverageRow_iff engine (checkItem_spec py hcheck).2.2 now, hrow]
    rintro ⟨row, hok⟩
    cases hok
  have hcall : store.call py engine (.upsertCoverageItem item now) =
      .error (exc, store.putRequirement requirement) :=
    upsertCoverageItem_of_error py engine hcheck hrequirement hrow store
  rw [atomic_iff_of_error hcall, writesWhole_iff_of_checked hcheck hrequirement,
    putRequirement_eq_self_iff]
  constructor
  · intro hstands
    refine ⟨Or.inr hstands, fun row evidence hok ↦ ?_⟩
    rw [hrow] at hok
    cases hok
  · exact fun h ↦ h.1.resolve_left hplace

/-- The evidence row may be refused after the requirement and the item have been written. -/
theorem atomic_iff_of_placed {row : Row} (hrow : coverageRow engine checked now = .ok row) :
    Atomic py engine store (.upsertCoverageItem item now) ↔
      WritesWhole py engine store (.upsertCoverageItem item now) := by
  have hplace : Placeable checked.members :=
    (exists_coverageRow_iff engine (checkItem_spec py hcheck).2.2 now).mp ⟨row, hrow⟩
  rw [writesWhole_iff_of_checked hcheck hrequirement]
  by_cases hproven : checked.status = "proven"
  · obtain ⟨evidence, hevidence, hvalid⟩ := evidence_of_proven py hcheck hproven
    have hstored := exists_evidenceRow_iff engine hvalid checked.requirementId (.str "")
      (.str verifierRole)
    have hcall : store.call py engine (.upsertCoverageItem item now) = _ :=
      upsertCoverageItem_of_proven py engine hcheck hrequirement hrow hproven hevidence hvalid store
    cases hproof : evidenceRow engine checked.requirementId evidence (.str "")
        (.str verifierRole) with
    | ok proof =>
        rw [hproof] at hcall
        refine iff_of_true (atomic_of_ok hcall) ⟨Or.inl hplace, fun other found _ _ hfound ↦ ?_⟩
        obtain rfl := Json.obj.inj (hevidence.symm.trans hfound)
        exact Or.inl (hstored.mp ⟨proof, hproof⟩)
    | error exc =>
        rw [hproof] at hcall
        have hrefused : ¬Attributable evidence := by
          intro hattributable
          obtain ⟨proof, hok⟩ := hstored.mpr hattributable
          cases hproof.symm.trans hok
        rw [atomic_iff_of_error hcall, putItem_putRequirement_eq_self_iff]
        constructor
        · intro hstands
          refine ⟨Or.inl hplace, fun other found hother _ _ ↦ ?_⟩
          obtain rfl := Except.ok.inj (hrow.symm.trans hother)
          exact Or.inr hstands
        · exact fun h ↦ (h.2 row evidence hrow hproven hevidence).resolve_left hrefused
  · have hcall : store.call py engine (.upsertCoverageItem item now) = _ :=
      upsertCoverageItem_of_unproven py engine hcheck hrequirement hrow hproven store
    refine iff_of_true (atomic_of_ok hcall) ⟨Or.inl hplace, fun other evidence _ hyes ↦ ?_⟩
    exact absurd hyes hproven

end Items

theorem atomic_upsertCoverageItem_iff (item : Json) (now : String) :
    Atomic py engine store (.upsertCoverageItem item now) ↔
      WritesWhole py engine store (.upsertCoverageItem item now) := by
  cases hcheck : checkItem py item with
  | error exc =>
      have hcall : store.call py engine (.upsertCoverageItem item now) = .error (exc, store) := by
        rw [Tables.call, upsertCoverageItem, hcheck]
      apply iff_of_true ((atomic_iff_of_error hcall).mpr rfl)
      intro checked requirement hother
      cases hcheck.symm.trans hother
  | ok checked =>
      cases hrequirement : requirementRow py engine checked.requirement with
      | error exc =>
          have hcall : store.call py engine (.upsertCoverageItem item now) = .error (exc, store) := by
            rw [Tables.call, upsertCoverageItem, hcheck]
            simp only [upsertRequirement, hrequirement]
            rfl
          apply iff_of_true ((atomic_iff_of_error hcall).mpr rfl)
          intro other requirement hother hrow
          obtain rfl := Except.ok.inj (hcheck.symm.trans hother)
          cases hrequirement.symm.trans hrow
      | ok requirement =>
          cases hrow : coverageRow engine checked now with
          | error exc => exact atomic_iff_of_unplaced hcheck hrequirement hrow
          | ok row => exact atomic_iff_of_placed hcheck hrequirement hrow

/-- The evidence row may be refused after the requirement has been written. -/
theorem atomic_iff_of_allowed {requirementId record commitSha actorAgent : Json}
    {flipToProven : Bool} {now : String} {submission : Submission}
    (hcheck : checkSubmission py requirementId record actorAgent = .ok submission)
    (hmove : ¬(flipToProven && !allowed ((currentStatus submission.requirementId store).getD
      (.text "unproven")) (.text "proven")) = true) :
    Atomic py engine store
        (.storeEvidence requirementId record commitSha actorAgent flipToProven now) ↔
      WritesWhole py engine store
        (.storeEvidence requirementId record commitSha actorAgent flipToProven now) := by
  have hallowed : flipToProven = true → allowed ((currentStatus submission.requirementId
      store).getD (.text "unproven")) (.text "proven") = true := by
    rintro rfl
    simpa using hmove
  have hstored := exists_evidenceRow_iff engine (checkSubmission_spec py hcheck).1
    submission.requirementId commitSha submission.actor
  obtain ⟨flip, hflip, -⟩ := exists_flipRow engine submission.requirementId now
  have hcall : store.call py engine (.storeEvidence requirementId record commitSha actorAgent
      flipToProven now) = _ := storeEvidence_eq py engine hcheck hmove hflip
  cases hproof : evidenceRow engine submission.requirementId submission.record commitSha
      submission.actor with
  | ok proof =>
      rw [hproof] at hcall
      refine iff_of_true (atomic_of_ok hcall) fun other hother _ ↦ ?_
      obtain rfl := Except.ok.inj (hcheck.symm.trans hother)
      exact Or.inl (hstored.mp ⟨proof, hproof⟩)
  | error exc =>
      rw [hproof] at hcall
      rw [atomic_iff_of_error hcall, putRequirement_eq_self_iff]
      constructor
      · intro hstands other hother _
        obtain rfl := Except.ok.inj (hcheck.symm.trans hother)
        exact Or.inr hstands
      · intro h
        refine (h submission hcheck hallowed).resolve_left fun hstorable ↦ ?_
        obtain ⟨proof, hok⟩ := hstored.mpr hstorable
        cases hproof.symm.trans hok

theorem atomic_storeEvidence_iff (requirementId record commitSha actorAgent : Json)
    (flipToProven : Bool) (now : String) :
    Atomic py engine store
        (.storeEvidence requirementId record commitSha actorAgent flipToProven now) ↔
      WritesWhole py engine store
        (.storeEvidence requirementId record commitSha actorAgent flipToProven now) := by
  cases hcheck : checkSubmission py requirementId record actorAgent with
  | error exc =>
      have hcall : store.call py engine (.storeEvidence requirementId record commitSha actorAgent
          flipToProven now) = .error (exc, store) := storeEvidence_of_error py engine hcheck store
      apply iff_of_true ((atomic_iff_of_error hcall).mpr rfl)
      intro submission hother
      cases hcheck.symm.trans hother
  | ok submission =>
      by_cases hmove : (flipToProven && !allowed ((currentStatus submission.requirementId
          store).getD (.text "unproven")) (.text "proven")) = true
      · obtain ⟨exc, hcall⟩ : ∃ exc, store.call py engine (.storeEvidence requirementId record
            commitSha actorAgent flipToProven now) = .error (exc, store) :=
          storeEvidence_of_move py engine hcheck hmove
        apply iff_of_true ((atomic_iff_of_error hcall).mpr rfl)
        intro other hother hallowed
        obtain rfl := Except.ok.inj (hcheck.symm.trans hother)
        rw [Bool.and_eq_true] at hmove
        rw [hallowed hmove.1] at hmove
        exact absurd hmove.2 Bool.false_ne_true
      · exact atomic_iff_of_allowed hcheck hmove

end Calls

/-! ## A commit that cannot be stored -/

theorem null_commit_raises :
    (Tables.empty.call sampleLibrary sampleEngine nullCommit).toOption.isNone = true := by
  decide

end AgenticSDLC.Store
