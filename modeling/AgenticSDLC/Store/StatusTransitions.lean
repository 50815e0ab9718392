import AgenticSDLC.Foundations.Runs
import AgenticSDLC.Store.ProvenEvidence

/-!
# Moves of the coverage status

`store_evidence` consults the table of allowed moves, `upsert_coverage_item` does not: the
statuses move along the table as long as the items that are upserted ask for such moves.
-/

namespace AgenticSDLC.Store

open Python (Stdlib)
open Sql Runs

/-- An item that is there before and after keeps its status, or makes an allowed move. -/
def Moves (store next : Tables) : Prop :=
  ∀ id old new, currentStatus id store = some old → currentStatus id next = some new →
    new = old ∨ allowed old new = true

/-- An item that is written over keeps its status, or asks for an allowed move. -/
def AsksAllowed (py : Stdlib) (engine : Engine) (store : Tables) : Operation → Prop
  | .upsertCoverageItem item now =>
      ∀ checked row old, Inserts py engine item now checked row →
        currentStatus checked.requirementId store = some old →
          .text checked.status = old ∨ allowed old (.text checked.status) = true
  | _ => True

section Steps

variable {py : Stdlib} {engine : Engine} {store next : Tables}

theorem moves_of_same_items (h : next.coverageItems = store.coverageItems) : Moves store next := by
  intro id old new hold hnew
  rw [currentStatus_congr h] at hnew
  exact Or.inl (Option.some.inj (hnew.symm.trans hold))

/-- One item is written, so only its own move counts. -/
theorem moves_upsert_iff {row : Row} {id status : String} {updated : List String}
    (hcoverage : IsCoverageRow row id status) (hstatus : "status" ∈ updated)
    (hitems : next.coverageItems = Sql.upsert "requirement_id" updated row store.coverageItems) :
    Moves store next ↔ ∀ old, currentStatus id store = some old →
      .text status = old ∨ allowed old (.text status) = true := by
  constructor
  · intro h old hold
    apply h id old _ hold
    rw [currentStatus_upsert hcoverage hstatus hitems, if_pos rfl]
  · intro h other old new hold hnew
    rw [currentStatus_upsert hcoverage hstatus hitems] at hnew
    split_ifs at hnew with hsame
    · rw [← Option.some.inj hnew]
      exact h old (hsame ▸ hold)
    · exact Or.inl (Option.some.inj (hnew.symm.trans hold))

theorem moves_upsertCoverageItem (item : Json) (now : String) :
    Moves store (store.step py engine (.upsertCoverageItem item now)) ↔
      AsksAllowed py engine store (.upsertCoverageItem item now) := by
  rcases step_upsertCoverageItem_cases py engine item now store with
    ⟨checked, row, hinsert, hitems, -⟩ | ⟨hnone, hitems, -⟩
  · rw [moves_upsert_iff (coverageRow_spec hinsert.row) (by simp) hitems]
    constructor
    · intro h other otherRow old hother hold
      obtain rfl := Except.ok.inj (hinsert.check.symm.trans hother.check)
      exact h old hold
    · exact fun h old hold ↦ h checked row old hinsert hold
  · refine iff_of_true ?_ fun checked row old hinsert ↦ absurd hinsert (hnone checked row)
    exact moves_of_same_items hitems

/-- Evidence flips an item only from a status from which the table leads to `proven`. -/
theorem moves_storeEvidence (requirementId record commitSha actorAgent : Json) (flipToProven : Bool)
    (now : String) :
    Moves store (store.step py engine
      (.storeEvidence requirementId record commitSha actorAgent flipToProven now)) := by
  rcases step_storeEvidence_cases py engine requirementId record commitSha actorAgent flipToProven
    now store with ⟨submission, row, hrecord, -, flip, hflip, hitems⟩ | ⟨-, hitems, -⟩
  · cases flipToProven with
    | false => exact moves_of_same_items hitems
    | true =>
        rw [moves_upsert_iff hflip (by simp) hitems]
        intro old hold
        have hmove := hrecord.move rfl
        rw [hold] at hmove
        exact Or.inr hmove
  · exact moves_of_same_items hitems

theorem moves_step_iff (operation : Operation) :
    Moves store (store.step py engine operation) ↔ AsksAllowed py engine store operation := by
  cases operation with
  | upsertCoverageItem item now => exact moves_upsertCoverageItem item now
  | storeEvidence requirementId record commitSha actorAgent flipToProven now =>
      exact iff_of_true (moves_storeEvidence requirementId record commitSha actorAgent flipToProven
        now) trivial
  | upsertRequirement args =>
      exact iff_of_true (moves_of_same_items (step_upsertRequirement py engine args store).1) trivial
  | saveRunState state now =>
      exact iff_of_true (moves_of_same_items (step_saveRunState py engine state now store).1) trivial

/-- The statuses move along the table throughout a run just when every item that is written
over keeps its status or asks for an allowed move. -/
theorem moves_allowed_iff (py : Stdlib) (engine : Engine) (operations : List Operation) :
    EachStep (fun before operation ↦ Moves (Tables.run py engine before)
        (Tables.run py engine (before ++ [operation]))) operations ↔
      EachStep (fun before operation ↦ AsksAllowed py engine (Tables.run py engine before) operation)
        operations := by
  apply eachStep_congr
  intro before operation
  rw [run_append_singleton]
  exact moves_step_iff operation

end Steps

/-! ## A failed item that is upserted as proven -/

theorem failed_then_proven :
    currentStatus "F1" (Tables.run sampleLibrary sampleEngine [sampleItem "failed" .null]) =
        some (.text "failed") ∧
      currentStatus "F1" (Tables.run sampleLibrary sampleEngine
        ([sampleItem "failed" .null] ++ [sampleItem "proven" (.obj sampleEvidence)])) =
        some (.text "proven") := by
  decide

theorem failed_item_becomes_proven :
    ¬EachStep (fun before operation ↦ Moves (Tables.run sampleLibrary sampleEngine before)
      (Tables.run sampleLibrary sampleEngine (before ++ [operation])))
      [sampleItem "failed" .null, sampleItem "proven" (.obj sampleEvidence)] := by
  intro h
  obtain ⟨hfailed, hproven⟩ := failed_then_proven
  have hmove := h [sampleItem "failed" .null] (sampleItem "proven" (.obj sampleEvidence)) [] rfl
    "F1" (.text "failed") (.text "proven") hfailed hproven
  exact absurd hmove (by decide)

end AgenticSDLC.Store
