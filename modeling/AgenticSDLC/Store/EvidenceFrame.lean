import AgenticSDLC.Store.ProvenEvidence

/-!
# What the evidence of a requirement leaves alone

The insert of an evidence row makes sure of its requirement by writing the default one.
The rest of the tables stays, and so does a requirement that is the default one.
-/

namespace AgenticSDLC.Store

open Python (Exception Stdlib)
open Sql

/-- The call stores evidence for the requirement, which is to have the row afterwards: the
one that it has, or the one of the item's own fields. -/
def Evidences (py : Stdlib) (engine : Engine) (store : Tables) (id : String) (kept : Row) :
    Operation → Prop
  | .storeEvidence requirementId _ _ _ _ _ =>
      requirementId = .str id ∧ rowOf "id" (.text id) store.requirements = some kept
  | .upsertCoverageItem item _ =>
      ∃ checked, checkItem py item = .ok checked ∧ checked.status = "proven" ∧
        checked.requirementId = id ∧ requirementRow py engine checked.requirement = .ok kept
  | _ => False

/-- The item of a call of `store_evidence` keeps all but its status and its time. -/
def KeepsItem (store next : Tables) (id : String) : Operation → Prop
  | .storeEvidence _ _ _ _ _ _ =>
      ∀ old, rowOf "requirement_id" (.text id) store.coverageItems = some old →
        ∃ new, rowOf "requirement_id" (.text id) next.coverageItems = some new ∧
          ∀ column ∈ coverageItems.columns, column.name ∉ ["status", "updated_at"] →
            new.get column.name = old.get column.name
  | _ => True

/-- Beside the requirement itself, a call touches its item, and adds one row of evidence. -/
structure Frame (store next : Tables) (id : String) (operation : Operation) : Prop where
  requirements : next.requirements.filter (fun row ↦ row.get "id" ≠ .text id) =
    store.requirements.filter fun row ↦ row.get "id" ≠ .text id
  items : next.coverageItems.filter (fun row ↦ row.get "requirement_id" ≠ .text id) =
    store.coverageItems.filter fun row ↦ row.get "requirement_id" ≠ .text id
  item : KeepsItem store next id operation
  evidence : ∃ proof, proof.get "requirement_id" = .text id ∧
    next.evidenceRecords = store.evidenceRecords ++ [proof]
  runState : next.runState = store.runState

section Calls

variable {py : Stdlib} {engine : Engine} {store next : Tables} {id : String} {kept : Row}

theorem frame_upsertCoverageItem {item : Json} {now : String}
    (h : Evidences py engine store id kept (.upsertCoverageItem item now))
    (hok : store.call py engine (.upsertCoverageItem item now) = .ok next) :
    rowOf "id" (.text id) next.requirements = some (defaultRow engine id) ∧
      Frame store next id (.upsertCoverageItem item now) := by
  obtain ⟨checked, hcheck, hproven, rfl, hrequirement⟩ := h
  obtain ⟨evidence, hevidence, hvalid⟩ := evidence_of_proven py hcheck hproven
  rw [Tables.call] at hok
  cases hrow : coverageRow engine checked now with
  | error exc =>
      rw [upsertCoverageItem_of_error py engine hcheck hrequirement hrow] at hok
      cases hok
  | ok row =>
      rw [upsertCoverageItem_of_proven py engine hcheck hrequirement hrow hproven hevidence
        hvalid] at hok
      cases hproof : evidenceRow engine checked.requirementId evidence (.str "")
          (.str verifierRole) with
      | error exc =>
          rw [hproof] at hok
          cases hok
      | ok proof =>
          rw [hproof] at hok
          obtain rfl := Except.ok.inj hok
          have hdefault := defaultRow_id engine checked.requirementId
          refine ⟨rowOf_putRequirement hdefault store, ?_⟩
          exact {
            requirements := filter_putRequirement hdefault store
            items := filter_putItem (coverageRow_spec hrow).id store
            item := trivial
            evidence := ⟨proof, (evidenceRow_spec hvalid hproof).1, rfl⟩
            runState := rfl }

/-- The flip of an item updates two columns. -/
theorem get_of_flip {flip : Row} (hcoverage : IsCoverageRow flip id "proven")
    (hnext : next.coverageItems =
      upsert "requirement_id" ["status", "updated_at"] flip store.coverageItems) {old : Row}
    (hold : rowOf "requirement_id" (.text id) store.coverageItems = some old) :
    ∃ new, rowOf "requirement_id" (.text id) next.coverageItems = some new ∧
      ∀ column ∈ coverageItems.columns, column.name ∉ ["status", "updated_at"] →
        new.get column.name = old.get column.name := by
  have hnull : flip.get "requirement_id" ≠ .null := by
    rw [hcoverage.id]
    exact Value.noConfusion
  refine ⟨Row.merge ["status", "updated_at"] old flip, ?_, ?_⟩
  · rw [hnext, rowOf_upsert hcoverage.mem_names hnull, if_pos hcoverage.id, hold, Option.map_some,
      Option.getD_some]
  · intro column hcolumn hname
    have hmem : column.name ∈ flip.map Prod.fst := by
      rw [hcoverage.names]
      exact List.mem_map_of_mem hcolumn
    rw [get_merge hmem, if_neg hname]

theorem frame_storeEvidence {requirementId record commitSha actorAgent : Json}
    {flipToProven : Bool} {now : String}
    (h : Evidences py engine store id kept
      (.storeEvidence requirementId record commitSha actorAgent flipToProven now))
    (hok : store.call py engine
      (.storeEvidence requirementId record commitSha actorAgent flipToProven now) = .ok next) :
    rowOf "id" (.text id) next.requirements = some (defaultRow engine id) ∧
      Frame store next id
        (.storeEvidence requirementId record commitSha actorAgent flipToProven now) := by
  obtain ⟨submission, flip, proof, hcheck, hcoverage, hproof, rfl⟩ :=
    storeEvidence_eq_ok py engine hok
  obtain rfl := Json.str.inj (h.1.symm.trans (checkSubmission_requirementId py hcheck))
  have hdefault := defaultRow_id engine submission.requirementId
  have hid := (evidenceRow_spec (checkSubmission_spec py hcheck).1 hproof).1
  refine ⟨rowOf_putRequirement hdefault store, filter_putRequirement hdefault store, ?_, ?_,
    ⟨proof, hid, rfl⟩, rfl⟩
  · cases flipToProven with
    | false => rfl
    | true =>
        rw [← hcoverage.id]
        exact filter_upsert hcoverage.mem_names store.coverageItems
  · intro old hold
    cases flipToProven with
    | false => exact ⟨old, hold, fun _ _ _ ↦ rfl⟩
    | true => exact get_of_flip hcoverage rfl hold

/-- A call that stores evidence touches nothing else, and leaves the requirement at the row
that it is to have just when that is the default one. -/
theorem evidence_frame_iff {operation : Operation}
    (h : Evidences py engine store id kept operation)
    (hok : store.call py engine operation = .ok next) :
    (rowOf "id" (.text id) next.requirements = some kept ∧ Frame store next id operation) ↔
      kept = defaultRow engine id := by
  have hcall : rowOf "id" (.text id) next.requirements = some (defaultRow engine id) ∧
      Frame store next id operation := by
    cases operation with
    | upsertCoverageItem item now => exact frame_upsertCoverageItem h hok
    | storeEvidence requirementId record commitSha actorAgent flipToProven now =>
        exact frame_storeEvidence h hok
    | upsertRequirement args => exact h.elim
    | saveRunState state now => exact h.elim
  constructor
  · rintro ⟨hkept, -⟩
    exact Option.some.inj (hkept.symm.trans hcall.1)
  · rintro rfl
    exact hcall

end Calls

/-! ## A requirement of another type -/

/-- A requirement with fields of its own. -/
def wiringItem : Operation :=
  .upsertCoverageItem (.obj [("id", .str "F1"), ("type", .str "WIRING"), ("priority", .int 5)])
    "2026-01-05T10:00:00+00:00"

def wiringRow : Row :=
  [("id", .text "F1"), ("project_id", .text "default"), ("type", .text "WIRING"),
    ("nfr_subtype", .null), ("priority", .integer 5), ("ears_pattern", .text "ubiquitous"),
    ("ears_stmt", .text ""), ("provenance", .text "stated")]

def submitEvidence : Operation :=
  .storeEvidence (.str "F1") (.obj sampleEvidence) (.str "") (.str verifierRole) true
    "2026-01-05T10:05:00+00:00"

/-- The library and the engine of the samples, for one call. -/
def sampleCall (before : List Operation) (operation : Operation) : Call :=
  (Tables.run sampleLibrary sampleEngine before).call sampleLibrary sampleEngine operation

theorem unproven_evidence_stored :
    ∃ next, sampleCall [sampleItem "unproven" .null] submitEvidence = .ok next ∧
      rowOf "id" (.text "F1") next.requirements = some (defaultRow sampleEngine "F1") ∧
        Frame (Tables.run sampleLibrary sampleEngine [sampleItem "unproven" .null]) next "F1"
          submitEvidence := by
  obtain ⟨next, hnext⟩ := Outcome.exists_of_isSome (show (sampleCall [sampleItem "unproven" .null]
    submitEvidence).toOption.isSome = true by decide +kernel)
  have hrow : rowOf "id" (.text "F1") (Tables.run sampleLibrary sampleEngine
      [sampleItem "unproven" .null]).requirements = some (defaultRow sampleEngine "F1") := by
    decide
  have hevidences : Evidences sampleLibrary sampleEngine (Tables.run sampleLibrary sampleEngine
      [sampleItem "unproven" .null]) "F1" (defaultRow sampleEngine "F1") submitEvidence :=
    ⟨rfl, hrow⟩
  exact ⟨next, hnext, (evidence_frame_iff hevidences hnext).mpr rfl⟩

theorem wiring_evidence_resets :
    ¬∀ next kept, Evidences sampleLibrary sampleEngine
        (Tables.run sampleLibrary sampleEngine [wiringItem]) "F1" kept submitEvidence →
      sampleCall [wiringItem] submitEvidence = .ok next →
        rowOf "id" (.text "F1") next.requirements = some kept ∧
          Frame (Tables.run sampleLibrary sampleEngine [wiringItem]) next "F1" submitEvidence := by
  obtain ⟨next, hnext⟩ := Outcome.exists_of_isSome
    (show (sampleCall [wiringItem] submitEvidence).toOption.isSome = true by decide +kernel)
  have hrow : rowOf "id" (.text "F1")
      (Tables.run sampleLibrary sampleEngine [wiringItem]).requirements = some wiringRow := by
    decide
  have hevidences : Evidences sampleLibrary sampleEngine
      (Tables.run sampleLibrary sampleEngine [wiringItem]) "F1" wiringRow submitEvidence :=
    ⟨rfl, hrow⟩
  intro h
  have hkept := (h next wiringRow hevidences hnext).1
  rw [(frame_storeEvidence hevidences hnext).1] at hkept
  exact absurd (Option.some.inj hkept) (by decide)

end AgenticSDLC.Store
