import AgenticSDLC.Evidence.EvidenceCollector
import AgenticSDLC.Foundations.Outcome
import AgenticSDLC.Foundations.Sql

/-!
# The durable store

`tools/store.py` over its SQLite schema.  A statement that fails changes nothing, but a
call is several statements, and what the earlier ones wrote stays when a later one
raises.  Row ids and creation times, which no modelled call reads, are left out.
-/

namespace AgenticSDLC.Store

open Python (Exception Stdlib)
open Sql

def coverageStatuses : List String := ["unproven", "proven", "failed"]

def requirementTypes : List String := ["functional", "NFR", "WIRING"]

def runStateStatuses : List String := ["running", "complete", "handoff", "blocked"]

def verifierRole : String := "verifier"

def allowedTransitions : List (String × String) :=
  [("unproven", "proven"), ("unproven", "failed"), ("failed", "unproven"), ("proven", "unproven")]

def storeError (detail : String) : Exception := ⟨"StoreError", detail⟩

def evidenceIncompleteError (detail : String) : Exception := ⟨"EvidenceIncompleteError", detail⟩

def transitionError (detail : String) : Exception := ⟨"TransitionError", detail⟩

/-! ## The schema -/

def requirements : Table where
  name := "requirements"
  columns := [⟨"id", .text, false, .null⟩, ⟨"project_id", .text, true, .null⟩,
    ⟨"type", .text, true, .null⟩, ⟨"nfr_subtype", .text, false, .null⟩,
    ⟨"priority", .integer, true, .null⟩, ⟨"ears_pattern", .text, true, .null⟩,
    ⟨"ears_stmt", .text, true, .null⟩, ⟨"provenance", .text, true, .null⟩]
  checks := [.isIn "type IN ('functional', 'NFR', 'WIRING')" "type" requirementTypes,
    .isIn "nfr_subtype IN ('performance','accessibility','reliability','security')" "nfr_subtype"
      ["performance", "accessibility", "reliability", "security"],
    .isIn "provenance IN ('stated', 'inferred')" "provenance" ["stated", "inferred"]]
  nodup := by decide

def coverageItems : Table where
  name := "coverage_items"
  columns := [⟨"requirement_id", .text, true, .null⟩, ⟨"status", .text, true, .text "unproven"⟩,
    ⟨"subtype", .text, false, .null⟩, ⟨"in_scope", .integer, true, .integer 1⟩,
    ⟨"slice_id", .text, false, .null⟩, ⟨"updated_at", .text, true, .null⟩]
  checks := [.isIn "status IN ('unproven', 'proven', 'failed')" "status" coverageStatuses,
    .isIn "subtype IN ('performance', 'accessibility', 'ui-screen')" "subtype"
      ["performance", "accessibility", "ui-screen"],
    .isBit "in_scope IN (0, 1)" "in_scope"]
  nodup := by decide

def evidenceCheck : Check where
  text := "test_file <> '' AND test_name <> '' AND output_hash <> '' AND collected_at IS NOT NULL"
  holds := fun row ↦ row.get "test_file" ≠ .text "" && row.get "test_name" ≠ .text "" &&
    row.get "output_hash" ≠ .text "" && row.get "collected_at" ≠ .null

def evidenceRecords : Table where
  name := "evidence_records"
  columns := [⟨"requirement_id", .text, true, .null⟩, ⟨"commit_sha", .text, true, .null⟩,
    ⟨"test_file", .text, true, .null⟩, ⟨"test_name", .text, true, .null⟩,
    ⟨"output_hash", .text, true, .null⟩, ⟨"collected_at", .text, true, .null⟩,
    ⟨"actor_agent", .text, true, .null⟩]
  checks := [evidenceCheck]
  nodup := by decide

def runState : Table where
  name := "run_state"
  columns := [⟨"session_id", .text, false, .null⟩, ⟨"project_id", .text, true, .null⟩,
    ⟨"current_item_id", .text, false, .null⟩, ⟨"status", .text, true, .null⟩,
    ⟨"phase", .text, true, .text "spec"⟩, ⟨"iteration_count", .integer, true, .integer 0⟩,
    ⟨"spec_pass_count", .integer, true, .integer 0⟩, ⟨"token_cost_usd", .real, true, .integer 0⟩,
    ⟨"no_progress_n", .integer, true, .integer 0⟩, ⟨"violation_count", .integer, true, .integer 0⟩,
    ⟨"prev_violation_count", .integer, false, .null⟩, ⟨"retry_count", .integer, true, .integer 0⟩,
    ⟨"resume_integrity_ok", .integer, false, .null⟩, ⟨"is_resume", .integer, true, .integer 0⟩,
    ⟨"first_write_done", .integer, true, .integer 0⟩, ⟨"resume_state_hash", .text, false, .null⟩,
    ⟨"stop_hook_active", .integer, true, .integer 0⟩, ⟨"last_commit_sha", .text, false, .null⟩,
    ⟨"updated_at", .text, true, .null⟩]
  checks := [
    .isIn "status IN ('running', 'complete', 'handoff', 'blocked')" "status" runStateStatuses,
    .isIn "phase IN ('spec', 'implementation')" "phase" ["spec", "implementation"],
    .isBit "resume_integrity_ok IN (0, 1)" "resume_integrity_ok",
    .isBit "is_resume IN (0, 1)" "is_resume", .isBit "first_write_done IN (0, 1)" "first_write_done",
    .isBit "stop_hook_active IN (0, 1)" "stop_hook_active"]
  nodup := by decide

/-- The contents of the tables, by the order of insertion. -/
structure Tables where
  requirements : List Row
  coverageItems : List Row
  evidenceRecords : List Row
  runState : List Row

def Tables.empty : Tables := ⟨[], [], [], []⟩

/-- The store after a call, or after what a call wrote before it raised. -/
abbrev Call := Except (Exception × Tables) Tables

def foreignKeyError : Exception := integrityError "FOREIGN KEY constraint failed"

section Calls

variable (py : Stdlib) (engine : Engine)

/-! ## Requirements -/

/-- The arguments of `upsert_requirement`. -/
structure Requirement where
  requirementId : Json
  projectId : Json
  type : Json
  priority : Json
  earsPattern : Json
  earsStmt : Json
  provenance : Json
  nfrSubtype : Json

def Requirement.default (requirementId : String) : Requirement :=
  ⟨.str requirementId, .str "default", .str "functional", .int 1, .str "ubiquitous", .str "",
    .str "stated", .null⟩

def requirementRow (args : Requirement) : Except Exception Row :=
  if args.type ∉ requirementTypes.map Json.str then
    .error (storeError ("invalid requirement type " ++ py.repr args.type ++
      "; expected one of ('functional', 'NFR', 'WIRING')"))
  else do
    let values ← bindAll 1 [("id", args.requirementId), ("project_id", args.projectId),
      ("type", args.type), ("nfr_subtype", args.nfrSubtype), ("priority", args.priority),
      ("ears_pattern", args.earsPattern), ("ears_stmt", args.earsStmt),
      ("provenance", args.provenance)]
    requirements.row engine values

def upsertRequirement (args : Requirement) (store : Tables) : Call :=
  match requirementRow py engine args with
  | .error exc => .error (exc, store)
  | .ok row => .ok { store with
      requirements := upsert "id" ["project_id", "type", "nfr_subtype", "priority", "ears_pattern",
        "ears_stmt", "provenance"] row store.requirements }

/-! ## Evidence -/

/-- `a or b`. -/
def orElse (a b : Json) : Json := if Python.truthy a then a else b

def evidenceRow (requirementId : String) (record : List (String × Json))
    (commitSha actorAgent : Json) : Except Exception Row := do
  let testFile ← Python.subscript (.obj record) "test_file"
  let testName ← Python.subscript (.obj record) "test_name"
  let outputHash ← Python.subscript (.obj record) "output_hash"
  let collectedAt ← Python.subscript (.obj record) "collected_at"
  let values ← bindAll 1 [("requirement_id", .str requirementId),
    ("commit_sha", orElse commitSha (Python.getD record "commit_sha" (.str ""))),
    ("test_file", testFile), ("test_name", testName), ("output_hash", outputHash),
    ("collected_at", collectedAt), ("actor_agent", Python.getD record "actor_agent" actorAgent)]
  evidenceRecords.row engine values

def storeEvidenceRow (requirementId : String) (record : List (String × Json))
    (commitSha actorAgent : Json) (gateAlreadyChecked : Bool) (store : Tables) : Call :=
  if !gateAlreadyChecked && !EvidenceCollector.validateEvidenceRecord py (.obj record) then
    .error (evidenceIncompleteError ("incomplete Evidence_Record for " ++
      py.repr (.str requirementId) ++ " (four-field gate, Property 2 / Req 5.3 / 5.6)"), store)
  else do
    let store ← upsertRequirement py engine (.default requirementId) store
    match evidenceRow engine requirementId record commitSha actorAgent with
    | .error exc => .error (exc, store)
    | .ok row =>
        if refers (row.get "requirement_id") "id" store.requirements then
          .ok { store with evidenceRecords := store.evidenceRecords ++ [row] }
        else .error (foreignKeyError, store)

/-! ## Coverage items -/

/-- What `upsert_coverage_item` looks at before it writes. -/
structure Item where
  members : List (String × Json)
  requirementId : String
  status : String

def checkItem (item : Json) : Except Exception Item :=
  match item with
  | .obj members =>
      match Python.get members "id" with
      | .str requirementId =>
          if requirementId = "" then
            .error (storeError "coverage item requires a non-empty string 'id'")
          else
            match Python.getD members "status" (.str "unproven") with
            | .str status =>
                if status ∉ coverageStatuses then
                  .error (storeError ("invalid coverage status " ++ py.repr (.str status) ++
                    "; expected one of ('unproven', 'proven', 'failed')"))
                else if status = "proven" &&
                    !EvidenceCollector.validateEvidenceRecord py (Python.get members "evidence") then
                  .error (evidenceIncompleteError ("cannot flip " ++ py.repr (.str requirementId) ++
                    " to 'proven' without a complete four-field Evidence_Record (test_file, " ++
                    "test_name, output_hash, collected_at); the durable store mirrors the " ++
                    "in-session gate (Property 2 / Req 5.3 / 5.6)"))
                else .ok ⟨members, requirementId, status⟩
            | status => .error (storeError ("invalid coverage status " ++ py.repr status ++
                "; expected one of ('unproven', 'proven', 'failed')"))
      | _ => .error (storeError "coverage item requires a non-empty string 'id'")
  | _ => .error (storeError "coverage item must be a dict")

def Item.requirement (item : Item) : Requirement where
  requirementId := .str item.requirementId
  projectId := Python.getD item.members "project_id" (.str "default")
  type := Python.getD item.members "type" (.str "functional")
  priority := Python.getD item.members "priority" (.int 1)
  earsPattern := Python.getD item.members "ears_pattern" (.str "ubiquitous")
  earsStmt := Python.getD item.members "ears_statement"
    (Python.getD item.members "ears_stmt" (.str ""))
  provenance := Python.getD item.members "provenance" (.str "stated")
  nfrSubtype := Python.get item.members "nfr_subtype"

def coverageRow (item : Item) (now : String) : Except Exception Row := do
  let inScope := Python.truthy (Python.getD item.members "in_scope" (.bool true))
  let values ← bindAll 1 [("requirement_id", .str item.requirementId), ("status", .str item.status),
    ("subtype", Python.get item.members "subtype"), ("in_scope", .int (if inScope then 1 else 0)),
    ("slice_id", Python.get item.members "slice_id"), ("updated_at", .str now)]
  coverageItems.row engine values

/-- The insert into `coverage_items`, and the columns that it updates. -/
def insertCoverage (row : Row) (updated : List String) (store : Tables) : Call :=
  if refers (row.get "requirement_id") "id" store.requirements then
    .ok { store with coverageItems := upsert "requirement_id" updated row store.coverageItems }
  else .error (foreignKeyError, store)

def upsertCoverageItem (item : Json) (now : String) (store : Tables) : Call :=
  match checkItem py item with
  | .error exc => .error (exc, store)
  | .ok item => do
      let store ← upsertRequirement py engine item.requirement store
      match coverageRow engine item now with
      | .error exc => .error (exc, store)
      | .ok row => do
          let store ← insertCoverage row
            ["status", "subtype", "in_scope", "slice_id", "updated_at"] store
          if item.status = "proven" then
            match Python.get item.members "evidence" with
            | .obj evidence =>
                storeEvidenceRow py engine item.requirementId evidence (.str "")
                  (.str verifierRole) true store
            | _ => return store
          else return store

def currentStatus (requirementId : String) (store : Tables) : Option Value :=
  (rowOf "requirement_id" (.text requirementId) store.coverageItems).map fun row ↦ row.get "status"

/-- Whether a move between two stored statuses is allowed. -/
def allowed (origin target : Value) : Bool :=
  allowedTransitions.any fun pair ↦ origin = .text pair.1 && target = .text pair.2

/-- What `store_evidence` looks at before it writes. -/
structure Submission where
  requirementId : String
  record : List (String × Json)
  actor : Json

def checkSubmission (requirementId record actorAgent : Json) : Except Exception Submission :=
  match requirementId with
  | .str requirementId =>
      if requirementId = "" then
        .error (storeError "store_evidence requires a non-empty string requirement_id")
      else
        let recordActor := match record with
          | .obj members => Python.get members "actor_agent"
          | _ => .null
        let actor := orElse recordActor actorAgent
        if actor ≠ .str verifierRole then
          .error (storeError ("evidence actor_agent must be 'verifier' (Property 24 — evidence is " ++
            "captured by the Verifier, never the Implementer); got " ++ py.repr actor))
        else
          match record with
          | .obj members =>
              if EvidenceCollector.validateEvidenceRecord py record then
                .ok ⟨requirementId, members, actor⟩
              else .error (evidenceIncompleteError (incomplete requirementId))
          | _ => .error (evidenceIncompleteError (incomplete requirementId))
  | _ => .error (storeError "store_evidence requires a non-empty string requirement_id")
where
  incomplete (requirementId : String) : String :=
    "cannot store evidence / flip " ++ py.repr (.str requirementId) ++ " to 'proven': the " ++
    "Evidence_Record is incomplete or malformed — all four fields (test_file, test_name, " ++
    "output_hash, collected_at) must be present, non-empty, with output_hash matching " ++
    "^sha256:[a-f0-9]\x7b64\x7d$ (Property 2 / Req 5.3 / 5.6)"

def flipRow (requirementId now : String) : Except Exception Row :=
  coverageItems.row engine [("requirement_id", .text requirementId), ("status", .text "proven"),
    ("in_scope", .integer 1), ("updated_at", .text now)]

def valueText : Value → String
  | .text s => s
  | .integer n => toString n
  | .real x => engine.realText x
  | .null => "None"

def storeEvidence (requirementId record commitSha actorAgent : Json) (flipToProven : Bool)
    (now : String) (store : Tables) : Call :=
  match checkSubmission py requirementId record actorAgent with
  | .error exc => .error (exc, store)
  | .ok submission =>
      let id := submission.requirementId
      let origin := (currentStatus id store).getD (.text "unproven")
      if !EvidenceCollector.outputHashMatches
          (Python.str py.repr (Python.getD submission.record "output_hash" (.str ""))) then
        .error (evidenceIncompleteError ("output_hash for " ++ py.repr (.str id) ++
          " must match ^sha256:[a-f0-9]\x7b64\x7d$"), store)
      else if flipToProven && !allowed origin (.text "proven") then
        .error (transitionError (valueText engine origin ++ "->proven is not an allowed " ++
          "transition for " ++ py.repr (.str id) ++ " (only unproven->proven enters proven)"), store)
      else do
        let store ← storeEvidenceRow py engine id submission.record commitSha submission.actor true
          store
        if flipToProven then
          match flipRow engine id now with
          | .error exc => .error (exc, store)
          | .ok row => insertCoverage row ["status", "updated_at"] store
        else return store

/-! ## Run state -/

def runStateColumns : List String :=
  ["session_id", "project_id", "current_item_id", "status", "phase", "iteration_count",
    "spec_pass_count", "token_cost_usd", "no_progress_n", "violation_count",
    "prev_violation_count", "retry_count", "resume_integrity_ok", "is_resume", "first_write_done",
    "resume_state_hash", "stop_hook_active", "last_commit_sha"]

def runStateBoolColumns : List String :=
  ["resume_integrity_ok", "is_resume", "first_write_done", "stop_hook_active"]

def runStateDefaults : List (String × Json) :=
  [("project_id", .str "default"), ("status", .str "running"), ("phase", .str "spec"),
    ("iteration_count", .int 0), ("spec_pass_count", .int 0), ("token_cost_usd", .int 0),
    ("no_progress_n", .int 0), ("violation_count", .int 0), ("prev_violation_count", .null),
    ("retry_count", .int 0), ("resume_integrity_ok", .null), ("is_resume", .bool false),
    ("first_write_done", .bool false), ("resume_state_hash", .null),
    ("stop_hook_active", .bool false), ("last_commit_sha", .null), ("current_item_id", .null)]

/-- The parameter of a column. -/
def runStateValue (state : List (String × Json)) (column : String) : Json :=
  let value := Python.getD state column (Python.get runStateDefaults column)
  if column ∈ runStateBoolColumns ∧ value ≠ .null then
    .int (if Python.truthy value then 1 else 0)
  else value

def runStateRow (state : Json) (now : String) : Except Exception Row :=
  match state with
  | .obj members =>
      match Python.get members "session_id" with
      | .str sessionId =>
          if sessionId = "" then
            .error (storeError "run state requires a non-empty string 'session_id'")
          else if Python.getD members "status" (.str "running") ∉ runStateStatuses.map Json.str then
            .error (storeError ("invalid run_state status " ++
              py.repr (Python.getD members "status" (.str "running")) ++
              "; expected one of ('running', 'complete', 'handoff', 'blocked')"))
          else do
            let values ← bindAll 1 (runStateColumns.map (fun column ↦
              (column, runStateValue members column)) ++ [("updated_at", .str now)])
            runState.row engine values
      | _ => .error (storeError "run state requires a non-empty string 'session_id'")
  | _ => .error (storeError "run state must be a dict")

def saveRunState (state : Json) (now : String) (store : Tables) : Call :=
  match runStateRow py engine state now with
  | .error exc => .error (exc, store)
  | .ok row =>
      if refers (row.get "current_item_id") "id" store.requirements then
        .ok { store with
          runState := upsert "session_id"
            (runStateColumns.filter (· ≠ "session_id") ++ ["updated_at"]) row store.runState }
      else .error (foreignKeyError, store)

/-! ## Runs -/

/-- A call of the store; `now` is the time that it reads from the clock. -/
inductive Operation where
  | upsertRequirement (args : Requirement)
  | upsertCoverageItem (item : Json) (now : String)
  | storeEvidence (requirementId record commitSha actorAgent : Json) (flipToProven : Bool)
      (now : String)
  | saveRunState (state : Json) (now : String)

def Tables.call (store : Tables) : Operation → Call
  | .upsertRequirement args => Store.upsertRequirement py engine args store
  | .upsertCoverageItem item now => Store.upsertCoverageItem py engine item now store
  | .storeEvidence requirementId record commitSha actorAgent flipToProven now =>
      Store.storeEvidence py engine requirementId record commitSha actorAgent flipToProven now store
  | .saveRunState state now => Store.saveRunState py engine state now store

/-- The store that the next call finds. -/
def Tables.step (store : Tables) (operation : Operation) : Tables :=
  match store.call py engine operation with
  | .ok next => next
  | .error (_, next) => next

def Tables.run (operations : List Operation) : Tables :=
  operations.foldl (Tables.step py engine) .empty

end Calls

end AgenticSDLC.Store
