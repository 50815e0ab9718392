import AgenticSDLC.Foundations.Python

/-!
# The Python merge gate

`tools/coverage_gate.py`.  `denyMerge` is a pure function of the parsed
`feature_list.json`; every branch of it that can raise is guarded, so the
translation is total.  The reasons quote item ids and statuses with Python's
`repr`, which the section takes as given.
-/

namespace AgenticSDLC

/-- The `{"deny": ..., "reasons": [...]}` dictionary a merge gate returns. -/
structure MergeDecision where
  deny : Bool
  reasons : List String
  deriving DecidableEq

namespace CoverageGate

def evidenceFields : List String :=
  ["test_file", "test_name", "output_hash", "collected_at"]

/-- An untrusted session id in the form the gates compare: stripped, ASCII or
absent, case-folded. -/
def normSession : Json → String
  | .str value =>
      let s := Python.strip value
      if s = "" || !Text.isAscii s then "" else Python.casefold s
  | _ => ""

def isNonemptyStrField (evidence : List (String × Json)) (field : String) : Bool :=
  match Python.get evidence field with
  | .str value => Python.strip value != ""
  | _ => false

def evidenceComplete (item : List (String × Json)) : Bool :=
  match Python.get item "evidence" with
  | .obj evidence => evidenceFields.all (isNonemptyStrField evidence)
  | _ => false

def evidenceObj (item : List (String × Json)) : List (String × Json) :=
  match Python.get item "evidence" with
  | .obj evidence => evidence
  | _ => []

/-- `isinstance(i, dict) and i.get("in_scope") is True`. -/
def isInScope : Json → Bool
  | .obj item => Python.get item "in_scope" = .bool true
  | _ => false

section Reasons

variable (repr : Json → String)

def modelShapeDenial (featureList : Json) : Option MergeDecision :=
  match featureList with
  | .obj model =>
      match Python.get model "items" with
      | .null => some ⟨true,
          ["Merge denied: feature_list.json has no 'items' array. Fail closed."]⟩
      | .arr _ => none
      | items => some ⟨true,
          ["Merge denied: feature_list.json 'items' is not an array (got " ++
            Python.typeName items ++ "). Fail closed."]⟩
  | _ => some ⟨true,
      ["Merge denied: feature_list is not an object (got " ++
        Python.typeName featureList ++ "). Fail closed."]⟩

def denyReasonStatus (itemId status : Json) : Option String :=
  if status ≠ .str "proven" then
    some ("Merge denied: in-scope item " ++ repr itemId ++ " has status=" ++
      repr status ++ " (not 'proven').")
  else none

def denyReasonEvidence (itemId : Json) (item : List (String × Json)) : Option String :=
  if evidenceComplete item then none
  else
    let missing := evidenceFields.filter fun f ↦ !isNonemptyStrField (evidenceObj item) f
    some ("Merge denied: in-scope item " ++ repr itemId ++ " is 'proven' but " ++
      "its Evidence_Record is missing/empty field(s): " ++
      repr (.arr (missing.map .str)) ++ ".")

def denyReasonsActorSep (itemId : Json) (ev : List (String × Json)) : List String :=
  let vsNorm := normSession (Python.get ev "verifier_session_id")
  let isNorm := normSession (Python.get ev "implementer_session_id")
  if vsNorm = "" || isNorm = "" then
    ["Merge denied: in-scope item " ++ repr itemId ++ " is 'proven' but its " ++
      "evidence lacks verifier_session_id / implementer_session_id."]
  else if vsNorm = isNorm then
    ["Merge denied: in-scope item " ++ repr itemId ++ " evidence has the same " ++
      "verifier and implementer session (self-grading)."]
  else []

def denyReasonWiringKind (itemId : Json) (item ev : List (String × Json)) : Option String :=
  if Python.get item "type" ≠ .str "WIRING" then none
  else
    let kind := Python.get ev "evidence_kind"
    if kind ≠ .str "integration" then
      some ("Merge denied: in-scope WIRING item " ++ repr itemId ++
        " is 'proven' but its Evidence_Record.evidence_kind is " ++ repr kind ++
        " (must be 'integration').")
    else none

/-- One turn of the loop over the in-scope items.  A non-proven item reports
its status and nothing else. -/
def itemReasons : Json → List String
  | .obj item =>
      let itemId := Python.getD item "id" (.str "<no-id>")
      match denyReasonStatus repr itemId (Python.get item "status") with
      | some reason => [reason]
      | none =>
          let ev := evidenceObj item
          (denyReasonEvidence repr itemId item).toList ++
            denyReasonsActorSep repr itemId ev ++
              (denyReasonWiringKind repr itemId item ev).toList
  | _ => []

def sortKey : Json → String
  | .obj item => Python.str repr (Python.getD item "id" (.str ""))
  | _ => ""

def denyMerge (featureList : Json) : MergeDecision :=
  match modelShapeDenial featureList, featureList with
  | some shapeDenial, _ => shapeDenial
  | none, .obj model =>
      match Python.get model "items" with
      | .arr items =>
          let inScopeItems := items.filter isInScope
          if inScopeItems = [] then
            ⟨true, ["Merge denied: feature_list.json has zero in-scope items. " ++
              "A zero-item coverage model is a valid INIT state but never " ++
              "a valid COMPLETE/merge state."]⟩
          else
            let ordered := Python.sortedBy (sortKey repr) inScopeItems
            let reasons := ordered.flatMap (itemReasons repr)
            ⟨!reasons.isEmpty, reasons⟩
      | _ => ⟨true, []⟩
  | none, _ => ⟨true, []⟩

end Reasons

/-- An id is missing after normalising, or the two ids become one. -/
def SessionsRejected (norm : Json → String) (ev : List (String × Json)) : Prop :=
  norm (Python.get ev "verifier_session_id") = "" ∨
    norm (Python.get ev "implementer_session_id") = "" ∨
      norm (Python.get ev "verifier_session_id") =
        norm (Python.get ev "implementer_session_id")

theorem denyReasonsActorSep_ne_nil_iff (repr : Json → String) (itemId : Json)
    (ev : List (String × Json)) :
    denyReasonsActorSep repr itemId ev ≠ [] ↔ SessionsRejected normSession ev := by
  simp only [denyReasonsActorSep, SessionsRejected]
  split_ifs with hempty hsame
  · simp only [Bool.or_eq_true, decide_eq_true_eq] at hempty
    simpa using by tauto
  · simp [hsame]
  · simp only [Bool.or_eq_true, decide_eq_true_eq, not_or] at hempty
    simp [hempty.1, hempty.2, hsame]

end CoverageGate

end AgenticSDLC
