import AgenticSDLC.Coverage.CoverageGate
import AgenticSDLC.Evidence.EvidenceCollector
import AgenticSDLC.Foundations.Outcome

/-!
# The per-slice evidence gate

`tools/evidence_gate.py`.  `checkSlice` judges the evidence of one proven item
against its artifact and the dispatch ledger; `checkModel` runs it over the
in-scope items of a model.  Both turn any exception into a rejection.
-/

namespace AgenticSDLC.EvidenceGate

open Python (Exception Stdlib Key)

structure Verdict where
  accepted : Bool
  code : String
  reason : String
  deriving DecidableEq

def reject (code reason : String) : Verdict := ⟨false, code, reason⟩

variable (py : Stdlib)

def rederive (artifact : String) : String := "sha256:" ++ py.sha256 artifact

def normSession (s : Json) : String := CoverageGate.normSession s

def ledgerSessions (ledger : Json) : Except Exception (List String) := do
  let members ← Python.asDict ledger
  let sessions ← Python.iterate (Python.getD members "sessions" (.arr []))
  return (sessions.map normSession).filter (· ≠ "")

/-- The session checks, the last ones of `check_slice`. -/
def checkSessions (evidence : List (String × Json)) (ledger : Json) :
    Except Exception Verdict := do
  let vs := normSession (Python.get evidence "verifier_session_id")
  let is := normSession (Python.get evidence "implementer_session_id")
  if vs = "" ∨ is = "" then
    return reject "SESSION_MISSING"
      "evidence lacks a valid (non-empty, ASCII) verifier/implementer session id"
  if vs = is then
    return reject "SAME_SESSION" "verifier session equals implementer session (self-grading)"
  let valid ← ledgerSessions ledger
  if vs ∉ valid ∨ is ∉ valid then
    return reject "SESSION_NOT_IN_LEDGER" "a declared session id is not in the dispatch ledger"
  return ⟨true, "OK", "evidence independently verified"⟩

def checkSlice (evidence : Json) (artifact : Option String) (ledger : Json) : Verdict :=
  if !Python.truthy evidence then
    reject "EVIDENCE_MISSING" "no Evidence_Record present for a proven item"
  else if !EvidenceCollector.validateEvidenceRecord py evidence then
    reject "EVIDENCE_MALFORMED" "Evidence_Record fails four-field validation"
  else
    match evidence, artifact with
    | .obj members, some text =>
        if .str (rederive py text) = Python.get members "output_hash" then
          match checkSessions members ledger with
          | .ok verdict => verdict
          | .error exc => reject "EVIDENCE_MALFORMED" ("evidence_gate raised " ++ exc.text)
        else reject "HASH_MISMATCH" "output_hash does not re-derive from the captured artifact"
    | _, _ => reject "HASH_MISMATCH" "output_hash does not re-derive from the captured artifact"

/-- The one sanctioned next step after a rejection with the code. -/
def selfHealPrompt (code : String) : String :=
  match code with
  | "EVIDENCE_MISSING" =>
      "Produce a four-field Evidence_Record (test_file, test_name, output_hash, " ++
        "collected_at) for this item via the verifier before marking it proven."
  | "EVIDENCE_MALFORMED" =>
      "Re-emit the Evidence_Record with a valid output_hash ('sha256:'+64 lowercase" ++
        " hex) and a timezone-aware collected_at; do not hand-edit the hash."
  | "HASH_MISMATCH" =>
      "Re-run the verification and let the verifier rebuild output_hash from the " ++
        "ACTUAL captured artifact bytes; the declared hash must re-derive."
  | "SESSION_MISSING" =>
      "Have the verifier (a session distinct from the implementer) produce the " ++
        "evidence and stamp both session ids."
  | "SAME_SESSION" =>
      "Hand the item to the VERIFIER subagent — a session distinct from the " ++
        "implementer must produce the evidence; an implementer may not self-verify."
  | "SESSION_NOT_IN_LEDGER" =>
      "Use the real dispatched verifier/implementer sessions; a session id not in " ++
        "the dispatch ledger cannot be attested."
  | "SAST_HIGH_CRITICAL" =>
      "Fix each HIGH or CRITICAL finding reported by semgrep, then re-run 'semgrep " ++
        "--baseline-commit <sha>' to confirm the findings are resolved."
  | "ORPHAN_DETECTED" =>
      "Forward orphan: reference an EXISTING requirement id (a fabricated or " ++
        "unknown id is itself a dangling-ref orphan — correct it). Backward orphan: " ++
        "route the missing proof to the VERIFIER, never self-grade. A new exemption " ++
        "outside tools/ is reviewed and fails the gate."
  | "ORPHAN_DANGLING_REF" =>
      "Correct the requirement id to an EXISTING id in feature_list.json, or have " ++
        "the requirement SEEDED as an unproven item before the code references it. Do" ++
        " not invent a trailer."
  | _ =>
      "Resolve the evidence-gate rejection before re-attempting the proven " ++
        "transition."

structure Rejection where
  id : Json
  code : String
  reason : String
  deriving DecidableEq

structure CheckResult where
  accepted : Bool
  rejections : List Rejection
  deriving DecidableEq

def modelMalformed (reason : String) : CheckResult :=
  ⟨false, [⟨.null, "MODEL_MALFORMED", reason⟩]⟩

/-- `tools/coverage.py: in_scope_items`, on a list of dictionaries. -/
def inScopeItems (items : List (List (String × Json))) : List (List (String × Json)) :=
  items.filter fun item ↦ Python.truthy (Python.get item "in_scope")

abbrev Artifacts := List (Key × Option String)

/-- `artifacts.get(key)`: a missing key reads as `None`. -/
def Artifacts.get (artifacts : Artifacts) (key : Key) : Option String :=
  (artifacts.lookup key).join

/-- One turn of the loop of `check_model`. -/
def checkItem (ledger : Json) (artifacts : Artifacts) (item : List (String × Json)) :
    Except Exception (List Rejection) := do
  let id := Python.get item "id"
  let status := Python.get item "status"
  if status ≠ .str "proven" then
    return [⟨id, "EVIDENCE_MISSING", "in-scope item is " ++ py.repr status ++ ", not proven"⟩]
  let key ← Python.hashKey id
  let r := checkSlice py (Python.get item "evidence") (artifacts.get key) ledger
  if r.accepted then return []
  return [⟨id, r.code, r.reason⟩]

def checkItems (ledger : Json) (artifacts : Artifacts) (items : List (List (String × Json))) :
    CheckResult :=
  let sortKey := fun item ↦ Python.str py.repr (Python.getD item "id" (.str ""))
  let ordered := Python.sortedBy sortKey (inScopeItems items)
  match ordered.mapM (checkItem py ledger artifacts) with
  | .ok rejections => ⟨rejections.flatten.isEmpty, rejections.flatten⟩
  | .error exc => modelMalformed ("check_model raised " ++ exc.text)

def checkModel (model ledger : Json) (artifacts : Artifacts) : CheckResult :=
  match model with
  | .obj fields =>
      match Python.getD fields "items" (.arr []) with
      | .arr items =>
          if items.any fun i ↦ i.object?.isNone then
            modelMalformed "model['items'] contains a non-dict element"
          else checkItems py ledger artifacts (Json.objects items)
      | items => modelMalformed ("model['items'] is " ++ Python.typeName items ++ ", not a list")
  | _ => modelMalformed ("model is " ++ Python.typeName model ++ ", not a dict")

theorem exists_artifact_of_accepted {evidence ledger : Json} {artifact : Option String}
    (h : (checkSlice py evidence artifact ledger).accepted = true) :
    ∃ members text, evidence = .obj members ∧ artifact = some text ∧
      Python.get members "output_hash" = .str (rederive py text) := by
  unfold checkSlice at h
  split_ifs at h with hempty hvalid
  · cases h
  · cases h
  · obtain ⟨members, rfl⟩ :=
      EvidenceCollector.exists_of_validateEvidenceRecord py (by simpa using hvalid)
    cases artifact with
    | none => cases h
    | some text =>
        dsimp only at h
        split_ifs at h with hhash
        · exact ⟨members, text, rfl, rfl, hhash.symm⟩
        · cases h

theorem valid_of_accepted {evidence ledger : Json} {artifact : Option String}
    (h : (checkSlice py evidence artifact ledger).accepted = true) :
    EvidenceCollector.validateEvidenceRecord py evidence = true := by
  unfold checkSlice at h
  split_ifs at h with hempty hvalid
  · cases h
  · cases h
  · simpa using hvalid

/-- The item is proven and its evidence holds up against the artifact of its id. -/
def ItemAccepted (ledger : Json) (artifacts : Artifacts) (item : List (String × Json)) : Prop :=
  Python.get item "status" = .str "proven" ∧
    ∃ key, Python.hashKey (Python.get item "id") = .ok key ∧
      (checkSlice py (Python.get item "evidence") (artifacts.get key) ledger).accepted = true

theorem itemAccepted_of_checkItem {ledger : Json} {artifacts : Artifacts}
    {item : List (String × Json)} (h : checkItem py ledger artifacts item = .ok []) :
    ItemAccepted py ledger artifacts item := by
  unfold checkItem at h
  dsimp only at h
  split_ifs at h with hstatus
  · cases h
  · obtain ⟨key, hkey, hbody⟩ := Outcome.bind_eq_ok_iff.mp h
    split_ifs at hbody with haccepted
    · exact ⟨not_not.mp hstatus, key, hkey, haccepted⟩
    · cases hbody

theorem checkItems_accepted {ledger : Json} {artifacts : Artifacts}
    {items : List (List (String × Json))}
    (h : (checkItems py ledger artifacts items).accepted = true) :
    ∀ item ∈ inScopeItems items, ItemAccepted py ledger artifacts item := by
  intro item hitem
  unfold checkItems at h
  dsimp only at h
  split at h
  · next rejections hrun =>
      obtain ⟨r, hr, hcheck⟩ := Outcome.exists_of_mapM_eq_ok hrun item
        ((Python.mem_sortedBy _ _ item).mpr hitem)
      have hnil : r = [] := by
        simp only [List.isEmpty_iff, List.flatten_eq_nil_iff] at h
        exact h r hr
      exact itemAccepted_of_checkItem py (hnil ▸ hcheck)
  · cases h

/-- An accepted model is a dictionary with a list of items, and each item in
scope is accepted. -/
theorem checkModel_accepted {model ledger : Json} {artifacts : Artifacts}
    (h : (checkModel py model ledger artifacts).accepted = true) :
    ∃ fields items, model = .obj fields ∧ Python.getD fields "items" (.arr []) = .arr items ∧
      ∀ item, .obj item ∈ items → Python.truthy (Python.get item "in_scope") = true →
        ItemAccepted py ledger artifacts item := by
  cases model with
  | obj fields =>
      simp only [checkModel] at h
      cases hitems : Python.getD fields "items" (.arr []) with
      | arr items =>
          simp only [hitems] at h
          split_ifs at h with hdicts
          · cases h
          · refine ⟨fields, items, rfl, hitems, fun item hmem hscope ↦ ?_⟩
            exact checkItems_accepted py h item
              (List.mem_filter.mpr ⟨Json.mem_objects.mpr hmem, hscope⟩)
      | _ =>
          rw [hitems] at h
          cases h
  | _ => cases h

end AgenticSDLC.EvidenceGate
