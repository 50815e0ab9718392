import AgenticSDLC.Foundations.Rego

/-!
# The Rego merge policy

`.github/policies/coverage_query.rego`, which Conftest evaluates with the parsed
`feature_list.json` as its `input`.  A partial rule is the list of the messages
its body produces for one item; `deny` collects them over the in-scope items.
The messages quote their arguments with the `%q` verb, which the section takes
as given.
-/

namespace AgenticSDLC.CoverageQuery

open Rego

def evidenceFields : List String :=
  ["test_file", "test_name", "output_hash", "collected_at"]

def inScopeItems (input : Json) : List Json :=
  (membersOf (ref (some input) "items")).filter fun item ↦
    holds (eq (ref (some item) "in_scope") (some (.bool true)))

def normSession (value : Term) : Term :=
  match value with
  | none => none
  | some _ =>
      if holds (isString value) && holds (matchAscii (trimSpace value)) then
        lower (trimSpace value)
      else some (.str "")

def distinctSessions (ev : Term) : Bool :=
  let v := normSession (ref ev "verifier_session_id")
  let i := normSession (ref ev "implementer_session_id")
  holds (neq v (some (.str ""))) && holds (neq i (some (.str ""))) && holds (neq v i)

def fieldMissingOrEmpty (evidence : Term) (field : String) : Bool :=
  let value := ref evidence field
  negation value ||
    (holds (isString value) && holds (eq (trimSpace value) (some (.str "")))) ||
      (value.isSome && negation (isString value))

def isProven (item : Json) : Bool :=
  holds (eq (ref (some item) "status") (some (.str "proven")))

section Messages

variable (quote : Json → String)

def itemId (item : Json) : Term := objectGet (some item) "id" (.str "<no-id>")

def denyStatus (item : Json) : List String :=
  if holds (neq (ref (some item) "status") (some (.str "proven"))) then
    Option.toList do
      let id ← itemId item
      let status ← objectGet (some item) "status" (.str "<none>")
      return "Merge denied: in-scope item " ++ quote id ++ " has status=" ++
        quote status ++ " (not 'proven')."
  else []

def denyNoEvidence (item : Json) : List String :=
  if isProven item && negation (ref (some item) "evidence") then
    Option.toList do
      let id ← itemId item
      return "Merge denied: in-scope item " ++ quote id ++
        " is 'proven' but carries no Evidence_Record object."
  else []

def denyMissingField (item : Json) : List String :=
  if isProven item && holds (ref (some item) "evidence") then
    evidenceFields.flatMap fun field ↦
      if fieldMissingOrEmpty (ref (some item) "evidence") field then
        Option.toList do
          let id ← itemId item
          return "Merge denied: in-scope item " ++ quote id ++
            " is 'proven' but its Evidence_Record field " ++ quote (.str field) ++
            " is missing or empty."
      else []
  else []

def denySessions (item : Json) : List String :=
  if isProven item && holds (ref (some item) "evidence") &&
      !distinctSessions (ref (some item) "evidence") then
    Option.toList do
      let id ← itemId item
      return "Merge denied: in-scope item " ++ quote id ++
        " evidence lacks distinct verifier/implementer sessions" ++
        " (self-grading or missing provenance)."
  else []

def denyWiringKind (item : Json) : List String :=
  let kind := objectGet (ref (some item) "evidence") "evidence_kind" (.str "")
  if isProven item && holds (eq (ref (some item) "type") (some (.str "WIRING"))) &&
      holds (neq kind (some (.str "integration"))) then
    Option.toList do
      let id ← itemId item
      let evidence ← objectGet (some item) "evidence" (.obj [])
      let kind ← objectGet (some evidence) "evidence_kind" (.str "<none>")
      return "Merge denied: in-scope WIRING item " ++ quote id ++
        " is 'proven' but its Evidence_Record.evidence_kind is " ++ quote kind ++
        " (must be 'integration')."
  else []

def itemDenials (item : Json) : List String :=
  denyStatus quote item ++ denyNoEvidence quote item ++ denyMissingField quote item ++
    denySessions quote item ++ denyWiringKind quote item

/-- Rule 3, the only one that is not about one item. -/
def denyEmptyModel (input : Json) : List String :=
  if (inScopeItems input).length = 0 then
    ["Merge denied: feature_list.json has zero in-scope items. A zero-item coverage " ++
      "model is a valid INIT state but never a valid COMPLETE/merge state."]
  else []

def deny (input : Json) : List String :=
  (inScopeItems input).flatMap (itemDenials quote) ++ denyEmptyModel input

end Messages

/-- Only objects have a key `in_scope`. -/
theorem mem_inScopeItems {input item : Json} (h : item ∈ inScopeItems input) :
    ∃ members, item = .obj members ∧ members.lookup "in_scope" = some (.bool true) := by
  simp only [inScopeItems, List.mem_filter, eq_some, decide_eq_true_eq] at h
  obtain ⟨members, hitem, hlookup⟩ := exists_of_ref_eq_some h.2
  exact ⟨members, Option.some.inj hitem, hlookup⟩

theorem deny_ne_nil_iff (quote : Json → String) (input : Json) :
    deny quote input ≠ [] ↔
      inScopeItems input = [] ∨
        ∃ item ∈ inScopeItems input, itemDenials quote item ≠ [] := by
  by_cases hnil : inScopeItems input = []
  · simp [deny, denyEmptyModel, hnil]
  · simp [deny, denyEmptyModel, hnil]

end AgenticSDLC.CoverageQuery
