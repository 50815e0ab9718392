import AgenticSDLC.Foundations.Runs
import AgenticSDLC.Plane.PlaneClient

/-!
# The MCP surface of the board

`plane-integration/plane_mcp_server.py`.  A tool call is turned into one request
to the board; the tools that only read are modelled by their request alone.  The
raw `plane_request` tool is not among the calls.
-/

namespace AgenticSDLC.PlaneMcp

open Python (Exception)
open PlaneClient

/-- A project as the service keeps it: the ids are no names of states, and a new
item without a state starts in a default one that is not Done. -/
structure Project extends Board where
  defaultId : String
  ids_unlisted : ∀ row ∈ rows, row.2 ∉ listedStates
  default_ne_done : toBoard.stateOf ⟨"", defaultId, []⟩ ≠ some .done

inductive Request where
  | get (path : String)
  | createItem (body : List (String × Json))
  | patchItem (issueId : String) (body : List (String × Json))
  | commentItem (issueId : String) (body : Json)
  | post (path : String) (body : List (String × Json))
  deriving DecidableEq

def Project.idNamed (project : Project) (name : String) : Option String :=
  (project.rows.find? fun row ↦ row.1.name = name).map Prod.snd

/-- `_ in m` hashes its left side; what is no name is taken for an id. -/
def resolveState (project : Project) (nameOrId : Json) : Except Exception Json := do
  if !Python.truthy nameOrId then return .null
  else
    let _ ← Python.hashKey nameOrId
    match nameOrId with
    | .str name => return .str ((project.idNamed name).getD name)
    | other => return other

/-- `TRANSITION_AUTH.get(to_state)`; the table is the client's. -/
def authority (toState : String) : Option (List Role) :=
  ((State.all.find? fun state ↦ state.name = toState).map transitionAuth).filter (· ≠ [])

section Handlers

variable (repr : Json → String) (project : Project)

/-- The entry `target: a[key]` of a body, when `a.get(key)` is truthy. -/
def optionalField (fields : List (String × Json)) (key target : String) :
    List (String × Json) :=
  let value := Python.get fields key
  if Python.truthy value then [(target, value)] else []

/-- The entry `state` of a body, when the caller gives one. -/
def stateField (fields : List (String × Json)) : Except Exception (List (String × Json)) := do
  let state := Python.get fields "state"
  if !Python.truthy state then return []
  else
    let sid ← resolveState project state
    return [("state", sid)]

def tCreateIssue (a : Json) : Except Exception Request := do
  let name ← Python.subscript a "name"
  let fields ← Python.asDict a
  let state ← stateField project fields
  return .createItem ([("name", name)] ++
    optionalField fields "description_html" "description_html" ++
    optionalField fields "priority" "priority" ++ state ++
    optionalField fields "assignee_ids" "assignees")

def updatedFields (fields : List (String × Json)) : List (String × Json) :=
  ["name", "description_html", "priority"].flatMap fun key ↦
    let value := Python.get fields key
    if value ≠ .null then [(key, value)] else []

def tUpdateIssue (a : Json) : Except Exception Request := do
  let fields ← Python.asDict a
  let state ← stateField project fields
  let body := updatedFields fields ++ state
  if body = [] then throw ⟨"ValueError", "no updatable fields provided"⟩
  else
    let issueId ← Python.subscript a "issue_id"
    return .patchItem (Python.str repr issueId) body

/-- The checks of `t_transition`: the target has an entry and the role is in it.
There is no check of the edge. -/
def checkAuthority (toState role : Json) : Except Exception Unit := do
  let _ ← Python.hashKey toState
  match toState with
  | .str name =>
      match authority name with
      | none => throw ⟨"ValueError", "unknown target state " ++ quoted name⟩
      | some allowed =>
          let _ ← Python.hashKey role
          if allowed.all fun r ↦ role ≠ .str r.name then
            throw ⟨"PermissionError", "actor " ++ quoted (Python.str repr role) ++
              " may not set " ++ quoted name ++ " (allowed: " ++
              sortedNames (allowed.map Role.name) ++ ")"⟩
  | _ => throw ⟨"ValueError", "unknown target state " ++ quoted (repr toState)⟩

def tTransition (a : Json) : Except Exception Request := do
  let toState ← Python.subscript a "to_state"
  let role ← Python.subscript a "actor_role"
  checkAuthority repr toState role
  let sid ← resolveState project toState
  if !Python.truthy sid then
    throw ⟨"KeyError", "state " ++ quoted (Python.str repr toState) ++ " not found on project"⟩
  else
    let issueId ← Python.subscript a "issue_id"
    return .patchItem (Python.str repr issueId) [("state", sid)]

def tAddComment (a : Json) : Except Exception Request := do
  let issueId ← Python.subscript a "issue_id"
  let body ← Python.subscript a "comment_html"
  return .commentItem (Python.str repr issueId) body

/-- The comment of `t_post_evidence`, whose values are not escaped. -/
def evidenceComment (role testFile testName outputHash collectedAt : String) : String :=
  "<p><b>Evidence_Record</b> (actor: " ++ role ++ ")</p><ul>" ++
    "<li><code>test_file</code>: " ++ testFile ++
    "</li><li><code>test_name</code>: " ++ testName ++ "</li>" ++
    "<li><code>output_hash</code>: " ++ outputHash ++
    "</li><li><code>collected_at</code>: " ++ collectedAt ++ "</li></ul>"

def tPostEvidence (a : Json) : Except Exception Request := do
  let fields ← Python.asDict a
  let role := Python.getD fields "actor_role" (.str "verifier")
  let testFile ← Python.subscript a "test_file"
  let testName ← Python.subscript a "test_name"
  let outputHash ← Python.subscript a "output_hash"
  let collectedAt ← Python.subscript a "collected_at"
  let issueId ← Python.subscript a "issue_id"
  let text := Python.str repr
  return .commentItem (text issueId) (.str (evidenceComment (text role) (text testFile)
    (text testName) (text outputHash) (text collectedAt)))

def tGetIssue (a : Json) : Except Exception Request := do
  let issueId ← Python.subscript a "issue_id"
  return .get ("/work-items/" ++ Python.str repr issueId ++ "/")

/-- `t_assign_cycle` and `t_assign_module`. -/
def assignTo (a : Json) (collection key members : String) : Except Exception Request := do
  let target ← Python.subscript a key
  let issues ← Python.subscript a "issue_ids"
  return .post ("/" ++ collection ++ "/" ++ Python.str repr target ++ "/" ++ members ++ "/")
    [("issues", issues)]

def unknownTool (name : String) : Exception := ⟨"-32602", "unknown tool " ++ quoted name⟩

/-- `TOOLS[name]` applied to the arguments. -/
def callTool (name : String) (a : Json) : Except Exception Request :=
  match name with
  | "plane_context" => .ok (.get "/states/")
  | "plane_list_states" => .ok (.get "/states/")
  | "plane_list_issues" => .ok (.get "/work-items/")
  | "plane_get_issue" => tGetIssue repr a
  | "plane_create_issue" => tCreateIssue project a
  | "plane_update_issue" => tUpdateIssue repr project a
  | "plane_transition" => tTransition repr project a
  | "plane_add_comment" => tAddComment repr a
  | "plane_post_evidence" => tPostEvidence repr a
  | "plane_list_cycles" => .ok (.get "/cycles/")
  | "plane_list_modules" => .ok (.get "/modules/")
  | "plane_assign_cycle" => assignTo repr a "cycles" "cycle_id" "cycle-issues"
  | "plane_assign_module" => assignTo repr a "modules" "module_id" "module-issues"
  | _ => .error (unknownTool name)

/-! ## The board behind the tools -/

abbrev Items := String → Option Item

/-- A `tools/call` message, with what the service does about its request: serve
it or not, and the id it gives to a new item. -/
structure ToolCall where
  name : String
  arguments : Json
  served : Bool
  assignedId : String
  not_raw : name ≠ "plane_request"

/-- The state id a body asks for, if the service accepts it. -/
def acceptedState (body : List (String × Json)) (current : String) : Option String :=
  match body.lookup "state" with
  | none => some current
  | some (.str sid) => if (project.id2state sid).isSome then some sid else none
  | some _ => none

def serve (items : Items) (assignedId : String) (request : Request) : Items :=
  match request with
  | .createItem body =>
      match items assignedId, acceptedState project body project.defaultId with
      | none, some sid => Function.update items assignedId (some ⟨assignedId, sid, []⟩)
      | _, _ => items
  | .patchItem issueId body =>
      match items issueId with
      | none => items
      | some item =>
          match acceptedState project body item.stateId with
          | some sid => Function.update items issueId (some { item with stateId := sid })
          | none => items
  | .commentItem issueId body =>
      match items issueId with
      | some item =>
          Function.update items issueId (some (item.comment (Python.str repr body)))
      | none => items
  | .get _ | .post _ _ => items

/-- `params.get("arguments") or {}`. -/
def ToolCall.args (call : ToolCall) : Json :=
  if Python.truthy call.arguments then call.arguments else .obj []

/-- A tool that raises answers with an error and asks nothing of the board. -/
def handleCall (items : Items) (call : ToolCall) : Items :=
  match callTool repr project call.name call.args with
  | .ok request => if call.served then serve repr project items call.assignedId request else items
  | .error _ => items

def stateAt (items : Items) (id : String) : Option State :=
  (items id).bind project.stateOf

end Handlers

end AgenticSDLC.PlaneMcp
