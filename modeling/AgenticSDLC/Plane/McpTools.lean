import AgenticSDLC.Foundations.Effects
import AgenticSDLC.Foundations.JsonIndent
import AgenticSDLC.Foundations.Patterns
import AgenticSDLC.Plane.PlaneMcp

/-!
# The tools of the MCP server

`plane-integration/plane_mcp_server.py`: the requests that each tool sends to the board, one
after another, and what it returns or raises.  The board may answer anything, also depending on
what it was asked before.
-/

namespace AgenticSDLC.PlaneMcpServer

open Python (Exception)
open PlaneClient (quoted)
open PlaneMcp (checkAuthority evidenceComment optionalField updatedFields)

/-- The interpreter's functions that the tools call, and `cfg()`. -/
structure Env where
  repr : Json → String
  lower : String → String
  upper : String → String
  int : Json → Except Exception ℤ
  toFloat : String → Json
  decodeError : String → String
  apiBase : String
  workspace : String
  project : Option String
  key : Option String
  credsPath : String

/-! ## Requests -/

structure HttpRequest where
  method : String
  url : String
  data : Option Json
  deriving DecidableEq

/-- How one request ends: with a body, or with an exception of `urlopen`. -/
inductive Response where
  | body (status : ℤ) (raw : String)
  | httpError (code : ℕ) (text : String)
  | urlError (text : String)
  | raises (exc : Exception)

/-- The answer to the last one of all requests so far. -/
abbrev Board := List HttpRequest → Response

/-- The requests so far, and `_states_cache`. -/
structure Session where
  sent : List HttpRequest
  states : Option (List (Json × Json))

def Session.start : Session := ⟨[], none⟩

abbrev Effect (α : Type) := EStateM Exception Session α

def start (n : ℕ) (text : String) : String := String.ofList (text.toList.take n)

/-- `_results`. -/
def results : Json → Json
  | .obj members => (members.lookup "results").getD (.obj members)
  | value => value

def optional : Option String → Json
  | none => .null
  | some s => .str s

section Api

variable (env : Env) (board : Board)

def send (request : HttpRequest) : Effect Response := fun s ↦
  let sent := s.sent ++ [request]
  .ok (board sent) { s with sent := sent }

/-- The rest of the attempts. -/
def attempts (method path : String) (body : Json) : ℕ → Option String → Effect Json
  | 0, lastErr => throw ⟨"RuntimeError",
      method ++ " " ++ path ++ ": exhausted retries (" ++ lastErr.getD "None" ++ ")"⟩
  | retries + 1, lastErr => do
      let data := if body = .null then none else some body
      match ← send board ⟨method, env.apiBase ++ path, data⟩ with
      | .body status raw =>
          if raw = "" then return .obj [("ok", .bool true), ("status", .int status)]
          else
            match Json.loads env.toFloat raw with
            | some value => return value
            | none => throw ⟨"JSONDecodeError", env.decodeError raw⟩
      | .httpError code text =>
          if code = 429 then attempts method path body retries lastErr
          else if 500 ≤ code ∧ code < 600 then
            attempts method path body retries (some (toString code ++ ": " ++ start 300 text))
          else throw ⟨"RuntimeError",
            method ++ " " ++ path ++ " -> " ++ toString code ++ ": " ++ start 400 text⟩
      | .urlError text => attempts method path body retries (some text)
      | .raises exc => throw exc

def api (method path : String) (body : Json) : Effect Json := attempts env board method path body 6 none

def pbase : String := "/workspaces/" ++ env.workspace ++ "/projects/" ++ env.project.getD "None"

/-! ## The states -/

def sameKey (a b : Json) : Bool := (Python.hashKey a).toOption = (Python.hashKey b).toOption

def setState (m : List (Json × Json)) (name id : Json) : List (Json × Json) :=
  if m.any fun entry ↦ sameKey name entry.1 then
    m.map fun entry ↦ if sameKey name entry.1 then (entry.1, id) else entry
  else m ++ [(name, id)]

def addState (m : List (Json × Json)) (s : Json) : Except Exception (List (Json × Json)) := do
  let name ← Python.subscript s "name"
  let id ← Python.subscript s "id"
  let _ ← Python.hashKey name
  return setState m name id

def statesMap : Effect (List (Json × Json)) := do
  match (← get).states with
  | some m => return m
  | none =>
      let answer ← api env board "GET" (pbase env ++ "/states/") .null
      let rows ← Python.iterate (results answer)
      let m ← (rows.foldlM addState [] : Except Exception (List (Json × Json)))
      modify fun s ↦ { s with states := some m }
      return m

def resolveState (nameOrId : Json) : Effect Json := do
  if !Python.truthy nameOrId then return .null
  else
    let m ← statesMap env board
    let _ ← Python.hashKey nameOrId
    match m.find? fun entry ↦ sameKey nameOrId entry.1 with
    | some entry => return entry.2
    | none => return nameOrId

/-! ## The tools -/

def tContext (_ : Json) : Effect Json := do
  let m ← statesMap env board
  let key := env.key.getD ""
  return .obj [("api_base", .str env.apiBase), ("workspace", .str env.workspace),
    ("project_id", optional env.project),
    ("token", if key = "" then .null else .str (start 10 key ++ "…redacted")),
    ("creds_file", .str env.credsPath), ("states", .arr (m.map Prod.fst)),
    ("note", .str "agent->board MCP surface; writes are real. Transition authority enforced.")]

def tListStates (_ : Json) : Effect Json := do
  return results (← api env board "GET" (pbase env ++ "/states/") .null)

/-- `value.lower()`. -/
def lowered : Json → Except Exception String
  | .str s => .ok (env.lower s)
  | value => .error (Python.noAttribute value "lower")

/-- The title has the text in it, or there is none to look for. -/
def titleHas (search : String) (fields : List (String × Json)) : Except Exception Bool :=
  if search = "" then return true
  else do
    let name ← lowered env (Python.getD fields "name" (.str ""))
    return decide (search.toList <:+: name.toList)

/-- The entry for a row of the answer, unless it is filtered out. -/
def listedIssue (sid : Json) (search : String) (it : Json) : Except Exception (Option Json) := do
  let fields ← Python.asDict it
  if Python.truthy sid && !Python.eq (Python.get fields "state") sid then return none
  else
    if ← titleHas env search fields then
      return some (.obj (["id", "name", "state", "priority", "sequence_id"].map fun field ↦
        (field, Python.get fields field)))
    else return none

/-- `values[:n]`. -/
def sliceTo {α : Type} (n : ℤ) (values : List α) : List α :=
  if 0 ≤ n then values.take n.toNat else values.take (values.length - n.natAbs)

def perPage (limit : Json) : Except Exception (List String) :=
  if Python.truthy limit then do
    let n ← env.int limit
    return ["per_page=" ++ toString n]
  else return []

/-- The query of the request for the work items. -/
def issuesQuery (fields : List (String × Json)) : Except Exception String := do
  let size ← perPage env (Python.get fields "limit")
  let cursor := Python.get fields "cursor"
  let q := size ++
    if Python.truthy cursor then ["cursor=" ++ Python.str env.repr cursor] else []
  return if q = [] then "" else "?" ++ "&".intercalate q

def tListIssues (a : Json) : Effect Json := do
  let fields ← Python.asDict a
  let qs ← issuesQuery env fields
  let rows := results (← api env board "GET" (pbase env ++ "/work-items/" ++ qs) .null)
  let wantState := Python.get fields "state"
  let wanted := Python.get fields "search"
  let search ← lowered env (if Python.truthy wanted then wanted else .str "")
  let sid ← resolveState env board wantState
  let items ← Python.iterate rows
  let listed ← (items.mapM (listedIssue env sid search) : Except Exception (List (Option Json)))
  let out := listed.reduceOption
  let n ← env.int (Python.getD fields "limit" (.int 50))
  return .obj [("count", .int out.length), ("items", .arr (sliceTo n out))]

def itemPath (issueId : Json) : String :=
  pbase env ++ "/work-items/" ++ Python.str env.repr issueId ++ "/"

def tGetIssue (a : Json) : Effect Json := do
  let issueId ← Python.subscript a "issue_id"
  api env board "GET" (itemPath env issueId) .null

/-- The entry `state` of a body, when the caller gives one. -/
def stateField (fields : List (String × Json)) : Effect (List (String × Json)) := do
  let state := Python.get fields "state"
  if !Python.truthy state then return []
  else
    let sid ← resolveState env board state
    return [("state", sid)]

def tCreateIssue (a : Json) : Effect Json := do
  let name ← Python.subscript a "name"
  let fields ← Python.asDict a
  let state ← stateField env board fields
  api env board "POST" (pbase env ++ "/work-items/") (.obj ([("name", name)] ++
    optionalField fields "description_html" "description_html" ++
    optionalField fields "priority" "priority" ++ state ++
    optionalField fields "assignee_ids" "assignees"))

def tUpdateIssue (a : Json) : Effect Json := do
  let fields ← Python.asDict a
  let state ← stateField env board fields
  let body := updatedFields fields ++ state
  if body = [] then throw ⟨"ValueError", "no updatable fields provided"⟩
  else
    let issueId ← Python.subscript a "issue_id"
    api env board "PATCH" (itemPath env issueId) (.obj body)

def tTransition (a : Json) : Effect Json := do
  let toState ← Python.subscript a "to_state"
  let role ← Python.subscript a "actor_role"
  checkAuthority env.repr toState role
  let sid ← resolveState env board toState
  if !Python.truthy sid then
    throw ⟨"KeyError", env.repr (.str ("state " ++ quoted (Python.str env.repr toState) ++
      " not found on project"))⟩
  else
    let issueId ← Python.subscript a "issue_id"
    api env board "PATCH" (itemPath env issueId) (.obj [("state", sid)])

def postComment (issueId comment : Json) : Effect Json :=
  api env board "POST" (itemPath env issueId ++ "comments/") (.obj [("comment_html", comment)])

def tAddComment (a : Json) : Effect Json := do
  let issueId ← Python.subscript a "issue_id"
  let comment ← Python.subscript a "comment_html"
  postComment env board issueId comment

def tPostEvidence (a : Json) : Effect Json := do
  let fields ← Python.asDict a
  let role := Python.getD fields "actor_role" (.str "verifier")
  let testFile ← Python.subscript a "test_file"
  let testName ← Python.subscript a "test_name"
  let outputHash ← Python.subscript a "output_hash"
  let collectedAt ← Python.subscript a "collected_at"
  let issueId ← Python.subscript a "issue_id"
  let text := Python.str env.repr
  postComment env board issueId (.str (evidenceComment (text role) (text testFile)
    (text testName) (text outputHash) (text collectedAt)))

/-- `t_list_cycles` and `t_list_modules`. -/
def listAll (collection : String) (_ : Json) : Effect Json := do
  return results (← api env board "GET" (pbase env ++ "/" ++ collection ++ "/") .null)

/-- `t_assign_cycle` and `t_assign_module`. -/
def assignTo (collection key members : String) (a : Json) : Effect Json := do
  let target ← Python.subscript a key
  let issues ← Python.subscript a "issue_ids"
  api env board "POST" (pbase env ++ "/" ++ collection ++ "/" ++ Python.str env.repr target ++
    "/" ++ members ++ "/") (.obj [("issues", issues)])

/-- `value` as a string with the method `name`. -/
def stringWith (name : String) : Json → Except Exception String
  | .str s => .ok s
  | value => .error (Python.noAttribute value name)

def substitute (old new text : String) : String :=
  String.ofList (Patterns.replace old.toList new.toList text.toList)

def tRequest (a : Json) : Effect Json := do
  let path ← Python.subscript a "path"
  let path ← stringWith "replace" path
  let path := substitute "\x7bworkspace\x7d" env.workspace
    (substitute "\x7bproject\x7d" (env.project.getD "") path)
  let path := if path.toList.head? = some '/' then path else "/" ++ path
  let method ← Python.subscript a "method"
  let method ← stringWith "upper" method
  let fields ← Python.asDict a
  api env board (env.upper method) path (Python.get fields "body")

end Api

end AgenticSDLC.PlaneMcpServer
