import AgenticSDLC.Foundations.Html
import AgenticSDLC.Plane.McpTools

/-!
# Provisioning a workspace

`plane-integration/provision_plane.py`: the epics, stories and tasks of a backlog become work items
under external ids of their own, and a state file maps each of them to the id of its item.  A run
can be stopped at any request and at any write of the file, whether these have happened or not.
-/

namespace AgenticSDLC.Provision

open Effects
open PlaneMcpServer (HttpRequest Response addState sameKey start)
open Python (Exception)

structure Env where
  repr : Json → String
  toFloat : String → Json
  decodeError : String → String
  apiBase : String
  pbase : String
  /-- How many pages of a list are read before the run is stopped. -/
  patience : ℕ

/-! ## The backlog -/

structure Ears where
  pattern : Option String
  text : Option String

structure Task where
  title : Option String
  category : Option String
  subtasks : List String

structure Story where
  key : String
  title : String
  epicId : String
  ears : List Ears
  acceptanceCriteria : List String
  requirementId : Option String
  agentRole : Option String
  coverageType : Option String
  state : Option String
  labels : List String
  tasks : List Task

structure Epic where
  epicId : String
  title : String

/-- The states have a name, a group and a meaning. -/
structure Vocab where
  states : List (String × String × String)
  labels : List String

structure Backlog where
  vocab : Vocab
  epics : List Epic
  stories : List Story

/-! ## Sessions -/

/-- `ST`: the ids that are known, by their keys. -/
structure State where
  states : List (String × Json)
  labels : List (String × Json)
  issues : List (String × Json)

inductive StateFile
  | absent
  | unreadable
  | holds (st : State)

/-- A write of the state file can be stopped before it, in it, and behind it. -/
inductive SaveFate
  | done
  | missed (exc : Exception)
  | torn (exc : Exception)
  | behind (exc : Exception)

/-- A work item, as far as it matters here. -/
structure Item where
  id : Json
  externalId : Json
  parent : Json

/-- What answers the requests, and how many answers `429` a call sits out before its deadline. -/
structure Service (W : Type) where
  answer : HttpRequest → W → Response × W
  save : W → SaveFate × W
  waits : W → ℕ
  items : W → List Item

inductive Failure
  | api (code : ℕ) (message : String) (body : Option String)
  | raised (exc : Exception)

structure Session (W : Type) where
  board : W
  sent : List HttpRequest
  st : State
  file : StateFile

abbrev Effect (W α : Type) := EStateM Failure (Session W) α

section Requests

variable {W : Type} (env : Env) (service : Service W)

def raising {α : Type} (x : Except Exception α) : Except Failure α := x.mapError .raised

def Session.asked (request : HttpRequest) (s : Session W) : Session W :=
  { s with board := (service.answer request s.board).2, sent := s.sent ++ [request] }

def send (request : HttpRequest) : Effect W Response := fun s ↦
  .ok (service.answer request s.board).1 (s.asked service request)

/-- The rest of the attempts; a call that is asked to wait does not use one up. -/
def attempts (method path : String) (body : Option Json) (retries waits : ℕ) (last : Failure) :
    Effect W Json :=
  match retries with
  | 0 => throw last
  | retries + 1 => do
      match ← send service ⟨method, env.apiBase ++ path, body⟩ with
      | .body _ raw =>
          if raw = "" then return .null
          else
            match Json.loads env.toFloat raw with
            | some value => return value
            | none => throw (.raised ⟨"JSONDecodeError", env.decodeError raw⟩)
      | .httpError code text =>
          let txt := start 400 text
          let last := .api code (method ++ " " ++ path ++ " -> " ++ toString code ++ ": " ++ txt)
            (some txt)
          if code = 429 then
            match waits with
            | 0 => throw last
            | waits + 1 => attempts method path body (retries + 1) waits last
          else if 500 ≤ code ∧ code < 600 then attempts method path body retries waits last
          else throw last
      | .urlError text =>
          attempts method path body retries waits
            (.api 0 (method ++ " " ++ path ++ " -> URLError " ++ text) none)
      | .raises exc => throw (.raised exc)
termination_by (retries, waits)

def api (method path : String) (body : Option Json) : Effect W Json := do
  let s ← get
  attempts env service method path body 8 (service.waits s.board) (.api 0 "" none)

/-- A page of a list, and the cursor of the next one if there is one. -/
def pageOf : Json → Except Exception (List Json × Option Json)
  | .obj page =>
      match page.lookup "results" with
      | none => return ([], none)
      | some results => do
          let out ← Python.iterate results
          let next := Python.get page "next_cursor"
          let more := Python.truthy (Python.get page "next_page_results") && Python.truthy next
          return (out, if more then some next else none)
  | .arr items => return (items, none)
  | _ => return ([], none)

/-- The rest of the loop of `paged`. -/
def readPages (path : String) : ℕ → String → List Json → Effect W (List Json)
  | 0, _, _ => throw (.raised ⟨"KeyboardInterrupt", ""⟩)
  | rounds + 1, cursor, out => do
      let d ← api env service "GET" cursor none
      match ← raising (pageOf d) with
      | (results, none) => return out ++ results
      | (results, some next) =>
          let sep := if '?' ∈ path.toList then "&" else "?"
          readPages path rounds (path ++ sep ++ "cursor=" ++ Python.str env.repr next)
            (out ++ results)

def paged (path : String) : Effect W (List Json) :=
  readPages env service path env.patience path []

def saveState : Effect W Unit := fun s ↦
  let (fate, board) := service.save s.board
  match fate with
  | .done => .ok () { s with board, file := .holds s.st }
  | .missed exc => .error (.raised exc) { s with board }
  | .torn exc => .error (.raised exc) { s with board, file := .unreadable }
  | .behind exc => .error (.raised exc) { s with board, file := .holds s.st }

end Requests

/-! ## Descriptions -/

def esc (s : Option String) : String :=
  String.ofList ((s.getD "").toList.flatMap Html.escapeMarkup)

def earsHtml (ears : List Ears) : String :=
  if ears = [] then ""
  else "<p><b>EARS requirements</b></p><ul>" ++
    String.join (ears.map fun e ↦ "<li><b>[" ++ esc e.pattern ++ "]</b> " ++ esc e.text ++ "</li>") ++
      "</ul>"

def listHtml (title : String) (lines : List String) : String :=
  if lines = [] then ""
  else "<p><b>" ++ title ++ "</b></p><ul>" ++
    String.join (lines.map fun a ↦ "<li>" ++ esc (some a) ++ "</li>") ++ "</ul>"

def metaOf (s : Story) : List (String × Option String) :=
  [("epic", some s.epicId), ("requirement_id", s.requirementId), ("agent_role", s.agentRole),
    ("evidence_status", some "unproven"), ("coverage_type", s.coverageType), ("state", s.state),
    ("key", some s.key)]

def storyHtml (s : Story) : String :=
  earsHtml s.ears ++ listHtml "Acceptance criteria" s.acceptanceCriteria ++
    "<p><b>Control metadata</b></p><ul>" ++
      String.join ((metaOf s).map fun (k, v) ↦
        if v.getD "" = "" then ""
        else "<li><code>" ++ esc (some k) ++ "</code>: " ++ esc v ++ "</li>") ++ "</ul>"

def taskHtml (t : Task) : String :=
  "<p><b>Category:</b> " ++ esc t.category ++ "</p>" ++ listHtml "Subtasks" t.subtasks

/-! ## Work items -/

def externalSource : String := "ascp-kiro"

structure Issue where
  key : String
  name : String
  html : String
  state : Json
  labels : List Json
  parent : Json
  priority : String

def Issue.body (issue : Issue) : List (String × Json) :=
  [("name", .str (start 250 issue.name)),
    ("description_html", .str (if issue.html = "" then "<p></p>" else issue.html)),
    ("external_id", .str issue.key), ("external_source", .str externalSource),
    ("priority", .str issue.priority)] ++
    (if Python.truthy issue.state then [("state", issue.state)] else []) ++
      (if issue.labels = [] then [] else [("labels", .arr issue.labels)]) ++
        (if Python.truthy issue.parent then [("parent", issue.parent)] else [])

/-- `label_ids`. -/
def State.labelIds (st : State) (names : List String) : List Json :=
  names.filterMap fun n ↦ st.labels.lookup n

def priorityByLabel : List (String × String) :=
  [("priority:blocking", "urgent"), ("priority:high", "high"), ("priority:normal", "medium")]

def priorityOf (labels : List String) : String :=
  (labels.findSome? fun l ↦ priorityByLabel.lookup l).getD "none"

def epicKey (epicId : String) : String := "epic:" ++ epicId

def storyKey (key : String) : String := "story:" ++ key

def taskKey (story : String) (i : ℕ) : String := "task:" ++ story ++ "#" ++ toString i

def epicIssue (st : State) (e : Epic) : Issue where
  key := epicKey e.epicId
  name := "[" ++ e.epicId ++ "] " ++ e.title
  html := "<p>" ++ esc (some e.title) ++ "</p>"
  state := Python.get st.states "Agent-Triaged"
  labels := st.labelIds ["priority:high"]
  parent := .null
  priority := "high"

/-- `ST["states"].get(name)`. -/
def State.stateOf (st : State) (name : Option String) : Json :=
  (name.bind fun name ↦ st.states.lookup name).getD .null

def storyIssue (st : State) (s : Story) : Issue where
  key := storyKey s.key
  name := s.key ++ ": " ++ s.title
  html := storyHtml s
  state := if Python.truthy (st.stateOf s.state) then st.stateOf s.state
    else Python.get st.states "Agent-Triaged"
  labels := st.labelIds s.labels
  parent := Python.get st.issues (epicKey s.epicId)
  priority := priorityOf s.labels

def categoryLabel : List (String × String) :=
  [("Infrastructure", "phase:0"), ("API", "phase:1"), ("Orchestration", "phase:2")]

def taskIssue (st : State) (s : Story) (parent : Json) (i : ℕ) (t : Task) : Issue where
  key := taskKey s.key i
  name := s.key ++ "." ++ toString (i + 1) ++ " " ++ t.title.getD "None"
  html := taskHtml t
  state := Python.get st.states "Backlog"
  labels := st.labelIds
    [(t.category.bind fun category ↦ categoryLabel.lookup category).getD "phase:0"]
  parent := parent
  priority := "none"

/-- `re.search` for the pattern of an opening brace, anything, and a closing brace: from the first
of them that has one behind it on its line up to the last one there. -/
def braced : List Char → Option (List Char)
  | [] => none
  | c :: text =>
      let line := text.takeWhile fun d ↦ d ≠ '\n'
      if c = '\x7b' ∧ '\x7d' ∈ line then
        some (c :: (line.reverse.dropWhile fun d ↦ d ≠ '\x7d').reverse)
      else braced text

section Provisioning

variable {W : Type} (env : Env) (service : Service W)

/-- The id that a refusal names. -/
def adopted (refusal : Failure) (text : String) : Except Failure Json :=
  match braced text.toList with
  | none => throw refusal
  | some found =>
      match Json.loads env.toFloat (String.ofList found) with
      | none => throw (.raised ⟨"JSONDecodeError", env.decodeError (String.ofList found)⟩)
      | some value => do
          let fields ← raising (Python.asDict value)
          let iid := Python.get fields "id"
          if Python.truthy iid then return iid else throw refusal

/-- An item that cannot be created because it is there is adopted. -/
def onConflict (failure : Failure) : Except Failure Json :=
  match failure with
  | .api 409 message body =>
      let text := body.getD ""
      adopted env failure (if text = "" then message else text)
  | failure => throw failure

/-- The request for an item, and the id of it. -/
def requestIssue (issue : Issue) : Effect W Json := do
  let r ← api env service "POST" (env.pbase ++ "/work-items/") (some (.obj issue.body))
  raising (Python.subscript r "id")

/-- Create an item, or adopt the one that has its external id. -/
def postIssue (issue : Issue) : Effect W Json :=
  tryCatch (requestIssue env service issue) fun failure ↦ liftM (onConflict env failure)

def State.setIssue (key : String) (iid : Json) (st : State) : State :=
  { st with issues := Dict.set key iid st.issues }

/-- `create_issue`. -/
def createIssue (issue : Issue) : Effect W Json := do
  match (← get).st.issues.lookup issue.key with
  | some iid => return iid
  | none =>
      let iid ← postIssue env service issue
      modify fun s ↦ { s with st := s.st.setIssue issue.key iid }
      saveState service
      return iid

/-- `{x["name"]: x["id"] for x in paged(path)}`. -/
def readNames (path : String) : Effect W (List (Json × Json)) := do
  let rows ← paged env service path
  raising (rows.foldlM addState [])

/-- The id of what bears the name. -/
def named (existing : List (Json × Json)) (name : String) : Option Json :=
  (existing.find? fun entry ↦ sameKey (.str name) entry.1).map Prod.snd

def stateGroupColor : List (String × Json) :=
  [("backlog", .str "#94a3b8"), ("unstarted", .str "#6366f1"), ("started", .str "#f59e0b"),
    ("completed", .str "#10b981"), ("cancelled", .str "#ef4444")]

def labelColor (name : String) : String :=
  let p := String.ofList (name.toList.takeWhile fun c ↦ c ≠ ':')
  ([("agent", "#2563eb"), ("priority", "#f97316"), ("type", "#14b8a6"), ("gate", "#a855f7"),
    ("phase", "#64748b")].lookup p).getD "#ef4444"

/-- A round of the loop of `ensure_states`. -/
def ensureState (existing : List (Json × Json)) (entry : String × String × String) :
    Effect W Unit := do
  let (name, group, meaning) := entry
  let set (id : Json) : Effect W Unit :=
    modify fun s ↦ { s with st := { s.st with states := Dict.set name id s.st.states } }
  match named existing name with
  | some id => set id
  | none =>
      if ((← get).st.states.lookup name).isSome then return ()
      else
        let color ← raising (Python.subscript (.obj stateGroupColor) group)
        let r ← api env service "POST" (env.pbase ++ "/states/") (some (.obj [("name", .str name),
          ("group", .str group), ("color", color), ("description", .str meaning),
          ("external_id", .str ("state:" ++ name)), ("external_source", .str externalSource)]))
        set (← raising (Python.subscript r "id"))

def ensureStates (vocab : Vocab) : Effect W Unit := do
  let existing ← readNames env service (env.pbase ++ "/states/")
  vocab.states.forM (ensureState env service existing)
  saveState service

/-- A round of the loop of `ensure_labels`. -/
def ensureLabel (existing : List (Json × Json)) (name : String) : Effect W Unit := do
  let set (id : Json) : Effect W Unit :=
    modify fun s ↦ { s with st := { s.st with labels := Dict.set name id s.st.labels } }
  match named existing name with
  | some id => set id
  | none =>
      if ((← get).st.labels.lookup name).isSome then return ()
      else
        let r ← api env service "POST" (env.pbase ++ "/labels/") (some (.obj [("name", .str name),
          ("color", .str (labelColor name)), ("external_id", .str ("label:" ++ name)),
          ("external_source", .str externalSource)]))
        set (← raising (Python.subscript r "id"))

def ensureLabels (vocab : Vocab) : Effect W Unit := do
  let existing ← readNames env service (env.pbase ++ "/labels/")
  vocab.labels.forM (ensureLabel env service existing)
  saveState service

def ensureEpic (e : Epic) : Effect W Unit := do
  let s ← get
  let _ ← createIssue env service (epicIssue s.st e)
  return ()

def ensureEpics (epics : List Epic) : Effect W Unit := do
  epics.forM (ensureEpic env service)
  saveState service

def ensureStory (story : Story) : Effect W Unit := do
  let s ← get
  let _ ← createIssue env service (storyIssue s.st story)
  return ()

def ensureStories (stories : List Story) : Effect W Unit := do
  stories.forM (ensureStory env service)
  saveState service

/-- A task; after every twenty-fifth one the state is saved once more. -/
def ensureTask (story : Story) (parent : Json) (n : ℕ) (entry : Task × ℕ) : Effect W ℕ := do
  let s ← get
  let _ ← createIssue env service (taskIssue s.st story parent entry.2 entry.1)
  if (n + 1) % 25 = 0 then saveState service
  return n + 1

def ensureTasksOf (n : ℕ) (story : Story) : Effect W ℕ := do
  let parent := Python.get (← get).st.issues (storyKey story.key)
  if Python.truthy parent then
    story.tasks.zipIdx.foldlM (ensureTask env service story parent) n
  else return n

def ensureTasks (stories : List Story) : Effect W Unit := do
  let _ ← stories.foldlM (ensureTasksOf env service) 0
  saveState service

/-! ## Runs -/

def State.empty : State := ⟨[], [], []⟩

/-- `ST` as a run finds it. -/
def load : Effect W Unit := fun s ↦
  match s.file with
  | .absent => .ok () { s with st := State.empty }
  | .holds st => .ok () { s with st }
  | .unreadable => .error (.raised ⟨"JSONDecodeError", ""⟩) s

def when (only step : String) (m : Effect W Unit) : Effect W Unit :=
  if only = "all" ∨ only = step then m else return ()

def main (backlog : Backlog) (only : String) : Effect W Unit := do
  when only "states" (ensureStates env service backlog.vocab)
  when only "labels" (ensureLabels env service backlog.vocab)
  when only "epics" (ensureEpics env service backlog.epics)
  when only "stories" (ensureStories env service backlog.stories)
  when only "tasks" (ensureTasks env service backlog.stories)

def program (backlog : Backlog) (only : String) : Effect W Unit := do
  load
  main env service backlog only

/-- A run of the program for a backlog, and the loss of the state file. -/
inductive Act
  | run (backlog : Backlog) (only : String)
  | lose

def Session.step (s : Session W) : Act → Session W
  | .run backlog only => after (program env service backlog only) { s with sent := [] }
  | .lose => { s with file := .absent }

def Session.steps (s : Session W) (acts : List Act) : Session W :=
  acts.foldl (Session.step env service) s

end Provisioning

end AgenticSDLC.Provision
