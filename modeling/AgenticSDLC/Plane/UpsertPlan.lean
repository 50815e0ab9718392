import AgenticSDLC.Coverage.ModelFingerprint
import AgenticSDLC.Foundations.Html
import AgenticSDLC.Plane.McpTools
import AgenticSDLC.Plane.Pagination

/-!
# Applying an upsert plan

`plane-integration/apply_upsert_plan.py`: the operations of a plan are matched with the items of
the board by their external ids; what matches is updated, and the rest is created.  The service
may answer a request in any way, and may act on a request that it answers with an error.
-/

namespace AgenticSDLC.UpsertPlan

open Pagination (byExt pagePath)
open PlaneMcpServer (HttpRequest Response addState sameKey setState start stringWith)
open Python (Exception Key)

/-- What the interpreter brings along, and the configuration.  A set is iterated in an order of
its own. -/
structure Env where
  repr : Json → String
  toFloat : String → Json
  decodeError : String → String
  keyOrder : List String → List String
  idOrder : List Json → List Json
  apiBase : String
  pbase : String
  apply : Bool

/-- An operation of the plan. -/
structure Op where
  op : Option String
  id : Option String
  supersedes : Option String
  matchKey : Option String
  additionalMatchKeys : List String
  targetName : Option String
  name : Option String
  descriptionHtml : Option String
  acceptanceCriteria : List String
  state : Option String
  labels : List String
  priority : Option String
  epicModule : Option String
  phaseCycle : Option String

/-- How the service answers a request and goes on, and the work items that it lists. -/
structure Service (W : Type) where
  answer : HttpRequest → W → Response × W
  items : W → List Json

/-- A request with its answer; `grew` says that there are more work items afterwards. -/
structure Exchange where
  request : HttpRequest
  response : Response
  grew : Bool

/-- The counters of the summary. -/
structure Counts where
  upd : ℕ
  new : ℕ
  skipSup : ℕ
  skip : ℕ
  assignFail : ℕ
  err : ℕ

/-- The service, the exchanges so far, and the variables of `main` that its steps change. -/
structure Session (W : Type) where
  board : W
  exchanges : List Exchange
  labels : List (Json × Json)
  byExt : List (Key × Json)
  actions : List Json
  counts : Counts
  logFile : Option Json

abbrev Effect (W α : Type) := EStateM Exception (Session W) α

/-! ## Requests -/

section Api

variable {W : Type} (env : Env) (service : Service W)

/-- The session after a request. -/
def Session.sent (request : HttpRequest) (s : Session W) : Session W :=
  let (response, board) := service.answer request s.board
  let grew := decide ((service.items s.board).length < (service.items board).length)
  { s with board, exchanges := s.exchanges ++ [⟨request, response, grew⟩] }

def send (request : HttpRequest) : Effect W Response := fun s ↦
  .ok (service.answer request s.board).1 (s.sent service request)

/-- The rest of the attempts. -/
def attempts (method path : String) (body : Option Json) : ℕ → Effect W Json
  | 0 => throw ⟨"RuntimeError", method ++ " " ++ path ++ ": exhausted retries"⟩
  | retries + 1 => do
      match ← send service ⟨method, env.apiBase ++ path, body⟩ with
      | .body _ raw =>
          if raw = "" then return .null
          else
            match Json.loads env.toFloat raw with
            | some value => return value
            | none => throw ⟨"JSONDecodeError", env.decodeError raw⟩
      | .httpError code text =>
          if code = 429 then attempts method path body retries
          else if 500 ≤ code ∧ code < 600 then attempts method path body retries
          else throw ⟨"RuntimeError",
            method ++ " " ++ path ++ " -> " ++ toString code ++ ": " ++ start 300 text⟩
      | .urlError text =>
          if retries = 0 then
            throw ⟨"RuntimeError", method ++ " " ++ path ++ " -> connection failed: " ++ text⟩
          else attempts method path body retries
      | .raises exc => throw exc

/-- `_api`. -/
def api (method path : String) (body : Option Json) : Effect W Json :=
  attempts env service method path body 6

/-- The results on a page, and the cursor of the next one if there is one. -/
def pageOf (d : Json) : Except Exception (List Json × Option Json) := do
  let page ← Python.asDict d
  let results ← Python.iterate (Python.getD page "results" (.arr []))
  let next := Python.get page "next_cursor"
  let more := Python.truthy (Python.get page "next_page_results") && Python.truthy next
  return (results, if more then some next else none)

/-- The rest of the loop over the pages. -/
def readPages (path : String) : ℕ → Json → List Json → Effect W (List Json)
  | 0, _, out => return out
  | rounds + 1, cur, out => do
      match ← api env service "GET" (pagePath env.repr path cur) none with
      | .arr items => return out ++ items
      | d =>
          match ← pageOf d with
          | (results, none) => return out ++ results
          | (results, some next) => readPages path rounds next (out ++ results)

/-- `_paginate`. -/
def paginate (path : String) : Effect W (List Json) := readPages env service path 80 .null []

end Api

/-! ## The items an operation is for -/

/-- `text.replace(word, "", 1)`. -/
def dropFirst (word : List Char) : List Char → List Char
  | [] => []
  | c :: text => if word.isPrefixOf (c :: text) then (c :: text).drop word.length
      else c :: dropFirst word text

/-- The set of `_variants`. -/
def variants (mk : String) : List String :=
  if mk = "" then []
  else if "story:".toList.isPrefixOf mk.toList then
    let body := mk.toList.drop "story:".length
    let plain := "story:" ++ String.ofList (dropFirst "ASCP-".toList body)
    let tagged := if "ASCP-".toList.isPrefixOf body then []
      else ["story:ASCP-" ++ String.ofList body]
    ([mk, plain] ++ tagged).dedup
  else [mk]

/-- `resolve_one`. -/
def resolveOne (env : Env) (index : List (Key × Json)) (mk : String) : Json :=
  ((env.keyOrder (variants mk)).findSome? fun cand ↦ index.lookup (.str cand)).getD .null

/-- One round of the loop of `resolve_all`. -/
def addTarget (env : Env) (index : List (Key × Json)) (ids : List Json) (mk : String) :
    Except Exception (List Json) := do
  let tid := resolveOne env index mk
  if mk ≠ "" ∧ Python.truthy tid = true then
    let _ ← Python.hashKey tid
    return if ids.any (sameKey tid) then ids else ids ++ [tid]
  else return ids

/-- `resolve_all`. -/
def resolveAll (env : Env) (index : List (Key × Json)) (op : Op) :
    Except Exception (List Json) :=
  (op.matchKey.toList ++ op.additionalMatchKeys).foldlM (addTarget env index) []

/-- `re.sub(r'[^a-zA-Z0-9]+', '-', text)`, behind a run of other characters or not. -/
def dashed : Bool → List Char → List Char
  | _, [] => []
  | inRun, c :: text =>
      if c.isAlphanum then c :: dashed false text
      else if inRun then dashed true text
      else '-' :: dashed true text

def extSource : String := "ascp-audit-reorg"

/-- A text, unless it is missing or empty. -/
def given : Option String → Option String
  | some "" => none
  | text => text

/-- The external id of what an operation creates. -/
def extOf (op : Op) : String :=
  extSource ++ ":" ++ (given op.id).getD
    (String.ofList ((dashed false (op.targetName.getD "").toList).take 40))

/-! ## Bodies -/

abbrev Body := List (String × Json)

def priorityByLabel : List (String × String) :=
  [("priority:blocking", "urgent"), ("priority:high", "high"), ("priority:normal", "medium"),
    ("priority:low", "low"), ("priority:none", "none")]

def priorityRank : List (String × ℕ) :=
  [("none", 0), ("low", 1), ("medium", 2), ("high", 3), ("urgent", 4)]

/-- `PRIORITY_RANK.get(priority, 0)`. -/
def rankOf : Json → ℕ
  | .str priority => (priorityRank.lookup priority).getD 0
  | _ => 0

/-- `_ac_html`. -/
def acHtml (ac : List String) : String :=
  if ac = [] then ""
  else "<p><b>Acceptance criteria</b></p><ul>" ++
    String.join (ac.map fun x ↦ "<li>" ++ Html.escape x ++ "</li>") ++ "</ul>"

/-- `m.get(name)`. -/
def lookupName (m : List (Json × Json)) (name : Json) : Json :=
  ((m.find? fun entry ↦ sameKey name entry.1).map Prod.snd).getD .null

section Bodies

variable {W : Type} (env : Env) (service : Service W)

/-- The id of a label, which is created when it is missing. -/
def labelId (n : String) : Effect W Json := do
  let lid := lookupName (← get).labels (.str n)
  if !Python.truthy lid && env.apply then
    let made ← api env service "POST" (env.pbase ++ "/labels/") (some (.obj [("name", .str n)]))
    let lid ← Python.subscript made "id"
    modify fun s ↦ { s with labels := setState s.labels (.str n) lid }
    return lid
  else return lid

/-- `label_ids`. -/
def labelIds : List String → Effect W (List Json)
  | [] => return []
  | n :: names => do
      let lid ← labelId env service n
      let ids ← labelIds names
      return if Python.truthy lid then lid :: ids else ids

/-- The entries of a body that need no request. -/
def descriptionEntry (op : Op) : Body :=
  let text := op.descriptionHtml.getD "" ++ acHtml op.acceptanceCriteria
  if text = "" then [] else [("description_html", .str text)]

def stateEntry (states : List (Json × Json)) (op : Op) : Body :=
  match states.find? fun entry ↦ sameKey (PlaneMcpServer.optional op.state) entry.1 with
  | some entry => [("state", entry.2)]
  | none => []

def priorityEntry (op : Op) : Body :=
  match op.priority.bind fun label ↦ priorityByLabel.lookup label with
  | some priority => [("priority", .str priority)]
  | none => []

/-- `build_body`. -/
def buildBody (states : List (Json × Json)) (op : Op) : Effect W Body := do
  let lids ← labelIds env service op.labels
  return descriptionEntry op ++ stateEntry states op ++
    (if lids = [] then [] else [("labels", .arr lids)]) ++ priorityEntry op

/-- Put the elements of a list into a set. -/
def addIds (ids more : List Json) : Except Exception (List Json) :=
  more.foldlM (fun ids id ↦ do
    let _ ← Python.hashKey id
    return if ids.any (sameKey id) then ids else ids ++ [id]) ids

/-- `merge`, for the labels. -/
def mergeLabels (dst src : Body) : Except Exception Body := do
  match src.lookup "labels" with
  | none => return dst
  | some labels =>
      let old ← Python.iterate (Python.getD dst "labels" (.arr []))
      let new ← Python.iterate labels
      let ids ← addIds (← addIds [] old) new
      return Dict.set "labels" (.arr (env.idOrder ids)) dst

/-- `merge`, for the descriptions. -/
def mergeDescription (dst src : Body) : Body :=
  match Python.get src "description_html", Python.get dst "description_html" with
  | .str "", _ => dst
  | .str text, .str "" => Dict.set "description_html" (.str text) dst
  | .str text, .str old => Dict.set "description_html" (.str (old ++ "<hr>" ++ text)) dst
  | .str text, _ => Dict.set "description_html" (.str text) dst
  | _, _ => dst

def mergeState (dst src : Body) : Body :=
  let state := Python.get src "state"
  if Python.truthy state then Dict.set "state" state dst else dst

def mergePriority (dst src : Body) : Body :=
  let priority := Python.get src "priority"
  if Python.truthy priority ∧
      rankOf (Python.getD dst "priority" (.str "none")) ≤ rankOf priority then
    Dict.set "priority" priority dst
  else dst

/-- `merge`. -/
def merge (dst src : Body) : Except Exception Body := do
  let dst ← mergeLabels env dst src
  return mergePriority (mergeState (mergeDescription dst src) src) src

/-! ## What is to be done -/

/-- An entry of `updates`. -/
structure Update where
  tid : Json
  body : Body
  op : Op

/-- An entry of `creates`. -/
structure Create where
  op : Op
  ext : String
  body : Body

structure Planned where
  updates : List Update
  creates : List Create

/-- Merge a body into the entry of an item, which may be new. -/
def addUpdate (op : Op) (body : Body) (updates : List Update) (tid : Json) :
    Except Exception (List Update) := do
  let _ ← Python.hashKey tid
  if updates.any fun u ↦ sameKey tid u.tid then
    updates.mapM fun u ↦ do
      if sameKey tid u.tid then return { u with body := ← merge env u.body body } else return u
  else return updates ++ [⟨tid, ← merge env [] body, op⟩]

/-- The operations that another one supersedes. -/
def superseded (ops : List Op) : List String := ops.filterMap fun op ↦ given op.supersedes

def isSuperseded (ops : List Op) (op : Op) : Bool :=
  match op.id with
  | some id => decide (id ∈ superseded ops)
  | none => false

def count (f : Counts → Counts) : Effect W Unit := modify fun s ↦ { s with counts := f s.counts }

/-- One round of the loop over the operations. -/
def planOp (states : List (Json × Json)) (ops : List Op) (planned : Planned) (op : Op) :
    Effect W Planned :=
  if isSuperseded ops op then do
    count fun c ↦ { c with skipSup := c.skipSup + 1 }
    return planned
  else do
    let body ← buildBody env service states op
    let index := (← get).byExt
    match ← resolveAll env index op with
    | [] =>
        match index.lookup (.str (extOf op)) with
        | some tid =>
            return { planned with updates := ← addUpdate env op body planned.updates tid }
        | none => return { planned with creates := planned.creates ++ [⟨op, extOf op, body⟩] }
    | tids =>
        let updates ← (tids.foldlM (addUpdate env op body) planned.updates :
          Except Exception (List Update))
        return { planned with updates }

end Bodies

/-! ## Doing it -/

section Apply

variable {W : Type} (env : Env) (service : Service W)

def logAction (entry : List (String × Json)) : Effect W Unit :=
  modify fun s ↦ { s with actions := s.actions ++ [.obj entry] }

/-- `except RuntimeError`. -/
def exceptRuntimeError (m : Effect W Unit) (handler : Exception → Effect W Unit) :
    Effect W Unit :=
  tryCatch m fun exc ↦ if exc.name = "RuntimeError" then handler exc else throw exc

/-- The name of a module goes with the operation. -/
def inEpic (op : Op) (entry : Json × Json) : Except Exception Bool := do
  let n ← stringWith "split" entry.1
  let first := String.ofList (n.toList.takeWhile fun c ↦ c != ' ')
  return op.epicModule = some first ||
    ((given op.epicModule).getD "\x00").toList.isPrefixOf n.toList

def inPhase (op : Op) (entry : Json × Json) : Except Exception Bool :=
  ModelFingerprint.contains entry.1 (start 10 ((given op.phaseCycle).getD "\x00"))

/-- The cycle of an operation, by its name or by the start of it. -/
def cycleOf (cycles : List (Json × Json)) (op : Op) : Except Exception Json :=
  let cid := lookupName cycles (PlaneMcpServer.optional op.phaseCycle)
  if Python.truthy cid then return cid
  else do return ((← cycles.findM? (inPhase op)).map Prod.snd).getD .null

/-- Put an item into a module or a cycle, if there is one. -/
def addTo (collection members : String) (target iid : Json) : Effect W Unit :=
  if Python.truthy target then do
    let _ ← api env service "POST" (env.pbase ++ "/" ++ collection ++ "/" ++
      Python.str env.repr target ++ "/" ++ members ++ "/") (some (.obj [("issues", .arr [iid])]))
    return ()
  else return ()

/-- `assign`. -/
def assign (modules cycles : List (Json × Json)) (iid : Json) (op : Op) : Effect W Unit :=
  if !env.apply then return ()
  else do
    let found ← (modules.findM? (inEpic op) : Except Exception (Option (Json × Json)))
    let cid ← cycleOf cycles op
    let mid := (found.map Prod.snd).getD .null
    exceptRuntimeError
      (do
        addTo env service "modules" "module-issues" mid iid
        addTo env service "cycles" "cycle-issues" cid iid)
      fun exc ↦ do
        count fun c ↦ { c with assignFail := c.assignFail + 1 }
        logAction [("op", .str "assign-fail"), ("id", iid), ("error", .str (start 120 exc.detail))]

def fieldsOf (body : Body) : Json :=
  .arr ((Python.sortedBy id (body.map Prod.fst)).map Json.str)

/-- One round of the loop over the updates. -/
def applyUpdate (modules cycles : List (Json × Json)) (u : Update) : Effect W Unit :=
  exceptRuntimeError
    (do
      if env.apply && !u.body.isEmpty then
        let _ ← api env service "PATCH"
          (env.pbase ++ "/work-items/" ++ Python.str env.repr u.tid ++ "/") (some (.obj u.body))
      assign env service modules cycles u.tid u.op
      count fun c ↦ { c with upd := c.upd + 1 }
      logAction [("op", .str "update"), ("id", u.tid), ("name", PlaneMcpServer.optional u.op.targetName),
        ("fields", fieldsOf u.body)])
    fun exc ↦ do
      count fun c ↦ { c with err := c.err + 1 }
      logAction [("op", .str "update-fail"), ("id", u.tid), ("name", PlaneMcpServer.optional u.op.targetName),
        ("error", .str (start 160 exc.detail))]

/-- The body of the request that creates an item. -/
def createBody (states : List (Json × Json)) (c : Create) : Body :=
  Dict.setDefault "state" (lookupName states (.str "Backlog"))
    ([("name", PlaneMcpServer.optional ((given c.op.targetName).or c.op.name)), ("external_id", .str c.ext),
      ("external_source", .str extSource)] ++ c.body)

/-- `not r or "id" not in r`. -/
def lacksId (r : Json) : Except Exception Bool :=
  if !Python.truthy r then return true else do return !(← ModelFingerprint.contains r "id")

def created (c : Create) : Effect W Unit := do
  count fun n ↦ { n with new := n.new + 1 }
  logAction [("op", .str "create"), ("ext", .str c.ext), ("name", PlaneMcpServer.optional c.op.targetName),
    ("fields", fieldsOf c.body)]

/-- The rest of a round, with the answer to the request. -/
def afterCreate (modules cycles : List (Json × Json)) (c : Create) (r : Json) : Effect W Unit := do
  if ← lacksId r then
    logAction [("op", .str "create-fail"), ("ext", .str c.ext)]
    count fun n ↦ { n with err := n.err + 1 }
  else
    let id ← Python.subscript r "id"
    modify fun s ↦ { s with byExt := Dict.set (.str c.ext) id s.byExt }
    assign env service modules cycles id c.op
    created c

/-- One round of the loop over what is to be created. -/
def applyCreate (states modules cycles : List (Json × Json)) (c : Create) : Effect W Unit := do
  if ((← get).byExt.lookup (.str c.ext)).isSome then
    count fun n ↦ { n with skip := n.skip + 1 }
  else
    exceptRuntimeError
      (if env.apply then do
        let r ← api env service "POST" (env.pbase ++ "/work-items/")
          (some (.obj (createBody states c)))
        afterCreate env service modules cycles c r
      else created c)
      fun exc ↦ do
        count fun n ↦ { n with err := n.err + 1 }
        logAction [("op", .str "create-fail"), ("ext", .str c.ext),
          ("error", .str (start 160 exc.detail))]

/-- Write the log, whether what comes before raises or not. -/
def finallyLog (m : Effect W Unit) : Effect W Unit := fun s ↦
  let mode := if env.apply then "apply" else "dry-run"
  let write (s : Session W) : Session W :=
    { s with logFile := some (.obj [("mode", .str mode), ("actions", .arr s.actions)]) }
  match m s with
  | .ok a s => .ok a (write s)
  | .error exc s => .error exc (write s)

/-! ## A run -/

/-- `{x["name"]: x["id"] for x in _paginate(path)}`. -/
def readNames (path : String) : Effect W (List (Json × Json)) := do
  let rows ← paginate env service path
  (rows.foldlM addState [] : Except Exception (List (Json × Json)))

/-- The index by name, which nothing reads. -/
def checkNames (items : List Json) : Except Exception Unit :=
  items.forM fun w ↦ do
    let fields ← Python.asDict w
    let _ ← Python.subscript w "id"
    let _ ← Python.hashKey (Python.get fields "name")
    return ()

/-- The board as a run finds it. -/
structure Indexed where
  states : List (Json × Json)
  labels : List (Json × Json)
  modules : List (Json × Json)
  cycles : List (Json × Json)
  index : List (Key × Json)

/-- Indexing the live board. -/
def indexBoard : Effect W Indexed := do
  let states ← readNames env service (env.pbase ++ "/states/")
  let labels ← readNames env service (env.pbase ++ "/labels/")
  let modules ← readNames env service (env.pbase ++ "/modules/")
  let cycles ← readNames env service (env.pbase ++ "/cycles/")
  let items ← paginate env service (env.pbase ++ "/work-items/")
  let index ← byExt items
  checkNames items
  return ⟨states, labels, modules, cycles, index⟩

/-- The variables of a new run. -/
def Session.fresh (board : Indexed) (s : Session W) : Session W :=
  { s with labels := board.labels, byExt := board.index, actions := [], counts := ⟨0, 0, 0, 0, 0, 0⟩ }

/-- The two loops that change the board. -/
def applyPlanned (board : Indexed) (planned : Planned) : Effect W Unit := do
  planned.updates.forM (applyUpdate env service board.modules board.cycles)
  planned.creates.forM (applyCreate env service board.states board.modules board.cycles)

/-- `main`. -/
def main (ops : List Op) : Effect W Unit := do
  let board ← indexBoard env service
  modify (Session.fresh board)
  let planned ← ops.foldlM (planOp env service board.states ops) ⟨[], []⟩
  finallyLog env (applyPlanned env service board planned)

end Apply

end AgenticSDLC.UpsertPlan
