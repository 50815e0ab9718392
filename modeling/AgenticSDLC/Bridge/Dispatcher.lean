import AgenticSDLC.Foundations.Dict
import AgenticSDLC.Foundations.JsonLines
import AgenticSDLC.Foundations.Outcome

/-!
# The dispatcher

`plane-integration/dispatcher.py`: a drain reads the whole queue, invokes the agent of
every job whose key is not in the persisted seen set, and saves the set at its end.
What the agent answers, whether an audit row can be written, and in what order Python
lists a set are inputs of the drain.
-/

namespace AgenticSDLC.Dispatcher

open Python (Exception Stdlib)

def validRoles : List String := ["initializer", "implementer", "verifier"]

def seenCap : ℕ := 10000

abbrev Job := List (String × Json)

structure State where
  seen : List String
  attempts : List (String × ℕ)

structure AuditRow where
  event : String
  decision : String
  reason : String
  issueId : Json

/-- What happens to a job, by its key. -/
inductive Event where
  | invoked (key : String)
  | settled (key : String)
  deriving DecidableEq

/-- What a drain has in its hands, and what it has done so far. -/
structure Progress where
  seen : List String
  attempts : List (String × ℕ)
  dispatchedIds : List String
  dispatched : ℕ
  rows : List AuditRow
  log : List Event

/-- How an agent's invocation ends: by a result, by an exception, or by one that is
none to handle, such as an interrupt. -/
inductive Answer where
  | returns (result : Json)
  | raises (exc : Exception)
  | interrupts (exc : Exception)

/-- How the state file, or the baseline, is written. -/
inductive Save where
  | lands
  | fails (exc : Exception)
  /-- The file is cut off, and can no longer be read. -/
  | tears (exc : Exception)

/-- What one drain meets; jobs go by their place in the queue. -/
structure Drain where
  maxAttempts : ℕ
  answer : ℕ → Answer
  /-- The failure to write the row of an invocation that returned. -/
  allowAudit : ℕ → Option Exception
  /-- The failure to write the row of a refusal, a retry or a quarantine. -/
  blockAudit : ℕ → Option Exception
  listed : List String → List String
  listed_perm : ∀ seen, (listed seen).Perm seen
  save : Save
  baseline : Save

section Jobs

variable (py : Stdlib)

def jobKey (job : Job) : String :=
  let basis := "|".intercalate (["delivery", "issue_id", "state", "kind"].map fun k ↦
    Python.str py.repr (Python.getD job k (.str "")))
  String.ofList ((py.sha256 basis).toList.take 16)

def readJobs (toFloat : String → Json) (queue : String) : List Json :=
  (Text.splitlines queue.toList).filterMap fun line ↦
    let line := Python.strip (String.ofList line)
    if line = "" then none else Json.loads toFloat line

def loadState : Option State → State
  | some state => state
  | none => ⟨[], []⟩

/-- A step of the drain, or the exception that ends it. -/
abbrev Step := Except (Exception × Progress) Progress

def audit (failure : Option Exception) (decision reason : String) (issueId : Json)
    (progress : Progress) : Step :=
  match failure with
  | none => .ok { progress with
      rows := progress.rows ++ [⟨"Dispatch", decision, reason, issueId⟩] }
  | some exc => .error (exc, progress)

/-- `seen.add(key)`. -/
def settle (key : String) (progress : Progress) : Progress :=
  { progress with
    seen := if key ∈ progress.seen then progress.seen else progress.seen ++ [key]
    log := progress.log ++ [.settled key] }

/-- `attempts.pop(key, None)`. -/
def forgetAttempts (key : String) (progress : Progress) : Progress :=
  { progress with attempts := progress.attempts.filter fun item ↦ item.1 ≠ key }

/-- The body of the `try`: the progress, and the exception that it raised if any. -/
def invoke (drain : Drain) (n : ℕ) (role key : String) (issueId : Json) (progress : Progress) :
    Except (Exception × Progress) (Progress × Option Exception) :=
  let progress := { progress with log := progress.log ++ [.invoked key] }
  match drain.answer n with
  | .interrupts exc => .error (exc, progress)
  | .raises exc => .ok (progress, some exc)
  | .returns result =>
      match Python.asDict result with
      | .error exc => .ok (progress, some exc)
      | .ok result =>
          let reason := role ++ " <- issue " ++ Python.str py.repr issueId ++ " (" ++
            Python.str py.repr (Python.get result "mode") ++ "; plane_comment=" ++
            Python.str py.repr (Python.get result "plane_comment") ++ ")"
          match audit (drain.allowAudit n) "allow" reason issueId progress with
          | .error (exc, progress) => .ok (progress, some exc)
          | .ok progress =>
              let progress := forgetAttempts key (settle key progress)
              .ok ({ progress with
                dispatched := progress.dispatched + 1
                dispatchedIds := progress.dispatchedIds ++
                  if Python.truthy issueId then [Python.str py.repr issueId] else [] }, none)

/-- The `except` branch. -/
def countFailure (drain : Drain) (n : ℕ) (key : String) (issueId : Json) (exc : Exception)
    (progress : Progress) : Step :=
  let count := (progress.attempts.lookup key).getD 0 + 1
  let progress := { progress with attempts := Dict.set key count progress.attempts }
  if drain.maxAttempts ≤ count then do
    let reason := "quarantined after " ++ toString count ++ " attempts: " ++ exc.detail
    let progress ← audit (drain.blockAudit n) "block" reason issueId progress
    return forgetAttempts key (settle key progress)
  else
    let reason := "retry " ++ toString count ++ "/" ++ toString drain.maxAttempts ++ ": " ++
      exc.detail
    audit (drain.blockAudit n) "block" reason issueId progress

/-- `role not in VALID_ROLES`, as the role that it is. -/
def validRole (role : Json) : Except Exception (Option String) := do
  let _ ← Python.hashKey role
  match role with
  | .str role => return if role ∈ validRoles then some role else none
  | _ => return none

def processJob (drain : Drain) (n : ℕ) (line : Json) (progress : Progress) : Step :=
  match Python.asDict line with
  | .error exc => .error (exc, progress)
  | .ok job =>
      if Python.get job "kind" ≠ .str "agent_dispatch" then .ok progress
      else if jobKey py job ∈ progress.seen then .ok progress
      else
        let issueId := Python.get job "issue_id"
        match validRole (Python.get job "agent_role") with
        | .error exc => .error (exc, progress)
        | .ok none => do
            let reason := "unknown agent_role " ++ py.repr (Python.get job "agent_role")
            let progress ← audit (drain.blockAudit n) "block" reason issueId progress
            return settle (jobKey py job) progress
        | .ok (some role) => do
            match ← invoke py drain n role (jobKey py job) issueId progress with
            | (progress, none) => return progress
            | (progress, some exc) => countFailure drain n (jobKey py job) issueId exc progress

def processJobs (drain : Drain) : ℕ → List Json → Progress → Step
  | _, [], progress => .ok progress
  | n, line :: lines, progress => do
      let progress ← processJob py drain n line progress
      processJobs drain (n + 1) lines progress

end Jobs

/-! ## Drains -/

structure World where
  queue : String
  /-- The state file, if it can be read. -/
  state : Option State
  /-- The baseline's list, if it can be read. -/
  baseline : Option (List String)
  rows : List AuditRow
  log : List Event

def World.start : World := ⟨"", none, none, [], []⟩

inductive Action where
  /-- Text is appended to the queue. -/
  | append (text : String)
  | drain (drain : Drain)

section World

variable (py : Stdlib) (toFloat : String → Json)

def World.begin (world : World) : Progress :=
  ⟨(loadState world.state).seen, (loadState world.state).attempts, [], 0, world.rows, world.log⟩

def saveState (drain : Drain) (progress : Progress) : Option State :=
  some ⟨Python.lastItems seenCap (drain.listed progress.seen), progress.attempts⟩

/-- The world after the drain, and what it returns: the number of jobs dispatched. -/
def World.drain (world : World) (drain : Drain) : World × Except Exception ℕ :=
  match processJobs py drain 0 (readJobs toFloat world.queue) world.begin with
  | .error (exc, progress) => ({ world with rows := progress.rows, log := progress.log }, .error exc)
  | .ok progress =>
      let world := { world with rows := progress.rows, log := progress.log }
      match drain.save with
      | .fails exc => (world, .error exc)
      | .tears exc => ({ world with state := none }, .error exc)
      | .lands =>
          let world := { world with state := saveState drain progress }
          if progress.dispatchedIds = [] then (world, .ok progress.dispatched)
          else
            match drain.baseline with
            | .fails exc => (world, .error exc)
            | .tears exc => ({ world with baseline := none }, .error exc)
            | .lands => ({ world with baseline := some progress.dispatchedIds },
                .ok progress.dispatched)

def World.step (world : World) : Action → World
  | .append text => { world with queue := world.queue ++ text }
  | .drain drain => (world.drain py toFloat drain).1

def World.run (actions : List Action) : World := actions.foldl (World.step py toFloat) .start

end World

end AgenticSDLC.Dispatcher
