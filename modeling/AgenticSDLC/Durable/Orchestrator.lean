import AgenticSDLC.Foundations.JsonText
import AgenticSDLC.Foundations.Outcome
import AgenticSDLC.Foundations.Replay

/-!
# The durable orchestrator

`tools/durable_orchestrator.py`: activities under a bounded retry, workflows that
record their commands in an append-only history and replay them from it, and the
checkpoint blob a workflow is resumed from.  A payload is the JSON value that is
recorded, so a tuple of arguments is an array.
-/

namespace AgenticSDLC.DurableOrchestrator

open Python (Exception Stdlib)
open Replay (Answer Entry Program)

/-- The library the orchestrator is built on.  `loads` gives the text of the
`ValueError` for what is not JSON, and `intOfText` is `int` on strings. -/
structure Library extends Stdlib where
  loads : String → Except String Json
  intOfText : String → Option ℤ

/-! ## Terminal state and errors -/

structure Handoff where
  reason : String
  activity : Option String
  attempts : Option ℤ
  lastError : Option Exception
  deriving DecidableEq

/-- An exception in flight through the engine. -/
inductive Raised where
  | handoff (handoff : Handoff)
  | nonDeterminism (detail : String)
  | other (exc : Exception)
  deriving DecidableEq

def Raised.isNonDeterminism : Raised → Bool
  | .nonDeterminism _ => true
  | _ => false

/-! ## Activities -/

structure RetryPolicy where
  maxAttempts : ℕ
  nonRetryable : List String
  maxAttempts_pos : 1 ≤ maxAttempts

def defaultRetryBudget : ℕ := 3

def RetryPolicy.default : RetryPolicy where
  maxAttempts := defaultRetryBudget + 1
  nonRetryable := []
  maxAttempts_pos := by decide

def RetryPolicy.isNonRetryable (policy : RetryPolicy) : Raised → Bool
  | .handoff _ => true
  | .nonDeterminism _ => policy.nonRetryable.contains "NonDeterminismError"
  | .other exc => policy.nonRetryable.contains exc.name

/-- What one call of an activity function comes to. -/
inductive Attempt where
  | returned (value : Json)
  | handedOff (handoff : Handoff)
  | failed (exc : Exception)
  deriving DecidableEq

/-- An activity by the outcomes of its function, call by call from the first. -/
structure Activity where
  name : String
  policy : RetryPolicy
  fn : ℕ → Attempt

def retryBudgetExhausted (name : String) (attempts : ℕ) (lastError : Option Exception) :
    Handoff where
  reason := "retry-budget-exhausted"
  activity := some name
  attempts := some attempts
  lastError := lastError

/-- The loop of `run_activity` with `left` attempts to go, and the calls made. -/
def Activity.attempt (activity : Activity) :
    (left made : ℕ) → (lastError : Option Exception) → Except Handoff Json × ℕ
  | 0, made, lastError => (.error (retryBudgetExhausted activity.name made lastError), made)
  | left + 1, made, _ =>
      match activity.fn (made + 1) with
      | .returned value => (.ok value, made + 1)
      | .handedOff handoff => (.error handoff, made + 1)
      | .failed exc =>
          if activity.policy.isNonRetryable (.other exc) then
            (.error (retryBudgetExhausted activity.name (made + 1) (some exc)), made + 1)
          else activity.attempt left (made + 1) (some exc)

def runActivity (activity : Activity) : Except Handoff Json × ℕ :=
  activity.attempt activity.policy.maxAttempts 0 none

/-! ## Events -/

def listedEventTypes : List String :=
  ["WORKFLOW_STARTED", "ACTIVITY_COMPLETED", "ACTIVITY_FAILED", "TIMER_FIRED",
    "WORKFLOW_COMPLETED", "WORKFLOW_HANDOFF"]

/-- The type of an event: one of the vocabulary, or any other text. -/
inductive EventType where
  | workflowStarted
  | activityCompleted
  | activityFailed
  | timerFired
  | workflowCompleted
  | workflowHandoff
  | other (text : String) (unlisted : text ∉ listedEventTypes)
  deriving DecidableEq

namespace EventType

def text : EventType → String
  | workflowStarted => "WORKFLOW_STARTED"
  | activityCompleted => "ACTIVITY_COMPLETED"
  | activityFailed => "ACTIVITY_FAILED"
  | timerFired => "TIMER_FIRED"
  | workflowCompleted => "WORKFLOW_COMPLETED"
  | workflowHandoff => "WORKFLOW_HANDOFF"
  | other text _ => text

def listed : List EventType :=
  [workflowStarted, activityCompleted, activityFailed, timerFired, workflowCompleted,
    workflowHandoff]

def ofText (text : String) : EventType :=
  if h : text ∈ listedEventTypes then
    (listed.find? fun type ↦ type.text == text).getD workflowStarted
  else other text h

@[simp] theorem ofText_text (type : EventType) : ofText type.text = type := by
  cases type with
  | other text unlisted => simp [EventType.text, ofText, unlisted]
  | _ => decide

end EventType

structure Event where
  seq : ℤ
  type : EventType
  name : String
  payload : Json
  deriving DecidableEq

def Event.toDict (event : Event) : Json :=
  .obj [("seq", .int event.seq), ("type", .str event.type.text), ("name", .str event.name),
    ("payload", event.payload)]

/-- `int(value)`. -/
def toInt (lib : Library) : Json → Except Exception ℤ
  | .int n => .ok n
  | .bool b => .ok (if b then 1 else 0)
  | .float x => .ok (if x.negative then -x.magnitude.floor else x.magnitude.floor)
  | .str s =>
      match lib.intOfText s with
      | some n => .ok n
      | none => .error ⟨"ValueError",
          "invalid literal for int() with base 10: " ++ lib.repr (.str s)⟩
  | value => .error ⟨"TypeError",
      "int() argument must be a string, a bytes-like object or a real number, not '" ++
        Python.typeName value ++ "'"⟩

def Event.fromDict (lib : Library) (d : Json) : Except Exception Event := do
  let seq ← Python.subscript d "seq"
  let seq ← toInt lib seq
  let type ← Python.subscript d "type"
  let name ← Python.subscript d "name"
  let members ← Python.asDict d
  return ⟨seq, .ofText (Python.str lib.repr type), Python.str lib.repr name,
    Python.get members "payload"⟩

def historyHash (lib : Library) (history : List Event) : String :=
  lib.sha256 (Json.dumps lib.repr (.arr (history.map Event.toDict)))

/-! ## The workflow -/

abbrev CommandKey := EventType × String

/-- A workflow.  `log` lists the commands of the current execution with their
answers; `_command_index`, which counts them by key, is read nowhere. -/
structure Workflow where
  workflowId : String
  history : List Event
  cursor : ℕ
  log : List (Entry CommandKey)

namespace Workflow

def new (workflowId : String) (history : List Event) : Workflow where
  workflowId := workflowId
  history := history
  cursor := 0
  log := []

def record (wf : Workflow) (type : EventType) (name : String) (payload : Json) : Workflow :=
  { wf with history := wf.history ++ [⟨wf.history.length, type, name, payload⟩] }

def toFrontier (wf : Workflow) : Workflow := { wf with cursor := wf.history.length }

def note (wf : Workflow) (type : EventType) (name : String) (answer : Answer) : Workflow :=
  { wf with log := wf.log ++ [⟨(type, name), wf.cursor, answer⟩] }

end Workflow

def replayDivergence (lib : Library) (recorded : Event) (type : EventType) (name : String) :
    Raised :=
  .nonDeterminism ("replay divergence at seq=" ++ toString recorded.seq ++ ": history has " ++
    recorded.type.text ++ ":" ++ lib.repr (.str recorded.name) ++ " but body requested " ++
    type.text ++ ":" ++ lib.repr (.str name))

/-- `_replay_or_execute`. -/
def Workflow.replayOrExecute (lib : Library) (wf : Workflow) (type : EventType) (name : String)
    (produce : Workflow → Except Raised Json × Workflow) : Except Raised Json × Workflow :=
  match wf.history[wf.cursor]? with
  | some recorded =>
      if recorded.type ≠ type ∨ recorded.name ≠ name then
        (.error (replayDivergence lib recorded type name), wf.note type name .refused)
      else
        (.ok recorded.payload, { wf.note type name .replayed with cursor := wf.cursor + 1 })
  | none =>
      match produce (wf.note type name .live) with
      | (.ok payload, wf) => (.ok payload, (wf.record type name payload).toFrontier)
      | (.error exc, wf) => (.error exc, wf)

def handoffPayload (handoff : Handoff) : Json :=
  .obj [("reason", .str handoff.reason), ("attempts", handoff.attempts.elim .null .int)]

/-- The live side of an activity command: a hand-off is recorded, then raised. -/
def Activity.produce (activity : Activity) (wf : Workflow) : Except Raised Json × Workflow :=
  match (DurableOrchestrator.runActivity activity).1 with
  | .ok value => (.ok value, wf)
  | .error handoff =>
      (.error (.handoff handoff),
        (wf.record .workflowHandoff activity.name (handoffPayload handoff)).toFrontier)

def Workflow.runActivity (lib : Library) (wf : Workflow) (activity : Activity) :
    Except Raised Json × Workflow :=
  wf.replayOrExecute lib .activityCompleted activity.name activity.produce

def negativeTimer : Raised := .other ⟨"ValueError", "durable_timer seconds must be >= 0"⟩

def timerMarker (name : String) (seconds : Decimal) : Json :=
  .obj [("timer", .str name), ("seconds", .float seconds), ("fired", .bool true)]

def Workflow.durableTimer (lib : Library) (wf : Workflow) (name : String) (seconds : Decimal) :
    Except Raised Json × Workflow :=
  if seconds.isNegative then (.error negativeTimer, wf)
  else wf.replayOrExecute lib .timerFired name fun wf ↦ (.ok (timerMarker name seconds), wf)

/-! ## Bodies -/

inductive Command where
  | runActivity (activity : Activity)
  | durableTimer (name : String) (seconds : Decimal)

/-- A workflow body: it asks commands, gets what each returns or raises, and ends
by returning or raising. -/
abbrev Body := Program Command (Except Raised Json) (Except Raised Json)

section Execution

variable (lib : Library)

def Workflow.issue (wf : Workflow) : Command → Except Raised Json × Workflow
  | .runActivity activity => wf.runActivity lib activity
  | .durableTimer name seconds => wf.durableTimer lib name seconds

def Workflow.run : Body → Workflow → Except Raised Json × Workflow
  | .done result, wf => (result, wf)
  | .ask command next, wf =>
      let answered := wf.issue lib command
      Workflow.run (next answered.1) answered.2

/-- What `execute` does before the body runs. -/
def Workflow.start (wf : Workflow) (args : List Json) : Workflow :=
  match wf.history with
  | [] =>
      { (wf.record .workflowStarted wf.workflowId (.obj [("args", .arr args)])).toFrontier with
        log := [] }
  | first :: _ =>
      { wf with cursor := if first.type = .workflowStarted then 1 else 0, log := [] }

/-- What `execute` does after the body has returned. -/
def Workflow.finish (wf : Workflow) (result : Json) : Workflow :=
  if wf.history.any fun event ↦ event.type = .workflowCompleted then wf
  else wf.record .workflowCompleted wf.workflowId (.obj [("result", result)])

def Workflow.execute (wf : Workflow) (body : Body) (args : List Json) :
    Except Raised Json × Workflow :=
  match (wf.start args).run lib body with
  | (.ok result, wf) => (.ok result, wf.finish result)
  | (.error exc, wf) => (.error exc, wf)

/-! ## Checkpoint and resume -/

def blobVersion : ℤ := 1

def isBlobVersion : Json → Bool
  | .int n => n == blobVersion
  | .bool b => b
  | .float x => x.toRat == blobVersion
  | _ => false

def Workflow.blobObject (wf : Workflow) : Json :=
  .obj [("version", .int blobVersion), ("workflow_id", .str wf.workflowId),
    ("history", .arr (wf.history.map Event.toDict)),
    ("history_hash", .str (historyHash lib wf.history))]

def checkpoint (wf : Workflow) : String := Json.dumps lib.repr (wf.blobObject lib)

def resume (blob : String) : Except Raised Workflow := do
  let obj ← (lib.loads blob).mapError fun text ↦
    Raised.nonDeterminism ("checkpoint blob is not valid JSON: " ++ text)
  let members ← (Python.asDict obj).mapError fun _ ↦
    Raised.nonDeterminism "checkpoint blob must be a JSON object"
  let version := Python.get members "version"
  if !isBlobVersion version then
    throw (.nonDeterminism ("checkpoint blob version " ++ lib.repr version ++ " != supported " ++
      toString blobVersion))
  else
    match Python.get members "history" with
    | .arr rawEvents => do
        let events ← (rawEvents.mapM (Event.fromDict lib)).mapError Raised.other
        let recomputed := historyHash lib events
        let recorded := Python.get members "history_hash"
        if recorded ≠ .str recomputed then
          throw (.nonDeterminism ("checkpoint history hash mismatch -- corrupted or forged " ++
            "resume (recorded=" ++ lib.repr recorded ++ ", recomputed=" ++
            lib.repr (.str recomputed) ++ ")"))
        else
          return .new (Python.str lib.repr (Python.getD members "workflow_id" (.str ""))) events
    | _ => throw (.nonDeterminism "checkpoint blob 'history' must be a list")

end Execution

end AgenticSDLC.DurableOrchestrator
