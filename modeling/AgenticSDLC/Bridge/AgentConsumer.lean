import AgenticSDLC.Foundations.Dict
import AgenticSDLC.Foundations.JsonLines
import AgenticSDLC.Foundations.Outcome

/-!
# The agent consumer

`plane-integration/agent_consumer.py`: a drain goes through the lines of the queue from
the committed offset on, and commits each line that is settled.  What the board says of
an issue, or that it cannot be reached, is an input of the drain.
-/

namespace AgenticSDLC.AgentConsumer

open Python (Exception)

abbrev Job := List (String × Json)

/-- The environment of the process; no variable has a NUL in it. -/
structure Settings where
  dispatchCmd : String
  environ : List (String × String)
  environ_text : ∀ item ∈ environ, Char.ofNat 0 ∉ item.2.toList

def roleSecretEnv : List (String × String) :=
  [("verifier", "ASCP_VERIFIER_SECRET"), ("human", "ASCP_HUMAN_SECRET")]

/-- What is done with a line. -/
inductive Handling where
  | blank
  | badLine
  | noted (kind : Json)
  | retry
  | stale
  | wouldDispatch
  | dispatched (env : List (String × String))

/-- A line is handled, by its place in the queue. -/
structure Event where
  line : ℕ
  handling : Handling

def noSuchLine : Exception := ⟨"IndexError", "list index out of range"⟩

/-! ## The environment of a command -/

/-- `pc.ROLE_SECRET_ENV.get(role)`. -/
def roleSecret (role : Json) : Except Exception (Option String) := do
  let _ ← Python.hashKey role
  match role with
  | .str role => return roleSecretEnv.lookup role
  | _ => return none

/-- `value or ""`. -/
def orEmpty (value : Json) : Json := if Python.truthy value then value else .str ""

/-- The environment without the secrets of roles, and with the one of the role. -/
def inherited (settings : Settings) (secret : Option String) : List (String × String) :=
  let env := settings.environ.filter fun item ↦ item.1 ∉ roleSecretEnv.map Prod.snd
  match secret with
  | none => env
  | some name =>
      match settings.environ.lookup name with
      | none => env
      | some value => if value = "" then env else Dict.set name value env

def jobEnv (job : Job) (live : Json) : List (String × Json) :=
  [("ASCP_ROLE", orEmpty (Python.get job "agent_role")),
    ("ASCP_ISSUE_ID", orEmpty (Python.get job "issue_id")),
    ("ASCP_STATE", orEmpty live),
    ("ASCP_ISSUE_NAME", orEmpty (Python.getD job "name" (.str "")))]

def childEnv (settings : Settings) (secret : Option String) (job : Job) (live : Json) :
    List (String × Json) :=
  (jobEnv job live).foldl (fun env item ↦ Dict.set item.1 item.2 env)
    ((inherited settings secret).map fun item ↦ (item.1, .str item.2))

/-- `os.fsencode`, as far as it can fail. -/
def encodeVariable (item : String × Json) : Except Exception (String × String) :=
  match item.2 with
  | .str text => .ok (item.1, text)
  | value => .error ⟨"TypeError",
      "expected str, bytes or os.PathLike object, not " ++ Python.typeName value⟩

/-- The variables that `subprocess.run` gives to the child. -/
def encodeEnv (env : List (String × Json)) : Except Exception (List (String × String)) := do
  let env ← env.mapM encodeVariable
  if ∃ item ∈ env, Char.ofNat 0 ∈ item.2.toList then .error ⟨"ValueError", "embedded null byte"⟩
  else return env

/-! ## A line -/

section Lines

variable (settings : Settings) (toFloat : String → Json)

/-- `_dispatch`; the board is not reached, or names the live state. -/
def dispatch (live : Option Json) (job : Job) : Except Exception Handling :=
  match live with
  | none => .ok .retry
  | some live =>
      if Python.eq live (Python.get job "state") = false then .ok .stale
      else if settings.dispatchCmd = "" then .ok .wouldDispatch
      else do
        let secret ← roleSecret (Python.get job "agent_role")
        let env ← encodeEnv (childEnv settings secret job live)
        return .dispatched env

def handle (live : Option Json) (text : String) : Except Exception Handling :=
  let text := Python.strip text
  if text = "" then .ok .blank
  else
    match Json.loads toFloat text with
    | none => .ok .badLine
    | some value => do
        let job ← Python.asDict value
        if Python.get job "kind" = .str "agent_dispatch" then dispatch settings live job
        else return .noted (Python.get job "kind")

/-- What a settled line adds to the count of the drain. -/
def Handling.count : Handling → ℕ
  | .blank | .badLine | .retry => 0
  | .noted _ | .stale | .wouldDispatch | .dispatched _ => 1

/-- `lines[i]` and its place, which a negative index counts from the end. -/
def lineAt (lines : List String) (i : ℤ) : Option (ℕ × String) :=
  let place := if i < 0 then lines.length + i else i
  if place < 0 then none else lines[place.toNat]?.map fun text ↦ (place.toNat, text)

structure Progress where
  offset : Option ℤ
  count : ℕ
  log : List Event

/-- The loop, with the lines that are left to it; `i` is the next one. -/
def settleLines (lines : List String) (board : ℤ → Option Json) :
    ℕ → ℤ → Progress → Except (Exception × Progress) Progress
  | 0, _, progress => .ok progress
  | left + 1, i, progress =>
      match lineAt lines i with
      | none => .error (noSuchLine, progress)
      | some (line, text) =>
          match handle settings toFloat (board i) text with
          | .error exc => .error (exc, progress)
          | .ok .retry => .ok { progress with log := progress.log ++ [⟨line, .retry⟩] }
          | .ok handling =>
              settleLines lines board left (i + 1)
                ⟨some (i + 1), progress.count + handling.count, progress.log ++ [⟨line, handling⟩]⟩

end Lines

/-! ## Drains -/

structure World where
  /-- The queue file as it is read, if there is one. -/
  queue : Option String
  /-- The offset file, if an integer can be read from it. -/
  offset : Option ℤ
  log : List Event

def World.start (offset : Option ℤ) : World := ⟨none, offset, []⟩

def readOffset (offset : Option ℤ) : ℤ := offset.getD 0

structure Drain where
  settings : Settings
  /-- What a fetch of the issue at a place of the loop brings. -/
  board : ℤ → Option Json

inductive Action where
  /-- A text is appended to the queue, and its last line ended. -/
  | append (text : String)
  | drain (drain : Drain)

def queueLines (queue : String) : List String :=
  (Text.splitlines queue.toList).map String.ofList

/-- The number of lines that are not a torn append. -/
def complete (queue : String) : ℕ :=
  if queue.toList.getLast? = some '\n' then (queueLines queue).length
  else (queueLines queue).length - 1

section World

variable (toFloat : String → Json)

def World.drain (world : World) (drain : Drain) : World × Except Exception ℕ :=
  match world.queue with
  | none => (world, .ok 0)
  | some queue =>
      match settleLines drain.settings toFloat (queueLines queue) drain.board
          (complete queue - readOffset world.offset).toNat (readOffset world.offset)
          ⟨world.offset, 0, world.log⟩ with
      | .error (exc, progress) =>
          ({ world with offset := progress.offset, log := progress.log }, .error exc)
      | .ok progress =>
          ({ world with offset := progress.offset, log := progress.log }, .ok progress.count)

def World.step (world : World) : Action → World
  | .append text => { world with queue := some (world.queue.getD "" ++ text ++ "\n") }
  | .drain drain => (world.drain toFloat drain).1

def World.run (offset : Option ℤ) (actions : List Action) : World :=
  actions.foldl (World.step toFloat) (.start offset)

end World

end AgenticSDLC.AgentConsumer
