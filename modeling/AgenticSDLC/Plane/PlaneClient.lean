import AgenticSDLC.Foundations.Html
import AgenticSDLC.Foundations.Outcome
import AgenticSDLC.Foundations.Python
import Mathlib.Data.List.Nodup

/-!
# The Plane client

`plane-integration/plane_client.py`: the twelve-state workflow, the authority of
the actors, and the calls that move a work item and write its comments.  The
board serves every well-formed request.
-/

namespace AgenticSDLC.PlaneClient

open Python (Exception)

/-! ## States and roles -/

def listedStates : List String :=
  ["Backlog", "Agent-Triaged", "Spec-Compiling", "Spec-Verified", "Plan-Approved",
    "Agent-Executing", "In-Verification", "Human-Review", "Done", "Blocked", "Failed",
    "HANDOFF"]

/-- The name of a board state: one of the twelve, or any other. -/
inductive State where
  | backlog
  | agentTriaged
  | specCompiling
  | specVerified
  | planApproved
  | agentExecuting
  | inVerification
  | humanReview
  | done
  | blocked
  | failed
  | handoff
  | other (name : String) (unlisted : name ∉ listedStates)
  deriving DecidableEq

def State.name : State → String
  | backlog => "Backlog"
  | agentTriaged => "Agent-Triaged"
  | specCompiling => "Spec-Compiling"
  | specVerified => "Spec-Verified"
  | planApproved => "Plan-Approved"
  | agentExecuting => "Agent-Executing"
  | inVerification => "In-Verification"
  | humanReview => "Human-Review"
  | done => "Done"
  | blocked => "Blocked"
  | failed => "Failed"
  | handoff => "HANDOFF"
  | other name _ => name

def State.all : List State :=
  [backlog, agentTriaged, specCompiling, specVerified, planApproved, agentExecuting,
    inVerification, humanReview, done, blocked, failed, handoff]

theorem listedStates_eq : listedStates = State.all.map State.name := rfl

theorem State.eq_done_of_name {state : State} (h : state.name = "Done") : state = done := by
  cases state with
  | other name unlisted => exact absurd (by simp [listedStates, ← h, State.name]) unlisted
  | done => rfl
  | _ => simp [State.name] at h

def listedRoles : List String := ["initializer", "implementer", "verifier", "human"]

inductive Role where
  | initializer
  | implementer
  | verifier
  | human
  | other (name : String) (unlisted : name ∉ listedRoles)
  deriving DecidableEq

def Role.name : Role → String
  | initializer => "initializer"
  | implementer => "implementer"
  | verifier => "verifier"
  | human => "human"
  | other name _ => name

def forward : State → Option State
  | .backlog => some .agentTriaged
  | .agentTriaged => some .specCompiling
  | .specCompiling => some .specVerified
  | .specVerified => some .planApproved
  | .planApproved => some .agentExecuting
  | .agentExecuting => some .inVerification
  | .inVerification => some .humanReview
  | .humanReview => some .done
  | _ => none

def universal : List State := [.blocked, .failed, .handoff]

def terminal : List State := [.done, .handoff, .failed]

def recovery : State → Option State
  | .blocked => some .agentExecuting
  | .failed => some .agentExecuting
  | _ => none

def extraEdges : List (State × State) := [(.inVerification, .done)]

def transitionAuth : State → List Role
  | .agentTriaged => [.initializer, .human]
  | .specCompiling => [.initializer]
  | .specVerified => [.initializer]
  | .planApproved => [.human]
  | .agentExecuting => [.implementer]
  | .inVerification => [.verifier]
  | .humanReview => [.verifier, .human]
  | .done => [.verifier]
  | .handoff => [.initializer, .implementer, .verifier]
  | .blocked => [.initializer, .implementer, .verifier]
  | .failed => [.verifier]
  | _ => []

def roleSecretEnv : Role → Option String
  | .verifier => some "ASCP_VERIFIER_SECRET"
  | .human => some "ASCP_HUMAN_SECRET"
  | _ => none

/-! ## Authority and gate order -/

def legalEdge (cur toState : State) : Bool :=
  if cur = toState then false
  else if toState ∈ universal then cur ∉ terminal
  else if cur ∈ terminal then false
  else if recovery cur = some toState then true
  else if (cur, toState) ∈ extraEdges then true
  else forward cur = some toState

/-- `legal_edge` from a state that may not have been resolved. -/
def legalEdgeFrom (cur : Option State) (toState : State) : Bool :=
  match cur with
  | some cur => legalEdge cur toState
  | none => toState ∈ universal

/-- The variables of a process, as `os.environ.get` reads them. -/
abbrev Env := String → Option String

def Env.isSet (env : Env) (name : String) : Bool :=
  match env name with
  | some value => value ≠ ""
  | none => false

def quoted (name : String) : String := "'" ++ name ++ "'"

def sortedNames (names : List String) : String :=
  "[" ++ ", ".intercalate ((Python.sortedBy id names).map quoted) ++ "]"

def permissionError (detail : String) : Exception := ⟨"PermissionError", detail⟩

def checkActor (role : Role) (toState : State) (env : Env) : Except Exception Unit :=
  let allowed := transitionAuth toState
  if role ∉ allowed then
    .error (permissionError (role.name ++ " may not set state " ++ quoted toState.name ++
      " (allowed: " ++ sortedNames (allowed.map Role.name) ++ ")"))
  else
    match roleSecretEnv role with
    | none => .ok ()
    | some secret =>
        if env.isSet secret then .ok ()
        else .error (permissionError ("role " ++ quoted role.name ++ " requires " ++ secret ++
          " in the environment (actor-independence: this secret must live only in the " ++
          role.name ++ " runtime, never in the implementer agent's env)"))

/-! ## The board -/

/-- The states of one project, a bijection between names and ids. -/
structure Board where
  name : String
  rows : List (State × String)
  nodup_names : (rows.map Prod.fst).Nodup
  nodup_ids : (rows.map Prod.snd).Nodup

namespace Board

def stateId (board : Board) (state : State) : Option String := board.rows.lookup state

def id2state (board : Board) (id : String) : Option State :=
  (board.rows.find? fun row ↦ row.2 = id).map Prod.fst

end Board

/-- A work item: its state by id, and the bodies of its comments. -/
structure Item where
  id : String
  stateId : String
  comments : List String
  deriving DecidableEq

def Board.stateOf (board : Board) (item : Item) : Option State :=
  board.id2state item.stateId

def wrongBoard (board : Board) (toState : State) : Exception :=
  ⟨"KeyError", "state " ++ quoted toState.name ++ " not found on board " ++ board.name ++
    " (have: " ++ sortedNames (board.rows.map fun row ↦ row.1.name) ++ ") — wrong board?"⟩

def illegalTransition (item : Item) (cur toState : State) : Exception :=
  permissionError ("illegal transition " ++ quoted cur.name ++ " -> " ++ quoted toState.name ++
    " for " ++ item.id ++ " (gate order; legal next: " ++
    ((forward cur).elim "None" fun next ↦ quoted next.name) ++ " or " ++
    sortedNames (universal.map State.name) ++ ")")

/-- The end of `transition`, once the state `cur` was read.  The board answers
the write with the item as it then is, so the read-back assertion never fires. -/
def writeState (board : Board) (item : Item) (cur : Option State) (toState : State) :
    Except Exception Item :=
  match cur with
  | none => .error ⟨"RuntimeError",
      "cannot resolve current state of " ++ item.id ++ " on this board"⟩
  | some cur =>
      if legalEdge cur toState then
        match board.stateId toState with
        | none => .error (wrongBoard board toState)
        | some sid => .ok { item with stateId := sid }
      else .error (illegalTransition item cur toState)

def transition (board : Board) (env : Env) (item : Item) (toState : State) (role : Role) :
    Except Exception Item := do
  checkActor role toState env
  writeState board item (board.stateOf item) toState

def Item.comment (item : Item) (body : String) : Item :=
  { item with comments := item.comments ++ [body] }

/-- The comment `post_evidence` writes. -/
def evidenceBody (testFile testName outputHash collectedAt actorRole : String) : String :=
  "<p><b>Evidence_Record</b> (actor: " ++ Html.escape actorRole ++ ")</p><ul>" ++
    "<li><code>test_file</code>: " ++ Html.escape testFile ++
    "</li><li><code>test_name</code>: " ++ Html.escape testName ++ "</li>" ++
    "<li><code>output_hash</code>: " ++ Html.escape outputHash ++
    "</li><li><code>collected_at</code>: " ++ Html.escape collectedAt ++ "</li></ul>"

@[simp] theorem comment_stateId (item : Item) (body : String) :
    (item.comment body).stateId = item.stateId := rfl

@[simp] theorem stateOf_comment (board : Board) (item : Item) (body : String) :
    board.stateOf (item.comment body) = board.stateOf item := rfl

/-! ## What a transition does -/

theorem not_terminal_of_legalEdge {cur toState : State} (h : legalEdge cur toState = true) :
    cur ∉ terminal := by
  unfold legalEdge at h
  split_ifs at h <;> simp_all

theorem id2state_of_stateId {board : Board} {state : State} {sid : String}
    (h : board.stateId state = some sid) : board.id2state sid = some state := by
  have hmem : (state, sid) ∈ board.rows := List.lookup_eq_some_iff.mp h |>.elim
    fun front ⟨back, hrows, _⟩ ↦ by simp [hrows]
  unfold Board.id2state
  cases hfind : board.rows.find? fun row ↦ row.2 = sid with
  | none => simpa using List.find?_eq_none.mp hfind _ hmem
  | some row =>
      have hrow := List.find?_some hfind
      have hmem' := List.mem_of_find?_eq_some hfind
      have heq := List.inj_on_of_nodup_map board.nodup_ids hmem' hmem (by simpa using hrow)
      simp [heq]

theorem writeState_eq_ok_iff {board : Board} {item item' : Item} {read : Option State}
    {toState : State} :
    writeState board item read toState = .ok item' ↔
      ∃ cur sid, read = some cur ∧ legalEdge cur toState = true ∧
        board.stateId toState = some sid ∧ item' = { item with stateId := sid } := by
  constructor
  · intro h
    cases read with
    | none => cases h
    | some cur =>
        simp only [writeState] at h
        split_ifs at h with hedge
        cases hsid : board.stateId toState with
        | none =>
            rw [hsid] at h
            cases h
        | some sid =>
            rw [hsid] at h
            exact ⟨cur, sid, rfl, hedge, rfl, (Except.ok.inj h).symm⟩
  · rintro ⟨cur, sid, rfl, hedge, hsid, rfl⟩
    simp only [writeState, hedge, hsid, if_true]

theorem transition_eq_ok_iff {board : Board} {env : Env} {item item' : Item} {toState : State}
    {role : Role} :
    transition board env item toState role = .ok item' ↔
      checkActor role toState env = .ok () ∧
        ∃ cur sid, board.stateOf item = some cur ∧ legalEdge cur toState = true ∧
          board.stateId toState = some sid ∧ item' = { item with stateId := sid } := by
  rw [transition, Outcome.bind_eq_ok_iff]
  constructor
  · rintro ⟨_, hactor, hwrite⟩
    exact ⟨hactor, writeState_eq_ok_iff.mp hwrite⟩
  · rintro ⟨hactor, hwrite⟩
    exact ⟨(), hactor, writeState_eq_ok_iff.mpr hwrite⟩

theorem stateOf_transition {board : Board} {env : Env} {item item' : Item} {toState : State}
    {role : Role} (h : transition board env item toState role = .ok item') :
    board.stateOf item' = some toState := by
  obtain ⟨-, cur, sid, -, -, hsid, rfl⟩ := transition_eq_ok_iff.mp h
  exact id2state_of_stateId hsid

def sampleBoard : Board where
  name := "ws/proj"
  rows := [(.backlog, "id-01"), (.agentTriaged, "id-02"), (.specCompiling, "id-03"),
    (.specVerified, "id-04"), (.planApproved, "id-05"), (.agentExecuting, "id-06"),
    (.inVerification, "id-07"), (.humanReview, "id-08"), (.done, "id-09"),
    (.blocked, "id-10"), (.failed, "id-11"), (.handoff, "id-12")]
  nodup_names := by decide
  nodup_ids := by decide

def sampleItem (stateId : String) : Item := ⟨"W-1", stateId, []⟩

end AgenticSDLC.PlaneClient
