import AgenticSDLC.Loop.LoopGate
import AgenticSDLC.Plane.PlanGate

/-!
# The commands of the loop

`plane-integration/the_loop.py`: the commands that move a work item.  Done is
meant to be reached through `prove` and `gated_prove`, which post an evidence
record first; `advance` forwards whatever state it is given.
-/

namespace AgenticSDLC.TheLoop

open Python (Exception Stdlib)
open LoopGate (Decision DepthFeed Pillars RunState)
open PlaneClient Runs

/-! ## Commands -/

inductive Command where
  | advance (toState : State) (role : Role)
  | prove (testFile testName outputHash : String)
  | gatedProve (evidence : Json) (artifact : Option String) (ledger : Json) (feed : DepthFeed)
  | handoff (reason : String) (role : Role)
  | block (reason : String) (role : Role)
  | fail (reason : String) (role : Role)

/-- One command, with the environment of its process and the time it runs at. -/
structure Call where
  command : Command
  env : Env
  now : String

/-- The item on the board, and the run state file of the checkout. -/
structure World where
  item : Item
  runState : Option RunState

/-- `_gate`: authority and gate order, before anything is written. -/
def gate (board : Board) (env : Env) (item : Item) (toState : State) (role : Role) :
    Except Exception Unit := do
  checkActor role toState env
  let cur := board.stateOf item
  if legalEdgeFrom cur toState then return ()
  else throw (permissionError ("illegal transition " ++
    (cur.elim "None" fun state ↦ quoted state.name) ++ " -> " ++ quoted toState.name ++
    " (gate order)"))

/-- Gate, comment, then move: what every command but `advance` does to the
board.  The comment stays when the move is refused. -/
def gateThenMove (board : Board) (env : Env) (item : Item) (toState : State) (role : Role)
    (body : Except Exception String) : Item × Except Exception Unit :=
  match gate board env item toState role, body with
  | .error exc, _ => (item, .error exc)
  | .ok _, .error exc => (item, .error exc)
  | .ok _, .ok text =>
      match transition board env (item.comment text) toState role with
      | .ok item' => (item', .ok ())
      | .error exc => (item.comment text, .error exc)

def recordBody (repr : Json → String) (record : Json) : Except Exception String := do
  let testFile ← Python.subscript record "test_file"
  let testName ← Python.subscript record "test_name"
  let outputHash ← Python.subscript record "output_hash"
  let collectedAt ← Python.subscript record "collected_at"
  let text := Python.str repr
  return evidenceBody (text testFile) (text testName) (text outputHash) (text collectedAt)
    "verifier"

def provenRecord (testFile testName outputHash now : String) : Json :=
  .obj [("test_file", .str testFile), ("test_name", .str testName),
    ("output_hash", .str outputHash), ("collected_at", .str now)]

section Commands

variable (py : Stdlib) (pillars : Pillars) (board : Board) (blockStreakHandoff : ℤ)

def advance (env : Env) (item : Item) (toState : State) (role : Role) :
    Item × Except Exception Unit :=
  match transition board env item toState role with
  | .ok item' => (item', .ok ())
  | .error exc => (item, .error exc)

def prove (env : Env) (now : String) (item : Item) (testFile testName outputHash : String) :
    Item × Except Exception Unit :=
  let record := provenRecord testFile testName outputHash now
  if !EvidenceCollector.validateEvidenceRecord py record then (item, .error ⟨"SystemExit", "2"⟩)
  else gateThenMove board env item .done .verifier (recordBody py.repr record)

def gatedProve (env : Env) (world : World) (evidence : Json) (artifact : Option String)
    (ledger : Json) (feed : DepthFeed) : World × Except Exception Decision :=
  let decision := LoopGate.gatedAdvance py pillars world.runState evidence artifact ledger
    blockStreakHandoff feed
  let moved : Item × Except Exception Unit :=
    match decision.action with
    | .advance => gateThenMove board env world.item .done .verifier (recordBody py.repr evidence)
    | .handoff => gateThenMove board env world.item .handoff .verifier
        (.ok (Html.escape ("<p><b>HANDOFF</b> — evidence gate: " ++ decision.reason ++ "</p>")))
    | .selfHeal => (world.item, .ok ())
  (⟨moved.1, some decision.runState⟩, moved.2.map fun _ ↦ decision)

def handoff (env : Env) (item : Item) (reason : String) (role : Role) :
    Item × Except Exception Unit :=
  gateThenMove board env item .handoff role
    (.ok (Html.escape ("HANDOFF — reason: " ++ reason ++
      " (a human picks this up; not Done)")))

def block (env : Env) (item : Item) (reason : String) (role : Role) :
    Item × Except Exception Unit :=
  gateThenMove board env item .blocked role (.ok (Html.escape ("BLOCKED — reason: " ++ reason)))

def fail (env : Env) (item : Item) (reason : String) (role : Role) :
    Item × Except Exception Unit :=
  gateThenMove board env item .failed role
    (.ok (Html.escape ("FAILED verification — reason: " ++ reason)))

/-- What a command leaves behind, whether it succeeds or raises. -/
def step (world : World) (call : Call) : World :=
  match call.command with
  | .advance toState role =>
      { world with item := (advance board call.env world.item toState role).1 }
  | .prove testFile testName outputHash =>
      { world with
        item := (prove py board call.env call.now world.item testFile testName outputHash).1 }
  | .gatedProve evidence artifact ledger feed =>
      (gatedProve py pillars board blockStreakHandoff call.env world evidence artifact ledger
        feed).1
  | .handoff reason role => { world with item := (handoff board call.env world.item reason role).1 }
  | .block reason role => { world with item := (block board call.env world.item reason role).1 }
  | .fail reason role => { world with item := (fail board call.env world.item reason role).1 }

def run (start : World) (calls : List Call) : World :=
  calls.foldl (step py pillars board blockStreakHandoff) start

theorem run_append_singleton (start : World) (calls : List Call) (call : Call) :
    run py pillars board blockStreakHandoff start (calls ++ [call]) =
      step py pillars board blockStreakHandoff
        (run py pillars board blockStreakHandoff start calls) call := by
  simp [run]

/-! ## Entering Done -/

def EntersDone (item item' : Item) : Prop :=
  board.stateOf item ≠ some .done ∧ board.stateOf item' = some .done

/-- The step posts a record that the validator passes. -/
def PostsEvidence (item item' : Item) : Prop :=
  ∃ record body, EvidenceCollector.validateEvidenceRecord py record = true ∧
    recordBody py.repr record = .ok body ∧ item'.comments = item.comments ++ [body]

def Command.isProof : Command → Bool
  | .prove _ _ _ => true
  | .gatedProve _ _ _ _ => true
  | _ => false

/-- An `advance` to Done by the verifier with its secret, at a legal predecessor. -/
def AdvancesToDone (world : World) (call : Call) : Prop :=
  call.command = .advance .done .verifier ∧ call.env.isSet "ASCP_VERIFIER_SECRET" = true ∧
    (board.stateOf world.item = some .inVerification ∨
      board.stateOf world.item = some .humanReview) ∧ (board.stateId .done).isSome = true

/-- If the call brings the item to Done, it is a proof and posts its evidence. -/
def DoneWithEvidence (start : World) (before : List Call) (call : Call) : Prop :=
  let world := run py pillars board blockStreakHandoff start before
  let world' := run py pillars board blockStreakHandoff start (before ++ [call])
  EntersDone board world.item world'.item →
    call.command.isProof = true ∧ PostsEvidence py world.item world'.item

end Commands

theorem legalEdge_done_iff (cur : State) :
    legalEdge cur .done = true ↔ cur = .inVerification ∨ cur = .humanReview := by
  cases cur <;> simp [legalEdge, universal, terminal, recovery, extraEdges, forward]

theorem checkActor_done_iff (role : Role) (env : Env) :
    checkActor role .done env = .ok () ↔
      role = .verifier ∧ env.isSet "ASCP_VERIFIER_SECRET" = true := by
  by_cases hrole : role = .verifier
  · subst hrole
    cases henv : env.isSet "ASCP_VERIFIER_SECRET" <;>
      simp [checkActor, transitionAuth, roleSecretEnv, henv]
  · simp [checkActor, transitionAuth, hrole]

theorem transition_done_iff (board : Board) (env : Env) (item : Item) (role : Role) :
    (∃ item', transition board env item .done role = .ok item') ↔
      (role = .verifier ∧ env.isSet "ASCP_VERIFIER_SECRET" = true) ∧
        (board.stateOf item = some .inVerification ∨
          board.stateOf item = some .humanReview) ∧ (board.stateId .done).isSome = true := by
  simp only [transition_eq_ok_iff, checkActor_done_iff, legalEdge_done_iff,
    Option.isSome_iff_exists]
  constructor
  · rintro ⟨_, hactor, cur, sid, hcur, rfl | rfl, hsid, -⟩
    · exact ⟨hactor, Or.inl hcur, sid, hsid⟩
    · exact ⟨hactor, Or.inr hcur, sid, hsid⟩
  · rintro ⟨hactor, hcur | hcur, sid, hsid⟩
    · exact ⟨_, hactor, _, sid, hcur, Or.inl rfl, hsid, rfl⟩
    · exact ⟨_, hactor, _, sid, hcur, Or.inr rfl, hsid, rfl⟩

theorem comments_transition {board : Board} {env : Env} {item item' : Item} {toState : State}
    {role : Role} (h : transition board env item toState role = .ok item') :
    item'.comments = item.comments := by
  obtain ⟨-, cur, sid, -, -, -, rfl⟩ := transition_eq_ok_iff.mp h
  rfl

theorem done_of_gateThenMove {board : Board} {env : Env} {item : Item} {toState : State}
    {role : Role} {body : Except Exception String}
    (h : EntersDone board item (gateThenMove board env item toState role body).1) :
    toState = .done ∧ ∃ text, body = .ok text ∧
      (gateThenMove board env item toState role body).1.comments = item.comments ++ [text] := by
  obtain ⟨hbefore, hafter⟩ := h
  unfold gateThenMove at hafter ⊢
  cases hgate : gate board env item toState role with
  | error exc =>
      rw [hgate] at hafter
      exact absurd hafter hbefore
  | ok _ =>
      rw [hgate] at hafter
      cases body with
      | error exc => exact absurd hafter hbefore
      | ok text =>
          dsimp only at hafter ⊢
          cases hmove : transition board env (item.comment text) toState role with
          | error exc =>
              rw [hmove] at hafter
              exact absurd hafter hbefore
          | ok item' =>
              rw [hmove] at hafter
              have hto := stateOf_transition hmove
              refine ⟨Option.some.inj (hto.symm.trans hafter), text, rfl, ?_⟩
              simp [comments_transition hmove, Item.comment]

section Steps

variable {py : Stdlib} {pillars : Pillars} {board : Board} {blockStreakHandoff : ℤ}

theorem evidence_of_entersDone {world : World} {call : Call}
    (hcommand : ∀ toState role, call.command ≠ .advance toState role)
    (h : EntersDone board world.item (step py pillars board blockStreakHandoff world call).item) :
    call.command.isProof = true ∧
      PostsEvidence py world.item (step py pillars board blockStreakHandoff world call).item := by
  unfold step at h ⊢
  cases hcall : call.command with
  | advance toState role => exact absurd hcall (hcommand toState role)
  | prove testFile testName outputHash =>
      rw [hcall] at h
      refine ⟨rfl, ?_⟩
      simp only [prove] at h ⊢
      split_ifs at h ⊢ with hvalid
      · exact absurd h.2 h.1
      · obtain ⟨-, text, hbody, hcomments⟩ := done_of_gateThenMove h
        exact ⟨_, text, by simpa using hvalid, hbody, hcomments⟩
  | gatedProve evidence artifact ledger feed =>
      rw [hcall] at h
      refine ⟨rfl, ?_⟩
      simp only [gatedProve] at h ⊢
      cases haction : (LoopGate.gatedAdvance py pillars world.runState evidence artifact ledger
          blockStreakHandoff feed).action with
      | advance =>
          rw [haction] at h
          obtain ⟨-, text, hbody, hcomments⟩ := done_of_gateThenMove h
          exact ⟨evidence, text,
            EvidenceGate.valid_of_accepted py (LoopGate.accepted_of_advance haction), hbody,
            hcomments⟩
      | selfHeal =>
          rw [haction] at h
          exact absurd h.2 h.1
      | handoff =>
          rw [haction] at h
          cases (done_of_gateThenMove h).1
  | handoff reason role =>
      rw [hcall] at h
      cases (done_of_gateThenMove h).1
  | block reason role =>
      rw [hcall] at h
      cases (done_of_gateThenMove h).1
  | fail reason role =>
      rw [hcall] at h
      cases (done_of_gateThenMove h).1

theorem doneWithEvidence_iff (start : World) (before : List Call) (call : Call) :
    DoneWithEvidence py pillars board blockStreakHandoff start before call ↔
      ¬AdvancesToDone board (run py pillars board blockStreakHandoff start before) call := by
  simp only [DoneWithEvidence, run_append_singleton]
  constructor
  · rintro hproof ⟨hcall, henv, hstate, hboard⟩
    obtain ⟨item', hmove⟩ := (transition_done_iff board call.env _ .verifier).mpr
      ⟨⟨rfl, henv⟩, hstate, hboard⟩
    have hstep : (step py pillars board blockStreakHandoff
        (run py pillars board blockStreakHandoff start before) call).item = item' := by
      simp [step, hcall, advance, hmove]
    have henters : EntersDone board
        (run py pillars board blockStreakHandoff start before).item item' :=
      ⟨by rcases hstate with h | h <;> simp [h], stateOf_transition hmove⟩
    have hisProof := (hproof (hstep ▸ henters)).1
    simp [hcall, Command.isProof] at hisProof
  · intro hnot henters
    by_cases hadvance : ∃ toState role, call.command = .advance toState role
    · obtain ⟨toState, role, hcall⟩ := hadvance
      refine absurd ?_ hnot
      obtain ⟨hbefore, hafter⟩ := henters
      simp only [step, hcall, advance] at hafter
      cases hmove : transition board call.env
          (run py pillars board blockStreakHandoff start before).item toState role with
      | error exc =>
          rw [hmove] at hafter
          exact absurd hafter hbefore
      | ok item' =>
          rw [hmove] at hafter
          obtain rfl : toState = .done :=
            Option.some.inj ((stateOf_transition hmove).symm.trans hafter)
          obtain ⟨⟨rfl, henv⟩, hstate, hboard⟩ :=
            (transition_done_iff board call.env _ role).mp ⟨item', hmove⟩
          exact ⟨hcall, henv, hstate, hboard⟩
    · exact evidence_of_entersDone (fun toState role h ↦ hadvance ⟨toState, role, h⟩) henters

end Steps

/-- Over a whole run, the item is Done only with its evidence exactly when no
step is an `advance` that the client accepts into Done. -/
theorem done_with_evidence_iff (py : Stdlib) (pillars : Pillars) (board : Board)
    (blockStreakHandoff : ℤ) (start : World) (calls : List Call) :
    EachStep (DoneWithEvidence py pillars board blockStreakHandoff start) calls ↔
      EachStep (fun before call ↦ ¬AdvancesToDone board
        (run py pillars board blockStreakHandoff start before) call) calls :=
  eachStep_congr (doneWithEvidence_iff start) calls

section Sample

def samplePillars : Pillars where
  semgrep := fun _ _ ↦ ⟨true, "OK", "semgrep clean (no blocking findings)"⟩
  orphans := fun _ _ _ _ ↦ ⟨true, "OK", "no forward or backward orphans"⟩

/-- An `advance` in an environment that holds both role secrets. -/
def advanceBy (toState : State) (role : Role) : Call where
  command := .advance toState role
  env := fun name ↦
    if name = "ASCP_VERIFIER_SECRET" ∨ name = "ASCP_HUMAN_SECRET" then some "secret" else none
  now := "2026-01-05T10:00:00+00:00"

def advancesToVerification : List Call :=
  [advanceBy .agentTriaged .initializer, advanceBy .specCompiling .initializer,
    advanceBy .specVerified .initializer, advanceBy .planApproved .human,
    advanceBy .agentExecuting .implementer, advanceBy .inVerification .verifier]

/-- The verifier advances an item from Backlog to Done without any evidence. -/
theorem advance_without_evidence :
    sampleBoard.stateOf (sampleItem "id-01") = some .backlog ∧
      ¬EachStep (DoneWithEvidence ⟨fun _ ↦ "", fun _ ↦ "", fun _ ↦ none⟩ samplePillars sampleBoard 5
        ⟨sampleItem "id-01", none⟩) (advancesToVerification ++ [advanceBy .done .verifier]) := by
  refine ⟨rfl, fun hkept ↦ ?_⟩
  have hproof := (hkept advancesToVerification (advanceBy .done .verifier) [] rfl
    ⟨by decide, rfl⟩).1
  cases hproof

end Sample

end AgenticSDLC.TheLoop
