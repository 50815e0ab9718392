import AgenticSDLC.Evidence.EvidenceGate

/-!
# The pre-advance gate of the loop

`tools/run_state_driver.py` and `tools/loop_gate.py`.  The evidence check comes
first and alone; only when it accepts do the two depth pillars run, and every
call ticks the run state once.  The pillars drive external tools, so their
verdicts are given.
-/

namespace AgenticSDLC.LoopGate

open Python (Stdlib)
open EvidenceGate (Verdict)

/-! ## The run state -/

structure RunState where
  sessionId : String
  iterationCount : ℕ
  noProgressN : ℕ
  blockStreak : ℕ
  violationCount : ℕ
  budgetExceeded : Bool
  externalBlocker : Option String
  status : String
  deriving DecidableEq

def RunState.init (sessionId : String) : RunState where
  sessionId := sessionId
  iterationCount := 0
  noProgressN := 0
  blockStreak := 0
  violationCount := 0
  budgetExceeded := false
  externalBlocker := none
  status := "running"

/-- `tick`, on the row of the file if there is one; the result is the new file. -/
def tick (file : Option RunState) (madeProgress : Bool) (violationCount : ℕ)
    (externalBlocker : Option String) (budgetExceeded : Bool) : RunState :=
  let row := file.getD (RunState.init "unknown")
  { row with
    iterationCount := row.iterationCount + 1
    noProgressN := if madeProgress then 0 else row.noProgressN + 1
    blockStreak :=
      if madeProgress then 0 else row.blockStreak + (if violationCount ≠ 0 then 1 else 0)
    violationCount := violationCount
    externalBlocker := externalBlocker
    budgetExceeded := budgetExceeded }

/-! ## The gate -/

inductive Action where
  | advance
  | selfHeal
  | handoff
  deriving DecidableEq

structure Decision where
  action : Action
  code : String
  reason : String
  prompt : Option String
  runState : RunState
  deriving DecidableEq

/-- What the caller hands to the depth pillars.  A single path stands for a list
of one. -/
structure DepthFeed where
  changedFiles : List String
  baselineCommit : Option String
  featureListPath : Option String
  knownIds : List String

structure Pillars where
  semgrep : List String → Option String → Verdict
  orphans : List String → String → List String → Option String → Verdict

def escalate (file : Option RunState) (maxSelfHeal : ℤ) (code reason prompt : String)
    (violationCount : ℕ) : Decision :=
  let rs := tick file false violationCount none false
  if maxSelfHeal ≤ rs.blockStreak then
    { action := .handoff
      code := code
      reason := reason ++ " (unresolved after " ++ toString rs.blockStreak ++
        " self-heal attempts — escalating to HANDOFF, not Done)"
      prompt := none
      runState := rs }
  else
    { action := .selfHeal, code := code, reason := reason, prompt := some prompt, runState := rs }

/-- The verdicts of the pillars that reject, Semgrep's first. -/
def depthRejections (pillars : Pillars) (feed : DepthFeed) : List Verdict :=
  if feed.changedFiles = [] then []
  else
    let semgrep := pillars.semgrep feed.changedFiles feed.baselineCommit
    let orphans :=
      match feed.featureListPath with
      | some path =>
          if path = "" then []
          else [pillars.orphans feed.changedFiles path feed.knownIds feed.baselineCommit]
      | none => []
    ([semgrep] ++ orphans).filter fun verdict ↦ !verdict.accepted

def joinedPrompt (rejections : List Verdict) : String :=
  let bullets := "\n".intercalate
    (rejections.map fun r ↦ "  • " ++ EvidenceGate.selfHealPrompt r.code)
  "One or more depth checks rejected the advance:\n" ++ bullets ++
    "\n\nAddress the issues above and attempt the advance again."

def gatedAdvance (py : Stdlib) (pillars : Pillars) (file : Option RunState) (evidence : Json)
    (artifact : Option String) (ledger : Json) (maxSelfHeal : ℤ) (feed : DepthFeed) :
    Decision :=
  let res := EvidenceGate.checkSlice py evidence artifact ledger
  if !res.accepted then
    escalate file maxSelfHeal res.code res.reason (EvidenceGate.selfHealPrompt res.code) 1
  else
    match depthRejections pillars feed with
    | [] =>
        { action := .advance
          code := "OK"
          reason := res.reason
          prompt := none
          runState := tick file true 0 none false }
    | first :: rest =>
        let rejections := first :: rest
        escalate file maxSelfHeal first.code ("; ".intercalate (rejections.map Verdict.reason))
          (joinedPrompt rejections) rejections.length

theorem escalate_action_ne_advance (file : Option RunState) (maxSelfHeal : ℤ)
    (code reason prompt : String) (violationCount : ℕ) :
    (escalate file maxSelfHeal code reason prompt violationCount).action ≠ .advance := by
  unfold escalate
  dsimp only
  split_ifs <;> simp

/-- The gate advances only on evidence that `check_slice` accepts. -/
theorem accepted_of_advance {py : Stdlib} {pillars : Pillars} {file : Option RunState}
    {evidence ledger : Json} {artifact : Option String} {maxSelfHeal : ℤ} {feed : DepthFeed}
    (h : (gatedAdvance py pillars file evidence artifact ledger maxSelfHeal feed).action =
      .advance) :
    (EvidenceGate.checkSlice py evidence artifact ledger).accepted = true := by
  by_contra hrejected
  have hfalse : (EvidenceGate.checkSlice py evidence artifact ledger).accepted = false := by
    simpa using hrejected
  simp only [gatedAdvance, hfalse, Bool.not_false, if_true] at h
  exact escalate_action_ne_advance _ _ _ _ _ _ h

end AgenticSDLC.LoopGate
