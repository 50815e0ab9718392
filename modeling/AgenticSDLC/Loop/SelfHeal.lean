import AgenticSDLC.Evidence.RecordFormat
import AgenticSDLC.Foundations.Runs
import AgenticSDLC.Loop.LoopGate

/-!
# Bounded self-healing

Runs of `gated_advance` and `tick` over one run state file.  Each decision ticks the file
once, and the streak of blocks that it counts turns self-healing into a hand-off.  A depth
pillar may raise instead of giving a verdict; then the gate raises before it ticks.
-/

namespace AgenticSDLC.SelfHeal

open LoopGate (Action Decision DepthFeed Pillars RunState)
open EvidenceGate (Verdict checkSlice)
open Python (Exception Stdlib)
open Runs

/-! ## Calls -/

/-- The verdicts of the pillars that run. -/
def ran (pillars : Pillars) (feed : DepthFeed) : List Verdict :=
  if feed.changedFiles = [] then []
  else
    let orphans :=
      match feed.featureListPath with
      | some path =>
          if path = "" then []
          else [pillars.orphans feed.changedFiles path feed.knownIds feed.baselineCommit]
      | none => []
    pillars.semgrep feed.changedFiles feed.baselineCommit :: orphans

/-- Pillars that have nothing to look at. -/
def idlePillars : Pillars where
  semgrep := fun _ _ ↦ ⟨true, "OK", "no changed files; depth pillar skips"⟩
  orphans := fun _ _ _ _ ↦ ⟨true, "OK", "no changed files; depth pillar skips"⟩

/-- The arguments of `gated_advance`, and what its pillars come to: their verdicts, or what
the first of them raises. -/
structure Attempt where
  evidence : Json
  artifact : Option String
  ledger : Json
  feed : DepthFeed
  pillars : Except Exception Pillars

inductive Call where
  | gatedAdvance (attempt : Attempt)
  | tick (madeProgress : Bool) (violationCount : ℕ) (externalBlocker : Option String)
      (budgetExceeded : Bool)

def Call.isGated : Call → Bool
  | .gatedAdvance _ => true
  | .tick .. => false

section Calls

variable (py : Stdlib) (maxSelfHeal : ℤ)

def Attempt.accepted (attempt : Attempt) : Bool :=
  (checkSlice py attempt.evidence attempt.artifact attempt.ledger).accepted

/-- `gated_advance`; a pillar raises only where it runs. -/
def Attempt.decide (attempt : Attempt) (file : Option RunState) : Except Exception Decision :=
  let decideWith := fun pillars ↦ LoopGate.gatedAdvance py pillars file attempt.evidence
    attempt.artifact attempt.ledger maxSelfHeal attempt.feed
  match attempt.pillars with
  | .ok pillars => .ok (decideWith pillars)
  | .error exc =>
      if attempt.accepted py && !attempt.feed.changedFiles.isEmpty then .error exc
      else .ok (decideWith idlePillars)

/-- The verdicts that an attempt comes to see. -/
def Attempt.verdicts (attempt : Attempt) : List Verdict :=
  match attempt.pillars with
  | .ok pillars => ran pillars attempt.feed
  | .error _ => []

def step (file : Option RunState) : Call → Option RunState
  | .gatedAdvance attempt =>
      match attempt.decide py maxSelfHeal file with
      | .ok decision => some decision.runState
      | .error _ => file
  | .tick madeProgress violationCount externalBlocker budgetExceeded =>
      some (LoopGate.tick file madeProgress violationCount externalBlocker budgetExceeded)

def run (file : Option RunState) (calls : List Call) : Option RunState :=
  calls.foldl (step py maxSelfHeal) file

/-- What a call returns for the loop to do. -/
def actionOf (file : Option RunState) : Call → Option Action
  | .gatedAdvance attempt =>
      match attempt.decide py maxSelfHeal file with
      | .ok decision => some decision.action
      | .error _ => none
  | .tick .. => none

def actions (file : Option RunState) : List Call → List (Option Action)
  | [] => []
  | call :: calls =>
      actionOf py maxSelfHeal file call :: actions (step py maxSelfHeal file call) calls

end Calls

/-- The row of the file, or the one that the first tick starts from. -/
def rowOf (file : Option RunState) : RunState := file.getD (RunState.init "unknown")

def isReject : Option Action → Bool
  | some .selfHeal | some .handoff => true
  | some .advance | none => false

/-- The rejects after the last advance. -/
def rejectsSinceAdvance (actions : List (Option Action)) : ℕ :=
  (actions.reverse.takeWhile fun action ↦ action ≠ some .advance).countP isReject

def Ordered (row : RunState) : Prop :=
  row.blockStreak ≤ row.noProgressN ∧ row.noProgressN ≤ row.iterationCount

/-- What the decision on an attempt is, given the file before it. -/
structure DecisionLaw (py : Stdlib) (maxSelfHeal : ℤ) (file : Option RunState) (attempt : Attempt)
    (decision : Decision) : Prop where
  ticks : ∃ madeProgress violationCount,
    decision.runState = LoopGate.tick file madeProgress violationCount none false
  once : decision.runState.iterationCount = (rowOf file).iterationCount + 1
  advance : decision.action = .advance ↔
    attempt.accepted py = true ∧ ∀ verdict ∈ attempt.verdicts, verdict.accepted = true
  isolated : attempt.accepted py = false → ∀ feed pillars,
    Attempt.decide py maxSelfHeal { attempt with feed := feed, pillars := pillars } file =
      .ok decision
  streak : decision.action ≠ .advance →
    decision.runState.blockStreak = (rowOf file).blockStreak + 1
  handoff : decision.action ≠ .advance →
    (decision.action = .handoff ↔ maxSelfHeal ≤ decision.runState.blockStreak)
  reset : decision.action = .advance → decision.runState.blockStreak = 0

/-! ## One decision -/

section Decision

variable {py : Stdlib} {maxSelfHeal : ℤ} {file : Option RunState}

theorem depthRejections_eq (pillars : Pillars) (feed : DepthFeed) :
    LoopGate.depthRejections pillars feed =
      (ran pillars feed).filter fun verdict ↦ !verdict.accepted := by
  rw [LoopGate.depthRejections, ran]
  split_ifs
  · rfl
  · rfl

/-- What `escalate` comes to: one tick without progress, and a hand-off at the bound. -/
structure Escalation (maxSelfHeal : ℤ) (file : Option RunState) (decision : Decision) : Prop where
  ticks : ∃ violationCount,
    decision.runState = LoopGate.tick file false violationCount none false
  streak : decision.runState.blockStreak = (rowOf file).blockStreak + 1
  ne_advance : decision.action ≠ .advance
  handoff : decision.action = .handoff ↔ maxSelfHeal ≤ decision.runState.blockStreak

theorem escalate_spec (file : Option RunState) (maxSelfHeal : ℤ) (code reason prompt : String)
    {violationCount : ℕ} (hcount : violationCount ≠ 0) :
    Escalation maxSelfHeal file
      (LoopGate.escalate file maxSelfHeal code reason prompt violationCount) := by
  have hstreak : (LoopGate.tick file false violationCount none false).blockStreak =
      (rowOf file).blockStreak + 1 := by
    simp only [LoopGate.tick, Bool.false_eq_true, if_false, if_pos hcount, rowOf]
  have hstate : (LoopGate.escalate file maxSelfHeal code reason prompt violationCount).runState =
      LoopGate.tick file false violationCount none false := by
    rw [LoopGate.escalate, apply_ite Decision.runState, ite_self]
  refine ⟨⟨violationCount, hstate⟩, ?_, ?_, ?_⟩
  · rw [hstate, hstreak]
  · exact LoopGate.escalate_action_ne_advance file maxSelfHeal code reason prompt violationCount
  · rw [hstate, LoopGate.escalate]
    split_ifs with hbound
    · exact iff_of_true (Eq.refl _) hbound
    · exact iff_of_false (by simp) hbound

theorem gatedAdvance_of_rejected {attempt : Attempt} (h : attempt.accepted py = false)
    (pillars : Pillars) (feed : DepthFeed) :
    LoopGate.gatedAdvance py pillars file attempt.evidence attempt.artifact attempt.ledger
        maxSelfHeal feed =
      LoopGate.escalate file maxSelfHeal
        (checkSlice py attempt.evidence attempt.artifact attempt.ledger).code
        (checkSlice py attempt.evidence attempt.artifact attempt.ledger).reason
        (EvidenceGate.selfHealPrompt
          (checkSlice py attempt.evidence attempt.artifact attempt.ledger).code) 1 := by
  rw [Attempt.accepted] at h
  simp only [LoopGate.gatedAdvance, h, Bool.not_false, if_true]

/-- With accepted evidence the pillars that run have the say. -/
theorem gatedAdvance_of_accepted {attempt : Attempt} (h : attempt.accepted py = true)
    (pillars : Pillars) (feed : DepthFeed) {decision : Decision}
    (hdecision : LoopGate.gatedAdvance py pillars file attempt.evidence attempt.artifact
      attempt.ledger maxSelfHeal feed = decision) :
    ((∀ verdict ∈ ran pillars feed, verdict.accepted = true) ∧ decision.action = .advance ∧
        decision.runState = LoopGate.tick file true 0 none false) ∨
      ((¬∀ verdict ∈ ran pillars feed, verdict.accepted = true) ∧
        Escalation maxSelfHeal file decision) := by
  rw [Attempt.accepted] at h
  simp only [LoopGate.gatedAdvance, h, Bool.not_true, Bool.false_eq_true, if_false] at hdecision
  cases hrejections : LoopGate.depthRejections pillars feed with
  | nil =>
      rw [hrejections] at hdecision
      rw [depthRejections_eq, List.filter_eq_nil_iff] at hrejections
      refine Or.inl ⟨fun verdict hverdict ↦ ?_, ?_, ?_⟩
      · simpa using hrejections verdict hverdict
      · rw [← hdecision]
      · rw [← hdecision]
  | cons first rest =>
      rw [hrejections] at hdecision
      refine Or.inr ⟨fun hall ↦ ?_, ?_⟩
      · have hmem : first ∈ (ran pillars feed).filter fun verdict ↦ !verdict.accepted := by
          rw [← depthRejections_eq, hrejections]
          exact List.mem_cons_self
        obtain ⟨hran, hrejected⟩ := List.mem_filter.mp hmem
        rw [hall first hran] at hrejected
        cases hrejected
      · rw [← hdecision]
        apply escalate_spec
        simp

theorem ran_of_idle {feed : DepthFeed} (h : feed.changedFiles.isEmpty = true) (pillars : Pillars) :
    ran pillars feed = [] := by
  rw [ran, if_pos (List.isEmpty_iff.mp h)]

/-- A decision is that of the gate on some pillars with the verdicts of the attempt. -/
theorem exists_of_decide {attempt : Attempt} {decision : Decision}
    (h : attempt.decide py maxSelfHeal file = .ok decision) :
    ∃ pillars, LoopGate.gatedAdvance py pillars file attempt.evidence attempt.artifact
        attempt.ledger maxSelfHeal attempt.feed = decision ∧
      (attempt.accepted py = true → ran pillars attempt.feed = attempt.verdicts) := by
  rw [Attempt.decide] at h
  cases hpillars : attempt.pillars with
  | ok pillars =>
      rw [hpillars] at h
      refine ⟨pillars, Except.ok.inj h, fun _ ↦ ?_⟩
      rw [Attempt.verdicts, hpillars]
  | error exc =>
      rw [hpillars] at h
      simp only at h
      split_ifs at h with hraises
      refine ⟨idlePillars, Except.ok.inj h, fun haccepted ↦ ?_⟩
      rw [haccepted, Bool.true_and, Bool.not_eq_true', Bool.not_eq_false] at hraises
      rw [ran_of_idle hraises, Attempt.verdicts, hpillars]

/-- When the evidence is rejected, no pillar and no depth input counts. -/
theorem decide_of_rejected {attempt : Attempt} (h : attempt.accepted py = false)
    (feed : DepthFeed) (pillars : Except Exception Pillars) :
    Attempt.decide py maxSelfHeal { attempt with feed := feed, pillars := pillars } file =
      attempt.decide py maxSelfHeal file := by
  have hgate := @gatedAdvance_of_rejected py maxSelfHeal file attempt h
  have haccepted : Attempt.accepted py { attempt with feed := feed, pillars := pillars } = false := h
  rw [Attempt.decide, Attempt.decide, haccepted, h]
  cases pillars <;> cases hpillars : attempt.pillars <;>
    simp only [hgate, Bool.false_and, Bool.false_eq_true, if_false]

theorem tick_iterationCount (madeProgress : Bool) (violationCount : ℕ)
    (externalBlocker : Option String) (budgetExceeded : Bool) :
    (LoopGate.tick file madeProgress violationCount externalBlocker budgetExceeded).iterationCount =
      (rowOf file).iterationCount + 1 := by
  rw [LoopGate.tick, rowOf]

theorem Escalation.law {attempt : Attempt} {decision : Decision}
    (h : Escalation maxSelfHeal file decision)
    (hadvance : ¬(attempt.accepted py = true ∧
      ∀ verdict ∈ attempt.verdicts, verdict.accepted = true))
    (hdecide : attempt.decide py maxSelfHeal file = .ok decision) :
    DecisionLaw py maxSelfHeal file attempt decision := by
  obtain ⟨violationCount, hticks⟩ := h.ticks
  refine ⟨⟨false, violationCount, hticks⟩, ?_, ?_, ?_, fun _ ↦ h.streak, fun _ ↦ h.handoff, ?_⟩
  · rw [hticks, tick_iterationCount]
  · exact iff_of_false h.ne_advance hadvance
  · intro hrejected feed pillars
    rw [decide_of_rejected hrejected, hdecide]
  · exact fun hyes ↦ absurd hyes h.ne_advance

/-- Each decision ticks once, advances on accepted evidence that no pillar rejects, and
hands off at the bound. -/
theorem decision_law {attempt : Attempt} {decision : Decision}
    (h : attempt.decide py maxSelfHeal file = .ok decision) :
    DecisionLaw py maxSelfHeal file attempt decision := by
  obtain ⟨pillars, hgate, hran⟩ := exists_of_decide h
  cases haccepted : attempt.accepted py with
  | false =>
      rw [gatedAdvance_of_rejected haccepted] at hgate
      have hescalation : Escalation maxSelfHeal file decision := by
        rw [← hgate]
        apply escalate_spec
        simp
      refine hescalation.law (fun hyes ↦ ?_) h
      rw [haccepted] at hyes
      cases hyes.1
  | true =>
      rcases gatedAdvance_of_accepted haccepted pillars attempt.feed hgate with
        ⟨hall, haction, hticks⟩ | ⟨hnot, hescalation⟩
      · rw [hran haccepted] at hall
        refine ⟨⟨true, 0, hticks⟩, ?_, iff_of_true haction ⟨haccepted, hall⟩, ?_, ?_, ?_, ?_⟩
        · rw [hticks, tick_iterationCount]
        · intro hrejected
          rw [haccepted] at hrejected
          cases hrejected
        · exact fun hno ↦ absurd haction hno
        · exact fun hno ↦ absurd haction hno
        · intro _
          simp only [hticks, LoopGate.tick, if_true]
      · rw [hran haccepted] at hnot
        exact hescalation.law (fun hyes ↦ hnot hyes.2) h

end Decision

/-! ## Runs -/

section Run

variable (py : Stdlib) (maxSelfHeal : ℤ)

theorem run_append (file : Option RunState) (calls later : List Call) :
    run py maxSelfHeal file (calls ++ later) =
      run py maxSelfHeal (run py maxSelfHeal file calls) later :=
  List.foldl_append

theorem actions_append (file : Option RunState) (calls later : List Call) :
    actions py maxSelfHeal file (calls ++ later) = actions py maxSelfHeal file calls ++
      actions py maxSelfHeal (run py maxSelfHeal file calls) later := by
  induction calls generalizing file with
  | nil => rfl
  | cons call calls ih =>
      rw [List.cons_append, actions, ih, actions, List.cons_append]
      rfl

theorem rejectsSinceAdvance_append_singleton (actions : List (Option Action))
    (last : Option Action) :
    rejectsSinceAdvance (actions ++ [last]) =
      if last = some .advance then 0
      else rejectsSinceAdvance actions + (if isReject last = true then 1 else 0) := by
  rw [rejectsSinceAdvance, List.reverse_append, List.reverse_singleton, List.singleton_append]
  by_cases hlast : last = some .advance
  · rw [if_pos hlast, hlast]
    rfl
  · rw [if_neg hlast, List.takeWhile_cons_of_pos (by simpa using hlast), List.countP_cons,
      rejectsSinceAdvance]

variable {py maxSelfHeal} {file : Option RunState}

theorem ordered_tick (h : Ordered (rowOf file)) (madeProgress : Bool) (violationCount : ℕ)
    (externalBlocker : Option String) (budgetExceeded : Bool) :
    Ordered (LoopGate.tick file madeProgress violationCount externalBlocker budgetExceeded) := by
  obtain ⟨hstreak, hiterations⟩ := h
  rw [rowOf] at hstreak hiterations
  cases madeProgress with
  | true => exact ⟨Nat.le_refl 0, Nat.zero_le _⟩
  | false =>
      constructor
      · simp only [LoopGate.tick, Bool.false_eq_true, if_false]
        split_ifs <;> omega
      · simp only [LoopGate.tick, Bool.false_eq_true, if_false]
        omega

/-- No call breaks the order of the counters. -/
theorem ordered_step (h : Ordered (rowOf file)) (call : Call) :
    Ordered (rowOf (step py maxSelfHeal file call)) := by
  cases call with
  | tick madeProgress violationCount externalBlocker budgetExceeded =>
      exact ordered_tick h madeProgress violationCount externalBlocker budgetExceeded
  | gatedAdvance attempt =>
      rw [step]
      cases hdecide : attempt.decide py maxSelfHeal file with
      | error exc => exact h
      | ok decision =>
          obtain ⟨madeProgress, violationCount, hticks⟩ := (decision_law hdecide).ticks
          simp only [rowOf, Option.getD_some, hticks]
          exact ordered_tick h madeProgress violationCount none false

theorem ordered_run (h : Ordered (rowOf file)) (calls : List Call) :
    Ordered (rowOf (run py maxSelfHeal file calls)) := by
  induction calls using List.reverseRecOn with
  | nil => exact h
  | append_singleton calls last ih =>
      rw [run_append]
      exact ordered_step ih last

/-- The streak of the file follows the answers of the gate. -/
theorem blockStreak_step {call : Call} (hgated : call.isGated = true) :
    (rowOf (step py maxSelfHeal file call)).blockStreak =
      if actionOf py maxSelfHeal file call = some .advance then 0
      else (rowOf file).blockStreak +
        (if isReject (actionOf py maxSelfHeal file call) = true then 1 else 0) := by
  cases call with
  | tick => cases hgated
  | gatedAdvance attempt =>
      rw [step, actionOf]
      cases hdecide : attempt.decide py maxSelfHeal file with
      | error exc => simp [isReject]
      | ok decision =>
          have hlaw := decision_law hdecide
          simp only [rowOf, Option.getD_some, Option.some.injEq]
          split_ifs with hadvance hreject
          · exact hlaw.reset hadvance
          · exact hlaw.streak hadvance
          · cases haction : decision.action <;> simp [haction, isReject] at hadvance hreject

theorem blockStreak_run (calls : List Call) (hgated : ∀ call ∈ calls, call.isGated = true)
    (hstart : (rowOf file).blockStreak = 0) :
    (rowOf (run py maxSelfHeal file calls)).blockStreak =
      rejectsSinceAdvance (actions py maxSelfHeal file calls) := by
  induction calls using List.reverseRecOn with
  | nil => exact hstart
  | append_singleton calls last ih =>
      have hrest := ih fun call hcall ↦ hgated call (List.mem_append_left _ hcall)
      have hlast := hgated last (List.mem_append_right _ List.mem_cons_self)
      rw [run_append, actions_append, actions, actions, rejectsSinceAdvance_append_singleton,
        ← hrest]
      exact blockStreak_step hlast

/-- A self-heal is below the bound. -/
theorem lt_of_selfHeal {call : Call} (h : actionOf py maxSelfHeal file call = some .selfHeal) :
    ((rowOf (step py maxSelfHeal file call)).blockStreak : ℤ) < maxSelfHeal := by
  cases call with
  | tick => cases h
  | gatedAdvance attempt =>
      rw [actionOf] at h
      rw [step]
      cases hdecide : attempt.decide py maxSelfHeal file with
      | error exc =>
          rw [hdecide] at h
          cases h
      | ok decision =>
          rw [hdecide] at h
          have haction := Option.some.inj h
          have hhandoff := (decision_law hdecide).handoff (by simp [haction])
          rw [haction] at hhandoff
          simpa [rowOf] using hhandoff

/-- Without an advance the self-heals of a stretch stay below the bound, as each of them
lengthens the streak. -/
theorem count_selfHeal_le (hmax : 1 ≤ maxSelfHeal) (segment : List Call)
    (hgated : ∀ call ∈ segment, call.isGated = true)
    (hadvance : some .advance ∉ actions py maxSelfHeal file segment) :
    (actions py maxSelfHeal file segment).count (some .selfHeal) ≤
        (rowOf (run py maxSelfHeal file segment)).blockStreak ∧
      ((actions py maxSelfHeal file segment).count (some .selfHeal) : ℤ) ≤ maxSelfHeal - 1 := by
  induction segment using List.reverseRecOn with
  | nil =>
      refine ⟨Nat.zero_le _, ?_⟩
      simp only [actions, List.count_nil]
      omega
  | append_singleton segment last ih =>
      rw [actions_append, actions, actions] at hadvance ⊢
      rw [List.mem_append, not_or, List.mem_singleton] at hadvance
      obtain ⟨hstreak, hbound⟩ :=
        ih (fun call hcall ↦ hgated call (List.mem_append_left _ hcall)) hadvance.1
      have hlast := @blockStreak_step py maxSelfHeal (run py maxSelfHeal file segment) last
        (hgated last (List.mem_append_right _ List.mem_cons_self))
      have hrun : run py maxSelfHeal file (segment ++ [last]) =
          step py maxSelfHeal (run py maxSelfHeal file segment) last :=
        run_append py maxSelfHeal file segment [last]
      rw [if_neg (Ne.symm hadvance.2), ← hrun] at hlast
      rw [List.count_append]
      by_cases hheal : actionOf py maxSelfHeal (run py maxSelfHeal file segment) last =
          some .selfHeal
      · have hless := lt_of_selfHeal hheal
        rw [← hrun] at hless
        rw [hheal] at hlast ⊢
        rw [isReject, if_pos (Eq.refl true)] at hlast
        rw [List.count_singleton_self]
        omega
      · rw [List.count_singleton, if_neg (by simpa using hheal), Nat.add_zero]
        omega

/-- Every run from a fresh run state, or from no file at all: the counters stay in order;
each decision ticks once, advances on accepted evidence that no pillar rejects, and hands
off at the bound; and where the gate alone writes, the streak counts the rejects since the
last advance, so fewer self-heals than the bound stand between two advances. -/
theorem selfHeal_bounded (py : Stdlib) {maxSelfHeal : ℤ} (hmax : 1 ≤ maxSelfHeal)
    (sessionId : Option String) (calls : List Call) :
    Ordered (rowOf (run py maxSelfHeal (sessionId.map RunState.init) calls)) ∧
      (∀ attempt decision, attempt.decide py maxSelfHeal
          (run py maxSelfHeal (sessionId.map RunState.init) calls) = .ok decision →
        DecisionLaw py maxSelfHeal (run py maxSelfHeal (sessionId.map RunState.init) calls)
          attempt decision) ∧
      ((∀ call ∈ calls, call.isGated = true) →
        (rowOf (run py maxSelfHeal (sessionId.map RunState.init) calls)).blockStreak =
            rejectsSinceAdvance (actions py maxSelfHeal (sessionId.map RunState.init) calls) ∧
          ∀ before segment after, calls = before ++ segment ++ after →
            some .advance ∉ actions py maxSelfHeal
              (run py maxSelfHeal (sessionId.map RunState.init) before) segment →
            ((actions py maxSelfHeal (run py maxSelfHeal (sessionId.map RunState.init) before)
              segment).count (some .selfHeal) : ℤ) ≤ maxSelfHeal - 1) := by
  have hfresh : (rowOf (sessionId.map RunState.init)).blockStreak = 0 ∧
      Ordered (rowOf (sessionId.map RunState.init)) := by
    cases sessionId <;> exact ⟨Eq.refl 0, Nat.le_refl 0, Nat.le_refl 0⟩
  refine ⟨ordered_run hfresh.2 calls, fun attempt decision hdecide ↦ decision_law hdecide, ?_⟩
  intro hgated
  refine ⟨blockStreak_run calls hgated hfresh.1, ?_⟩
  rintro before segment after rfl hadvance
  refine (count_selfHeal_le hmax segment (fun call hcall ↦ hgated call ?_) hadvance).2
  exact List.mem_append_left _ (List.mem_append_right _ hcall)

end Run

/-! ## Evidence that stays away -/

def missingAttempt : Attempt where
  evidence := .null
  artifact := none
  ledger := .obj []
  feed := ⟨[], none, none, []⟩
  pillars := .ok idlePillars

def missingCalls : List Call := List.replicate 3 (.gatedAdvance missingAttempt)

example : actions EvidenceCollector.zeroLibrary 3 (some (RunState.init "s-1")) missingCalls =
    [some .selfHeal, some .selfHeal, some .handoff] := by
  decide

theorem missingCalls_bounded :
    (rowOf (run EvidenceCollector.zeroLibrary 3 (some (RunState.init "s-1"))
        missingCalls)).blockStreak =
      rejectsSinceAdvance (actions EvidenceCollector.zeroLibrary 3 (some (RunState.init "s-1"))
        missingCalls) :=
  ((selfHeal_bounded EvidenceCollector.zeroLibrary (by decide) (some "s-1") missingCalls).2.2
    (by decide)).1

end AgenticSDLC.SelfHeal
