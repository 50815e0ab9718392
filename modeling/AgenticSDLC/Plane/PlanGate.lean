import AgenticSDLC.Foundations.Runs
import AgenticSDLC.Plane.PlaneClient

/-!
# The human plan gate

Runs of `transition` on one item that starts in Backlog.  Every way into the
gated states goes through Plan-Approved, except the recovery edge of an item
that was blocked before its plan was approved.
-/

namespace AgenticSDLC.PlaneClient

open Runs

/-- One call of `transition`, with the environment of its process. -/
structure TransitionCall where
  toState : State
  role : Role
  env : Env

variable (board : Board)

/-- A refused call leaves the item as it is. -/
def transitionStep (item : Item) (call : TransitionCall) : Item :=
  match transition board call.env item call.toState call.role with
  | .ok item' => item'
  | .error _ => item

def runTransitions (start : Item) (calls : List TransitionCall) : Item :=
  calls.foldl (transitionStep board) start

theorem runTransitions_append_singleton (start : Item) (calls : List TransitionCall)
    (call : TransitionCall) :
    runTransitions board start (calls ++ [call]) =
      transitionStep board (runTransitions board start calls) call := by
  simp [runTransitions]

def Accepts (item : Item) (call : TransitionCall) : Prop :=
  ∃ item', transition board call.env item call.toState call.role = .ok item'

/-- A step either moves the item along a legal edge to the state asked for, or
changes nothing. -/
theorem transitionStep_cases (item : Item) (call : TransitionCall) :
    (Accepts board item call ∧
        (∃ cur, board.stateOf item = some cur ∧ legalEdge cur call.toState = true) ∧
          board.stateOf (transitionStep board item call) = some call.toState) ∨
      (¬Accepts board item call ∧ transitionStep board item call = item) := by
  unfold Accepts transitionStep
  cases h : transition board call.env item call.toState call.role with
  | ok item' =>
      obtain ⟨-, cur, sid, hcur, hedge, -⟩ := transition_eq_ok_iff.mp h
      exact Or.inl ⟨⟨item', rfl⟩, ⟨cur, hcur, hedge⟩, stateOf_transition h⟩
  | error exc => exact Or.inr ⟨by simp, rfl⟩

theorem checkActor_of_accepts {item : Item} {call : TransitionCall}
    (h : Accepts board item call) : checkActor call.role call.toState call.env = .ok () :=
  h.elim fun _ h ↦ (transition_eq_ok_iff.mp h).1

/-! ## The gated part of the graph -/

def gatedStates : List State := [.agentExecuting, .inVerification, .humanReview, .done]

/-- The gated states are entered from each other, from Plan-Approved, and from
Blocked. -/
theorem legalEdge_gated {cur toState : State} (hgated : toState ∈ gatedStates)
    (h : legalEdge cur toState = true) :
    cur ∈ gatedStates ∨ cur = .planApproved ∨ (cur = .blocked ∧ toState = .agentExecuting) := by
  simp only [gatedStates, List.mem_cons, List.not_mem_nil, or_false] at hgated
  rcases hgated with rfl | rfl | rfl | rfl <;> cases cur <;>
    simp_all [legalEdge, universal, terminal, recovery, extraEdges, forward, gatedStates]

theorem role_of_checkActor_planApproved {role : Role} {env : Env}
    (h : checkActor role .planApproved env = .ok ()) : role = .human := by
  by_contra hrole
  simp [checkActor, transitionAuth, hrole] at h

/-! ## Runs -/

section Run

variable (start : Item)

/-- The call moves the item into Plan-Approved, and `check_actor` accepts it for
the human role with its secret. -/
def Approves (before : List TransitionCall) (call : TransitionCall) : Prop :=
  call.toState = .planApproved ∧ call.role = .human ∧
    checkActor .human .planApproved call.env = .ok () ∧
      Accepts board (runTransitions board start before) call

/-- The call takes the item out of Blocked by the recovery edge. -/
def Recovers (before : List TransitionCall) (call : TransitionCall) : Prop :=
  board.stateOf (runTransitions board start before) = some .blocked ∧
    call.toState = .agentExecuting ∧ Accepts board (runTransitions board start before) call

/-- In a gated state, the item was approved at some earlier point. -/
def GateKept (calls : List TransitionCall) : Prop :=
  ∀ state ∈ gatedStates, board.stateOf (runTransitions board start calls) = some state →
    SomeStep (Approves board start) calls

def RecoversApprovedOnly (before : List TransitionCall) (call : TransitionCall) : Prop :=
  Recovers board start before call → SomeStep (Approves board start) before

/-- `GateKept` with Plan-Approved itself among the states, which makes it
inductive. -/
def GateInvariant (calls : List TransitionCall) : Prop :=
  ∀ state, state ∈ gatedStates ∨ state = .planApproved →
    board.stateOf (runTransitions board start calls) = some state →
      SomeStep (Approves board start) calls

theorem gateInvariant_step {before : List TransitionCall} {call : TransitionCall}
    (hinv : GateInvariant board start before)
    (hrecovers : RecoversApprovedOnly board start before call) :
    GateInvariant board start (before ++ [call]) := by
  intro state hstate hafter
  rw [someStep_append_singleton]
  rw [runTransitions_append_singleton] at hafter
  rcases transitionStep_cases board (runTransitions board start before) call with
    ⟨haccepts, ⟨cur, hcur, hedge⟩, hmoved⟩ | ⟨-, hsame⟩
  · obtain rfl : call.toState = state := Option.some.inj (hmoved.symm.trans hafter)
    rcases hstate with hgated | hplan
    · left
      rcases legalEdge_gated hgated hedge with hcurGated | rfl | ⟨rfl, hexecuting⟩
      · exact hinv cur (Or.inl hcurGated) hcur
      · exact hinv .planApproved (Or.inr rfl) hcur
      · exact hrecovers ⟨hcur, hexecuting, haccepts⟩
    · right
      have hactor := checkActor_of_accepts board haccepts
      rw [hplan] at hactor
      have hhuman := role_of_checkActor_planApproved hactor
      exact ⟨hplan, hhuman, hhuman ▸ hactor, haccepts⟩
  · rw [hsame] at hafter
    exact Or.inl (hinv state hstate hafter)

/-- The plan gate is kept at every point of a run exactly when the run never
recovers an item that has not been approved. -/
theorem planGate_kept_iff (hstart : board.stateOf start = some .backlog)
    (calls : List TransitionCall) :
    EachPoint (GateKept board start) calls ↔
      EachStep (RecoversApprovedOnly board start) calls := by
  constructor
  · rintro hkept before call after rfl hrecovers
    obtain ⟨-, hexecuting, haccepts⟩ := id hrecovers
    have hafter : board.stateOf (runTransitions board start (before ++ [call])) =
        some .agentExecuting := by
      rw [runTransitions_append_singleton]
      rcases transitionStep_cases board (runTransitions board start before) call with
        ⟨-, -, hmoved⟩ | ⟨hrefused, -⟩
      · rw [hmoved, hexecuting]
      · exact absurd haccepts hrefused
    have happroved := hkept (before ++ [call]) (by simp) .agentExecuting
      (by simp [gatedStates]) hafter
    rcases someStep_append_singleton.mp happroved with hearlier | ⟨hplan, -⟩
    · exact hearlier
    · simp [hexecuting] at hplan
  · intro hrecovers
    have hinv : EachPoint (GateInvariant board start) calls := by
      refine eachPoint_of_eachStep ?_ (fun before call ↦ gateInvariant_step board start) hrecovers
      intro state hstate hnow
      obtain rfl : State.backlog = state := Option.some.inj (hstart.symm.trans hnow)
      simp [gatedStates] at hstate
    exact fun before hbefore state hstate ↦ hinv before hbefore state (Or.inl hstate)

end Run

/-- An implementer without any secret blocks the item in Backlog and recovers it. -/
def blockThenRecover : List TransitionCall :=
  [⟨.blocked, .implementer, fun _ ↦ none⟩, ⟨.agentExecuting, .implementer, fun _ ↦ none⟩]

theorem planGate_bypassed :
    sampleBoard.stateOf (sampleItem "id-01") = some .backlog ∧
      ¬EachPoint (GateKept sampleBoard (sampleItem "id-01")) blockThenRecover := by
  refine ⟨rfl, fun hkept ↦ ?_⟩
  have happroved : SomeStep (Approves sampleBoard (sampleItem "id-01")) blockThenRecover :=
    hkept blockThenRecover List.prefix_rfl .agentExecuting (by simp [gatedStates]) rfl
  obtain ⟨before, call, after, hcalls, hplan, -⟩ := happroved
  have hmem : call ∈ blockThenRecover := by simp [hcalls]
  rcases List.mem_cons.mp hmem with rfl | hlast
  · cases hplan
  · obtain rfl := List.mem_singleton.mp hlast
    cases hplan

theorem planGate_kept_sample :
    EachPoint (GateKept sampleBoard (sampleItem "id-01")) blockThenRecover ↔
      EachStep (RecoversApprovedOnly sampleBoard (sampleItem "id-01")) blockThenRecover :=
  planGate_kept_iff sampleBoard (sampleItem "id-01") rfl blockThenRecover

end AgenticSDLC.PlaneClient
