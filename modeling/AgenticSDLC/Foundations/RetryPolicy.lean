import Mathlib.Data.List.Induction
import Mathlib.Tactic.Common

/-!
# Retries up to a bound

A task is called until it succeeds or has failed as often as the bound allows; then it
is settled, and what could come after does not matter.
-/

namespace RetryPolicy

structure Tally where
  failures : ℕ
  calls : ℕ
  settled : Bool

def Tally.start : Tally := ⟨0, 0, false⟩

/-- The task has its turn; a settled task lets it pass. -/
def Tally.next (bound : ℕ) (tally : Tally) (success : Bool) : Tally :=
  if tally.settled then tally
  else if success then ⟨tally.failures, tally.calls + 1, true⟩
  else ⟨tally.failures + 1, tally.calls + 1, bound ≤ tally.failures + 1⟩

def Tally.after (bound : ℕ) (outcomes : List Bool) : Tally :=
  outcomes.foldl (Tally.next bound) .start

/-- What the outcomes of a task's turns say of its calls. -/
structure Law (bound : ℕ) (outcomes : List Bool) (calls : ℕ) (settled : Prop) : Prop where
  bounded : calls ≤ bound
  waiting : ¬settled → calls = outcomes.length ∧ ∀ outcome ∈ outcomes, outcome = false
  settles : settled → ∃ earlier last later, outcomes = earlier ++ last :: later ∧
    (∀ outcome ∈ earlier, outcome = false) ∧ calls = earlier.length + 1 ∧
    (last = true ∨ calls = bound)

theorem Law.later {bound : ℕ} {outcomes : List Bool} {calls : ℕ} {settled : Prop}
    (h : Law bound outcomes calls settled) (hsettled : settled) (outcome : Bool) :
    Law bound (outcomes ++ [outcome]) calls settled := by
  refine ⟨h.bounded, fun hnot ↦ absurd hsettled hnot, fun _ ↦ ?_⟩
  obtain ⟨earlier, last, later, rfl, hrest⟩ := h.settles hsettled
  exact ⟨earlier, last, later ++ [outcome], by simp, hrest⟩

@[simp] theorem after_append_singleton (bound : ℕ) (outcomes : List Bool) (outcome : Bool) :
    Tally.after bound (outcomes ++ [outcome]) = (Tally.after bound outcomes).next bound outcome :=
  List.foldl_append

/-- A task that waits has failed at each of its calls, and may fail once more. -/
theorem law_after {bound : ℕ} (hbound : 0 < bound) (outcomes : List Bool) :
    Law bound outcomes (Tally.after bound outcomes).calls
        ((Tally.after bound outcomes).settled = true) ∧
      ((Tally.after bound outcomes).settled = false →
        (Tally.after bound outcomes).failures = (Tally.after bound outcomes).calls ∧
        (Tally.after bound outcomes).failures < bound) := by
  induction outcomes using List.reverseRecOn with
  | nil =>
      refine ⟨⟨Nat.zero_le bound, fun _ ↦ ⟨rfl, by simp⟩, ?_⟩, fun _ ↦ ⟨rfl, hbound⟩⟩
      intro hsettled
      cases hsettled
  | append_singleton outcomes outcome ih =>
      obtain ⟨hlaw, hwaiting⟩ := ih
      rw [after_append_singleton]
      generalize Tally.after bound outcomes = tally at hlaw hwaiting ⊢
      rw [Tally.next]
      cases hsettled : tally.settled with
      | true =>
          rw [if_pos rfl]
          refine ⟨hlaw.later hsettled outcome, fun hnot ↦ ?_⟩
          rw [hsettled] at hnot
          cases hnot
      | false =>
          obtain ⟨hfailures, hless⟩ := hwaiting hsettled
          obtain ⟨hcalls, hfailed⟩ := hlaw.waiting (by simp [hsettled])
          have hbounded : tally.calls + 1 ≤ bound := by omega
          rw [if_neg Bool.false_ne_true]
          cases outcome with
          | true =>
              refine ⟨⟨hbounded, fun hnot ↦ absurd rfl hnot, fun _ ↦ ?_⟩, fun hnot ↦ by cases hnot⟩
              exact ⟨outcomes, true, [], rfl, hfailed, congrArg (· + 1) hcalls, Or.inl rfl⟩
          | false =>
              refine ⟨⟨hbounded, fun hnot ↦ ⟨?_, ?_⟩, fun hlast ↦ ?_⟩, fun hnot ↦ ⟨?_, ?_⟩⟩
              · simp [hcalls]
              · intro other hother
                rcases List.mem_append.mp hother with hold | hlast
                · exact hfailed other hold
                · exact List.mem_singleton.mp hlast
              · have hmax : bound ≤ tally.failures + 1 := of_decide_eq_true hlast
                refine ⟨outcomes, false, [], rfl, hfailed, congrArg (· + 1) hcalls, Or.inr ?_⟩
                exact Nat.le_antisymm hbounded (hfailures ▸ hmax)
              · exact congrArg (· + 1) hfailures
              · exact Nat.lt_of_not_le (of_decide_eq_false hnot)

end RetryPolicy
