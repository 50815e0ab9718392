import AgenticSDLC.Durable.Orchestrator

/-!
# The bounded retry of an activity

`run_activity` calls its function until an outcome decides or the attempts are used up.
The outcomes are a stream, of which a run sees the part up to its last call.
-/

namespace AgenticSDLC.DurableOrchestrator

namespace Activity

/-- The outcome of a call ends the retries: a value, a hand-off, or an exception that the
policy does not retry. -/
def decisive (activity : Activity) (call : ℕ) : Bool :=
  match activity.fn call with
  | .returned _ | .handedOff _ => true
  | .failed exc => activity.policy.isNonRetryable (.other exc)

/-- The index of the first call whose outcome decides. -/
structure IsFirstDecisive (activity : Activity) (k : ℕ) : Prop where
  pos : 1 ≤ k
  decides : activity.decisive k = true
  first : ∀ i, 1 ≤ i → i < k → activity.decisive i = false

/-- What a run comes to whose last call is the given one. -/
def resultAfter (activity : Activity) (calls : ℕ) : Except Handoff Json :=
  match activity.fn calls with
  | .returned value => .ok value
  | .handedOff handoff => .error handoff
  | .failed exc => .error (retryBudgetExhausted activity.name calls (some exc))

/-- The loop stops at a call: none before it decides, and it decides or is the last. -/
structure StopsAt (activity : Activity) (left made calls : ℕ) : Prop where
  started : made < calls
  bounded : calls ≤ made + left
  earlier : ∀ i, made < i → i < calls → activity.decisive i = false
  last : activity.decisive calls = true ∨ calls = made + left

theorem StopsAt.succ {activity : Activity} {left made calls : ℕ}
    (h : activity.StopsAt left (made + 1) calls) (hfirst : activity.decisive (made + 1) = false) :
    activity.StopsAt (left + 1) made calls := by
  have hstarted := h.started
  have hbounded := h.bounded
  refine ⟨by omega, by omega, fun i hi hless ↦ ?_, ?_⟩
  · rcases Nat.lt_or_eq_of_le hi with hlater | rfl
    · exact h.earlier i hlater hless
    · exact hfirst
  · refine h.last.imp_right fun hcalls ↦ ?_
    omega

theorem stopsAt_first {activity : Activity} {left made : ℕ}
    (h : activity.decisive (made + 1) = true ∨ left = 0) :
    activity.StopsAt (left + 1) made (made + 1) := by
  refine ⟨by omega, by omega, fun i hi hless ↦ by omega, h.imp_right fun hleft ↦ ?_⟩
  omega

/-- A loop with attempts to go stops at its last call with what that comes to. -/
theorem attempt_spec (activity : Activity) (left made : ℕ)
    (lastError : Option Python.Exception) :
    activity.StopsAt (left + 1) made (activity.attempt (left + 1) made lastError).2 ∧
      (activity.attempt (left + 1) made lastError).1 =
        activity.resultAfter (activity.attempt (left + 1) made lastError).2 := by
  induction left generalizing made lastError with
  | zero =>
      rw [attempt]
      cases hfn : activity.fn (made + 1) with
      | returned value => exact ⟨stopsAt_first (Or.inr rfl), by simp only [resultAfter, hfn]⟩
      | handedOff handoff => exact ⟨stopsAt_first (Or.inr rfl), by simp only [resultAfter, hfn]⟩
      | failed exc =>
          simp only [attempt, ite_self]
          exact ⟨stopsAt_first (Or.inr rfl), by simp only [resultAfter, hfn]⟩
  | succ left ih =>
      rw [attempt]
      cases hfn : activity.fn (made + 1) with
      | returned value =>
          have hdecides : activity.decisive (made + 1) = true := by simp only [decisive, hfn]
          exact ⟨stopsAt_first (Or.inl hdecides), by simp only [resultAfter, hfn]⟩
      | handedOff handoff =>
          have hdecides : activity.decisive (made + 1) = true := by simp only [decisive, hfn]
          exact ⟨stopsAt_first (Or.inl hdecides), by simp only [resultAfter, hfn]⟩
      | failed exc =>
          have hdecides : activity.decisive (made + 1) =
              activity.policy.isNonRetryable (.other exc) := by simp only [decisive, hfn]
          simp only
          split_ifs with hfatal
          · exact ⟨stopsAt_first (Or.inl (hdecides.trans hfatal)), by simp only [resultAfter, hfn]⟩
          · obtain ⟨hstops, hresult⟩ := ih (made + 1) (some exc)
            exact ⟨hstops.succ (hdecides.trans (by simpa using hfatal)), hresult⟩

theorem StopsAt.eq_min {activity : Activity} {left calls k : ℕ} (h : activity.StopsAt left 0 calls)
    (hk : activity.IsFirstDecisive k) : calls = min k left := by
  have hbounded := h.bounded
  rcases Nat.lt_trichotomy calls k with hless | rfl | hmore
  · have hno := hk.first calls h.started hless
    have hleft := h.last.resolve_left (by simp [hno])
    omega
  · omega
  · have hno := h.earlier k hk.pos hmore
    rw [hk.decides] at hno
    cases hno

end Activity

/-- The function is called up to the first outcome that decides, and within the attempts
of the policy; the result is that of the last call. -/
theorem runActivity_bounded (activity : Activity) :
    (∀ k, activity.IsFirstDecisive k →
        (runActivity activity).2 = min k activity.policy.maxAttempts) ∧
      ((∀ i, 1 ≤ i → activity.decisive i = false) →
        (runActivity activity).2 = activity.policy.maxAttempts) ∧
      (runActivity activity).1 =
        match activity.fn (runActivity activity).2 with
        | .returned value => .ok value
        | .handedOff handoff => .error handoff
        | .failed exc => .error
            { reason := "retry-budget-exhausted"
              activity := some activity.name
              attempts := some (runActivity activity).2
              lastError := some exc } := by
  obtain ⟨left, hleft⟩ := Nat.exists_eq_add_of_le' activity.policy.maxAttempts_pos
  have hspec := activity.attempt_spec left 0 none
  rw [← hleft, ← runActivity] at hspec
  obtain ⟨hstops, hresult⟩ := hspec
  refine ⟨fun k hk ↦ hstops.eq_min hk, fun hnone ↦ ?_, hresult⟩
  have hlast := hstops.last.resolve_left (by simp [hnone _ hstops.started])
  omega

end AgenticSDLC.DurableOrchestrator
