import AgenticSDLC.Foundations.Floats
import Mathlib.Data.List.Basic

/-!
# The performance budgets

`verify_performance` of `tools/perf_a11y_verifier.py`: each budgeted metric is compared with
its ceiling.  The comparison asks whether the measurement exceeds the budget, which a NaN
never does.
-/

namespace AgenticSDLC.PerfBudget

/-- A Python value, as far as the verifier tells values apart; `other` are those that are
neither `None` nor a real number nor a boolean. -/
inductive Value (Ω : Type) where
  | none
  | bool (b : Bool)
  | number (x : Number)
  | other (value : Ω)

variable {κ Ω : Type}

structure Violation (κ Ω : Type) where
  metric : Option κ
  measured : Value Ω
  budget : Value Ω
  reason : String

structure Verdict (κ Ω : Type) where
  passed : Bool
  violations : List (Violation κ Ω)

def isRealNumber : Value Ω → Bool
  | .number _ => true
  | _ => false

/-- `measured > budget` of two real numbers. -/
def exceeds : Value Ω → Value Ω → Bool
  | .number measured, .number budget => Number.gt measured budget
  | _, _ => false

variable [DecidableEq κ]

/-- The loop's body: the violation that one budgeted metric adds. -/
def checkMetric (metrics : List (κ × Value Ω)) (metric : κ) (budget : Value Ω) :
    Option (Violation κ Ω) :=
  let measured := (metrics.lookup metric).getD .none
  if !isRealNumber budget then
    some ⟨some metric, measured, budget, "budget value is not numeric"⟩
  else if (metrics.lookup metric).isNone then
    some ⟨some metric, .none, budget, "metric has a budget but no measured value"⟩
  else if !isRealNumber measured then
    some ⟨some metric, measured, budget, "measured value is not numeric"⟩
  else if exceeds measured budget then
    some ⟨some metric, measured, budget, "measured value exceeds budget"⟩
  else none

/-- An argument is `none` where it is not a mapping. -/
def verifyPerformance (metrics budgets : Option (List (κ × Value Ω))) : Verdict κ Ω :=
  let metrics := metrics.getD []
  match budgets with
  | none =>
      { passed := false
        violations := [⟨none, .none, .none,
          "budgets is not a mapping; cannot evaluate perf budgets"⟩] }
  | some budgets =>
      let violations := budgets.filterMap fun b ↦ checkMetric metrics b.1 b.2
      { passed := violations.isEmpty, violations := violations }

/-! ## What the verifier asks -/

/-- The budget is a ceiling, and the measurement a number under it. -/
def Met (metrics : List (κ × Value Ω)) (metric : κ) (budget : Value Ω) : Prop :=
  ∃ ceiling measured, budget = .number ceiling ∧ ceiling ≠ .nan ∧
    metrics.lookup metric = some (.number measured) ∧ Number.le measured ceiling = true

/-- The budget and the measurement are numbers, and one of them is NaN. -/
def Incomparable (metrics : List (κ × Value Ω)) (metric : κ) (budget : Value Ω) : Prop :=
  ∃ ceiling measured, budget = .number ceiling ∧
    metrics.lookup metric = some (.number measured) ∧ (measured = .nan ∨ ceiling = .nan)

/-- The budget is no number, or the measurement is missing, no number, or greater. -/
def Broken (metrics : List (κ × Value Ω)) (metric : κ) (budget : Value Ω) : Prop :=
  isRealNumber budget = false ∨ metrics.lookup metric = none ∨
    ∃ measured, metrics.lookup metric = some measured ∧
      (isRealNumber measured = false ∨ exceeds measured budget = true)

/-- One metric is let through when it meets its budget or cannot be compared with it. -/
theorem checkMetric_eq_none_iff (metrics : List (κ × Value Ω)) (metric : κ) (budget : Value Ω) :
    checkMetric metrics metric budget = none ↔
      Met metrics metric budget ∨ Incomparable metrics metric budget := by
  cases budget with
  | number ceiling =>
      cases hmeasured : metrics.lookup metric with
      | none => simp [checkMetric, hmeasured, Met, Incomparable, isRealNumber]
      | some measured =>
          cases measured with
          | number x =>
              have hgt := Number.gt_eq_false_iff x ceiling
              have hle := @Number.not_nan_of_le x ceiling
              simp only [checkMetric, hmeasured, Met, Incomparable, isRealNumber, exceeds]
              simp
              grind
          | none => simp [checkMetric, hmeasured, Met, Incomparable, isRealNumber]
          | bool b => simp [checkMetric, hmeasured, Met, Incomparable, isRealNumber]
          | other v => simp [checkMetric, hmeasured, Met, Incomparable, isRealNumber]
  | none => simp [checkMetric, Met, Incomparable, isRealNumber]
  | bool b => simp [checkMetric, Met, Incomparable, isRealNumber]
  | other v => simp [checkMetric, Met, Incomparable, isRealNumber]

theorem checkMetric_ne_none_iff (metrics : List (κ × Value Ω)) (metric : κ) (budget : Value Ω) :
    checkMetric metrics metric budget ≠ none ↔ Broken metrics metric budget := by
  cases hmeasured : metrics.lookup metric with
  | none =>
      cases hnumber : isRealNumber budget <;> simp [checkMetric, Broken, hmeasured, hnumber]
  | some measured =>
      cases hbudget : isRealNumber budget with
      | false => simp [checkMetric, Broken, hbudget]
      | true =>
          cases hnumber : isRealNumber measured <;>
            simp [checkMetric, Broken, hmeasured, hbudget, hnumber]

/-- Of the three, `Broken` excludes the others. -/
theorem broken_iff (metrics : List (κ × Value Ω)) (metric : κ) (budget : Value Ω) :
    Broken metrics metric budget ↔
      ¬ Met metrics metric budget ∧ ¬ Incomparable metrics metric budget := by
  rw [← checkMetric_ne_none_iff, Ne, checkMetric_eq_none_iff, not_or]

theorem Met.not_incomparable {metrics : List (κ × Value Ω)} {metric : κ} {budget : Value Ω}
    (h : Met metrics metric budget) : ¬ Incomparable metrics metric budget := by
  obtain ⟨ceiling, measured, rfl, hceiling, hmeasured, hle⟩ := h
  rintro ⟨ceiling', measured', hbudget, hmeasured', hnan⟩
  obtain rfl : ceiling = ceiling' := by simpa using hbudget
  obtain rfl : measured = measured' := by simpa [hmeasured] using hmeasured'
  have hnumbers := Number.not_nan_of_le hle
  exact hnan.elim hnumbers.1 hnumbers.2

theorem passed_iff (metrics budgets : List (κ × Value Ω)) :
    (verifyPerformance (some metrics) (some budgets)).passed = true ↔
      ∀ b ∈ budgets, Met metrics b.1 b.2 ∨ Incomparable metrics b.1 b.2 := by
  simp [verifyPerformance, checkMetric_eq_none_iff]

/-! ## When the verdict is sound -/

/-- The gate passes exactly the met budgets when some budget is broken anyway, or no number is
compared with a NaN. -/
theorem verifyPerformance_fail_closed_iff (metrics budgets : List (κ × Value Ω)) :
    ((verifyPerformance (some metrics) (some budgets)).passed = true ↔
      ∀ b ∈ budgets, Met metrics b.1 b.2) ↔
    (∃ b ∈ budgets, Broken metrics b.1 b.2) ∨
      ∀ b ∈ budgets, ¬ Incomparable metrics b.1 b.2 := by
  rw [passed_iff]
  constructor
  · intro hexact
    by_cases hbroken : ∃ b ∈ budgets, Broken metrics b.1 b.2
    · exact Or.inl hbroken
    · right
      intro b hb
      have hall : ∀ c ∈ budgets, Met metrics c.1 c.2 ∨ Incomparable metrics c.1 c.2 := by
        intro c hc
        by_contra hneither
        apply hbroken
        exact ⟨c, hc, (broken_iff metrics c.1 c.2).mpr (not_or.mp hneither)⟩
      exact (hexact.mp hall b hb).not_incomparable
  · rintro (⟨b, hb, hbroken⟩ | hcomparable)
    · obtain ⟨hunmet, hcomparable⟩ := (broken_iff metrics b.1 b.2).mp hbroken
      constructor
      · intro hall
        exact absurd (hall b hb) (not_or.mpr ⟨hunmet, hcomparable⟩)
      · intro hall
        exact absurd (hall b hb) hunmet
    · constructor
      · intro hall b hb
        exact (hall b hb).resolve_right (hcomparable b hb)
      · intro hall b hb
        exact Or.inl (hall b hb)

/-- A measurement of NaN passes a budget of 200. -/
theorem verifyPerformance_not_fail_closed :
    ¬ ((verifyPerformance (some [("p95_ms", (Value.number .nan : Value Unit))])
        (some [("p95_ms", .number (.ofRat 200))])).passed = true ↔
      ∀ b ∈ [("p95_ms", (Value.number (.ofRat 200) : Value Unit))],
        Met [("p95_ms", Value.number .nan)] b.1 b.2) := by
  have hnan : Incomparable [("p95_ms", (Value.number .nan : Value Unit))] "p95_ms"
      (.number (.ofRat 200)) := ⟨_, _, rfl, rfl, Or.inl rfl⟩
  rw [passed_iff]
  intro hexact
  have hmet := hexact.mp (by simp [hnan]) _ (List.mem_singleton_self _)
  exact hmet.not_incomparable hnan

end AgenticSDLC.PerfBudget
