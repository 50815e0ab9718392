import Mathlib.Data.List.Infix

/-!
# Runs

A run is the list of the calls made so far, oldest first; the state it leads to
is a fold.  Properties of a run speak of its steps, each given by the calls
before it and its own call, or of its points, the prefixes.  The rules below add
one call at the end.
-/

namespace Runs

variable {α σ : Type}

/-- `P` holds of every call together with the calls before it. -/
def EachStep (P : List α → α → Prop) (calls : List α) : Prop :=
  ∀ before call after, calls = before ++ call :: after → P before call

def SomeStep (P : List α → α → Prop) (calls : List α) : Prop :=
  ∃ before call after, calls = before ++ call :: after ∧ P before call

/-- `P` holds at the start of the run and after each of its calls. -/
def EachPoint (P : List α → Prop) (calls : List α) : Prop :=
  ∀ before, before <+: calls → P before

theorem append_singleton_eq_iff {calls before after : List α} {last call : α} :
    calls ++ [last] = before ++ call :: after ↔
      (calls = before ∧ last = call ∧ after = []) ∨
        ∃ rest, after = rest ++ [last] ∧ calls = before ++ call :: rest := by
  induction after using List.reverseRecOn with
  | nil => simp
  | append_singleton rest final _ =>
      have hassoc : before ++ call :: (rest ++ [final]) = (before ++ call :: rest) ++ [final] := by
        simp
      rw [hassoc]
      constructor
      · intro h
        obtain ⟨hcalls, hlast⟩ := List.append_inj' h rfl
        exact Or.inr ⟨rest, by rw [List.singleton_inj.mp hlast], hcalls⟩
      · rintro (⟨-, -, hnil⟩ | ⟨other, hother, hcalls⟩)
        · simp at hnil
        · obtain ⟨hrest, hlast⟩ := List.append_inj' hother rfl
          rw [hcalls, hrest, hlast]

@[simp] theorem eachStep_nil (P : List α → α → Prop) : EachStep P [] := by
  intro before call after h
  simp at h

theorem eachStep_cons {P : List α → α → Prop} {call : α} {calls : List α} :
    EachStep P (call :: calls) ↔ P [] call ∧ EachStep (fun before ↦ P (call :: before)) calls := by
  constructor
  · intro h
    refine ⟨h [] call calls rfl, fun before other after hcalls ↦ ?_⟩
    exact h (call :: before) other after (by rw [hcalls, List.cons_append])
  · rintro ⟨hfirst, hrest⟩ before other after hcalls
    cases before with
    | nil =>
        obtain ⟨rfl, rfl⟩ := List.cons.inj hcalls
        exact hfirst
    | cons first before =>
        obtain ⟨rfl, rfl⟩ := List.cons.inj hcalls
        exact hrest before other after rfl

theorem eachStep_append_singleton {P : List α → α → Prop} {calls : List α} {last : α} :
    EachStep P (calls ++ [last]) ↔ EachStep P calls ∧ P calls last := by
  constructor
  · intro h
    refine ⟨fun before call after hcalls ↦ ?_, h calls last [] rfl⟩
    exact h before call (after ++ [last]) (append_singleton_eq_iff.mpr
      (Or.inr ⟨after, rfl, hcalls⟩))
  · rintro ⟨hcalls, hlast⟩ before call after h
    rcases append_singleton_eq_iff.mp h with ⟨rfl, rfl, -⟩ | ⟨rest, -, hrest⟩
    · exact hlast
    · exact hcalls before call rest hrest

@[simp] theorem not_someStep_nil (P : List α → α → Prop) : ¬SomeStep P [] := by
  rintro ⟨before, call, after, h, -⟩
  simp at h

theorem someStep_append_singleton {P : List α → α → Prop} {calls : List α} {last : α} :
    SomeStep P (calls ++ [last]) ↔ SomeStep P calls ∨ P calls last := by
  constructor
  · rintro ⟨before, call, after, h, hP⟩
    rcases append_singleton_eq_iff.mp h with ⟨rfl, rfl, -⟩ | ⟨rest, -, hrest⟩
    · exact Or.inr hP
    · exact Or.inl ⟨before, call, rest, hrest, hP⟩
  · rintro (⟨before, call, after, rfl, hP⟩ | hP)
    · exact ⟨before, call, after ++ [last], by simp, hP⟩
    · exact ⟨calls, last, [], rfl, hP⟩

theorem eachStep_congr {P Q : List α → α → Prop} (h : ∀ before call, P before call ↔ Q before call)
    (calls : List α) : EachStep P calls ↔ EachStep Q calls := by
  simp only [EachStep, h]

theorem eachPoint_iff_forall_mem_inits {P : List α → Prop} {calls : List α} :
    EachPoint P calls ↔ ∀ before ∈ calls.inits, P before := by
  simp only [EachPoint, List.mem_inits]

/-- A property of points that every step keeps, on the steps that meet `P`. -/
theorem eachPoint_of_eachStep {I : List α → Prop} {P : List α → α → Prop} (hnil : I [])
    (hstep : ∀ before call, I before → P before call → I (before ++ [call])) {calls : List α}
    (h : EachStep P calls) : EachPoint I calls := by
  induction calls using List.reverseRecOn with
  | nil =>
      intro before hbefore
      rwa [List.prefix_nil.mp hbefore]
  | append_singleton calls last ih =>
      obtain ⟨hcalls, hlast⟩ := eachStep_append_singleton.mp h
      intro before hbefore
      rcases List.prefix_concat_iff.mp hbefore with rfl | hpre
      · exact hstep calls last (ih hcalls calls List.prefix_rfl) hlast
      · exact ih hcalls before hpre

/-- A property of points that each step keeps just when it meets `P`. -/
theorem eachPoint_iff_eachStep {I : List α → Prop} {P : List α → α → Prop} (hnil : I [])
    (hstep : ∀ before call, I before → (P before call ↔ I (before ++ [call]))) {calls : List α} :
    EachPoint I calls ↔ EachStep P calls := by
  constructor
  · intro h before call after hcalls
    have hprefix : before ++ [call] <+: calls := ⟨after, by simp [hcalls]⟩
    exact (hstep before call (h before ((List.prefix_append before [call]).trans hprefix))).mpr
      (h _ hprefix)
  · exact eachPoint_of_eachStep hnil fun before call hbefore ↦ (hstep before call hbefore).mp

end Runs
