import Mathlib.Data.List.Basic

/-!
# Computations that may raise

Inversion rules for `Except`: what a successful bind, loop or map was made of.
-/

namespace Outcome

variable {ε α β σ : Type}

@[simp] theorem ok_bind (a : α) (f : α → Except ε β) : (Except.ok a >>= f) = f a := rfl

theorem pure_eq (a : α) : (pure a : Except ε α) = .ok a := rfl

theorem throw_eq (e : ε) : (throw e : Except ε α) = .error e := rfl

theorem bind_eq_ok_iff {x : Except ε α} {f : α → Except ε β} {b : β} :
    (x >>= f) = .ok b ↔ ∃ a, x = .ok a ∧ f a = .ok b := by
  cases x with
  | error e =>
      constructor
      · intro h
        cases h
      · rintro ⟨a, ha, -⟩
        cases ha
  | ok a =>
      constructor
      · exact fun h ↦ ⟨a, rfl, h⟩
      · rintro ⟨a', ha, h⟩
        obtain rfl := Except.ok.inj ha
        exact h

theorem exists_map_iff {x : Except ε α} {f : α → β} : (∃ b, f <$> x = .ok b) ↔ ∃ a, x = .ok a := by
  cases x with
  | error e =>
      constructor
      · rintro ⟨b, ⟨⟩⟩
      · rintro ⟨a, ⟨⟩⟩
  | ok a => exact ⟨fun _ ↦ ⟨a, rfl⟩, fun _ ↦ ⟨f a, rfl⟩⟩

theorem exists_of_isSome {x : Except ε α} (h : x.toOption.isSome = true) : ∃ a, x = .ok a := by
  cases x with
  | error e => cases h
  | ok a => exact ⟨a, rfl⟩

theorem eq_ok_of_toOption {x : Except ε α} {a : α} (h : x.toOption = some a) : x = .ok a := by
  cases x with
  | error e => cases h
  | ok b => exact congrArg Except.ok (Option.some.inj h)

theorem foldlM_cons_eq_ok_iff {step : σ → α → Except ε σ} {s s' : σ} {a : α} {as : List α} :
    (a :: as).foldlM step s = .ok s' ↔
      ∃ next, step s a = .ok next ∧ as.foldlM step next = .ok s' := by
  rw [List.foldlM_cons, bind_eq_ok_iff]

theorem exists_of_mapM_eq_ok {f : α → Except ε β} {xs : List α} {ys : List β}
    (h : xs.mapM f = .ok ys) : ∀ x ∈ xs, ∃ y ∈ ys, f x = .ok y := by
  induction xs generalizing ys with
  | nil => simp
  | cons x xs ih =>
      rw [List.mapM_cons] at h
      obtain ⟨y, hy, hrest⟩ := bind_eq_ok_iff.mp h
      obtain ⟨ys', hys, heq⟩ := bind_eq_ok_iff.mp hrest
      obtain rfl := Except.ok.inj heq
      intro x' hx'
      rcases List.mem_cons.mp hx' with rfl | htail
      · exact ⟨y, List.mem_cons_self, hy⟩
      · obtain ⟨y', hmem, hy'⟩ := ih hys x' htail
        exact ⟨y', List.mem_cons_of_mem y hmem, hy'⟩

theorem mapM_eq_ok_of_forall {f : α → Except ε β} {xs : List α} (h : ∀ x ∈ xs, ∃ y, f x = .ok y) :
    ∃ ys, xs.mapM f = .ok ys := by
  induction xs with
  | nil => exact ⟨[], rfl⟩
  | cons x xs ih =>
      obtain ⟨y, hy⟩ := h x List.mem_cons_self
      obtain ⟨ys, hys⟩ := ih fun other hother ↦ h other (List.mem_cons_of_mem x hother)
      exact ⟨y :: ys, by rw [List.mapM_cons, hy, hys]; rfl⟩

theorem exists_mapM_iff {f : α → Except ε β} {xs : List α} :
    (∃ ys, xs.mapM f = .ok ys) ↔ ∀ x ∈ xs, ∃ y, f x = .ok y := by
  constructor
  · rintro ⟨ys, h⟩ x hx
    obtain ⟨y, -, hy⟩ := exists_of_mapM_eq_ok h x hx
    exact ⟨y, hy⟩
  · exact mapM_eq_ok_of_forall

theorem forall₂_of_mapM_eq_ok {f : α → Except ε β} {xs : List α} {ys : List β}
    (h : xs.mapM f = .ok ys) : List.Forall₂ (fun x y ↦ f x = .ok y) xs ys := by
  induction xs generalizing ys with
  | nil =>
      obtain rfl := Except.ok.inj h
      exact .nil
  | cons x xs ih =>
      rw [List.mapM_cons] at h
      obtain ⟨y, hy, hrest⟩ := bind_eq_ok_iff.mp h
      obtain ⟨ys', hys, heq⟩ := bind_eq_ok_iff.mp hrest
      obtain rfl := Except.ok.inj heq
      exact .cons hy (ih hys)

theorem exists_of_mem_mapM {f : α → Except ε β} {xs : List α} {ys : List β} (h : xs.mapM f = .ok ys) :
    ∀ y ∈ ys, ∃ x ∈ xs, f x = .ok y := by
  have hrel := forall₂_of_mapM_eq_ok h
  clear h
  induction hrel with
  | nil => simp
  | @cons x y xs ys hy _ ih =>
      intro other hother
      rcases List.mem_cons.mp hother with rfl | htail
      · exact ⟨x, List.mem_cons_self, hy⟩
      · obtain ⟨x', hmem, hx'⟩ := ih other htail
        exact ⟨x', List.mem_cons_of_mem x hmem, hx'⟩

/-- Two maps after one another are one, when the second undoes what the first did
wherever that succeeded. -/
theorem mapM_bind_mapM {γ : Type} {f : α → Except ε β} {g : β → Except ε γ} {h : α → Except ε γ}
    (hfg : ∀ x, (f x >>= g) = h x) (hg : ∀ x y, f x = .ok y → ∃ z, g y = .ok z) (xs : List α) :
    (xs.mapM f >>= List.mapM g) = xs.mapM h := by
  induction xs with
  | nil => rfl
  | cons x xs ih =>
      rw [List.mapM_cons, List.mapM_cons, ← hfg, ← ih]
      cases hf : f x with
      | error e => rfl
      | ok y =>
          obtain ⟨z, hz⟩ := hg x y hf
          cases hfs : xs.mapM f with
          | error e => simp [hz, Bind.bind, Except.bind]
          | ok ys => simp [hz, List.mapM_cons, Bind.bind, Except.bind, Pure.pure, Except.pure]

theorem mapM_map (f : α → β) (g : β → Except ε σ) (xs : List α) :
    (xs.map f).mapM g = xs.mapM fun x ↦ g (f x) := by
  induction xs with
  | nil => rfl
  | cons x xs ih => rw [List.map_cons, List.mapM_cons, List.mapM_cons, ih]

theorem mapM_ok (xs : List α) : xs.mapM (fun x ↦ (.ok x : Except ε α)) = .ok xs := by
  induction xs with
  | nil => rfl
  | cons x xs ih => rw [List.mapM_cons, ih]; rfl

/-- The elements that a test keeps. -/
def selectM (keeps : α → Except ε Bool) : List α → Except ε (List α)
  | [] => .ok []
  | x :: xs => do
      let kept ← keeps x
      let rest ← selectM keeps xs
      return if kept then x :: rest else rest

theorem mem_of_selectM_eq_ok {keeps : α → Except ε Bool} {xs ys : List α}
    (h : selectM keeps xs = .ok ys) (y : α) : y ∈ ys ↔ y ∈ xs ∧ keeps y = .ok true := by
  induction xs generalizing ys with
  | nil =>
      obtain rfl := Except.ok.inj h
      simp
  | cons x xs ih =>
      obtain ⟨kept, hkept, hrest⟩ := bind_eq_ok_iff.mp h
      obtain ⟨rest, hselected, heq⟩ := bind_eq_ok_iff.mp hrest
      obtain rfl := Except.ok.inj heq
      cases kept with
      | true =>
          rw [if_pos rfl, List.mem_cons, List.mem_cons, ih hselected]
          constructor
          · rintro (rfl | ⟨hy, hkeeps⟩)
            · exact ⟨Or.inl rfl, hkept⟩
            · exact ⟨Or.inr hy, hkeeps⟩
          · rintro ⟨rfl | hy, hkeeps⟩
            · exact Or.inl rfl
            · exact Or.inr ⟨hy, hkeeps⟩
      | false =>
          rw [if_neg Bool.false_ne_true, List.mem_cons, ih hselected]
          constructor
          · rintro ⟨hy, hkeeps⟩
            exact ⟨Or.inr hy, hkeeps⟩
          · rintro ⟨rfl | hy, hkeeps⟩
            · exact absurd (hkept.symm.trans hkeeps) (by simp)
            · exact ⟨hy, hkeeps⟩

/-! ## What is raised -/

/-- What a computation raises, if it does, meets `P`. -/
def Raises (P : ε → Prop) (x : Except ε α) : Prop := ∀ e, x = .error e → P e

section Raises

variable {P : ε → Prop}

theorem raises_ok (a : α) : Raises P (.ok a : Except ε α) := by
  intro e h
  cases h

theorem Raises.bind {x : Except ε α} {f : α → Except ε β} (hx : Raises P x)
    (hf : ∀ a, Raises P (f a)) : Raises P (x >>= f) := by
  cases x with
  | error e =>
      intro e' h
      cases h
      exact hx e rfl
  | ok a => exact hf a

theorem raises_mapM {f : α → Except ε β} (hf : ∀ a, Raises P (f a)) (xs : List α) :
    Raises P (xs.mapM f) := by
  induction xs with
  | nil => exact raises_ok []
  | cons x xs ih =>
      rw [List.mapM_cons]
      exact (hf x).bind fun y ↦ ih.bind fun ys ↦ raises_ok (y :: ys)

end Raises

end Outcome
