import Mathlib.Logic.Relation

/-!
# What is reached from roots

An element is reached when a finite chain of steps leads to it from a root.
-/

namespace Reach

variable {α : Type*}

def Reached (root : α → Prop) (step : α → α → Prop) (a : α) : Prop :=
  ∃ r, root r ∧ Relation.ReflTransGen step r a

section Reached

variable {root : α → Prop} {step : α → α → Prop} {a b : α}

theorem Reached.of_root (h : root a) : Reached root step a := ⟨a, h, Relation.ReflTransGen.refl⟩

theorem Reached.next (h : Reached root step a) (hstep : step a b) : Reached root step b := by
  obtain ⟨r, hroot, hchain⟩ := h
  exact ⟨r, hroot, hchain.tail hstep⟩

/-- The last link of a chain. -/
theorem reached_iff : Reached root step a ↔ root a ∨ ∃ b, Reached root step b ∧ step b a := by
  constructor
  · rintro ⟨r, hroot, hchain⟩
    rcases hchain.cases_tail with rfl | ⟨b, hbefore, hstep⟩
    · exact Or.inl hroot
    · exact Or.inr ⟨b, ⟨r, hroot, hbefore⟩, hstep⟩
  · rintro (hroot | ⟨b, hb, hstep⟩)
    · exact Reached.of_root hroot
    · exact hb.next hstep

/-- What holds of the roots, and after each step from where it holds, holds of all that is
reached. -/
theorem Reached.holds {P : α → Prop} (h : Reached root step a) (hroot : ∀ a, root a → P a)
    (hstep : ∀ a b, P a → step a b → P b) : P a := by
  obtain ⟨r, hr, hchain⟩ := h
  induction hchain with
  | refl => exact hroot r hr
  | tail _ hlast ih => exact hstep _ _ ih hlast

/-- A set without roots that no step enters from outside is not reached. -/
theorem not_reached_of_closed {dead : α → Prop} (hroot : ∀ a, dead a → ¬root a)
    (hstep : ∀ a b, step a b → dead b → dead a) (hdead : dead a) : ¬Reached root step a := by
  intro h
  refine h.holds (P := fun a ↦ ¬dead a) (fun a hr hd ↦ hroot a hd hr) ?_ hdead
  exact fun a b hlive hab hb ↦ hlive (hstep a b hab hb)

end Reached

end Reach
