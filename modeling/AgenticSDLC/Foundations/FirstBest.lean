import Mathlib.Data.List.MinMax

/-!
# The first of the best

`List.argmax` is the first item of the highest rank.  When one item alone changes its rank, it
comes to be the best exactly if it overtakes the item that was.
-/

namespace FirstBest

variable {α β γ : Type} [LinearOrder γ]

theorem argmax_map (g : α → β) (f : β → γ) (items : List α) :
    (items.map g).argmax f = (items.argmax (f ∘ g)).map g := by
  induction items using List.reverseRecOn with
  | nil => rfl
  | append_singleton items last ih =>
      rw [List.map_append, List.map_singleton, List.argmax_concat, List.argmax_concat, ih]
      cases items.argmax (f ∘ g) with
      | none => rfl
      | some best =>
          simp only [Option.map_some, Function.comp_apply]
          split_ifs <;> rfl

/-- The loop that keeps the best so far, and gives it up for a better one only. -/
theorem foldl_eq_argmax (f : α → γ) (first : α) (rest : List α) :
    (first :: rest).argmax f =
      some (rest.foldl (fun best item ↦ if f best < f item then item else best) first) := by
  induction rest using List.reverseRecOn with
  | nil => rfl
  | append_singleton rest last ih =>
      rw [← List.cons_append, List.argmax_concat, ih, List.foldl_append, List.foldl_cons,
        List.foldl_nil]
      exact (apply_ite some _ _ _).symm

variable [DecidableEq α] {f f' : α → γ} {items : List α} {best item : α} {rank rank' : γ}

/-- With this rank the item comes before the best one. -/
def Overtakes (f : α → γ) (items : List α) (best item : α) (rank : γ) : Prop :=
  f best < rank ∨ (f best = rank ∧ items.idxOf item < items.idxOf best)

theorem Overtakes.mono (h : Overtakes f items best item rank) (hle : rank ≤ rank') :
    Overtakes f items best item rank' := by
  rcases h with hlt | ⟨heq, hidx⟩
  · exact Or.inl (hlt.trans_le hle)
  · rcases hle.lt_or_eq with hlt | hsame
    · exact Or.inl (heq ▸ hlt)
    · exact Or.inr ⟨heq.trans hsame, hidx⟩

theorem Overtakes.le (h : Overtakes f items best item rank) : f best ≤ rank :=
  h.elim le_of_lt fun hsame ↦ hsame.1.le

/-- The best item is the one that no other overtakes. -/
theorem mem_argmax_iff_not_overtakes : best ∈ items.argmax f ↔
    best ∈ items ∧ ∀ item ∈ items, item ≠ best → ¬Overtakes f items best item (f item) := by
  rw [List.mem_argmax_iff]
  constructor
  · rintro ⟨hmem, hmax, hfirst⟩
    refine ⟨hmem, fun item hitem _ h ↦ ?_⟩
    rcases h with hlt | ⟨hsame, hidx⟩
    · exact (hmax item hitem).not_gt hlt
    · exact (hfirst item hitem hsame.le).not_gt hidx
  · rintro ⟨hmem, hnone⟩
    refine ⟨hmem, fun item hitem ↦ ?_, fun item hitem hle ↦ ?_⟩
    · by_cases hcase : item = best
      · rw [hcase]
      · exact not_lt.mp fun hlt ↦ hnone item hitem hcase (Or.inl hlt)
    · by_cases hcase : item = best
      · rw [hcase]
      · rcases hle.lt_or_eq with hlt | hsame
        · exact absurd (Or.inl hlt) (hnone item hitem hcase)
        · exact not_lt.mp fun hidx ↦ hnone item hitem hcase (Or.inr ⟨hsame, hidx⟩)

theorem not_overtakes_of_le (hbest : best ∈ items.argmax f) (hitem : item ∈ items)
    (hne : item ≠ best) (hle : rank ≤ f item) : ¬Overtakes f items best item rank := fun h ↦
  (mem_argmax_iff_not_overtakes.mp hbest).2 item hitem hne (h.mono hle)

/-- When no rank but the item's changes, the item is the best afterwards if and only if it
overtakes the best of before. -/
theorem mem_argmax_iff_overtakes (hbest : best ∈ items.argmax f) (hitem : item ∈ items)
    (hne : item ≠ best) (hsame : ∀ other, other ≠ item → f' other = f other) :
    item ∈ items.argmax f' ↔ Overtakes f items best item (f' item) := by
  rw [List.mem_argmax_iff] at hbest
  obtain ⟨hmem, hmax, hfirst⟩ := hbest
  have hbest' : f' best = f best := hsame best hne.symm
  rw [List.mem_argmax_iff]
  constructor
  · rintro ⟨-, hmax', hfirst'⟩
    rcases (hmax' best hmem).lt_or_eq with hlt | heq
    · exact Or.inl (hbest' ▸ hlt)
    · have hidx := hfirst' best hmem heq.ge
      have hidxne : items.idxOf item ≠ items.idxOf best := fun h ↦
        hne ((List.idxOf_inj hitem).mp h)
      exact Or.inr ⟨hbest'.symm.trans heq, lt_of_le_of_ne hidx hidxne⟩
  · intro hover
    refine ⟨hitem, fun other hother ↦ ?_, fun other hother hle ↦ ?_⟩
    · by_cases hcase : other = item
      · rw [hcase]
      · rw [hsame other hcase]
        exact (hmax other hother).trans hover.le
    · by_cases hcase : other = item
      · rw [hcase]
      · rw [hsame other hcase] at hle
        -- every rank between the two best ones is the same
        have hother_le := hfirst other hother (hover.le.trans hle)
        rcases hover with hlt | ⟨-, hidx⟩
        · exact absurd (hlt.trans_le (hle.trans (hmax other hother))) (lt_irrefl _)
        · exact hidx.le.trans hother_le

end FirstBest
