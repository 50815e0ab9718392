import Mathlib.Data.List.NodupEquivFin
import Mathlib.Data.List.FinRange
import Mathlib.Data.List.Perm.Subperm

/-!
# Matching by count

Items that any row of a kind can back have different rows exactly when there are as many rows
of that kind.
-/

namespace Matching

variable {α β : Type} {p : α → Bool} {items : List β} {rows : List α}

/-- Different items are backed by different rows. -/
def Matched (p : α → Bool) (items : List β) (rows : List α) : Prop :=
  ∃ backing : Fin items.length → Fin rows.length, Function.Injective backing ∧
    ∀ i, p (rows.get (backing i)) = true

theorem countP_eq_places (p : α → Bool) (rows : List α) :
    rows.countP p = (List.finRange rows.length).countP fun i ↦ p (rows.get i) := by
  conv_lhs => rw [← List.map_get_finRange rows]
  rw [List.countP_map]
  rfl

theorem Matched.length_le (h : Matched p items rows) : items.length ≤ rows.countP p := by
  obtain ⟨backing, hinjective, hbacking⟩ := h
  have hsub : ((List.finRange items.length).map backing).Subperm (List.finRange rows.length) :=
    List.Nodup.subperm ((List.nodup_finRange _).map hinjective) fun i _ ↦ List.mem_finRange i
  have hall : ((List.finRange items.length).map backing).countP (fun i ↦ p (rows.get i)) =
      items.length := by
    rw [List.countP_eq_length.mpr, List.length_map, List.length_finRange]
    intro place hplace
    obtain ⟨i, -, rfl⟩ := List.mem_map.mp hplace
    exact hbacking i
  rw [countP_eq_places, ← hall]
  exact hsub.countP_le _

theorem matched_of_length_le (h : items.length ≤ rows.countP p) : Matched p items rows := by
  rw [List.countP_eq_length_filter] at h
  obtain ⟨place, hplace⟩ :=
    List.sublist_iff_exists_fin_orderEmbedding_get_eq.mp (List.filter_sublist (p := p) (l := rows))
  refine ⟨fun i ↦ place (Fin.castLE h i), ?_, fun i ↦ ?_⟩
  · exact place.injective.comp (Fin.castLE_injective h)
  · rw [← hplace]
    exact (List.mem_filter.mp (List.get_mem _ _)).2

theorem matched_iff : Matched p items rows ↔ items.length ≤ rows.countP p :=
  ⟨Matched.length_le, matched_of_length_le⟩

end Matching
