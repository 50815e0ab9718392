import Mathlib.Data.List.Basic
import Mathlib.Algebra.Order.BigOperators.Group.List
import Mathlib.Algebra.Order.Ring.Nat

/-!
# Pieces joined with a separator

The joined text tells the pieces, when their number is known, exactly where none of them
contains the separator.
-/

namespace Separated

variable {α : Type} {sep : α} {pieces others : List (List α)}

def join (sep : α) (pieces : List (List α)) : List α := [sep].intercalate pieces

theorem join_cons (sep : α) (piece : List α) (h : pieces ≠ []) :
    join sep (piece :: pieces) = piece ++ sep :: join sep pieces := by
  rw [join, List.intercalate_cons_of_ne_nil h, List.append_assoc, List.singleton_append, ← join]

theorem join_append (h : pieces ≠ []) (next : List α) (rest : List (List α)) :
    join sep (pieces ++ next :: rest) = join sep pieces ++ sep :: join sep (next :: rest) := by
  induction pieces with
  | nil => exact absurd rfl h
  | cons piece pieces ih =>
      rw [List.cons_append, join_cons sep piece (by simp)]
      by_cases hpieces : pieces = []
      · simp [hpieces, join]
      · rw [join_cons sep piece hpieces, ih hpieces, List.append_assoc, List.cons_append]

/-- A piece that is cut at a separator leaves the text as it is. -/
theorem join_cut (sep : α) (front back : List (List α)) (left right : List α) :
    join sep (front ++ (left ++ sep :: right) :: back) =
      join sep (front ++ left :: right :: back) := by
  induction front with
  | nil =>
      rw [List.nil_append, List.nil_append, join_cons sep left (List.cons_ne_nil _ _)]
      cases back with
      | nil => simp [join]
      | cons piece back =>
          rw [join_cons sep _ (List.cons_ne_nil _ _), join_cons sep right (List.cons_ne_nil _ _),
            List.append_assoc, List.cons_append]
  | cons piece front ih =>
      rw [List.cons_append, List.cons_append, join_cons sep piece (by simp),
        join_cons sep piece (by simp), ih]

section Split

variable [DecidableEq α]

theorem splitOn_join (hpieces : ∀ piece ∈ pieces, sep ∉ piece) (h : pieces ≠ []) :
    (join sep pieces).splitOn sep = pieces :=
  List.splitOn_intercalate sep hpieces h

/-- Up to a separator, a joined text begins with the joined texts of its first pieces. -/
theorem join_append_prefix_iff (hpieces : ∀ piece ∈ pieces, sep ∉ piece) (h : pieces ≠ [])
    (hothers : ∀ other ∈ others, sep ∉ other) (h' : others ≠ []) :
    join sep pieces ++ [sep] <+: join sep others ↔ ∃ next rest, others = pieces ++ next :: rest := by
  constructor
  · rintro ⟨text, htext⟩
    have hsplit : others = pieces ++ text.splitOn sep := by
      rw [← splitOn_join hothers h', ← htext, List.append_assoc, List.singleton_append,
        List.splitOn_append_cons_self, splitOn_join hpieces h]
    cases hrest : text.splitOn sep with
    | nil => exact absurd hrest (List.splitOn_ne_nil _ _)
    | cons next rest => exact ⟨next, rest, by rw [hsplit, hrest]⟩
  · rintro ⟨next, rest, rfl⟩
    exact ⟨join sep (next :: rest), by rw [join_append h, List.append_assoc, List.singleton_append]⟩

end Split

section Counted

variable [DecidableEq α]

theorem count_join (h : pieces ≠ []) :
    (join sep pieces).count sep + 1 = (pieces.map (List.count sep)).sum + pieces.length := by
  induction pieces with
  | nil => exact absurd rfl h
  | cons piece pieces ih =>
      cases pieces with
      | nil => simp [join]
      | cons next pieces =>
          have hne : next :: pieces ≠ [] := List.cons_ne_nil _ _
          have hrest := ih hne
          rw [join_cons sep piece hne, List.count_append, List.count_cons_self, List.map_cons,
            List.sum_cons, List.length_cons]
          omega

/-- As many pieces that join to the same text have no separator in them either. -/
theorem free_of_join_eq (hpieces : ∀ piece ∈ pieces, sep ∉ piece)
    (hlength : others.length = pieces.length) (hjoin : join sep others = join sep pieces) :
    ∀ other ∈ others, sep ∉ other := by
  intro other hother
  have hne : others ≠ [] := List.ne_nil_of_mem hother
  have hne' : pieces ≠ [] := by
    rwa [← List.length_pos_iff, ← hlength, List.length_pos_iff]
  have hzero : (pieces.map (List.count sep)).sum = 0 := by
    refine List.sum_eq_zero fun n hn ↦ ?_
    obtain ⟨piece, hpiece, rfl⟩ := List.mem_map.mp hn
    exact List.count_eq_zero.mpr (hpieces piece hpiece)
  have hcount : (join sep others).count sep + 1 = _ := count_join hne
  have hcount' : (join sep pieces).count sep + 1 = _ := count_join hne'
  have hle : other.count sep ≤ (others.map (List.count sep)).sum :=
    List.single_le_sum (fun n _ ↦ n.zero_le) _ (List.mem_map_of_mem hother)
  rw [hjoin] at hcount
  exact List.count_eq_zero.mp (by omega)

theorem eq_of_join_eq (hpieces : ∀ piece ∈ pieces, sep ∉ piece)
    (hlength : others.length = pieces.length) (hjoin : join sep others = join sep pieces) :
    others = pieces := by
  by_cases hne : pieces = []
  · rw [hne, List.length_nil, List.length_eq_zero_iff] at hlength
    rw [hlength, hne]
  · have hne' : others ≠ [] := by
      rwa [← List.length_pos_iff, hlength, List.length_pos_iff]
    calc others = (join sep others).splitOn sep :=
          (splitOn_join (free_of_join_eq hpieces hlength hjoin) hne').symm
      _ = (join sep pieces).splitOn sep := by rw [hjoin]
      _ = pieces := splitOn_join hpieces hne

end Counted

/-- A separator inside a piece can be moved to one of its ends, at the cost of a neighbour. -/
theorem exists_join_eq {piece : List α} (h : 2 ≤ pieces.length) (hpiece : piece ∈ pieces)
    (hsep : sep ∈ piece) :
    ∃ others, others.length = pieces.length ∧ join sep others = join sep pieces ∧
      others ≠ pieces := by
  obtain ⟨left, right, rfl⟩ := List.append_of_mem hsep
  obtain ⟨front, back, rfl⟩ := List.append_of_mem hpiece
  cases back with
  | cons next back =>
      refine ⟨front ++ left :: (right ++ sep :: next) :: back, by simp, ?_, by simp⟩
      have hnext := join_cut sep (front ++ [left]) back right next
      simp only [List.append_assoc, List.singleton_append] at hnext
      rw [hnext, join_cut]
  | nil =>
      have hfront : front ≠ [] := by
        rintro rfl
        simp at h
      obtain ⟨first, next, rfl⟩ : ∃ first next, front = first ++ [next] :=
        ⟨_, _, (List.dropLast_concat_getLast hfront).symm⟩
      refine ⟨first ++ (next ++ sep :: left) :: [right], by simp, ?_, by simp⟩
      rw [join_cut, join_cut]
      simp

end Separated
