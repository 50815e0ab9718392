import Mathlib.Data.List.Basic

/-!
# Lists with a key

An entry is put under its key: it takes the place of the entries that have the key, or
goes to the end where there is none.
-/

namespace Keyed

variable {α κ : Type*} (key : α → κ)

/-- The entry is there, and no other one has its key. -/
def Stands (a : α) (as : List α) : Prop :=
  (∃ b ∈ as, key b = key a) ∧ ∀ b ∈ as, key b = key a → b = a

theorem Stands.mem {key : α → κ} {a : α} {as : List α} (h : Stands key a as) : a ∈ as := by
  obtain ⟨⟨b, hb, hkey⟩, hsame⟩ := h
  rw [← hsame b hb hkey]
  exact hb

variable [DecidableEq κ]

theorem Stands.find {key : α → κ} {a : α} {as : List α} (h : Stands key a as) :
    as.find? (fun b ↦ key b = key a) = some a := by
  obtain ⟨⟨b, hb, hkey⟩, hsame⟩ := h
  cases hfound : as.find? fun b ↦ key b = key a with
  | none =>
      have hno := List.find?_eq_none.mp hfound b hb
      exact absurd (decide_eq_true hkey) hno
  | some found =>
      have hyes := List.find?_some hfound
      rw [hsame found (List.mem_of_find?_eq_some hfound) (of_decide_eq_true hyes)]

def put (a : α) (as : List α) : List α :=
  if ∃ b ∈ as, key b = key a then as.map fun b ↦ if key b = key a then a else b else as ++ [a]

variable {key} {a b : α} {as : List α}

theorem stands_put (a : α) (as : List α) : Stands key a (put key a as) := by
  rw [put]
  split_ifs with hthere
  · obtain ⟨b, hb, hkey⟩ := hthere
    refine ⟨⟨a, ?_, rfl⟩, ?_⟩
    · exact List.mem_map.mpr ⟨b, hb, if_pos hkey⟩
    · intro c hc hsame
      obtain ⟨d, -, rfl⟩ := List.mem_map.mp hc
      split_ifs at hsame ⊢ with hd
      · rfl
      · exact absurd hsame hd
  · refine ⟨⟨a, List.mem_append_right _ (List.mem_singleton_self a), rfl⟩, ?_⟩
    intro c hc hsame
    rcases List.mem_append.mp hc with hold | hnew
    · exact absurd ⟨c, hold, hsame⟩ hthere
    · exact List.mem_singleton.mp hnew

/-- Putting an entry changes nothing just when it stands already. -/
theorem put_eq_self_iff : put key a as = as ↔ Stands key a as := by
  constructor
  · intro h
    rw [← h]
    exact stands_put a as
  · rintro ⟨hthere, hsame⟩
    rw [put, if_pos hthere]
    refine (List.map_congr_left fun b hb ↦ ?_).trans (List.map_id as)
    split_ifs with hkey
    · exact (hsame b hb hkey).symm
    · rfl

variable (key) in
/-- What is put last under a key stays. -/
theorem put_put (h : key a = key b) (as : List α) : put key b (put key a as) = put key b as := by
  have hthere : ∃ c ∈ put key a as, key c = key b := ⟨a, (stands_put a as).mem, h⟩
  rw [put, if_pos hthere, put, put]
  simp only [h]
  split_ifs with hold
  · rw [List.map_map]
    apply List.map_congr_left
    intro c _
    by_cases hc : key c = key b
    · simp only [Function.comp_apply, if_pos hc, if_pos h]
    · simp only [Function.comp_apply, if_neg hc]
  · rw [List.map_append, List.map_singleton, if_pos h]
    congr 1
    refine (List.map_congr_left fun c hc ↦ ?_).trans (List.map_id as)
    exact if_neg fun hkey ↦ hold ⟨c, hc, hkey⟩

/-- Where only entries outside a filter change, and stay outside, the filter keeps its list. -/
theorem filter_map_ite {p : α → Bool} {P : α → Prop} [DecidablePred P] {f : α → α}
    (h : ∀ b, P b → ¬p b = true ∧ ¬p (f b) = true) (as : List α) :
    (as.map fun b ↦ if P b then f b else b).filter p = as.filter p := by
  induction as with
  | nil => rfl
  | cons b as ih =>
      rw [List.map_cons]
      by_cases hb : P b
      · obtain ⟨hold, hnew⟩ := h b hb
        rw [if_pos hb, List.filter_cons_of_neg hnew, ih, List.filter_cons_of_neg hold]
      · rw [if_neg hb, List.filter_cons, List.filter_cons, ih]

/-- The entries under other keys stay. -/
theorem filter_put {p : α → Bool} (h : ∀ b, key b = key a → ¬p b = true) (as : List α) :
    (put key a as).filter p = as.filter p := by
  rw [put]
  split_ifs
  · exact filter_map_ite (fun b hb ↦ ⟨h b hb, h a rfl⟩) as
  · rw [List.filter_append, List.filter_cons_of_neg (h a rfl), List.filter_nil, List.append_nil]

/-- What is found under a key: the entry that was put there last. -/
theorem find_put (a : α) (as : List α) (k : κ) :
    (put key a as).find? (fun b ↦ key b = k) =
      if key a = k then some a else as.find? fun b ↦ key b = k := by
  split_ifs with hkey
  · subst hkey
    exact (stands_put a as).find
  · rw [← List.head?_filter, ← List.head?_filter, filter_put]
    intro b hb
    simpa [hb] using hkey

/-- Two entries of one key that look the same leave lists that look the same. -/
theorem map_put_congr {β : Type*} {f : α → β} (hkey : key a = key b) (h : f a = f b)
    (as : List α) : (put key a as).map f = (put key b as).map f := by
  rw [put, put, hkey]
  split_ifs with hthere
  · rw [List.map_map, List.map_map]
    apply List.map_congr_left
    intro c _
    simp only [Function.comp_apply]
    split_ifs
    · exact h
    · rfl
  · rw [List.map_append, List.map_append, List.map_singleton, List.map_singleton, h]

end Keyed
