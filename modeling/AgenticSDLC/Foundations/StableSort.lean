import AgenticSDLC.Foundations.Python

/-!
# What a stable sort determines

A list sorted by a key keeps the order of the elements with one key, and is given by them.
So two lists have the same sorted form when they agree at every key.
-/

namespace Python

variable {α β : Type} {key : α → String}

theorem pairwise_sortedBy (key : α → String) (xs : List α) :
    (sortedBy key xs).Pairwise fun a b ↦ key a ≤ key b := by
  have : Std.Total fun a b : α ↦ key a ≤ key b := ⟨fun a b ↦ String.le_total (key a) (key b)⟩
  have : IsTrans α fun a b ↦ key a ≤ key b := ⟨fun _ _ _ ↦ String.le_trans⟩
  exact List.pairwise_insertionSort _ xs

/-- The elements with one key keep their order. -/
theorem filter_sortedBy (key : α → String) (k : String) (xs : List α) :
    (sortedBy key xs).filter (key · = k) = xs.filter (key · = k) := by
  have : Std.Total fun a b : α ↦ key a ≤ key b := ⟨fun a b ↦ String.le_total (key a) (key b)⟩
  have : IsTrans α fun a b ↦ key a ≤ key b := ⟨fun _ _ _ ↦ String.le_trans⟩
  have hsame : (xs.filter (key · = k)).Pairwise fun a b ↦ key a ≤ key b := by
    apply List.pairwise_of_forall_mem_list
    intro a ha b hb
    have hsame : key a = key b :=
      (of_decide_eq_true (List.mem_filter.mp ha).2).trans
        (of_decide_eq_true (List.mem_filter.mp hb).2).symm
    exact hsame ▸ String.le_refl (key a)
  have hsub : (xs.filter (key · = k)).Sublist (sortedBy key xs) :=
    List.sublist_insertionSort hsame List.filter_sublist
  have hfilter := hsub.filter (key · = k)
  rw [List.filter_filter] at hfilter
  simp only [Bool.and_self] at hfilter
  exact (hfilter.eq_of_length ((perm_sortedBy key xs).filter _).length_eq.symm).symm

theorem key_le_of_mem {a : α} {as : List α} (h : (a :: as).Pairwise fun a b ↦ key a ≤ key b) :
    ∀ c ∈ a :: as, key a ≤ key c := by
  intro c hc
  rcases List.mem_cons.mp hc with rfl | hc
  · exact String.le_refl _
  · exact (List.pairwise_cons.mp h).1 c hc

/-- A sorted list is given by its elements at each key. -/
theorem eq_of_filter_eq {as bs : List α} (has : as.Pairwise fun a b ↦ key a ≤ key b)
    (hbs : bs.Pairwise fun a b ↦ key a ≤ key b)
    (h : ∀ k, as.filter (key · = k) = bs.filter (key · = k)) : as = bs := by
  have hmem : ∀ a, a ∈ as ↔ a ∈ bs := by
    intro a
    have hkey := congrArg (a ∈ ·) (h (key a))
    simpa using hkey
  induction as generalizing bs with
  | nil =>
      cases bs with
      | nil => rfl
      | cons b bs => exact absurd ((hmem b).mpr List.mem_cons_self) List.not_mem_nil
  | cons a as ih =>
      cases bs with
      | nil => exact absurd ((hmem a).mp List.mem_cons_self) List.not_mem_nil
      | cons b bs =>
          have hkey : key a = key b := by
            apply String.le_antisymm
            · exact key_le_of_mem has b ((hmem b).mpr List.mem_cons_self)
            · exact key_le_of_mem hbs a ((hmem a).mp List.mem_cons_self)
          have hhead := h (key b)
          rw [List.filter_cons_of_pos (by simpa using hkey),
            List.filter_cons_of_pos (by simp)] at hhead
          obtain ⟨rfl, -⟩ := List.cons.inj hhead
          have htail : ∀ k, as.filter (key · = k) = bs.filter (key · = k) := by
            intro k
            have hk := h k
            by_cases hak : key a = k
            · rw [List.filter_cons_of_pos (by simpa using hak),
                List.filter_cons_of_pos (by simpa using hak)] at hk
              exact (List.cons.inj hk).2
            · rwa [List.filter_cons_of_neg (by simpa using hak),
                List.filter_cons_of_neg (by simpa using hak)] at hk
          congr 1
          apply ih (List.pairwise_cons.mp has).2 (List.pairwise_cons.mp hbs).2 htail
          intro c
          have hkey := congrArg (c ∈ ·) (htail (key c))
          simpa using hkey

/-! ## Sorted images -/

section Image

variable {f : α → β} {g : β → String} {xs ys : List α}

/-- Where the image of an element tells its key, the elements with a key can be found in it. -/
theorem filter_map_key (hxs : ∀ a ∈ xs, g (f a) = key a) (k : String) :
    (xs.map f).filter (g · = k) = (xs.filter (key · = k)).map f := by
  rw [List.filter_map]
  congr 1
  apply List.filter_congr
  intro a ha
  rw [Function.comp_apply, hxs a ha]

theorem key_of_mem_sortedBy (hxs : ∀ a ∈ xs, g (f a) = key a) :
    ∀ a ∈ sortedBy key xs, g (f a) = key a :=
  fun a ha ↦ hxs a ((mem_sortedBy key xs a).mp ha)

theorem pairwise_map_sortedBy (hxs : ∀ a ∈ xs, g (f a) = key a) :
    ((sortedBy key xs).map f).Pairwise fun a b ↦ g a ≤ g b := by
  rw [List.pairwise_map]
  apply (pairwise_sortedBy key xs).imp_of_mem
  intro a b ha hb hle
  rwa [key_of_mem_sortedBy hxs a ha, key_of_mem_sortedBy hxs b hb]

/-- The images of two sorted lists are the same exactly when they are the same at each key. -/
theorem map_sortedBy_eq_iff (hxs : ∀ a ∈ xs, g (f a) = key a) (hys : ∀ a ∈ ys, g (f a) = key a) :
    (sortedBy key xs).map f = (sortedBy key ys).map f ↔
      ∀ k, (xs.filter (key · = k)).map f = (ys.filter (key · = k)).map f := by
  have hfilter : ∀ zs : List α, (∀ a ∈ zs, g (f a) = key a) → ∀ k,
      ((sortedBy key zs).map f).filter (g · = k) = (zs.filter (key · = k)).map f := by
    intro zs hzs k
    rw [filter_map_key (key_of_mem_sortedBy hzs), filter_sortedBy]
  constructor
  · intro h k
    rw [← hfilter xs hxs, ← hfilter ys hys, h]
  · intro h
    apply eq_of_filter_eq (pairwise_map_sortedBy hxs) (pairwise_map_sortedBy hys)
    intro k
    rw [hfilter xs hxs, hfilter ys hys, h]

/-- Where the key tells the image of an element, sorting is a normal form up to the order. -/
theorem map_sortedBy_eq_iff_perm (hxs : ∀ a ∈ xs, g (f a) = key a)
    (hys : ∀ a ∈ ys, g (f a) = key a) (hkey : ∀ a ∈ xs, ∀ b ∈ xs, key a = key b → f a = f b) :
    (sortedBy key xs).map f = (sortedBy key ys).map f ↔ (xs.map f).Perm (ys.map f) := by
  constructor
  · intro h
    have hleft := (perm_sortedBy key xs).map f
    rw [h] at hleft
    exact hleft.symm.trans ((perm_sortedBy key ys).map f)
  · intro h
    rw [map_sortedBy_eq_iff hxs hys]
    intro k
    have hperm := h.filter (g · = k)
    rw [filter_map_key hxs, filter_map_key hys] at hperm
    have hall : ∀ zs : List β, zs.Pairwise fun _ _ ↦ True := fun zs ↦
      List.pairwise_of_forall fun _ _ ↦ trivial
    apply hperm.eq_of_pairwise _ (hall _) (hall _)
    intro b c hb hc _ _
    obtain ⟨a, ha, rfl⟩ := List.mem_map.mp hb
    obtain ⟨a', ha', rfl⟩ := List.mem_map.mp (hperm.mem_iff.mpr hc)
    obtain ⟨hax, hak⟩ := List.mem_filter.mp ha
    obtain ⟨hax', hak'⟩ := List.mem_filter.mp ha'
    exact hkey a hax a' hax' ((of_decide_eq_true hak).trans (of_decide_eq_true hak').symm)

/-- The images have the same elements when each element of one list has a partner in the other. -/
theorem forall_mem_map_iff {γ : Type} (f : α → γ) : (∀ v, v ∈ xs.map f ↔ v ∈ ys.map f) ↔
    (∀ a ∈ xs, ∃ b ∈ ys, f a = f b) ∧ ∀ b ∈ ys, ∃ a ∈ xs, f a = f b := by
  simp only [List.mem_map]
  constructor
  · intro hsame
    constructor
    · intro a ha
      obtain ⟨b, hb, heq⟩ := (hsame (f a)).mp ⟨a, ha, rfl⟩
      exact ⟨b, hb, heq.symm⟩
    · intro b hb
      exact (hsame (f b)).mpr ⟨b, hb, rfl⟩
  · rintro ⟨hleft, hright⟩ v
    constructor
    · rintro ⟨a, ha, rfl⟩
      obtain ⟨b, hb, heq⟩ := hleft a ha
      exact ⟨b, hb, heq.symm⟩
    · rintro ⟨b, hb, rfl⟩
      exact hright b hb

/-- Two images of two lists have the same elements together, where the two images tell the
same elements apart. -/
theorem forall_mem_map_iff_congr {γ : Type} {f : α → β} {g : α → γ}
    (h : ∀ a ∈ xs, ∀ b ∈ ys, f a = f b ↔ g a = g b) :
    (∀ v, v ∈ xs.map f ↔ v ∈ ys.map f) ↔ ∀ v, v ∈ xs.map g ↔ v ∈ ys.map g := by
  rw [forall_mem_map_iff f, forall_mem_map_iff g]
  apply and_congr
  · exact forall₂_congr fun a ha ↦ exists_congr fun b ↦ and_congr_right fun hb ↦ h a ha b hb
  · exact forall₂_congr fun b hb ↦ exists_congr fun a ↦ and_congr_right fun ha ↦ h a ha b hb

end Image

end Python
