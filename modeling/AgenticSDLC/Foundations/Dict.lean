import Mathlib.Data.List.Basic
import Mathlib.Data.List.Induction

/-!
# Dictionaries

A dictionary that remembers the order in which its keys came, as the list of its
items.  `List.lookup` reads it, and `set` is `d[key] = value`: a key that is
there keeps its place.
-/

namespace Dict

variable {κ α : Type} [DecidableEq κ]

def set (key : κ) (value : α) : List (κ × α) → List (κ × α)
  | [] => [(key, value)]
  | item :: items => if item.1 = key then (key, value) :: items else item :: set key value items

/-- The dictionary after `d.setdefault(key, value)`. -/
def setDefault (key : κ) (value : α) (items : List (κ × α)) : List (κ × α) :=
  if (items.lookup key).isSome then items else items ++ [(key, value)]

/-- The dictionary that takes in the items one after another. -/
def ofItems (items : List (κ × α)) : List (κ × α) :=
  items.foldl (fun dict item ↦ set item.1 item.2 dict) []

theorem set_of_notMem {key : κ} (value : α) {items : List (κ × α)} (h : key ∉ items.map Prod.fst) :
    set key value items = items ++ [(key, value)] := by
  induction items with
  | nil => rfl
  | cons item items ih =>
      rw [List.map_cons, List.mem_cons, not_or] at h
      rw [set, if_neg (Ne.symm h.1), ih h.2, List.cons_append]

theorem ofItems_of_nodup {items : List (κ × α)} (h : (items.map Prod.fst).Nodup) :
    ofItems items = items := by
  induction items using List.reverseRecOn with
  | nil => rfl
  | append_singleton items item ih =>
      rw [List.map_append, List.nodup_append] at h
      have hfresh : item.1 ∉ items.map Prod.fst := fun hmem ↦
        h.2.2 item.1 hmem item.1 (by simp) rfl
      rw [ofItems, List.foldl_append, ← ofItems, ih h.1]
      exact set_of_notMem item.2 hfresh

theorem lookup_cons (key : κ) (item : κ × α) (items : List (κ × α)) :
    (item :: items).lookup key = if key = item.1 then some item.2 else items.lookup key := by
  obtain ⟨other, value⟩ := item
  by_cases h : key = other
  · simp [h]
  · have hbeq : (key == other) = false := beq_false_of_ne h
    simp [List.lookup_cons, hbeq, h]

theorem lookup_set (key other : κ) (value : α) (items : List (κ × α)) :
    (set key value items).lookup other =
      if other = key then some value else items.lookup other := by
  induction items with
  | nil => simp [set, lookup_cons]
  | cons item items ih =>
      by_cases hitem : item.1 = key
      · by_cases h : other = key <;> simp [set, hitem, lookup_cons, h]
      · by_cases hother : other = item.1
        · simp [set, hitem, lookup_cons, hother]
        · simp [set, hitem, lookup_cons, hother, ih]

theorem lookup_append_singleton (key other : κ) (value : α) (items : List (κ × α)) :
    (items ++ [(key, value)]).lookup other =
      (items.lookup other).or (if other = key then some value else none) := by
  induction items with
  | nil => simp [lookup_cons]
  | cons item items ih => by_cases h : other = item.1 <;> simp [lookup_cons, h, ih]

theorem lookup_setDefault (key other : κ) (value : α) (items : List (κ × α)) :
    (setDefault key value items).lookup other =
      (items.lookup other).or (if other = key then some value else none) := by
  unfold setDefault
  split_ifs with hsome hother hother
  · obtain ⟨found, hfound⟩ := Option.isSome_iff_exists.mp hsome
    simp [hother, hfound]
  · simp
  · rw [lookup_append_singleton, if_pos hother]
  · rw [lookup_append_singleton, if_neg hother]

/-- The order of the items does not matter to a reader. -/
theorem lookup_perm {items others : List (κ × α)} (h : items.Perm others)
    (hnodup : (items.map Prod.fst).Nodup) (key : κ) : items.lookup key = others.lookup key := by
  induction h with
  | nil => rfl
  | cons item _ ih =>
      rw [lookup_cons, lookup_cons, ih (List.nodup_cons.mp hnodup).2]
  | swap item other items =>
      have hne : other.1 ≠ item.1 := fun hsame ↦
        (List.nodup_cons.mp hnodup).1 (hsame ▸ List.mem_cons_self)
      simp only [lookup_cons]
      split_ifs with hother hitem
      · exact absurd (hother.symm.trans hitem) hne
      all_goals rfl
  | trans hperm _ ih ih' => exact (ih hnodup).trans (ih' ((hperm.map _).nodup_iff.mp hnodup))

theorem mem_of_lookup {key : κ} {value : α} {items : List (κ × α)}
    (h : items.lookup key = some value) : (key, value) ∈ items := by
  obtain ⟨before, after, rfl, -⟩ := List.lookup_eq_some_iff.mp h
  exact List.mem_append_right before List.mem_cons_self

theorem mem_set_self (key : κ) (value : α) (items : List (κ × α)) :
    (key, value) ∈ set key value items := by
  induction items with
  | nil => exact List.mem_singleton_self _
  | cons item items ih =>
      rw [set]
      split_ifs
      · exact List.mem_cons_self
      · exact List.mem_cons_of_mem item ih

theorem mem_of_mem_set {key : κ} {value : α} {items : List (κ × α)} {item : κ × α}
    (h : item ∈ set key value items) : item = (key, value) ∨ item ∈ items := by
  induction items with
  | nil => exact Or.inl (List.mem_singleton.mp h)
  | cons first items ih =>
      rw [set] at h
      split_ifs at h
      · rcases List.mem_cons.mp h with hitem | hitem
        · exact Or.inl hitem
        · exact Or.inr (List.mem_cons_of_mem first hitem)
      · rcases List.mem_cons.mp h with hitem | hitem
        · exact Or.inr (hitem ▸ List.mem_cons_self)
        · exact (ih hitem).imp_right (List.mem_cons_of_mem first)

theorem mem_set_of_ne {key : κ} (value : α) {items : List (κ × α)} {item : κ × α}
    (hitem : item ∈ items) (hkey : item.1 ≠ key) : item ∈ set key value items := by
  induction items with
  | nil => cases hitem
  | cons first items ih =>
      rw [set]
      split_ifs with hfirst
      · rcases List.mem_cons.mp hitem with rfl | hrest
        · exact absurd hfirst hkey
        · exact List.mem_cons_of_mem _ hrest
      · rcases List.mem_cons.mp hitem with rfl | hrest
        · exact List.mem_cons_self
        · exact List.mem_cons_of_mem first (ih hrest)

theorem nodup_set (key : κ) (value : α) {items : List (κ × α)} (h : (items.map Prod.fst).Nodup) :
    ((set key value items).map Prod.fst).Nodup := by
  induction items with
  | nil => simp [set]
  | cons first items ih =>
      rw [List.map_cons, List.nodup_cons] at h
      rw [set]
      split_ifs with hfirst
      · rw [List.map_cons, List.nodup_cons, ← hfirst]
        exact h
      · rw [List.map_cons, List.nodup_cons]
        refine ⟨fun hmem ↦ ?_, ih h.2⟩
        obtain ⟨item, hitem, hsame⟩ := List.mem_map.mp hmem
        rcases mem_of_mem_set hitem with rfl | hold
        · exact hfirst hsame.symm
        · exact h.1 (hsame ▸ List.mem_map_of_mem hold)

theorem nodup_ofItems (items : List (κ × α)) : ((ofItems items).map Prod.fst).Nodup := by
  induction items using List.reverseRecOn with
  | nil => exact List.nodup_nil
  | append_singleton items last ih =>
      rw [ofItems, List.foldl_append, ← ofItems]
      exact nodup_set last.1 last.2 ih

theorem mem_of_mem_ofItems {items : List (κ × α)} {item : κ × α} (h : item ∈ ofItems items) :
    item ∈ items := by
  induction items using List.reverseRecOn with
  | nil => exact h
  | append_singleton items last ih =>
      rw [ofItems, List.foldl_append, ← ofItems] at h
      rcases mem_of_mem_set h with rfl | hold
      · exact List.mem_append_right items (List.mem_singleton_self _)
      · exact List.mem_append_left [last] (ih hold)

/-- The items that a dictionary holds after `d.update(news)`. -/
theorem mem_update {news : List (κ × α)} (hnodup : (news.map Prod.fst).Nodup)
    (items : List (κ × α)) :
    (∀ item ∈ news, item ∈ news.foldl (fun dict item ↦ set item.1 item.2 dict) items) ∧
      ∀ item ∈ news.foldl (fun dict item ↦ set item.1 item.2 dict) items,
        item ∈ news ∨ item ∈ items := by
  induction news using List.reverseRecOn with
  | nil => exact ⟨fun item hitem ↦ absurd hitem List.not_mem_nil, fun item hitem ↦ Or.inr hitem⟩
  | append_singleton news last ih =>
      rw [List.map_append, List.nodup_append] at hnodup
      obtain ⟨hnews, hall⟩ := ih hnodup.1
      rw [List.foldl_append, List.foldl_cons, List.foldl_nil]
      constructor
      · intro item hitem
        rcases List.mem_append.mp hitem with hold | hlast
        · apply mem_set_of_ne _ (hnews item hold)
          exact hnodup.2.2 item.1 (List.mem_map_of_mem hold) last.1 (List.mem_singleton_self _)
        · rw [List.mem_singleton.mp hlast]
          exact mem_set_self _ _ _
      · intro item hitem
        rcases mem_of_mem_set hitem with rfl | hold
        · exact Or.inl (List.mem_append_right news (List.mem_singleton_self _))
        · exact (hall item hold).imp_left (List.mem_append_left [last])

/-- What a dictionary of these items holds: the last value of a key. -/
theorem lookup_ofItems (key : κ) (items : List (κ × α)) :
    (ofItems items).lookup key = (items.filter fun item ↦ item.1 = key).getLast?.map Prod.snd := by
  induction items using List.reverseRecOn with
  | nil => rfl
  | append_singleton items last ih =>
      rw [ofItems, List.foldl_append, ← ofItems, List.foldl_cons, List.foldl_nil, lookup_set, ih,
        List.filter_append]
      by_cases hkey : last.1 = key
      · rw [if_pos hkey.symm, List.filter_cons_of_pos (by simpa using hkey), List.filter_nil,
          List.getLast?_append]
        rfl
      · rw [if_neg (Ne.symm hkey), List.filter_cons_of_neg (by simpa using hkey), List.filter_nil,
          List.append_nil]

/-! ## First values -/

/-- The dictionary that takes in the items whose keys it does not have yet. -/
def ofFirst (items : List (κ × α)) : List (κ × α) :=
  items.foldl (fun dict item ↦ setDefault item.1 item.2 dict) []

theorem isSome_lookup_iff {key : κ} {items : List (κ × α)} :
    (items.lookup key).isSome = true ↔ key ∈ items.map Prod.fst := by
  induction items with
  | nil => simp
  | cons item items ih =>
      rw [lookup_cons, List.map_cons, List.mem_cons]
      split_ifs with hkey
      · simp [hkey]
      · rw [ih]
        exact (or_iff_right hkey).symm

theorem mem_of_mem_ofFirst {items : List (κ × α)} {item : κ × α} (h : item ∈ ofFirst items) :
    item ∈ items := by
  induction items using List.reverseRecOn with
  | nil => exact h
  | append_singleton items last ih =>
      rw [ofFirst, List.foldl_append, ← ofFirst, List.foldl_cons, List.foldl_nil, setDefault] at h
      split_ifs at h
      · exact List.mem_append_left _ (ih h)
      · exact (List.mem_append.mp h).elim (fun hold ↦ List.mem_append_left _ (ih hold))
          (List.mem_append_right items)

theorem mem_keys_ofFirst {items : List (κ × α)} {key : κ} :
    key ∈ (ofFirst items).map Prod.fst ↔ key ∈ items.map Prod.fst := by
  induction items using List.reverseRecOn with
  | nil => rfl
  | append_singleton items last ih =>
      rw [ofFirst, List.foldl_append, ← ofFirst, List.foldl_cons, List.foldl_nil, setDefault,
        List.map_append, List.mem_append, List.map_singleton, List.mem_singleton]
      split_ifs with hthere
      · rw [ih]
        refine (or_iff_left_of_imp ?_).symm
        rintro rfl
        exact ih.mp (isSome_lookup_iff.mp hthere)
      · rw [List.map_append, List.mem_append, ih, List.map_singleton, List.mem_singleton]

theorem nodup_ofFirst (items : List (κ × α)) : ((ofFirst items).map Prod.fst).Nodup := by
  induction items using List.reverseRecOn with
  | nil => exact List.nodup_nil
  | append_singleton items last ih =>
      rw [ofFirst, List.foldl_append, ← ofFirst, List.foldl_cons, List.foldl_nil, setDefault]
      split_ifs with hthere
      · exact ih
      · rw [isSome_lookup_iff] at hthere
        rw [List.map_append, List.map_singleton, List.nodup_append]
        refine ⟨ih, by simp, fun key hkey other hother ↦ ?_⟩
        rw [List.mem_singleton.mp hother]
        rintro rfl
        exact hthere hkey

/-- The keys are in the order in which they come first. -/
theorem pairwise_ofFirst (items : List (κ × α)) :
    ((ofFirst items).map Prod.fst).Pairwise fun key later ↦ ∃ front back,
      items.map Prod.fst = front ++ later :: back ∧ key ∈ front ∧ later ∉ front := by
  induction items using List.reverseRecOn with
  | nil => exact List.Pairwise.nil
  | append_singleton items last ih =>
      have hold : ((ofFirst items).map Prod.fst).Pairwise fun key later ↦ ∃ front back,
          (items ++ [last]).map Prod.fst = front ++ later :: back ∧ key ∈ front ∧ later ∉ front := by
        refine ih.imp ?_
        rintro key later ⟨front, back, hitems, hkey, hlater⟩
        exact ⟨front, back ++ [last.1], by simp [hitems], hkey, hlater⟩
      rw [ofFirst, List.foldl_append, ← ofFirst, List.foldl_cons, List.foldl_nil, setDefault]
      split_ifs with hthere
      · exact hold
      · rw [isSome_lookup_iff, mem_keys_ofFirst] at hthere
        rw [show (ofFirst items ++ [(last.1, last.2)]).map Prod.fst =
          (ofFirst items).map Prod.fst ++ [last.1] by simp, List.pairwise_append]
        refine ⟨hold, List.pairwise_singleton _ _, fun key hkey later hlater ↦ ?_⟩
        obtain rfl := List.mem_singleton.mp hlater
        exact ⟨items.map Prod.fst, [], by simp, mem_keys_ofFirst.mp hkey, hthere⟩

theorem lookup_filter_ne {key other : κ} (h : other ≠ key) (items : List (κ × α)) :
    (items.filter fun item ↦ item.1 ≠ key).lookup other = items.lookup other := by
  induction items with
  | nil => rfl
  | cons item items ih =>
      by_cases hitem : item.1 = key
      · rw [List.filter_cons_of_neg (by simpa using hitem), lookup_cons, hitem, if_neg h, ih]
      · rw [List.filter_cons_of_pos (by simpa using hitem), lookup_cons, lookup_cons, ih]

/-- Two dictionaries of the same keys, whose values go together by `P`. -/
theorem rel_lookup {β : Type} {P : α → β → Prop} {items : List (κ × α)} {others : List (κ × β)}
    (h : List.Forall₂ (fun item other ↦ other.1 = item.1 ∧ P item.2 other.2) items others)
    (key : κ) : Option.Rel P (items.lookup key) (others.lookup key) := by
  induction h with
  | nil => exact .none
  | @cons item other _ _ hitem _ ih =>
      rw [lookup_cons, lookup_cons, hitem.1]
      split_ifs
      · exact .some hitem.2
      · exact ih

end Dict
