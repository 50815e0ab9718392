import AgenticSDLC.Foundations.Dict
import Mathlib.Data.List.Perm.Basic

/-!
# Values compared with the first one

A scan that keeps the first value under each key and counts the later ones that are another.
The number depends on the order of the items, unless the values under each key are all
there equally often.
-/

namespace FirstSeen

variable {κ β : Type} [DecidableEq κ]

/-- The values under one key, in order. -/
def under (items : List (κ × β)) (key : κ) : List β := (items.filter (·.1 = key)).map Prod.snd

/-- The first value under the key of the item is another one. -/
def differs [DecidableEq β] (items : List (κ × β)) (item : κ × β) : Bool := items.lookup item.1 ≠ some item.2

def conflicts [DecidableEq β] (items : List (κ × β)) : ℕ := items.countP (differs items)

/-- The values under each key are there equally often. -/
def Balanced [DecidableEq β] (items : List (κ × β)) : Prop :=
  ∀ key, ∀ b ∈ under items key, ∀ b' ∈ under items key,
    (under items key).count b = (under items key).count b'

variable {items others : List (κ × β)} {key : κ} {item : κ × β} {first : β}

theorem mem_under {b : β} : b ∈ under items key ↔ (key, b) ∈ items := by
  constructor
  · intro hb
    obtain ⟨⟨other, value⟩, hmem, rfl⟩ := List.mem_map.mp hb
    obtain ⟨hitem, hkey⟩ := List.mem_filter.mp hmem
    rwa [← of_decide_eq_true hkey]
  · intro hmem
    exact List.mem_map.mpr ⟨_, List.mem_filter.mpr ⟨hmem, decide_eq_true rfl⟩, rfl⟩

theorem perm_under (h : items.Perm others) (key : κ) : (under items key).Perm (under others key) :=
  (h.filter _).map _

theorem exists_lookup_of_mem {b : β} (h : b ∈ under items key) :
    ∃ first ∈ under items key, items.lookup key = some first := by
  have hsome : (items.lookup key).isSome := by
    rw [Dict.isSome_lookup_iff]
    exact List.mem_map.mpr ⟨_, mem_under.mp h, rfl⟩
  obtain ⟨first, hfirst⟩ := Option.isSome_iff_exists.mp hsome
  exact ⟨first, mem_under.mpr (Dict.mem_of_lookup hfirst), hfirst⟩

/-! ## Counts at each key -/

omit [DecidableEq κ] in
theorem countP_eq_add (p q : κ × β → Bool) (items : List (κ × β)) :
    items.countP p = (items.filter q).countP p + (items.filter (!q ·)).countP p := by
  rw [← List.countP_append]
  exact ((List.filter_append_perm q items).countP_eq p).symm

/-- Two counts are one when they are one at each key. -/
theorem countP_congr_keys {p q : κ × β → Bool} (h : ∀ key,
    (items.filter (·.1 = key)).countP p = (items.filter (·.1 = key)).countP q) :
    items.countP p = items.countP q := by
  induction hlength : items.length using Nat.strongRecOn generalizing items with
  | ind n ih =>
      cases items with
      | nil => rfl
      | cons item rest =>
          -- the items with the first key, and the others
          rw [countP_eq_add p (·.1 = item.1), countP_eq_add q (·.1 = item.1), h item.1]
          congr 1
          apply ih _ _ _ rfl
          · rw [← hlength, List.filter_cons_of_neg (by simp), List.length_cons]
            exact Nat.lt_succ_of_le (List.length_filter_le _ _)
          · intro key
            by_cases hkey : key = item.1
            · rw [hkey, List.filter_filter]
              simp
            · have hfilter : ((item :: rest).filter fun other ↦ !decide (other.1 = item.1)).filter
                  (·.1 = key) = (item :: rest).filter (·.1 = key) := by
                rw [List.filter_filter]
                apply List.filter_congr
                intro other _
                by_cases hother : other.1 = key
                · simp [hother, hkey]
                · simp [hother]
              rw [hfilter]
              exact h key

/-! ## The scan -/

variable [DecidableEq β]

theorem differs_concat {other : κ × β} (h : (items.lookup other.1).isSome) :
    differs (items ++ [item]) other = differs items other := by
  rw [differs, differs, Dict.lookup_append_singleton, Option.or_of_isSome h]

theorem conflicts_concat (items : List (κ × β)) (item : κ × β) : conflicts (items ++ [item]) =
    conflicts items + if differs (items ++ [item]) item then 1 else 0 := by
  rw [conflicts, List.countP_append, List.countP_singleton, conflicts]
  congr 1
  apply List.countP_congr
  intro other hother
  rw [differs_concat (Dict.isSome_lookup_iff.mpr (List.mem_map_of_mem hother))]

theorem conflicts_concat_of_none (h : items.lookup item.1 = none) :
    conflicts (items ++ [item]) = conflicts items := by
  rw [conflicts_concat, differs, Dict.lookup_append_singleton, h]
  simp

theorem conflicts_concat_of_some (h : items.lookup item.1 = some first) :
    conflicts (items ++ [item]) = conflicts items + if first = item.2 then 0 else 1 := by
  rw [conflicts_concat, differs, Dict.lookup_append_singleton, h]
  simp

/-- A later value differs from the first one exactly when two values differ. -/
theorem exists_differs_iff : (∃ item ∈ items, item.1 = key ∧ differs items item = true) ↔
    ∃ b ∈ under items key, ∃ b' ∈ under items key, b ≠ b' := by
  constructor
  · rintro ⟨⟨other, value⟩, hmem, rfl, hdiffers⟩
    have hvalue := mem_under.mpr hmem
    obtain ⟨first, hfirst, hlookup⟩ := exists_lookup_of_mem hvalue
    refine ⟨first, hfirst, value, hvalue, fun heq ↦ ?_⟩
    rw [differs, hlookup, heq] at hdiffers
    simp at hdiffers
  · rintro ⟨b, hb, b', hb', hne⟩
    obtain ⟨first, hfirst, hlookup⟩ := exists_lookup_of_mem hb
    have hreports : ∀ value ∈ under items key, first ≠ value →
        ∃ item ∈ items, item.1 = key ∧ differs items item = true := by
      intro value hvalue hother
      refine ⟨(key, value), mem_under.mp hvalue, rfl, decide_eq_true ?_⟩
      rw [hlookup]
      exact fun heq ↦ hother (Option.some.inj heq)
    by_cases heq : first = b
    · exact hreports b' hb' (heq ▸ hne)
    · exact hreports b hb heq

/-! ## Counts in another order -/

theorem countP_differs (items : List (κ × β)) (hlookup : others.lookup key = some first) :
    (items.filter (·.1 = key)).countP (differs others) + (under items key).count first =
      (under items key).length := by
  have hsame : (items.filter (·.1 = key)).countP (differs others) =
      (items.filter (·.1 = key)).countP fun item ↦ ¬(item.2 == first) = true := by
    apply List.countP_congr
    intro item hitem
    rw [differs, of_decide_eq_true (List.mem_filter.mp hitem).2, hlookup]
    by_cases hvalue : item.2 = first
    · simp [hvalue]
    · simp [hvalue, Ne.symm hvalue]
  rw [hsame, under, List.count, List.countP_map, List.length_map, Nat.add_comm]
  exact (List.length_eq_countP_add_countP _).symm

/-- The conflicts of a list in another order. -/
theorem conflicts_eq_of_perm (h : others.Perm items) :
    conflicts others = items.countP (differs others) := h.countP_eq _

theorem Balanced.conflicts_perm (hbalanced : Balanced items) (h : others.Perm items) :
    conflicts others = conflicts items := by
  rw [conflicts_eq_of_perm h, conflicts]
  apply countP_congr_keys
  intro key
  cases hunder : under items key with
  | nil => rw [List.map_eq_nil_iff.mp hunder, List.countP_nil, List.countP_nil]
  | cons b values =>
      have hb : b ∈ under items key := by
        rw [hunder]
        exact List.mem_cons_self
      obtain ⟨first, hfirst, hlookup⟩ := exists_lookup_of_mem hb
      obtain ⟨first', hfirst', hlookup'⟩ := exists_lookup_of_mem
        ((perm_under h key).mem_iff.mpr hb)
      have hcount := hbalanced key first hfirst first' ((perm_under h key).mem_iff.mp hfirst')
      have hitems := countP_differs items hlookup
      have hothers := countP_differs items hlookup'
      omega

/-- With a value put first, the conflicts under its key are the values that are another. -/
theorem conflicts_front {b : β} (hb : b ∈ under items key) : ∃ others, others.Perm items ∧
    conflicts others + (under items key).count b =
      (items.filter fun item ↦ !decide (item.1 = key)).countP (differs items) +
        (under items key).length := by
  obtain ⟨before, after, hitems⟩ := List.append_of_mem (mem_under.mp hb)
  have hperm : ((key, b) :: (before ++ after)).Perm items := by
    rw [hitems]
    exact List.perm_middle.symm
  have hlookup : ((key, b) :: (before ++ after)).lookup key = some b := by
    rw [Dict.lookup_cons, if_pos rfl]
  have hothers : (items.filter fun item ↦ !decide (item.1 = key)).countP
      (differs ((key, b) :: (before ++ after))) =
        (items.filter fun item ↦ !decide (item.1 = key)).countP (differs items) := by
    apply List.countP_congr
    intro item hitem
    have hkey : item.1 ≠ key := by simpa using (List.mem_filter.mp hitem).2
    rw [differs, differs, hitems, Dict.lookup_cons, if_neg hkey, List.lookup_append,
      List.lookup_append, Dict.lookup_cons, if_neg hkey]
  have hcount := countP_differs items hlookup
  refine ⟨_, hperm, ?_⟩
  rw [conflicts_eq_of_perm hperm, countP_eq_add _ (·.1 = key), hothers]
  omega

/-- The conflicts are as many in every order exactly when the values are balanced. -/
theorem conflicts_perm_iff :
    (∀ others, others.Perm items → conflicts others = conflicts items) ↔ Balanced items := by
  constructor
  · intro h key b hb b' hb'
    obtain ⟨others, hperm, hcount⟩ := conflicts_front hb
    obtain ⟨others', hperm', hcount'⟩ := conflicts_front hb'
    rw [h _ hperm] at hcount
    rw [h _ hperm'] at hcount'
    omega
  · exact fun hbalanced others h ↦ hbalanced.conflicts_perm h

/-! ## The values that are new -/

section Fresh

variable {α : Type} [DecidableEq α]

/-- The values that are not among those seen, each at the place where it comes first. -/
def fresh (seen : List α) : List α → List α
  | [] => []
  | a :: values => if a ∈ seen then fresh seen values else a :: fresh (seen ++ [a]) values

theorem fresh_congr {seen others : List α} (h : ∀ a, a ∈ seen ↔ a ∈ others) (values : List α) :
    fresh seen values = fresh others values := by
  induction values generalizing seen others with
  | nil => rfl
  | cons a values ih =>
      simp only [fresh, h a]
      split_ifs
      · exact ih h
      · exact congrArg (a :: ·) (ih fun b ↦ by simp [h b])

theorem fresh_append (seen values more : List α) :
    fresh seen (values ++ more) = fresh seen values ++ fresh (seen ++ values) more := by
  induction values generalizing seen with
  | nil => simp [fresh]
  | cons a values ih =>
      simp only [List.cons_append, fresh]
      split_ifs with ha
      · rw [ih]
        congr 1
        exact fresh_congr (fun b ↦ by simp; grind) more
      · rw [ih, List.cons_append]
        congr 2
        exact fresh_congr (fun b ↦ by simp) more

theorem fresh_of_subset {seen values : List α} (h : ∀ a ∈ values, a ∈ seen) :
    fresh seen values = [] := by
  induction values with
  | nil => rfl
  | cons a values ih =>
      rw [fresh, if_pos (h a List.mem_cons_self)]
      exact ih fun b hb ↦ h b (List.mem_cons_of_mem a hb)

theorem mem_fresh {seen values : List α} {a : α} :
    a ∈ fresh seen values ↔ a ∈ values ∧ a ∉ seen := by
  induction values generalizing seen with
  | nil => simp [fresh]
  | cons b values ih =>
      rw [fresh]
      split_ifs with hb
      · rw [ih]
        grind
      · simp only [List.mem_cons, ih, List.mem_append]
        grind

end Fresh

end FirstSeen
