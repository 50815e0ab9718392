import AgenticSDLC.Wiring.DeadCodeUnion
import Mathlib.Data.Finset.Card
import Mathlib.Data.List.Pairwise

/-!
# Ids of merged findings

A finding that only Semgrep has gets one of a thousand ids, by a hash of its name.  The merged
ids are distinct as long as no two of these findings get the same one, and none gets the id of
a candidate that is merged with it.
-/

namespace AgenticSDLC.WiringDedup

open Python (Key Hashable Stdlib)

def IdsDistinct (items : List Candidate) : Prop :=
  items.Pairwise fun a b ↦ Python.eq (Python.get a "id") (Python.get b "id") = false

section Ids

variable (py : Stdlib) (ast sg : List Candidate)

def MergesDistinct : Prop := ∃ output, merge py ast sg = .ok output ∧ IdsDistinct output

def synthesizedId (item : Candidate) : String :=
  WiringChecker.itemId (digits py (synthesizedName py item))

/-- The candidate is merged under this key. -/
def Kept (key : Key) (item : Candidate) : Prop :=
  lastOf ast key = some item ∧ flagged ast sg key = true

/-- The finding is one of this key that only Semgrep has. -/
def Synthesized (key : Key) (item : Candidate) : Prop :=
  lastOf ast key = none ∧ lastOf sg key = some item ∧ semgrepIsFinding item = true

/-- The ids that are synthesized are distinct, and none is that of a merged candidate. -/
structure Apart : Prop where
  hashable : ∀ item ∈ ast ++ sg, Hashable (qualnameOf item)
  synthesized : ∀ key other item item', Synthesized ast sg key item →
    Synthesized ast sg other item' → synthesizedId py item = synthesizedId py item' → key = other
  kept : ∀ key other item item', Kept ast sg key item → Synthesized ast sg other item' →
    Python.get item "id" ≠ .str (synthesizedId py item')

variable {py ast sg}

theorem shown_of_kept {name : Key × Json} {item : Candidate} (h : Kept ast sg name.1 item) :
    ∃ merged, shown py ast sg name = some merged ∧ Python.get merged "id" = Python.get item "id" := by
  obtain ⟨hlast, hflagged⟩ := h
  exact ⟨_, by rw [shown, if_pos hflagged, hlast], id_mergeItem _ _ _⟩

theorem shown_of_synthesized {name : Key × Json} {item : Candidate}
    (h : Synthesized ast sg name.1 item) :
    ∃ merged, shown py ast sg name = some merged ∧
      Python.get merged "id" = .str (synthesizedId py item) := by
  obtain ⟨hast, hsg, hfinding⟩ := h
  have hflagged : flagged ast sg name.1 = true := by simp [flagged, hsg, hfinding]
  exact ⟨_, by rw [shown, if_pos hflagged, hast, hsg]; rfl, id_synthesizeItem py item⟩

/-- What is merged is a candidate, or a finding that only Semgrep has. -/
theorem kept_or_synthesized {name : Key × Json} {merged : Candidate}
    (h : shown py ast sg name = some merged) :
    (∃ item, Kept ast sg name.1 item ∧ Python.get merged "id" = Python.get item "id") ∨
      ∃ item, Synthesized ast sg name.1 item ∧
        Python.get merged "id" = .str (synthesizedId py item) := by
  rw [shown] at h
  split_ifs at h with hflagged
  cases hast : lastOf ast name.1 with
  | some item =>
      rw [hast] at h
      obtain rfl := Option.some.inj h
      exact Or.inl ⟨item, ⟨hast, hflagged⟩, id_mergeItem _ _ _⟩
  | none =>
      rw [hast, Option.map_eq_some_iff] at h
      obtain ⟨item, hsg, rfl⟩ := h
      have hfinding : semgrepIsFinding item = true := by simpa [flagged, hast, hsg] using hflagged
      exact Or.inr ⟨item, ⟨hast, hsg, hfinding⟩, id_synthesizeItem py item⟩

theorem Kept.exists_mem {key : Key} {item : Candidate} (h : Kept ast sg key item) :
    ∃ item ∈ ast ++ sg, keyOf item = some key :=
  ⟨item, List.mem_append_left _ (mem_lastOf h.1).1, (mem_lastOf h.1).2⟩

theorem Synthesized.exists_mem {key : Key} {item : Candidate} (h : Synthesized ast sg key item) :
    ∃ item ∈ ast ++ sg, keyOf item = some key :=
  ⟨item, List.mem_append_right _ (mem_lastOf h.2.1).1, (mem_lastOf h.2.1).2⟩

/-- Candidates of two names have two ids, as the candidates have. -/
theorem Kept.eq_id (hids : IdsDistinct ast) {key other : Key} {item item' : Candidate}
    (h : Kept ast sg key item) (h' : Kept ast sg other item') (hne : key ≠ other) :
    Python.eq (Python.get item "id") (Python.get item' "id") = false := by
  have hitems : item ≠ item' := by
    rintro rfl
    exact hne (Option.some.inj ((mem_lastOf h.1).2.symm.trans (mem_lastOf h'.1).2))
  have hsymm : Std.Symm fun a b : Candidate ↦
      Python.eq (Python.get a "id") (Python.get b "id") = false :=
    ⟨fun a b hab ↦ by rwa [Python.eq_comm]⟩
  exact List.Pairwise.forall hids (mem_lastOf h.1).1 (mem_lastOf h'.1).1 hitems

theorem eq_str_eq_false_iff {value : Json} {text : String} :
    Python.eq value (.str text) = false ↔ value ≠ .str text := by
  rw [← Bool.not_eq_true, Python.eq_str_iff]

theorem Apart.mergesDistinct (h : Apart py ast sg) (hids : IdsDistinct ast) :
    MergesDistinct py ast sg := by
  obtain ⟨names, hmerge, hnames⟩ := merge_spec py h.hashable
  refine ⟨_, hmerge, ?_⟩
  rw [IdsDistinct, List.pairwise_filterMap]
  apply (List.pairwise_map.mp hnames.nodup).imp
  intro name other hne merged hmerged merged' hmerged'
  rcases kept_or_synthesized hmerged with ⟨item, hitem, hid⟩ | ⟨item, hitem, hid⟩ <;>
    rcases kept_or_synthesized hmerged' with ⟨item', hitem', hid'⟩ | ⟨item', hitem', hid'⟩
  · rw [hid, hid']
    exact hitem.eq_id hids hitem' hne
  · rw [hid, hid', eq_str_eq_false_iff]
    exact h.kept name.1 other.1 item item' hitem hitem'
  · rw [hid, hid', Python.eq_comm, eq_str_eq_false_iff]
    exact h.kept other.1 name.1 item' item hitem' hitem
  · rw [hid, hid', eq_str_eq_false_iff]
    exact fun hsame ↦ hne
      (h.synthesized name.1 other.1 item item' hitem hitem' (Json.str.inj hsame))

/-- What is merged under two names has two ids. -/
theorem MergesDistinct.eq_id (h : MergesDistinct py ast sg) {key other : Key} (hne : key ≠ other)
    (hkey : ∃ item ∈ ast ++ sg, keyOf item = some key)
    (hother : ∃ item ∈ ast ++ sg, keyOf item = some other) :
    ∃ name name' : Key × Json, name.1 = key ∧ name'.1 = other ∧
      ∀ merged merged', shown py ast sg name = some merged → shown py ast sg name' = some merged' →
        Python.eq (Python.get merged "id") (Python.get merged' "id") = false := by
  obtain ⟨output, hmerge, hdistinct⟩ := h
  obtain ⟨names, rfl, hnames⟩ := names_of_merge py hmerge
  obtain ⟨name, hname, rfl⟩ := List.mem_map.mp ((hnames.keys key).mpr hkey)
  obtain ⟨name', hname', rfl⟩ := List.mem_map.mp ((hnames.keys other).mpr hother)
  refine ⟨name, name', rfl, rfl, fun merged merged' hmerged hmerged' ↦ ?_⟩
  rw [IdsDistinct, List.pairwise_filterMap] at hdistinct
  have hsymm : Std.Symm fun a b : Key × Json ↦ ∀ x, shown py ast sg a = some x →
      ∀ y, shown py ast sg b = some y →
        Python.eq (Python.get x "id") (Python.get y "id") = false :=
    ⟨fun a b hab y hy x hx ↦ by rw [Python.eq_comm]; exact hab x hx y hy⟩
  have hpair : name ≠ name' := fun hsame ↦ hne (congrArg Prod.fst hsame)
  exact List.Pairwise.forall hdistinct hname hname' hpair merged hmerged merged' hmerged'

theorem MergesDistinct.apart (h : MergesDistinct py ast sg) : Apart py ast sg where
  hashable := by
    obtain ⟨output, hmerge, -⟩ := h
    exact hashable_of_merge py hmerge
  synthesized := by
    intro key other item item' hitem hitem' hsame
    by_contra hne
    obtain ⟨name, name', rfl, rfl, hdistinct⟩ := h.eq_id hne hitem.exists_mem hitem'.exists_mem
    obtain ⟨merged, hmerged, hid⟩ := @shown_of_synthesized py ast sg name item hitem
    obtain ⟨merged', hmerged', hid'⟩ := @shown_of_synthesized py ast sg name' item' hitem'
    have heq := hdistinct merged merged' hmerged hmerged'
    rw [hid, hid', eq_str_eq_false_iff] at heq
    exact heq (congrArg Json.str hsame)
  kept := by
    intro key other item item' hitem hitem' hsame
    have hne : key ≠ other := by
      rintro rfl
      cases hitem.1.symm.trans hitem'.1
    obtain ⟨name, name', rfl, rfl, hdistinct⟩ := h.eq_id hne hitem.exists_mem hitem'.exists_mem
    obtain ⟨merged, hmerged, hid⟩ := @shown_of_kept py ast sg name item hitem
    obtain ⟨merged', hmerged', hid'⟩ := @shown_of_synthesized py ast sg name' item' hitem'
    have heq := hdistinct merged merged' hmerged hmerged'
    rw [hid, hid', eq_str_eq_false_iff] at heq
    exact heq hsame

theorem digits_lt (qn : String) : digits py qn < 1000 := by
  apply Nat.mod_lt
  omega

/-- There are no more ids to synthesize than a thousand. -/
theorem Apart.length_le (h : Apart py ast sg) {keys : List Key} (hnodup : keys.Nodup)
    (hkeys : ∀ key ∈ keys, ∃ item, Synthesized ast sg key item) : keys.length ≤ 1000 := by
  choose! item hitem using hkeys
  let digitsOf (key : Key) : ℕ := digits py (synthesizedName py (item key))
  have hmaps : Set.MapsTo digitsOf keys.toFinset (Finset.range 1000) :=
    fun key _ ↦ Finset.mem_coe.mpr (Finset.mem_range.mpr (digits_lt _))
  have hinj : Set.InjOn digitsOf keys.toFinset := by
    intro key hkey other hother hsame
    rw [Finset.mem_coe, List.mem_toFinset] at hkey hother
    exact h.synthesized key other _ _ (hitem key hkey) (hitem other hother)
      (congrArg WiringChecker.itemId hsame)
  have hle := Finset.card_le_card_of_injOn digitsOf hmaps hinj
  rwa [List.toFinset_card_of_nodup hnodup, Finset.card_range] at hle

/-- The merged ids are distinct just when no synthesized id is that of another finding. -/
theorem merged_ids_distinct_iff (py : Stdlib) {ast : List Candidate} (sg : List Candidate)
    (hids : IdsDistinct ast) : MergesDistinct py ast sg ↔ Apart py ast sg :=
  ⟨MergesDistinct.apart, fun h ↦ h.mergesDistinct hids⟩

end Ids

/-! ## More findings than ids -/

/-- The library on the one name of the sample. -/
def sampleLibrary : Stdlib where
  repr := fun _ ↦ "'m.g'"
  sha256 := fun _ ↦ "2ead4f5767765c05009f208c0f52eecef50dbb37de3081eef571fe29f8cd5552"
  fromisoformat := fun _ ↦ none

def sampleOrphan : Candidate :=
  [("id", .str "REQ-WIRE-001"), ("wiring", .obj [("qualname", .str "m.f"), ("reachable", .bool false)])]

theorem merged_ids_distinct_sample :
    IdsDistinct [sampleOrphan] ∧
      (MergesDistinct sampleLibrary [sampleOrphan] [sampleFinding "m.g" "dead"] ↔
        Apart sampleLibrary [sampleOrphan] [sampleFinding "m.g" "dead"]) :=
  ⟨List.pairwise_singleton _ _, merged_ids_distinct_iff _ _ (List.pairwise_singleton _ _)⟩

def findingName (n : ℕ) : String := "f" ++ WiringChecker.ordinalText n

theorem findingName_injective : Function.Injective findingName := by
  intro m n h
  apply WiringChecker.ordinalText_injective
  exact (String.append_right_inj _).mp h

def manyFindings : List Candidate :=
  (List.range 1001).map fun n ↦ sampleFinding (findingName n) "dead"

theorem keyOf_sampleFinding (name status : String) :
    keyOf (sampleFinding name status) = some (.str name) := by
  apply keyOf_of_hashKey
  · exact Json.noConfusion
  · rfl

theorem synthesized_manyFindings {n : ℕ} (hn : n < 1001) :
    ∃ item, Synthesized [] manyFindings (.str (findingName n)) item := by
  have hmem : sampleFinding (findingName n) "dead" ∈ manyFindings :=
    List.mem_map.mpr ⟨n, List.mem_range.mpr hn, rfl⟩
  obtain ⟨item, hlast⟩ := exists_lastOf_iff.mpr ⟨_, hmem, keyOf_sampleFinding _ _⟩
  obtain ⟨m, -, rfl⟩ := List.mem_map.mp (mem_lastOf hlast).1
  have hstatus : Python.get (sampleFinding (findingName m) "dead") "status" = .str "dead" := rfl
  exact ⟨_, rfl, hlast, by rw [semgrepIsFinding, hstatus]; decide +kernel⟩

/-- Whatever the hash is, two of a thousand and one findings get one id. -/
theorem findings_share_an_id : ¬∃ py, IdsDistinct [] ∧ MergesDistinct py [] manyFindings := by
  rintro ⟨py, -, h⟩
  have hnodup : ((List.range 1001).map fun n ↦ Key.str (findingName n)).Nodup := by
    apply List.Nodup.map _ List.nodup_range
    exact fun m n hsame ↦ findingName_injective (Key.str.inj hsame)
  have hle := h.apart.length_le hnodup fun key hkey ↦ by
    obtain ⟨n, hn, rfl⟩ := List.mem_map.mp hkey
    exact synthesized_manyFindings (List.mem_range.mp hn)
  rw [List.length_map, List.length_range] at hle
  omega

end AgenticSDLC.WiringDedup
