import AgenticSDLC.Wiring.WiringDedup

/-!
# The union of two sources

A name is merged if one of the last candidates of it is flagged, so that an earlier one can be
hidden by a later one.  A candidate that only one source has goes by the text of its own member
`qualname`, wherever the merge found its name.
-/

namespace AgenticSDLC.WiringDedup

open Python (Key Hashable Stdlib)

section Union

variable (py : Stdlib) (ast sg : List Candidate)

/-- Some candidate of the key is flagged by its source. -/
def Flagged (key : Key) : Prop :=
  (∃ item ∈ ast, keyOf item = some key ∧ astIsOrphan item = true) ∨
    ∃ item ∈ sg, keyOf item = some key ∧ semgrepIsFinding item = true

def HasName (output : List Candidate) (key : Key) : Prop :=
  ∃ item ∈ output, Python.hashKey (Python.get item "qualname") = .ok key

/-- The names of the output are those that are flagged, each once. -/
structure IsUnion (output : List Candidate) : Prop where
  names : ∀ key, HasName output key ↔ Flagged ast sg key
  once : (output.map fun item ↦ Python.hashKey (Python.get item "qualname")).Nodup

/-- The merge is a union, and has the same names in whatever order the candidates come. -/
def MergesUnion : Prop :=
  ∃ output, merge py ast sg = .ok output ∧ IsUnion ast sg output ∧
    ∀ ast' sg', ast'.Perm ast → sg'.Perm sg → ∃ output', merge py ast' sg' = .ok output' ∧
      ∀ key, HasName output' key ↔ HasName output key

/-- No candidate hides another one: the names have a hash, one source flags all of its candidates
of a name that is flagged, and one that is only known to Semgrep has its name as a member. -/
structure Unhidden : Prop where
  hashable : ∀ item ∈ ast ++ sg, Hashable (qualnameOf item)
  agree : ∀ key, Flagged ast sg key →
    ((∃ item ∈ ast, keyOf item = some key) ∧
        ∀ item ∈ ast, keyOf item = some key → astIsOrphan item = true) ∨
      (∃ item ∈ sg, keyOf item = some key) ∧
        ∀ item ∈ sg, keyOf item = some key → semgrepIsFinding item = true
  member : ∀ key, Flagged ast sg key → (∀ item ∈ ast, keyOf item ≠ some key) →
    ∀ item ∈ sg, keyOf item = some key → Key.str (synthesizedName py item) = key

/-! ## The names of the output -/

/-- The name that the output has for a key. -/
def outKey (key : Key) : Key :=
  match lastOf ast key, lastOf sg key with
  | none, some item => .str (synthesizedName py item)
  | _, _ => key

variable {py ast sg}

theorem lastOf_eq_none_iff {items : List Candidate} {key : Key} :
    lastOf items key = none ↔ ∀ item ∈ items, keyOf item ≠ some key := by
  rw [← not_iff_not, ← ne_eq, Option.ne_none_iff_exists']
  simpa using exists_lastOf_iff

theorem flagged_of_last {key : Key} (h : flagged ast sg key = true) : Flagged ast sg key := by
  rw [flagged, Bool.or_eq_true, Option.any_eq_true, Option.any_eq_true] at h
  rcases h with ⟨item, hlast, horphan⟩ | ⟨item, hlast, hfinding⟩
  · exact Or.inl ⟨item, (mem_lastOf hlast).1, (mem_lastOf hlast).2, horphan⟩
  · exact Or.inr ⟨item, (mem_lastOf hlast).1, (mem_lastOf hlast).2, hfinding⟩

theorem Flagged.exists_mem {key : Key} (h : Flagged ast sg key) :
    ∃ item ∈ ast ++ sg, keyOf item = some key := by
  rcases h with ⟨item, hitem, hkey, -⟩ | ⟨item, hitem, hkey, -⟩
  · exact ⟨item, List.mem_append_left _ hitem, hkey⟩
  · exact ⟨item, List.mem_append_right _ hitem, hkey⟩

theorem shown_cases (name : Key × Json) (hname : Python.hashKey name.2 = .ok name.1) :
    (flagged ast sg name.1 = false ∧ shown py ast sg name = none) ∨
      flagged ast sg name.1 = true ∧ ∃ item, shown py ast sg name = some item ∧
        Python.hashKey (Python.get item "qualname") = .ok (outKey py ast sg name.1) := by
  cases hflagged : flagged ast sg name.1 with
  | false => exact Or.inl ⟨rfl, if_neg (by rw [hflagged]; exact Bool.false_ne_true)⟩
  | true =>
      refine Or.inr ⟨rfl, ?_⟩
      rw [shown, if_pos hflagged, outKey]
      cases hast : lastOf ast name.1 with
      | some item => exact ⟨_, rfl, by rw [qualname_mergeItem, hname]⟩
      | none =>
          cases hsg : lastOf sg name.1 with
          | some item => exact ⟨_, rfl, by rw [qualname_synthesizeItem]; rfl⟩
          | none => simp [flagged, hast, hsg] at hflagged

theorem hasName_iff {names : List (Key × Json)} (h : Names ast sg names) (key : Key) :
    HasName (names.filterMap (shown py ast sg)) key ↔
      ∃ key', flagged ast sg key' = true ∧ outKey py ast sg key' = key := by
  constructor
  · rintro ⟨item, hitem, hkey⟩
    obtain ⟨name, hname, hshown⟩ := List.mem_filterMap.mp hitem
    rcases @shown_cases py ast sg name (h.name name hname) with ⟨-, hnone⟩ |
      ⟨hflagged, item', hitem', hkey'⟩
    · rw [hnone] at hshown
      cases hshown
    · obtain rfl := Option.some.inj (hshown.symm.trans hitem')
      exact ⟨name.1, hflagged, Except.ok.inj (hkey'.symm.trans hkey)⟩
  · rintro ⟨key', hflagged, rfl⟩
    obtain ⟨name, hname, rfl⟩ := List.mem_map.mp
      ((h.keys key').mpr (flagged_of_last hflagged).exists_mem)
    rcases @shown_cases py ast sg name (h.name name hname) with ⟨hnot, -⟩ |
      ⟨-, item, hitem, hkey⟩
    · rw [hflagged] at hnot
      cases hnot
    · exact ⟨item, List.mem_filterMap.mpr ⟨name, hname, hitem⟩, hkey⟩

/-- A candidate that goes by another name has no text for a name of its own. -/
theorem outKey_cases (key : Key) :
    outKey py ast sg key = key ∨ (∃ item, outKey py ast sg key = .str (synthesizedName py item) ∧
      (Python.get item "qualname" = .null ∨ ∀ text, key ≠ .str text)) := by
  rw [outKey]
  cases hast : lastOf ast key with
  | some item => exact Or.inl rfl
  | none =>
      cases hsg : lastOf sg key with
      | none => exact Or.inl rfl
      | some item =>
          obtain ⟨-, hhash⟩ := keyOf_eq_some_iff.mp (mem_lastOf hsg).2
          by_cases hnull : Python.get item "qualname" = .null
          · exact Or.inr ⟨item, rfl, Or.inl hnull⟩
          rw [qualnameOf, if_pos hnull] at hhash
          by_cases htext : ∃ text, key = .str text
          · obtain ⟨text, rfl⟩ := htext
            rw [Python.hashKey_eq_str_iff] at hhash
            apply Or.inl
            simp only [synthesizedName, hhash, Python.str]
          · exact Or.inr ⟨item, rfl, Or.inr fun text h ↦ htext ⟨text, h⟩⟩

/-- Where the names are those that are flagged, each of them is merged under its own: a name
that is missing is one that another name goes by, and that one is missing too. -/
theorem outKey_of_names {names : List (Key × Json)} (h : Names ast sg names)
    (hnames : ∀ key, HasName (names.filterMap (shown py ast sg)) key ↔ Flagged ast sg key)
    {key : Key} (hflagged : flagged ast sg key = true) : outKey py ast sg key = key := by
  have hmissing (key : Key) (hflagged : flagged ast sg key = true)
      (hne : outKey py ast sg key ≠ key) :
      ∃ other, flagged ast sg other = true ∧ outKey py ast sg other = key ∧
        outKey py ast sg other ≠ other := by
    obtain ⟨other, hother, hout⟩ := (hasName_iff h key).mp
      ((hnames key).mpr (flagged_of_last hflagged))
    refine ⟨other, hother, hout, fun hsame ↦ ?_⟩
    obtain rfl := hout.symm.trans hsame
    exact hne hout
  -- A name that another one goes by is a text, so that its own candidate has no name.
  have hnone (key other : Key) (hne : outKey py ast sg key ≠ key)
      (hout : outKey py ast sg other = key) (hother : outKey py ast sg other ≠ other) :
      outKey py ast sg key = .str (Python.str py.repr .null) := by
    obtain ⟨item, hitem, hnull | hnotext⟩ := (outKey_cases key).resolve_left hne
    · rw [hitem, synthesizedName, hnull]
    · obtain ⟨item', hitem', -⟩ := (outKey_cases other).resolve_left hother
      exact absurd (hout.symm.trans hitem') (hnotext _)
  by_contra hne
  obtain ⟨first, hfirst, hfirstOut, hfirstNe⟩ := hmissing key hflagged hne
  obtain ⟨second, -, hsecondOut, hsecondNe⟩ := hmissing first hfirst hfirstNe
  have hkey := hnone key first hne hfirstOut hfirstNe
  have hfirstKey := hnone first second hfirstNe hsecondOut hsecondNe
  exact hne (hkey.trans (hfirstKey.symm.trans hfirstOut))

/-! ## Candidates that come in another order -/

theorem Flagged.perm {ast' sg' : List Candidate} (hast : ast'.Perm ast) (hsg : sg'.Perm sg)
    (key : Key) : Flagged ast' sg' key ↔ Flagged ast sg key := by
  simp only [Flagged, hast.mem_iff, hsg.mem_iff]

theorem Unhidden.perm {ast' sg' : List Candidate} (h : Unhidden py ast sg) (hast : ast'.Perm ast)
    (hsg : sg'.Perm sg) : Unhidden py ast' sg' where
  hashable := by
    intro item hitem
    rw [List.mem_append, hast.mem_iff, hsg.mem_iff, ← List.mem_append] at hitem
    exact h.hashable item hitem
  agree := by
    intro key hflagged
    simpa only [hast.mem_iff, hsg.mem_iff] using h.agree key ((Flagged.perm hast hsg key).mp hflagged)
  member := by
    intro key hflagged
    simpa only [hast.mem_iff, hsg.mem_iff] using h.member key ((Flagged.perm hast hsg key).mp hflagged)

/-- Any candidate of a list can come last. -/
theorem exists_perm_last {items : List Candidate} {item : Candidate} {key : Key}
    (hitem : item ∈ items) (hkey : keyOf item = some key) :
    ∃ items', items'.Perm items ∧ lastOf items' key = some item := by
  obtain ⟨before, after, rfl⟩ := List.append_of_mem hitem
  refine ⟨before ++ after ++ [item], ?_, lastOf_append_singleton hkey⟩
  exact (List.perm_append_singleton item _).trans List.perm_middle.symm

/-- Where not all candidates of a key meet `p`, the last one of some order does not. -/
theorem exists_perm_not {items : List Candidate} {key : Key} {p : Candidate → Bool}
    (h : ¬((∃ item ∈ items, keyOf item = some key) ∧
      ∀ item ∈ items, keyOf item = some key → p item = true)) :
    ∃ items', items'.Perm items ∧ (lastOf items' key).any p = false := by
  by_cases hsome : ∃ item ∈ items, keyOf item = some key
  · have hnot : ∃ item ∈ items, keyOf item = some key ∧ p item = false := by
      by_contra hall
      refine h ⟨hsome, fun item hitem hkey ↦ ?_⟩
      by_contra hp
      exact hall ⟨item, hitem, hkey, Bool.eq_false_iff.mpr hp⟩
    obtain ⟨item, hitem, hkey, hp⟩ := hnot
    obtain ⟨items', hperm, hlast⟩ := exists_perm_last hitem hkey
    exact ⟨items', hperm, by rw [hlast]; exact hp⟩
  · have hnone : lastOf items key = none :=
      lastOf_eq_none_iff.mpr fun item hitem hkey ↦ hsome ⟨item, hitem, hkey⟩
    exact ⟨items, List.Perm.refl items, by rw [hnone]; rfl⟩

/-! ## When the merge is a union -/

theorem Unhidden.flagged_iff (h : Unhidden py ast sg) (key : Key) :
    flagged ast sg key = true ↔ Flagged ast sg key := by
  refine ⟨flagged_of_last, fun hflagged ↦ ?_⟩
  rw [flagged, Bool.or_eq_true, Option.any_eq_true, Option.any_eq_true]
  rcases h.agree key hflagged with ⟨hsome, hall⟩ | ⟨hsome, hall⟩
  · obtain ⟨item, hlast⟩ := exists_lastOf_iff.mpr hsome
    exact Or.inl ⟨item, hlast, hall item (mem_lastOf hlast).1 (mem_lastOf hlast).2⟩
  · obtain ⟨item, hlast⟩ := exists_lastOf_iff.mpr hsome
    exact Or.inr ⟨item, hlast, hall item (mem_lastOf hlast).1 (mem_lastOf hlast).2⟩

theorem Unhidden.outKey_eq (h : Unhidden py ast sg) {key : Key} (hflagged : Flagged ast sg key) :
    outKey py ast sg key = key := by
  rw [outKey]
  cases hast : lastOf ast key with
  | some item => rfl
  | none =>
      cases hsg : lastOf sg key with
      | none => rfl
      | some item =>
          exact h.member key hflagged (lastOf_eq_none_iff.mp hast) item (mem_lastOf hsg).1
            (mem_lastOf hsg).2

theorem Unhidden.isUnion (h : Unhidden py ast sg) :
    ∃ output, merge py ast sg = .ok output ∧ IsUnion ast sg output := by
  obtain ⟨names, hmerge, hnames⟩ := merge_spec py h.hashable
  refine ⟨_, hmerge, fun key ↦ ?_, ?_⟩
  · rw [hasName_iff hnames]
    constructor
    · rintro ⟨key', hflagged, rfl⟩
      have hkey := flagged_of_last hflagged
      rwa [h.outKey_eq hkey]
    · exact fun hflagged ↦ ⟨key, (h.flagged_iff key).mpr hflagged, h.outKey_eq hflagged⟩
  · rw [List.Nodup, List.pairwise_map, List.pairwise_filterMap]
    have hnodup := List.pairwise_map.mp hnames.nodup
    refine hnodup.imp_of_mem fun {name other} hname hother hne item hitem item' hitem' hsame ↦ hne ?_
    rcases @shown_cases py ast sg name (hnames.name name hname) with ⟨-, hnone⟩ |
      ⟨hflagged, found, hfound, hkey⟩
    · cases hnone.symm.trans hitem
    rcases @shown_cases py ast sg other (hnames.name other hother) with ⟨-, hnone⟩ |
      ⟨hflagged', found', hfound', hkey'⟩
    · cases hnone.symm.trans hitem'
    obtain rfl := Option.some.inj (hfound.symm.trans hitem)
    obtain rfl := Option.some.inj (hfound'.symm.trans hitem')
    rw [h.outKey_eq (flagged_of_last hflagged)] at hkey
    rw [h.outKey_eq (flagged_of_last hflagged')] at hkey'
    exact Except.ok.inj (hkey.symm.trans (hsame.trans hkey'))

/-- A merge that is a union flags what is flagged, under its own name, in every order. -/
theorem MergesUnion.perm {ast' sg' : List Candidate} (h : MergesUnion py ast sg)
    (hast : ast'.Perm ast) (hsg : sg'.Perm sg) {key : Key} (hkey : Flagged ast sg key) :
    flagged ast' sg' key = true ∧ outKey py ast' sg' key = key := by
  obtain ⟨output, -, hunion, horders⟩ := h
  obtain ⟨output', hmerge', hsame⟩ := horders ast' sg' hast hsg
  obtain ⟨names, rfl, hnames⟩ := names_of_merge py hmerge'
  have hall (key : Key) : HasName (names.filterMap (shown py ast' sg')) key ↔
      Flagged ast' sg' key := by
    rw [hsame, hunion.names, Flagged.perm hast hsg]
  obtain ⟨key', hflagged, hout⟩ := (hasName_iff hnames key).mp
    ((hall key).mpr ((Flagged.perm hast hsg key).mpr hkey))
  have hown := outKey_of_names hnames hall hflagged
  obtain rfl := hout.symm.trans hown
  exact ⟨hflagged, hown⟩

theorem MergesUnion.unhidden (h : MergesUnion py ast sg) : Unhidden py ast sg where
  hashable := by
    obtain ⟨output, hmerge, -⟩ := h
    exact hashable_of_merge py hmerge
  agree := by
    intro key hkey
    by_contra hhidden
    rw [not_or] at hhidden
    obtain ⟨ast', hast, horphan⟩ := exists_perm_not hhidden.1
    obtain ⟨sg', hsg, hfinding⟩ := exists_perm_not hhidden.2
    have hflagged := (h.perm hast hsg hkey).1
    rw [flagged, horphan, hfinding] at hflagged
    cases hflagged
  member := by
    intro key hkey hast item hitem hname
    obtain ⟨sg', hsg, hlast⟩ := exists_perm_last hitem hname
    have hown := (h.perm (List.Perm.refl ast) hsg hkey).2
    rwa [outKey, lastOf_eq_none_iff.mpr hast, hlast] at hown

theorem Unhidden.mergesUnion (h : Unhidden py ast sg) : MergesUnion py ast sg := by
  obtain ⟨output, hmerge, hunion⟩ := h.isUnion
  refine ⟨output, hmerge, hunion, fun ast' sg' hast hsg ↦ ?_⟩
  obtain ⟨output', hmerge', hunion'⟩ := (h.perm hast hsg).isUnion
  refine ⟨output', hmerge', fun key ↦ ?_⟩
  rw [hunion'.names, hunion.names, Flagged.perm hast hsg]

/-- The merge is a union just when no candidate hides another one. -/
theorem merges_union_iff (py : Stdlib) (ast sg : List Candidate) :
    MergesUnion py ast sg ↔ Unhidden py ast sg :=
  ⟨MergesUnion.unhidden, Unhidden.mergesUnion⟩

end Union

/-! ## Two rules about one name -/

def sampleFinding (name status : String) : Candidate :=
  [("qualname", .str name), ("status", .str status)]

/-- The rule that finds nothing hides the one that does. -/
theorem clean_hides_finding :
    ¬∃ py, MergesUnion py [] [sampleFinding "m.f" "dead", sampleFinding "m.f" "clean"] := by
  rintro ⟨py, h⟩
  have hagree := h.unhidden.agree (.str "m.f")
    (Or.inr ⟨sampleFinding "m.f" "dead", List.mem_cons_self, by decide +kernel, by decide +kernel⟩)
  rcases hagree with ⟨⟨item, hitem, -⟩, -⟩ | ⟨-, hall⟩
  · cases hitem
  · have hclean := hall (sampleFinding "m.f" "clean") (by simp) (by decide +kernel)
    exact absurd hclean (by decide +kernel)

end AgenticSDLC.WiringDedup
