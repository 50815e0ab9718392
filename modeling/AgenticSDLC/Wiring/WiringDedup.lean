import AgenticSDLC.Foundations.Dict
import AgenticSDLC.Foundations.Outcome
import AgenticSDLC.Wiring.WiringChecker

/-!
# Merging dead-code findings

`tools/wiring_dedup.py`.  A candidate is a dictionary.  A dictionary by names has the first
value that a key came as, and the last candidate of that key.
-/

namespace AgenticSDLC.WiringDedup

open Python (Exception Key Hashable Stdlib)

abbrev Candidate := List (String × Json)

/-- `_qualname`. -/
def qualnameOf (item : Candidate) : Json :=
  let qn := Python.get item "qualname"
  if qn ≠ .null then qn
  else
    match Python.get item "wiring" with
    | .obj wiring => Python.get wiring "qualname"
    | _ => .null

def astIsOrphan (item : Candidate) : Bool :=
  match Python.get item "wiring" with
  | .obj wiring => Python.get wiring "reachable" = .bool false
  | _ => false

/-- No letter that is not ASCII folds to one of `clean`. -/
def semgrepIsFinding (item : Candidate) : Bool :=
  match Python.get item "status" with
  | .str status => Python.casefold (Python.strip status) ∉ ["", "clean"]
  | _ => false

def copyMember (sg : Candidate) (key target : String) (merged : Candidate) : Candidate :=
  match sg.lookup key with
  | some value => Dict.set target value merged
  | none => merged

def enrichWithSemgrep (merged sg : Candidate) : Candidate :=
  let merged := copyMember sg "status" "semgrep_status" merged
  ["decorator", "callback", "reason"].foldl (fun merged key ↦ copyMember sg key key merged) merged

/-- `int(digest, 16)`. -/
def hexValue (digest : String) : ℕ :=
  digest.toList.foldl (fun n c ↦ 16 * n +
    (if c.isDigit then c.toNat - '0'.toNat else c.toNat - 'a'.toNat + 10)) 0

section Merge

variable (py : Stdlib)

def digits (qn : String) : ℕ := hexValue (py.sha256 qn) % 1000

def synthesizedName (sg : Candidate) : String := Python.str py.repr (Python.get sg "qualname")

def synthesizeItem (sg : Candidate) : Candidate :=
  let qn := synthesizedName py sg
  enrichWithSemgrep
    [("id", .str (WiringChecker.itemId (digits py qn))), ("type", .str "WIRING"),
      ("priority", .int 999), ("dependencies", .arr []),
      ("acceptance_criteria", .arr [.str ("Symbol " ++ py.repr (.str qn) ++
        " must be reachable from a real execution path.")]),
      ("status", .str "unproven"), ("in_scope", .bool true), ("qualname", .str qn),
      ("wiring", .obj [("symbol", .str qn), ("qualname", .str qn),
        ("file", Python.getD sg "file" (.str "<semgrep>")), ("line", Python.getD sg "line" (.int 0)),
        ("reachable", .bool false), ("source", .str "semgrep_custom_rule")]),
      ("reachable", .bool false)] sg

/-- The candidates that have a name, with it and its key. -/
def named (items : List Candidate) : Except Exception (List (Key × Json × Candidate)) :=
  (items.filter fun item ↦ qualnameOf item ≠ .null).mapM fun item ↦ do
    let key ← Python.hashKey (qualnameOf item)
    return (key, qualnameOf item, item)

/-- A dictionary by names: the names that its keys are, and the candidates. -/
structure ByName where
  names : List (Key × Json)
  items : List (Key × Candidate)

def byName (items : List Candidate) : Except Exception ByName := do
  let entries ← named items
  return ⟨Dict.ofFirst (entries.map fun entry ↦ (entry.1, entry.2.1)),
    Dict.ofItems (entries.map fun entry ↦ (entry.1, entry.2.2))⟩

/-- The names of the one dictionary, and those of the other that it does not have. -/
def unionNames (ast sg : ByName) : List (Key × Json) :=
  ast.names ++ sg.names.filter fun name ↦ name.1 ∉ ast.names.map Prod.fst

def mergeItem (name : Json) (item : Candidate) (sg : Option Candidate) : Candidate :=
  let merged := Dict.set "qualname" name item
  let merged := match Python.get item "wiring" with
    | .obj wiring => Dict.set "reachable" (Python.get wiring "reachable") merged
    | _ => merged
  match sg with
  | some sg => enrichWithSemgrep merged sg
  | none => merged

/-- What is found under a name, if either source flags it. -/
def finding (ast sg : ByName) (name : Key × Json) : Option Candidate :=
  let astItem := ast.items.lookup name.1
  let sgItem := sg.items.lookup name.1
  if astItem.any astIsOrphan || sgItem.any semgrepIsFinding then
    match astItem with
    | some item => some (mergeItem name.2 item sgItem)
    | none => sgItem.map (synthesizeItem py)
  else none

/-- `merge`.  A set has no order of its own: names of one text, such as `1` and `"1"`, stay as
they came. -/
def merge (astCandidates semgrepCandidates : List Candidate) : Except Exception (List Candidate) := do
  let ast ← byName astCandidates
  let sg ← byName semgrepCandidates
  return (Python.sortedBy (fun name ↦ Python.str py.repr name.2) (unionNames ast sg)).filterMap
    (finding py ast sg)

end Merge

/-! ## Dictionaries by names -/

/-- The key of the name of a candidate. -/
def keyOf (item : Candidate) : Option Key :=
  if qualnameOf item = .null then none else (Python.hashKey (qualnameOf item)).toOption

/-- The last candidate of a key. -/
def lastOf (items : List Candidate) (key : Key) : Option Candidate :=
  (items.filter fun item ↦ keyOf item = some key).getLast?

def entryOf (item : Candidate) : Option (Key × Json × Candidate) :=
  (keyOf item).map fun key ↦ (key, qualnameOf item, item)

theorem mem_lastOf {items : List Candidate} {key : Key} {item : Candidate}
    (h : lastOf items key = some item) : item ∈ items ∧ keyOf item = some key := by
  have hmem := List.mem_of_getLast? h
  rw [List.mem_filter, decide_eq_true_eq] at hmem
  exact hmem

theorem exists_lastOf_iff {items : List Candidate} {key : Key} :
    (∃ item, lastOf items key = some item) ↔ ∃ item ∈ items, keyOf item = some key := by
  constructor
  · rintro ⟨item, hitem⟩
    exact ⟨item, mem_lastOf hitem⟩
  · rintro ⟨item, hitem, hkey⟩
    rw [← Option.isSome_iff_exists, Option.isSome_iff_ne_none, lastOf, ne_eq,
      List.getLast?_eq_none_iff, List.filter_eq_nil_iff]
    exact fun h ↦ h item hitem (decide_eq_true hkey)

theorem lastOf_append_singleton {items : List Candidate} {key : Key} {item : Candidate}
    (h : keyOf item = some key) : lastOf (items ++ [item]) key = some item := by
  rw [lastOf, List.filter_append, List.filter_cons_of_pos (by simpa using h), List.getLast?_append]
  rfl

theorem named_eq {items : List Candidate} (h : ∀ item ∈ items, Hashable (qualnameOf item)) :
    named items = .ok (items.filterMap entryOf) := by
  induction items with
  | nil => rfl
  | cons item items ih =>
      obtain ⟨key, hkey⟩ := h item List.mem_cons_self
      have hrest := ih fun other hother ↦ h other (List.mem_cons_of_mem item hother)
      rw [named] at hrest ⊢
      by_cases hnull : qualnameOf item = .null
      · rw [List.filter_cons_of_neg (by simpa using hnull), hrest,
          List.filterMap_cons_none (by simp [entryOf, keyOf, hnull])]
      · rw [List.filter_cons_of_pos (by simpa using hnull), List.mapM_cons, hrest, hkey,
          List.filterMap_cons_some (b := (key, qualnameOf item, item))
            (by simp [entryOf, keyOf, hnull, hkey, Except.toOption])]
        rfl

/-- What a dictionary by names has of its candidates. -/
structure ByName.Of (items : List Candidate) (table : ByName) : Prop where
  item : ∀ key, table.items.lookup key = lastOf items key
  name : ∀ name ∈ table.names, Python.hashKey name.2 = .ok name.1
  keys : ∀ key, key ∈ table.names.map Prod.fst ↔ ∃ item ∈ items, keyOf item = some key
  nodup : (table.names.map Prod.fst).Nodup

theorem entryOf_of_keyOf {item : Candidate} {key : Key} (h : keyOf item = some key) :
    entryOf item = some (key, qualnameOf item, item) := by
  rw [entryOf, h]
  rfl

theorem keyOf_of_hashKey {item : Candidate} {key : Key} (hnull : qualnameOf item ≠ .null)
    (h : Python.hashKey (qualnameOf item) = .ok key) : keyOf item = some key := by
  rw [keyOf, if_neg hnull, h]
  rfl

theorem keyOf_eq_some_iff {item : Candidate} {key : Key} :
    keyOf item = some key ↔
      qualnameOf item ≠ .null ∧ Python.hashKey (qualnameOf item) = .ok key := by
  refine ⟨fun h ↦ ?_, fun h ↦ keyOf_of_hashKey h.1 h.2⟩
  rw [keyOf] at h
  split_ifs at h with hnull
  refine ⟨hnull, ?_⟩
  cases hkey : Python.hashKey (qualnameOf item) with
  | ok found =>
      rw [hkey] at h
      exact congrArg Except.ok (Option.some.inj h)
  | error exc =>
      rw [hkey] at h
      cases h

theorem mem_entries_iff {items : List Candidate} {entry : Key × Json × Candidate} :
    entry ∈ items.filterMap entryOf ↔
      entry.2.2 ∈ items ∧ keyOf entry.2.2 = some entry.1 ∧ entry.2.1 = qualnameOf entry.2.2 := by
  rw [List.mem_filterMap]
  constructor
  · rintro ⟨item, hitem, hentry⟩
    obtain ⟨key, hkey, rfl⟩ := Option.map_eq_some_iff.mp hentry
    exact ⟨hitem, hkey, rfl⟩
  · obtain ⟨key, name, item⟩ := entry
    rintro ⟨hitem, hkey, hname⟩
    obtain rfl : name = qualnameOf item := hname
    exact ⟨item, hitem, entryOf_of_keyOf hkey⟩

theorem filter_entries (items : List Candidate) (key : Key) :
    (((items.filterMap entryOf).map fun entry ↦ (entry.1, entry.2.2)).filter fun item ↦
      item.1 = key).map Prod.snd = items.filter fun item ↦ keyOf item = some key := by
  induction items with
  | nil => rfl
  | cons item items ih =>
      rw [List.filter_cons, ← ih]
      cases hkey : keyOf item with
      | none =>
          rw [List.filterMap_cons_none (by rw [entryOf, hkey]; rfl)]
          rfl
      | some found =>
          rw [List.filterMap_cons_some (entryOf_of_keyOf hkey), List.map_cons, List.filter_cons]
          by_cases hsame : found = key <;> simp [hsame]

theorem byName_spec {items : List Candidate} (h : ∀ item ∈ items, Hashable (qualnameOf item)) :
    ∃ table, byName items = .ok table ∧ table.Of items := by
  refine ⟨_, by rw [byName, named_eq h]; rfl, ⟨fun key ↦ ?_, fun name hname ↦ ?_, fun key ↦ ?_, ?_⟩⟩
  · rw [Dict.lookup_ofItems, ← List.getLast?_map, filter_entries, lastOf]
  · obtain ⟨entry, hentry, rfl⟩ := List.mem_map.mp (Dict.mem_of_mem_ofFirst hname)
    obtain ⟨-, hkey, hqualname⟩ := mem_entries_iff.mp hentry
    rw [hqualname]
    exact (keyOf_eq_some_iff.mp hkey).2
  · rw [Dict.mem_keys_ofFirst, List.map_map, List.mem_map]
    constructor
    · rintro ⟨entry, hentry, rfl⟩
      obtain ⟨hitem, hkey, -⟩ := mem_entries_iff.mp hentry
      exact ⟨entry.2.2, hitem, hkey⟩
    · rintro ⟨item, hitem, hkey⟩
      exact ⟨(key, qualnameOf item, item), mem_entries_iff.mpr ⟨hitem, hkey, rfl⟩, rfl⟩
  · exact Dict.nodup_ofFirst _

theorem hashable_of_byName {items : List Candidate} {table : ByName} (h : byName items = .ok table) :
    ∀ item ∈ items, Hashable (qualnameOf item) := by
  obtain ⟨entries, hentries, -⟩ := Outcome.bind_eq_ok_iff.mp h
  intro item hitem
  by_cases hnull : qualnameOf item = .null
  · exact ⟨.none, by rw [hnull]; rfl⟩
  · have hread := Outcome.exists_of_mapM_eq_ok hentries item
      (List.mem_filter.mpr ⟨hitem, decide_eq_true hnull⟩)
    obtain ⟨entry, -, hentry⟩ := hread
    obtain ⟨key, hkey, -⟩ := Outcome.bind_eq_ok_iff.mp hentry
    exact ⟨key, hkey⟩

/-! ## Merged items -/

theorem lookup_copyMember {sg merged : Candidate} {key target other : String} (h : other ≠ target) :
    (copyMember sg key target merged).lookup other = merged.lookup other := by
  rw [copyMember]
  split
  · rw [Dict.lookup_set, if_neg h]
  · rfl

theorem lookup_enrich {other : String} (merged sg : Candidate)
    (h : other ∉ ["semgrep_status", "decorator", "callback", "reason"]) :
    (enrichWithSemgrep merged sg).lookup other = merged.lookup other := by
  simp only [List.mem_cons, List.not_mem_nil, or_false, not_or] at h
  obtain ⟨hstatus, hdecorator, hcallback, hreason⟩ := h
  simp only [enrichWithSemgrep, List.foldl_cons, List.foldl_nil, lookup_copyMember hstatus,
    lookup_copyMember hdecorator, lookup_copyMember hcallback, lookup_copyMember hreason]

theorem lookup_mergeItem {other : String} (name : Json) (item : Candidate) (sg : Option Candidate)
    (h : other ∉ ["reachable", "semgrep_status", "decorator", "callback", "reason"]) :
    (mergeItem name item sg).lookup other =
      if other = "qualname" then some name else item.lookup other := by
  rw [List.mem_cons, not_or] at h
  have hreachable : (match Python.get item "wiring" with
      | .obj wiring => Dict.set "reachable" (Python.get wiring "reachable")
          (Dict.set "qualname" name item)
      | _ => Dict.set "qualname" name item).lookup other =
        if other = "qualname" then some name else item.lookup other := by
    split
    · rw [Dict.lookup_set, if_neg h.1, Dict.lookup_set]
    · rw [Dict.lookup_set]
  cases sg with
  | none => exact hreachable
  | some sg => exact (lookup_enrich _ sg h.2).trans hreachable

theorem qualname_mergeItem (name : Json) (item : Candidate) (sg : Option Candidate) :
    Python.get (mergeItem name item sg) "qualname" = name := by
  rw [Python.get, lookup_mergeItem name item sg (by decide), if_pos rfl]
  rfl

theorem id_mergeItem (name : Json) (item : Candidate) (sg : Option Candidate) :
    Python.get (mergeItem name item sg) "id" = Python.get item "id" := by
  rw [Python.get, lookup_mergeItem name item sg (by decide), if_neg (by decide)]
  rfl

section Merge

variable (py : Stdlib) (ast sg : List Candidate)

theorem qualname_synthesizeItem (item : Candidate) :
    Python.get (synthesizeItem py item) "qualname" = .str (synthesizedName py item) := by
  rw [synthesizeItem, Python.get, lookup_enrich _ item (by decide)]
  rfl

theorem id_synthesizeItem (item : Candidate) :
    Python.get (synthesizeItem py item) "id" =
      .str (WiringChecker.itemId (digits py (synthesizedName py item))) := by
  rw [synthesizeItem, Python.get, lookup_enrich _ item (by decide)]
  rfl

/-- One of the last candidates of a key is flagged. -/
def flagged (key : Key) : Bool :=
  (lastOf ast key).any astIsOrphan || (lastOf sg key).any semgrepIsFinding

/-- What is merged under a name. -/
def shown (name : Key × Json) : Option Candidate :=
  if flagged ast sg name.1 then
    match lastOf ast name.1 with
    | some item => some (mergeItem name.2 item (lastOf sg name.1))
    | none => (lastOf sg name.1).map (synthesizeItem py)
  else none

/-- The names that a merge goes through: one for every key of the candidates. -/
structure Names (names : List (Key × Json)) : Prop where
  nodup : (names.map Prod.fst).Nodup
  keys : ∀ key, key ∈ names.map Prod.fst ↔ ∃ item ∈ ast ++ sg, keyOf item = some key
  name : ∀ name ∈ names, Python.hashKey name.2 = .ok name.1

variable {ast sg}

theorem names_unionNames {astTable sgTable : ByName} (hast : astTable.Of ast)
    (hsg : sgTable.Of sg) : Names ast sg (unionNames astTable sgTable) where
  nodup := by
    rw [unionNames, List.map_append, List.nodup_append]
    refine ⟨hast.nodup, hsg.nodup.sublist (List.filter_sublist.map _), ?_⟩
    rintro key hkey _ hother rfl
    obtain ⟨name, hname, rfl⟩ := List.mem_map.mp hother
    exact of_decide_eq_true (List.mem_filter.mp hname).2 hkey
  keys := by
    intro key
    rw [unionNames, List.map_append, List.mem_append, hast.keys]
    simp only [List.mem_append, or_and_right, exists_or]
    refine or_congr_right' fun hnone ↦ ?_
    rw [← hsg.keys, List.mem_map, List.mem_map]
    constructor
    · rintro ⟨name, hname, rfl⟩
      exact ⟨name, (List.mem_filter.mp hname).1, rfl⟩
    · rintro ⟨name, hname, rfl⟩
      refine ⟨name, List.mem_filter.mpr ⟨hname, decide_eq_true ?_⟩, rfl⟩
      rwa [hast.keys]
  name := by
    intro name hname
    rcases List.mem_append.mp hname with hast' | hsg'
    · exact hast.name name hast'
    · exact hsg.name name (List.mem_filter.mp hsg').1

theorem merge_spec (h : ∀ item ∈ ast ++ sg, Hashable (qualnameOf item)) :
    ∃ names, merge py ast sg = .ok (names.filterMap (shown py ast sg)) ∧ Names ast sg names := by
  obtain ⟨astTable, hastTable, hastOf⟩ := byName_spec (List.forall_mem_append.mp h).1
  obtain ⟨sgTable, hsgTable, hsgOf⟩ := byName_spec (List.forall_mem_append.mp h).2
  have hnames := names_unionNames hastOf hsgOf
  have hperm : (Python.sortedBy (fun name ↦ Python.str py.repr name.2)
    (unionNames astTable sgTable)).Perm (unionNames astTable sgTable) := List.perm_insertionSort _ _
  have hfinding : finding py astTable sgTable = shown py ast sg := by
    funext name
    rw [finding, shown, flagged, hastOf.item, hsgOf.item]
  refine ⟨_, by rw [merge, hastTable, hsgTable, ← hfinding]; rfl, ?_, fun key ↦ ?_, fun name hname ↦ ?_⟩
  · exact (hperm.map _).nodup_iff.mpr hnames.nodup
  · rw [(hperm.map _).mem_iff, hnames.keys]
  · exact hnames.name name (hperm.mem_iff.mp hname)

theorem hashable_of_merge {output : List Candidate} (h : merge py ast sg = .ok output) :
    ∀ item ∈ ast ++ sg, Hashable (qualnameOf item) := by
  obtain ⟨astTable, hast, hrest⟩ := Outcome.bind_eq_ok_iff.mp h
  obtain ⟨sgTable, hsg, -⟩ := Outcome.bind_eq_ok_iff.mp hrest
  intro item hitem
  rcases List.mem_append.mp hitem with hold | hnew
  · exact hashable_of_byName hast item hold
  · exact hashable_of_byName hsg item hnew

theorem names_of_merge {output : List Candidate} (h : merge py ast sg = .ok output) :
    ∃ names, output = names.filterMap (shown py ast sg) ∧ Names ast sg names := by
  obtain ⟨names, hmerge, hnames⟩ := merge_spec py (hashable_of_merge py h)
  exact ⟨names, Except.ok.inj (h.symm.trans hmerge), hnames⟩

end Merge

end AgenticSDLC.WiringDedup
