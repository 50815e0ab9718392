import AgenticSDLC.Foundations.JsonCanonical
import AgenticSDLC.Foundations.JsonFloats
import AgenticSDLC.Foundations.StableSort
import Mathlib.Data.Multiset.Defs

/-!
# The resume hash

`tools/state_integrity.py`: the hash of the state that a session resumes from.  It is taken of one
canonical text, in which the items in scope stand in the order of their ids, and the
dependencies of an item in the order of their texts.
-/

namespace AgenticSDLC.StateIntegrity

open Python (Stdlib)

def featureProjectionKeys : List String :=
  ["id", "type", "priority", "dependencies", "acceptance_criteria", "in_scope", "status"]

def runStateKeys : List String :=
  ["phase", "current_item_id", "iteration_count", "violation_count", "last_commit_sha"]

/-- `json.dumps(d, sort_keys=True)`. -/
def dependencyText (repr : Json → String) (d : Json) : String :=
  String.ofList (Json.laidOut Json.asciiQuoting repr .space d.sortKeys)

/-- The dependencies as a list; `None` is none and a scalar is one. -/
def dependencyList : Json → List Json
  | .null => []
  | .arr items => items
  | value => [value]

def projectedValue (repr : Json → String) (item : List (String × Json)) (key : String) : Json :=
  let value := Python.get item key
  if key = "dependencies" then
    .arr (Python.sortedBy (dependencyText repr) (dependencyList value))
  else value

def projectFeatureItem (repr : Json → String) (item : List (String × Json)) : Json :=
  .obj (featureProjectionKeys.map fun key ↦ (key, projectedValue repr item key))

/-- The items of the accepted shapes: wrapped, by id, or a bare list. -/
def rawItems (featureList : Json) : List (List (String × Json)) :=
  let raw :=
    match featureList with
    | .obj members => (members.lookup "items").getD featureList
    | value => value
  match raw with
  | .obj members => Json.objects (members.map Prod.snd)
  | .arr items => Json.objects items
  | _ => []

def itemKey (repr : Json → String) (item : List (String × Json)) : String :=
  Python.str repr (Python.getD item "id" (.str ""))

def inScopeItems (featureList : Json) : List (List (String × Json)) :=
  (rawItems featureList).filter fun item ↦ Python.truthy (Python.get item "in_scope")

def extractInScopeItems (repr : Json → String) (featureList : Json) : List (List (String × Json)) :=
  Python.sortedBy (itemKey repr) (inScopeItems featureList)

/-- A text is parsed; a dictionary is there already. -/
def parsedProgress (toFloat : String → Json) (progress : Json) : Option Json :=
  match progress with
  | .str text => Json.loads toFloat text
  | .obj members => some (.obj members)
  | _ => none

/-- The named run-state fields, or the progress as it is. -/
def runStateRepr (toFloat : String → Json) (progress : Json) : Json :=
  match parsedProgress toFloat progress with
  | some (.obj members) => .obj (runStateKeys.map fun key ↦ (key, Python.get members key))
  | _ => progress

def canonicalState (repr : Json → String) (toFloat : String → Json) (gitStatus : String)
    (progress featureList : Json) : Json :=
  .obj [("feature_items", .arr ((extractInScopeItems repr featureList).map (projectFeatureItem repr))),
    ("run_state", runStateRepr toFloat progress), ("git_status", .str gitStatus)]

def canonicalStateRepr (repr : Json → String) (toFloat : String → Json) (gitStatus : String)
    (progress featureList : Json) : String :=
  Json.dumps repr (canonicalState repr toFloat gitStatus progress featureList)

def computeStateHash (py : Stdlib) (toFloat : String → Json) (gitStatus : String)
    (progress featureList : Json) : String :=
  py.sha256 (canonicalStateRepr py.repr toFloat gitStatus progress featureList)

/-! ## What the text stands for -/

/-- What is pinned of an item: the values up to the order of keys, and the dependencies up to
their order. -/
structure PinnedItem where
  id : Json
  type : Json
  priority : Json
  dependencies : Multiset Json
  acceptanceCriteria : Json
  inScope : Json
  status : Json

def pinned (item : List (String × Json)) : PinnedItem where
  id := (Python.get item "id").sortKeys
  type := (Python.get item "type").sortKeys
  priority := (Python.get item "priority").sortKeys
  dependencies := (dependencyList (Python.get item "dependencies")).map Json.sortKeys
  acceptanceCriteria := (Python.get item "acceptance_criteria").sortKeys
  inScope := (Python.get item "in_scope").sortKeys
  status := (Python.get item "status").sortKeys

/-- The items have string ids, and no two have one. -/
structure DistinctIds (items : List (List (String × Json))) : Prop where
  string : ∀ item ∈ items, ∃ s, Python.get item "id" = .str s
  nodup : (items.map (Python.get · "id")).Nodup

/-- Both inputs pin the same items, run state and git status. -/
structure SameState (toFloat : String → Json) (gitStatus gitStatus' : String)
    (progress progress' featureList featureList' : Json) : Prop where
  items : ∀ item, item ∈ (inScopeItems featureList).map pinned ↔
    item ∈ (inScopeItems featureList').map pinned
  runState : (runStateRepr toFloat progress).sortKeys = (runStateRepr toFloat progress').sortKeys
  gitStatus : gitStatus = gitStatus'

/-! ## The projection of an item -/

variable {repr : Json → String} {toFloat : String → Json}

/-- The dependencies are in a normal form up to their order. -/
theorem sortedDependencies_eq_iff (hfloats : Json.FloatTexts repr toFloat) {deps deps' : List Json}
    (hdeps : ∀ d ∈ deps, d.Native fun _ ↦ True) :
    (Python.sortedBy (dependencyText repr) deps).map Json.sortKeys =
        (Python.sortedBy (dependencyText repr) deps').map Json.sortKeys ↔
      (deps.map Json.sortKeys).Perm (deps'.map Json.sortKeys) := by
  let textOf : Json → String := fun d ↦ String.ofList (Json.laidOut Json.asciiQuoting repr .space d)
  have hleft : ∀ d ∈ deps, textOf d.sortKeys = dependencyText repr d := fun _ _ ↦ rfl
  have hright : ∀ d ∈ deps', textOf d.sortKeys = dependencyText repr d := fun _ _ ↦ rfl
  apply Python.map_sortedBy_eq_iff_perm hleft hright
  intro d hd d' hd' htext
  have hnative : ∀ d ∈ deps, d.sortKeys.Native (Json.ReadsFloat repr toFloat) := fun d hd ↦
    Json.native_sortKeys (fun x _ ↦ hfloats.readsFloat x) d (hdeps d hd)
  exact Json.laidOut_inj Json.asciiQuoting repr .space toFloat (hnative d hd) (hnative d' hd')
    (String.ofList_injective htext)

theorem nodup_projection (item : List (String × Json)) :
    ((featureProjectionKeys.map fun key ↦ (key, projectedValue repr item key)).map Prod.fst).Nodup := by
  rw [List.map_map]
  change featureProjectionKeys.Nodup
  decide

/-- Two items are projected to one object, up to the order of keys, when the same is pinned. -/
theorem projectFeatureItem_eq_iff (hfloats : Json.FloatTexts repr toFloat)
    {item other : List (String × Json)}
    (hdeps : ∀ d ∈ dependencyList (Python.get item "dependencies"), d.Native fun _ ↦ True) :
    (projectFeatureItem repr item).sortKeys = (projectFeatureItem repr other).sortKeys ↔
      pinned item = pinned other := by
  have hdependencies : _ ↔ (_ : List Json).Perm ((dependencyList
    (Python.get other "dependencies")).map Json.sortKeys) := sortedDependencies_eq_iff hfloats hdeps
  constructor
  · intro h
    have hvalue := Json.get_sortKeys_eq (nodup_projection item) (nodup_projection other) h
    have hdeps := hvalue "dependencies"
    change (Json.arr _).sortKeys = (Json.arr _).sortKeys at hdeps
    rw [Json.sortKeys_arr, Json.sortKeys_arr, Json.arr.injEq, hdependencies,
      ← Multiset.coe_eq_coe] at hdeps
    unfold pinned
    congr 1
    · exact hvalue "id"
    · exact hvalue "type"
    · exact hvalue "priority"
    · exact hvalue "acceptance_criteria"
    · exact hvalue "in_scope"
    · exact hvalue "status"
  · intro h
    obtain ⟨hid, htype, hpriority, hdeps, hcriteria, hscope, hstatus⟩ := PinnedItem.mk.inj h
    rw [Multiset.coe_eq_coe, ← hdependencies] at hdeps
    have hvalue : ∀ key ∈ featureProjectionKeys, (projectedValue repr item key).sortKeys =
        (projectedValue repr other key).sortKeys := by
      intro key hkey
      have hcases : key = "id" ∨ key = "type" ∨ key = "priority" ∨ key = "dependencies" ∨
          key = "acceptance_criteria" ∨ key = "in_scope" ∨ key = "status" := by
        simpa [featureProjectionKeys] using hkey
      rcases hcases with rfl | rfl | rfl | rfl | rfl | rfl | rfl
      · exact hid
      · exact htype
      · exact hpriority
      · change (Json.arr _).sortKeys = (Json.arr _).sortKeys
        rw [Json.sortKeys_arr, Json.sortKeys_arr, hdeps]
      · exact hcriteria
      · exact hscope
      · exact hstatus
    rw [projectFeatureItem, projectFeatureItem, Json.sortKeys_obj, Json.sortKeys_obj, List.map_map,
      List.map_map]
    congr 2
    apply List.map_congr_left
    intro key hkey
    exact congrArg (Prod.mk key) (hvalue key hkey)

/-! ## The items in order -/

/-- The id of a projected item. -/
def projectedKey (repr : Json → String) : Json → String
  | .obj members => Python.str repr (Python.get members "id")
  | _ => ""

theorem projectedKey_sortKeys {item : List (String × Json)} {s : String}
    (h : Python.get item "id" = .str s) :
    projectedKey repr (projectFeatureItem repr item).sortKeys = itemKey repr item := by
  have hid : Python.get (featureProjectionKeys.map fun key ↦
      (key, projectedValue repr item key)) "id" = .str s := h
  have hdefault : Python.getD item "id" (.str "") = .str s := by
    rw [Python.get_eq_iff_of_ne_null (by simp)] at h
    rw [Python.getD, h, Option.getD_some]
  rw [projectFeatureItem, Json.sortKeys_obj, projectedKey,
    Json.get_sortedMembers (nodup_projection item), hid, itemKey, hdefault, Json.sortKeys_str]

/-- Items with one key are one item. -/
theorem DistinctIds.eq_of_key {items : List (List (String × Json))} (h : DistinctIds items)
    {item other : List (String × Json)} (hitem : item ∈ items) (hother : other ∈ items)
    (hkey : itemKey repr item = itemKey repr other) : item = other := by
  obtain ⟨s, hs⟩ := h.string item hitem
  obtain ⟨t, ht⟩ := h.string other hother
  have hsame : Python.get item "id" = Python.get other "id" := by
    have hkeyOf : ∀ {item : List (String × Json)} {s : String}, Python.get item "id" = .str s →
        itemKey repr item = s := by
      intro item s hs
      rw [Python.get_eq_iff_of_ne_null (by simp)] at hs
      rw [itemKey, Python.getD, hs, Option.getD_some, Python.str]
    rw [hkeyOf hs, hkeyOf ht] at hkey
    rw [hs, ht, hkey]
  exact List.inj_on_of_nodup_map h.nodup hitem hother hsame

theorem projectedItems_eq_iff (hfloats : Json.FloatTexts repr toFloat) {featureList featureList' : Json}
    (hnative : ∀ item ∈ inScopeItems featureList, ∀ d ∈ dependencyList
      (Python.get item "dependencies"), d.Native fun _ ↦ True)
    (hids : DistinctIds (inScopeItems featureList))
    (hids' : DistinctIds (inScopeItems featureList')) :
    ((extractInScopeItems repr featureList).map (projectFeatureItem repr)).map Json.sortKeys =
        ((extractInScopeItems repr featureList').map (projectFeatureItem repr)).map Json.sortKeys ↔
      ∀ item, item ∈ (inScopeItems featureList).map pinned ↔
        item ∈ (inScopeItems featureList').map pinned := by
  have hkey : ∀ {items : List (List (String × Json))}, DistinctIds items → ∀ item ∈ items,
      projectedKey repr (projectFeatureItem repr item).sortKeys = itemKey repr item := by
    intro items hids item hitem
    obtain ⟨s, hs⟩ := hids.string item hitem
    exact projectedKey_sortKeys hs
  have hnodup : ∀ {items : List (List (String × Json))}, DistinctIds items →
      (items.map fun item ↦ (projectFeatureItem repr item).sortKeys).Nodup := by
    intro items hids
    apply List.Nodup.map_on _ hids.nodup.of_map
    intro item hitem other hother heq
    apply hids.eq_of_key hitem hother
    rw [← hkey hids item hitem, ← hkey hids other hother, heq]
  have hsorted := Python.map_sortedBy_eq_iff_perm (hkey hids) (hkey hids')
    fun item hitem other hother heq ↦ by rw [hids.eq_of_key hitem hother heq]
  rw [List.map_map, List.map_map]
  exact hsorted.trans ((List.perm_ext_iff_of_nodup (hnodup hids) (hnodup hids')).trans
    (Python.forall_mem_map_iff_congr fun item hitem _ _ ↦
      projectFeatureItem_eq_iff hfloats (hnative item hitem)))

/-! ## The canonical text -/

theorem native_get {members : List (String × Json)} {P : Decimal → Prop}
    (h : (Json.obj members).Native P) (key : String) : (Python.get members key).Native P := by
  rw [Python.get]
  cases hlookup : members.lookup key with
  | none => trivial
  | some value => exact (Json.native_obj_iff.mp h).2 _ (Dict.mem_of_lookup hlookup)

theorem native_objects {values : List Json} {P : Decimal → Prop} (h : ∀ v ∈ values, v.Native P) :
    ∀ members ∈ Json.objects values, (Json.obj members).Native P := by
  intro members hmembers
  exact h _ (Json.mem_objects.mp hmembers)

theorem native_inScopeItems {featureList : Json} (h : featureList.Native fun _ ↦ True) :
    ∀ item ∈ inScopeItems featureList, (Json.obj item).Native fun _ ↦ True := by
  intro item hitem
  have hraw := (List.mem_filter.mp hitem).1
  have hshape : ∀ raw : Json, raw.Native (fun _ ↦ True) → ∀ item ∈ (match raw with
      | .obj members => Json.objects (members.map Prod.snd)
      | .arr items => Json.objects items
      | _ => []), (Json.obj item).Native fun _ ↦ True := by
    intro raw hnative
    cases raw with
    | obj members =>
        apply native_objects
        intro v hv
        obtain ⟨member, hmember, rfl⟩ := List.mem_map.mp hv
        exact (Json.native_obj_iff.mp hnative).2 member hmember
    | arr items => exact native_objects (Json.native_arr_iff.mp hnative)
    | _ => exact fun item hitem ↦ absurd hitem List.not_mem_nil
  apply hshape _ _ item hraw
  cases featureList with
  | obj members =>
      simp only
      cases hlookup : members.lookup "items" with
      | none => exact h
      | some value => exact (Json.native_obj_iff.mp h).2 _ (Dict.mem_of_lookup hlookup)
  | _ => exact h

theorem native_dependencyList {value : Json} {P : Decimal → Prop} (h : value.Native P) :
    ∀ d ∈ dependencyList value, d.Native P := by
  cases value with
  | null => simp [dependencyList]
  | arr items => exact Json.native_arr_iff.mp h
  | _ => simpa [dependencyList] using h

theorem native_projectFeatureItem {item : List (String × Json)} {P : Decimal → Prop}
    (h : (Json.obj item).Native P) : (projectFeatureItem repr item).Native P := by
  rw [projectFeatureItem, Json.native_obj_iff]
  refine ⟨nodup_projection item, fun member hmember ↦ ?_⟩
  obtain ⟨key, -, rfl⟩ := List.mem_map.mp hmember
  have hvalue := native_get h key
  simp only [projectedValue]
  split_ifs
  · rw [Json.native_arr_iff]
    intro d hd
    exact native_dependencyList hvalue d ((Python.mem_sortedBy _ _ d).mp hd)
  · exact hvalue

theorem native_runStateRepr (hfloats : Json.FloatTexts repr toFloat) {progress : Json}
    (h : progress.Native fun _ ↦ True) : (runStateRepr toFloat progress).Native fun _ ↦ True := by
  rw [runStateRepr]
  split
  · next members hparsed =>
    have hmembers : (Json.obj members).Native fun _ ↦ True := by
      cases progress with
      | str text => exact Json.native_of_loads hfloats.native hparsed
      | obj fields => exact (Option.some.inj hparsed) ▸ h
      | _ => cases hparsed
    rw [Json.native_obj_iff, List.map_map]
    refine ⟨by change runStateKeys.Nodup; decide, fun member hmember ↦ ?_⟩
    obtain ⟨key, -, rfl⟩ := List.mem_map.mp hmember
    exact native_get hmembers key
  · exact h

theorem nodup_canonicalState (items state status : Json) :
    ([("feature_items", items), ("run_state", state), ("git_status", status)].map Prod.fst).Nodup := by
  simp

theorem native_canonicalState (hfloats : Json.FloatTexts repr toFloat) {featureList progress : Json}
    (gitStatus : String) (hlist : featureList.Native fun _ ↦ True)
    (hprogress : progress.Native fun _ ↦ True) :
    (canonicalState repr toFloat gitStatus progress featureList).Native fun _ ↦ True := by
  rw [canonicalState, Json.native_obj_iff]
  refine ⟨nodup_canonicalState _ _ _, ?_⟩
  have hitems : (Json.arr ((extractInScopeItems repr featureList).map
      (projectFeatureItem repr))).Native fun _ ↦ True := by
    rw [Json.native_arr_iff]
    intro value hvalue
    obtain ⟨item, hitem, rfl⟩ := List.mem_map.mp hvalue
    exact native_projectFeatureItem
      (native_inScopeItems hlist item ((Python.mem_sortedBy _ _ item).mp hitem))
  have hstatus : (Json.str gitStatus).Native fun _ ↦ True := trivial
  simp only [List.forall_mem_cons, List.not_mem_nil, false_imp_iff, implies_true, and_true]
  exact ⟨hitems, native_runStateRepr hfloats hprogress, hstatus⟩

/-- The canonical texts are the same exactly when the states are. -/
theorem canonicalStateRepr_eq_iff (hfloats : Json.FloatTexts repr toFloat)
    {gitStatus gitStatus' : String} {progress progress' featureList featureList' : Json}
    (hlist : featureList.Native fun _ ↦ True) (hlist' : featureList'.Native fun _ ↦ True)
    (hprogress : progress.Native fun _ ↦ True) (hprogress' : progress'.Native fun _ ↦ True)
    (hids : DistinctIds (inScopeItems featureList))
    (hids' : DistinctIds (inScopeItems featureList')) :
    canonicalStateRepr repr toFloat gitStatus progress featureList =
        canonicalStateRepr repr toFloat gitStatus' progress' featureList' ↔
      SameState toFloat gitStatus gitStatus' progress progress' featureList featureList' := by
  have hitems := projectedItems_eq_iff hfloats
    (fun item hitem ↦ native_dependencyList (native_get (native_inScopeItems hlist item hitem) _))
    hids hids'
  constructor
  · intro h
    have hsorted := Json.sortKeys_eq_of_dumps_eq hfloats.readsFloat
      (native_canonicalState hfloats gitStatus hlist hprogress)
      (native_canonicalState hfloats gitStatus' hlist' hprogress') h
    have hvalue := Json.get_sortKeys_eq (nodup_canonicalState _ _ _) (nodup_canonicalState _ _ _)
      hsorted
    have hfeatures := hvalue "feature_items"
    have hstatus := hvalue "git_status"
    change (Json.arr _).sortKeys = (Json.arr _).sortKeys at hfeatures
    change (Json.str _).sortKeys = (Json.str _).sortKeys at hstatus
    rw [Json.sortKeys_arr, Json.sortKeys_arr, Json.arr.injEq, hitems] at hfeatures
    rw [Json.sortKeys_str, Json.sortKeys_str, Json.str.injEq] at hstatus
    exact ⟨hfeatures, hvalue "run_state", hstatus⟩
  · rintro ⟨hfeatures, hstate, rfl⟩
    have hsorted : (canonicalState repr toFloat gitStatus progress featureList).sortKeys =
        (canonicalState repr toFloat gitStatus progress' featureList').sortKeys := by
      simp only [canonicalState, Json.sortKeys_obj, List.map_cons, List.map_nil, Json.sortKeys_arr,
        hitems.mpr hfeatures, hstate]
    rw [canonicalStateRepr, canonicalStateRepr, ← Json.dumps_sortKeys, hsorted, Json.dumps_sortKeys]

/-- The hash is the same in the same state, and where the digest has no collision in no other. -/
theorem stateHash_exact {py : Stdlib} (hfloats : Json.FloatTexts py.repr toFloat)
    {gitStatus gitStatus' : String} {progress progress' featureList featureList' : Json}
    (hlist : featureList.Native fun _ ↦ True) (hlist' : featureList'.Native fun _ ↦ True)
    (hprogress : progress.Native fun _ ↦ True) (hprogress' : progress'.Native fun _ ↦ True)
    (hids : DistinctIds (inScopeItems featureList))
    (hids' : DistinctIds (inScopeItems featureList')) :
    (canonicalStateRepr py.repr toFloat gitStatus progress featureList =
        canonicalStateRepr py.repr toFloat gitStatus' progress' featureList' ↔
      SameState toFloat gitStatus gitStatus' progress progress' featureList featureList') ∧
    (SameState toFloat gitStatus gitStatus' progress progress' featureList featureList' →
      computeStateHash py toFloat gitStatus progress featureList =
        computeStateHash py toFloat gitStatus' progress' featureList') ∧
    (Function.Injective py.sha256 →
      computeStateHash py toFloat gitStatus progress featureList =
        computeStateHash py toFloat gitStatus' progress' featureList' →
      SameState toFloat gitStatus gitStatus' progress progress' featureList featureList') := by
  have htext : _ ↔ SameState toFloat gitStatus gitStatus' progress progress' featureList
      featureList' := canonicalStateRepr_eq_iff hfloats hlist hlist' hprogress hprogress' hids hids'
  refine ⟨htext, fun hsame ↦ ?_, fun hsha hhash ↦ htext.mp (hsha hhash)⟩
  rw [computeStateHash, computeStateHash, htext.mpr hsame]

section Sample

def sampleItem (id : String) (dependencies : List Json) : Json :=
  .obj [("id", .str id), ("in_scope", .bool true), ("dependencies", .arr dependencies)]

/-- One model, wrapped and as a list in another order. -/
def wrappedModel : Json :=
  .obj [("items", .arr [sampleItem "a" [.str "b", .str "c"], sampleItem "b" []])]

def bareModel : Json := .arr [sampleItem "b" [], sampleItem "a" [.str "c", .str "b"]]

theorem native_wrappedModel : wrappedModel.Native fun _ ↦ True := by
  simp [wrappedModel, sampleItem, Json.Native, Json.NativeItems, Json.NativeMembers]

theorem native_bareModel : bareModel.Native fun _ ↦ True := by
  simp [bareModel, sampleItem, Json.Native, Json.NativeItems, Json.NativeMembers]

theorem distinctIds_wrappedModel : DistinctIds (inScopeItems wrappedModel) where
  string := by
    rintro item hitem
    rcases List.mem_cons.mp hitem with rfl | hitem
    · exact ⟨"a", rfl⟩
    · rw [List.mem_singleton.mp hitem]
      exact ⟨"b", rfl⟩
  nodup := by decide

theorem distinctIds_bareModel : DistinctIds (inScopeItems bareModel) where
  string := by
    rintro item hitem
    rcases List.mem_cons.mp hitem with rfl | hitem
    · exact ⟨"b", rfl⟩
    · rw [List.mem_singleton.mp hitem]
      exact ⟨"a", rfl⟩
  nodup := by decide

theorem stateHash_exact_sample :
    (canonicalStateRepr Json.scientificStdlib.repr (fun text ↦ Json.readScientific text.toList) "clean"
        (.str "resume") wrappedModel =
        canonicalStateRepr Json.scientificStdlib.repr (fun text ↦ Json.readScientific text.toList) "clean"
          (.str "resume") bareModel ↔
      SameState (fun text ↦ Json.readScientific text.toList) "clean" "clean" (.str "resume")
        (.str "resume") wrappedModel bareModel) ∧
    (SameState (fun text ↦ Json.readScientific text.toList) "clean" "clean" (.str "resume")
        (.str "resume") wrappedModel bareModel →
      computeStateHash Json.scientificStdlib (fun text ↦ Json.readScientific text.toList) "clean"
          (.str "resume") wrappedModel =
        computeStateHash Json.scientificStdlib (fun text ↦ Json.readScientific text.toList) "clean"
          (.str "resume") bareModel) ∧
    (Function.Injective Json.scientificStdlib.sha256 →
      computeStateHash Json.scientificStdlib (fun text ↦ Json.readScientific text.toList) "clean"
          (.str "resume") wrappedModel =
        computeStateHash Json.scientificStdlib (fun text ↦ Json.readScientific text.toList) "clean"
          (.str "resume") bareModel →
      SameState (fun text ↦ Json.readScientific text.toList) "clean" "clean" (.str "resume")
        (.str "resume") wrappedModel bareModel) :=
  stateHash_exact Json.floatTexts_scientific native_wrappedModel native_bareModel trivial trivial
    distinctIds_wrappedModel distinctIds_bareModel

end Sample

end AgenticSDLC.StateIntegrity
