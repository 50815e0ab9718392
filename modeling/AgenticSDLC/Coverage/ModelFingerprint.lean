import AgenticSDLC.Foundations.JsonCanonical
import AgenticSDLC.Foundations.JsonFloats
import AgenticSDLC.Foundations.Outcome
import AgenticSDLC.Foundations.StableSort
import Mathlib.Data.List.Infix
import Mathlib.Data.Multiset.Defs

/-!
# The fingerprint of the coverage model

`tools/model_fingerprint.py`: the digest that a plan approval is bound to.  Each item is cut
down to the fields that an approval freezes, and the rows are sorted by their ids alone, so
that rows with one id keep the order in which the model lists them.
-/

namespace AgenticSDLC.ModelFingerprint

open Python (Exception Stdlib)

/-- `_FROZEN_FIELDS`. -/
def frozenFields : List String :=
  ["id", "type", "nfr_subtype", "priority", "dependencies", "acceptance_criteria", "in_scope"]

/-- `key in item`. -/
def contains (item : Json) (key : String) : Except Exception Bool :=
  match item with
  | .obj members => .ok (members.lookup key).isSome
  | .str s => .ok (key.toList <:+: s.toList)
  | .arr items => .ok (items.any fun value ↦ Python.eq value (.str key))
  | value => .error ⟨"TypeError",
      "argument of type '" ++ Python.typeName value ++ "' is not iterable"⟩

def frozenField (item : Json) (key : String) : Except Exception (Option (String × Json)) := do
  if ← contains item key then return some (key, ← Python.subscript item key)
  else return none

def frozenRow (item : Json) : Except Exception (List (String × Json)) := do
  return (← frozenFields.mapM (frozenField item)).reduceOption

/-- `_projection`. -/
def projection (model : List (String × Json)) : Except Exception (List (List (String × Json))) := do
  let items ← Python.iterate (Python.getD model "items" (.arr []))
  let rows ← items.mapM frozenRow
  let keyed ← rows.mapM fun row ↦ do return (← Python.subscript (.obj row) "id", row)
  return (← Python.sortByKey keyed).map Prod.snd

def fingerprint (py : Stdlib) (model : List (String × Json)) : Except Exception String := do
  let rows ← projection model
  return "sha256:" ++ py.sha256 (Json.asciiDumps py.repr (.arr (rows.map Json.obj)))

/-! ## What an approval freezes -/

/-- The frozen fields of an item, each with its value up to the order of keys, or none. -/
def frozen (item : List (String × Json)) : List (Option Json) :=
  frozenFields.map fun key ↦ (item.lookup key).map Json.sortKeys

/-- A model whose items are objects with string ids. -/
structure Lists (model : List (String × Json)) (items : List (List (String × Json))) : Prop where
  listed : Python.getD model "items" (.arr []) = .arr (items.map Json.obj)
  ids : ∀ item ∈ items, ∃ s, item.lookup "id" = some (.str s)
  native : ∀ item ∈ items, (Json.obj item).Native fun _ ↦ True

/-- The items have the same frozen fields, each as often. -/
def SamePlan (items items' : List (List (String × Json))) : Prop :=
  (items.map frozen : Multiset (List (Option Json))) = items'.map frozen

/-- The fingerprints of two models are one exactly when their plans are. -/
def Exact (py : Stdlib) (model : List (String × Json)) (items : List (List (String × Json)))
    (model' : List (String × Json)) (items' : List (List (String × Json))) : Prop :=
  fingerprint py model = fingerprint py model' ↔ SamePlan items items'

def itemId (item : List (String × Json)) : String :=
  match item.lookup "id" with
  | some (.str s) => s
  | _ => ""

/-- The frozen fields of the items with one id, in the order of the model. -/
def underId (items : List (List (String × Json))) (id : String) : List (List (Option Json)) :=
  (items.filter (itemId · = id)).map frozen

/-! ## The rows -/

def row (item : List (String × Json)) : List (String × Json) :=
  frozenFields.filterMap fun key ↦ (item.lookup key).map fun value ↦ (key, value)

theorem frozenField_obj (item : List (String × Json)) (key : String) :
    frozenField (.obj item) key = .ok ((item.lookup key).map fun value ↦ (key, value)) := by
  rw [frozenField, contains, Outcome.ok_bind, Python.subscript]
  cases item.lookup key <;> rfl

theorem frozenRow_obj (item : List (String × Json)) : frozenRow (.obj item) = .ok (row item) := by
  have hfields : ∀ keys : List String, keys.mapM (frozenField (.obj item)) =
      .ok (keys.map fun key ↦ (item.lookup key).map fun value ↦ (key, value)) := by
    intro keys
    induction keys with
    | nil => rfl
    | cons key keys ih => rw [List.mapM_cons, frozenField_obj, ih]; rfl
  have hpresent (row : List (Option (String × Json))) : row.reduceOption = row.filterMap id := rfl
  rw [frozenRow, hfields, Outcome.ok_bind, hpresent, List.filterMap_map]
  rfl

theorem lookup_row {key : String} (hkey : key ∈ frozenFields) (item : List (String × Json)) :
    (row item).lookup key = item.lookup key := by
  have hlookup : ∀ keys : List String, (keys.filterMap fun key ↦ (item.lookup key).map
      fun value ↦ (key, value)).lookup key = if key ∈ keys then item.lookup key else none := by
    intro keys
    induction keys with
    | nil => rfl
    | cons other keys ih =>
        rw [List.filterMap_cons]
        cases hother : item.lookup other with
        | none =>
            simp only [Option.map_none, ih, List.mem_cons]
            by_cases heq : key = other
            · simp [heq, hother]
            · simp [heq]
        | some value =>
            simp only [Option.map_some, Dict.lookup_cons, ih, List.mem_cons]
            by_cases heq : key = other
            · simp [heq, hother]
            · simp [heq]
  rw [row, hlookup, if_pos hkey]

theorem nodup_row (item : List (String × Json)) : ((row item).map Prod.fst).Nodup := by
  have hsub : ∀ keys : List String, ((keys.filterMap fun key ↦ (item.lookup key).map
      fun value ↦ (key, value)).map Prod.fst).Sublist keys := by
    intro keys
    induction keys with
    | nil => exact .slnil
    | cons key keys ih =>
        rw [List.filterMap_cons]
        cases item.lookup key with
        | none => exact ih.cons key
        | some value => exact ih.cons_cons key
  have hnodup : frozenFields.Nodup := by decide
  exact hnodup.sublist (hsub frozenFields)

/-- Two rows are one object, up to the order of keys, when the same is frozen. -/
theorem row_eq_iff {item other : List (String × Json)} :
    (Json.obj (row item)).sortKeys = (Json.obj (row other)).sortKeys ↔
      frozen item = frozen other := by
  constructor
  · intro h
    rw [Json.sortKeys_obj, Json.sortKeys_obj, Json.obj.injEq] at h
    apply List.map_congr_left
    intro key hkey
    rw [← lookup_row hkey item, ← lookup_row hkey other, ← Json.lookup_sortedMembers (nodup_row item),
      ← Json.lookup_sortedMembers (nodup_row other), h]
  · intro h
    have hvalue : ∀ key ∈ frozenFields, (item.lookup key).map Json.sortKeys =
        (other.lookup key).map Json.sortKeys := List.map_inj_left.mp h
    have hrow : ∀ item : List (String × Json), (row item).map (fun m ↦ (m.1, m.2.sortKeys)) =
        frozenFields.filterMap fun key ↦ ((item.lookup key).map Json.sortKeys).map
          fun value ↦ (key, value) := by
      intro item
      rw [row, List.map_filterMap]
      congr 1
      funext key
      rw [Option.map_map, Option.map_map]
      rfl
    rw [Json.sortKeys_obj, Json.sortKeys_obj, hrow, hrow]
    congr 2
    apply List.filterMap_congr
    intro key hkey
    rw [hvalue key hkey]

variable {model model' : List (String × Json)} {items items' : List (List (String × Json))}

theorem Lists.lookup_id (h : Lists model items) {item : List (String × Json)} (hitem : item ∈ items) :
    item.lookup "id" = some (.str (itemId item)) := by
  obtain ⟨s, hs⟩ := h.ids item hitem
  rw [itemId, hs]

/-- The rows are those of the items, sorted by their ids. -/
theorem Lists.projection_eq (h : Lists model items) :
    projection model = .ok ((Python.sortedBy itemId items).map row) := by
  have hrows : (items.map Json.obj).mapM frozenRow = .ok (items.map row) := by
    rw [Outcome.mapM_map]
    clear h
    induction items with
    | nil => rfl
    | cons item items ih => rw [List.mapM_cons, frozenRow_obj, ih]; rfl
  have hkeyed : (items.map row).mapM (fun row ↦ do
      return (← Python.subscript (.obj row) "id", row)) =
        .ok (items.map fun item ↦ (.str (itemId item), row item)) := by
    have hids : ∀ item ∈ items, item.lookup "id" = some (.str (itemId item)) :=
      fun item ↦ h.lookup_id
    clear h hrows
    induction items with
    | nil => rfl
    | cons item items ih =>
        have hid : Python.subscript (.obj (row item)) "id" = .ok (.str (itemId item)) := by
          rw [Python.subscript, lookup_row (by decide), hids item List.mem_cons_self]
        rw [List.map_cons, List.mapM_cons, hid,
          ih fun item hitem ↦ hids item (List.mem_cons_of_mem _ hitem)]
        rfl
  rw [projection, h.listed, Python.iterate, Outcome.ok_bind, hrows, Outcome.ok_bind,
    hkeyed, Outcome.ok_bind, Python.sortByKey_str, Outcome.ok_bind, List.map_map]
  rfl

theorem Lists.native_rows (h : Lists model items) :
    (Json.arr (((Python.sortedBy itemId items).map row).map Json.obj)).Native fun _ ↦ True := by
  rw [Json.native_arr_iff]
  intro value hvalue
  obtain ⟨members, hmembers, rfl⟩ := List.mem_map.mp hvalue
  obtain ⟨item, hitem, rfl⟩ := List.mem_map.mp hmembers
  have hnative := h.native item ((Python.mem_sortedBy _ _ item).mp hitem)
  rw [Json.native_obj_iff]
  refine ⟨nodup_row item, fun member hmember ↦ ?_⟩
  obtain ⟨key, -, hlookup⟩ := List.mem_filterMap.mp hmember
  obtain ⟨value, hvalue, rfl⟩ := Option.map_eq_some_iff.mp hlookup
  exact (Json.native_obj_iff.mp hnative).2 _ (Dict.mem_of_lookup hvalue)

/-! ## What the fingerprint tells apart -/

section Fingerprint

variable {py : Stdlib} {toFloat : String → Json} (hfloats : Json.FloatTexts py.repr toFloat)
  (hsha : Function.Injective py.sha256)

include hfloats hsha

/-- The fingerprint is one of the sorted rows, each up to the order of its keys. -/
theorem fingerprint_eq_iff_sorted (h : Lists model items) (h' : Lists model' items') :
    fingerprint py model = fingerprint py model' ↔
      (Python.sortedBy itemId items).map frozen = (Python.sortedBy itemId items').map frozen := by
  have hdigest : fingerprint py model = fingerprint py model' ↔
      Json.asciiDumps py.repr (.arr (((Python.sortedBy itemId items).map row).map Json.obj)) =
        Json.asciiDumps py.repr (.arr (((Python.sortedBy itemId items').map row).map Json.obj)) := by
    rw [fingerprint, fingerprint, h.projection_eq, h'.projection_eq, Outcome.ok_bind, Outcome.ok_bind]
    constructor
    · intro heq
      have htext := String.append_right_inj _ |>.mp (Except.ok.inj heq)
      exact hsha htext
    · intro heq
      rw [heq]
  rw [hdigest, Json.asciiDumps_eq_iff hfloats.readsFloat h.native_rows h'.native_rows,
    Json.sortKeys_arr, Json.sortKeys_arr, Json.arr.injEq, List.map_map, List.map_map, List.map_map,
    List.map_map, ← List.forall₂_eq_eq_eq, List.forall₂_map_left_iff, List.forall₂_map_right_iff,
    ← List.forall₂_eq_eq_eq, List.forall₂_map_left_iff, List.forall₂_map_right_iff]
  simp only [Function.comp_apply, row_eq_iff]

/-- The id is one of the frozen fields. -/
def frozenId : List (Option Json) → String
  | some (.str s) :: _ => s
  | _ => ""

omit hfloats hsha in
theorem Lists.frozenId (h : Lists model items) :
    ∀ item ∈ items, frozenId (frozen item) = itemId item := by
  intro item hitem
  rw [frozen, frozenFields, List.map_cons, h.lookup_id hitem, Option.map_some, Json.sortKeys_str,
    ModelFingerprint.frozenId]

/-- Two fingerprints are one when the models list the same rows under each id, in one order. -/
theorem fingerprint_eq_iff (h : Lists model items) (h' : Lists model' items') :
    fingerprint py model = fingerprint py model' ↔ ∀ id, underId items id = underId items' id := by
  rw [fingerprint_eq_iff_sorted hfloats hsha h h']
  exact Python.map_sortedBy_eq_iff h.frozenId h'.frozenId

/-- A plan that differs has another fingerprint. -/
theorem samePlan_of_fingerprint_eq (h : Lists model items) (h' : Lists model' items')
    (heq : fingerprint py model = fingerprint py model') : SamePlan items items' := by
  rw [fingerprint_eq_iff_sorted hfloats hsha h h'] at heq
  have hleft := (Python.perm_sortedBy itemId items).map frozen
  rw [heq] at hleft
  exact Multiset.coe_eq_coe.mpr (hleft.symm.trans ((Python.perm_sortedBy itemId items').map frozen))

/-- Two models have one fingerprint exactly when they have one plan, unless they list the rows
of one id in two orders. -/
theorem exact_iff_underId (h : Lists model items) (h' : Lists model' items') :
    Exact py model items model' items' ↔
      (SamePlan items items' → ∀ id, underId items id = underId items' id) := by
  rw [Exact, ← fingerprint_eq_iff hfloats hsha h h']
  constructor
  · exact fun hexact hsame ↦ hexact.mpr hsame
  · exact fun horder ↦ ⟨samePlan_of_fingerprint_eq hfloats hsha h h', horder⟩

omit hfloats hsha in
/-- A model that lists the items of another one. -/
theorem Lists.perm (h : Lists model items) (hperm : items'.Perm items) :
    Lists [("items", .arr (items'.map Json.obj))] items' where
  listed := rfl
  ids item hitem := h.ids item (hperm.mem_iff.mp hitem)
  native item hitem := h.native item (hperm.mem_iff.mp hitem)

/-- A model is told apart from every other one exactly when its items with one id have one
row: else it has two listings of them with two fingerprints. -/
theorem fingerprint_exact_iff (h : Lists model items) :
    (∀ model' items', Lists model' items' → (Exact py model items model' items' ↔
      (SamePlan items items' → ∀ id, underId items id = underId items' id))) ∧
    ((∀ model' items', Lists model' items' → Exact py model items model' items') ↔
      ∀ item ∈ items, ∀ other ∈ items, itemId item = itemId other → frozen item = frozen other) := by
  refine ⟨fun model' items' h' ↦ exact_iff_underId hfloats hsha h h', ?_, ?_⟩
  · intro hexact item hitem other hother hid
    -- each of the two items can be listed first
    have hfirst : ∀ first ∈ items, ∃ rest, underId items (itemId first) = frozen first :: rest := by
      intro first hmem
      have hperm : (first :: items.erase first).Perm items := (List.perm_cons_erase hmem).symm
      have h' := h.perm hperm
      have hsame : SamePlan items (first :: items.erase first) :=
        Multiset.coe_eq_coe.mpr (hperm.symm.map frozen)
      have horder := (exact_iff_underId hfloats hsha h h').mp (hexact _ _ h') hsame (itemId first)
      refine ⟨underId (items.erase first) (itemId first), horder.trans ?_⟩
      rw [underId, List.filter_cons_of_pos (by simp), List.map_cons, underId]
    obtain ⟨rest, hrest⟩ := hfirst item hitem
    obtain ⟨rest', hrest'⟩ := hfirst other hother
    rw [hid, hrest'] at hrest
    exact (List.cons.inj hrest).1.symm
  · intro hrows model' items' h'
    rw [Exact, fingerprint_eq_iff_sorted hfloats hsha h h', SamePlan, Multiset.coe_eq_coe]
    exact Python.map_sortedBy_eq_iff_perm h.frozenId h'.frozenId hrows

end Fingerprint

section Sample

def sampleItem (priority : String) : List (String × Json) :=
  [("id", .str "REQ-1"), ("priority", .str priority)]

def modelOf (items : List (List (String × Json))) : List (String × Json) :=
  [("items", .arr (items.map Json.obj))]

theorem lists_sample {priorities : List String} :
    Lists (modelOf (priorities.map sampleItem)) (priorities.map sampleItem) where
  listed := rfl
  ids item hitem := by
    obtain ⟨priority, -, rfl⟩ := List.mem_map.mp hitem
    exact ⟨"REQ-1", rfl⟩
  native item hitem := by
    obtain ⟨priority, -, rfl⟩ := List.mem_map.mp hitem
    simp [sampleItem, Json.Native, Json.NativeMembers]

theorem fingerprint_exact_sample :
    (∀ model' items', Lists model' items' →
      (Exact Json.scientificStdlib (modelOf (["P1", "P1"].map sampleItem)) (["P1", "P1"].map sampleItem)
          model' items' ↔
        (SamePlan (["P1", "P1"].map sampleItem) items' →
          ∀ id, underId (["P1", "P1"].map sampleItem) id = underId items' id))) ∧
    ((∀ model' items', Lists model' items' →
      Exact Json.scientificStdlib (modelOf (["P1", "P1"].map sampleItem)) (["P1", "P1"].map sampleItem)
        model' items') ↔
      ∀ item ∈ ["P1", "P1"].map sampleItem, ∀ other ∈ ["P1", "P1"].map sampleItem,
        itemId item = itemId other → frozen item = frozen other) :=
  fingerprint_exact_iff Json.floatTexts_scientific Function.injective_id lists_sample

/-- Two requirements with one id, listed in two orders, are one plan with two fingerprints. -/
theorem fingerprint_moves :
    ¬Exact Json.scientificStdlib (modelOf (["P1", "P2"].map sampleItem)) (["P1", "P2"].map sampleItem)
      (modelOf (["P2", "P1"].map sampleItem)) (["P2", "P1"].map sampleItem) := by
  intro hexact
  have hsame : SamePlan (["P1", "P2"].map sampleItem) (["P2", "P1"].map sampleItem) :=
    Multiset.coe_eq_coe.mpr (List.Perm.swap _ _ [])
  have horder := (fingerprint_eq_iff Json.floatTexts_scientific Function.injective_id lists_sample
    lists_sample).mp (hexact.mpr hsame) "REQ-1"
  revert horder
  decide

end Sample

end AgenticSDLC.ModelFingerprint
