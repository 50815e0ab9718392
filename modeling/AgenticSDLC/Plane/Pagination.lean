import AgenticSDLC.Foundations.Dict
import AgenticSDLC.Foundations.Outcome
import AgenticSDLC.Foundations.Python

/-!
# Reading a collection page by page

The four `_paginate`s differ in the number of pages they read at most.  The index of
`apply_upsert_plan.py`, by which an item is updated or created, is built from what they return.
-/

namespace AgenticSDLC.Pagination

open Python (Exception Key)
open Outcome (pure_eq)

/-! ## The loop over the pages -/

section Paginate

variable (repr : Json → String) (api : String → Except Exception Json)

def pagePath (path : String) (cur : Json) : String :=
  let sep := if '?' ∈ path.toList then "&" else "?"
  path ++ (sep ++ "per_page=100") ++
    if Python.truthy cur then "&cursor=" ++ Python.str repr cur else ""

/-- The rest of the loop, with as many rounds left. -/
def readPages (path : String) : ℕ → Json → List Json → Except Exception (List Json)
  | 0, _, out => .ok out
  | rounds + 1, cur, out => do
      match ← api (pagePath repr path cur) with
      | .arr items => return out ++ items
      | d =>
          let page ← Python.asDict d
          let results ← Python.iterate (Python.getD page "results" (.arr []))
          if !Python.truthy (Python.get page "next_page_results") then return out ++ results
          else
            let next := Python.get page "next_cursor"
            if !Python.truthy next then return out ++ results
            else readPages path rounds next (out ++ results)

/-- `_paginate` with its number of rounds. -/
def paginate (rounds : ℕ) (path : String) : Except Exception (List Json) :=
  readPages repr api path rounds .null []

namespace PlaneClient

def paginate : String → Except Exception (List Json) := Pagination.paginate repr api 80

end PlaneClient

namespace ApplyUpsertPlan

def paginate : String → Except Exception (List Json) := Pagination.paginate repr api 80

end ApplyUpsertPlan

namespace ApplyDelta

def paginate : String → Except Exception (List Json) := Pagination.paginate repr api 120

end ApplyDelta

namespace DumpBoard

def paginate : String → Except Exception (List Json) := Pagination.paginate repr api 120

end DumpBoard

/-- From a cursor on, the service has these pages: each but the last one names the cursor of
the next. -/
inductive Serves (path : String) : Json → List (List Json) → Prop
  | last {cur : Json} {page : List (String × Json)} {items : List Json}
      (answer : api (pagePath repr path cur) = .ok (.obj page))
      (results : page.lookup "results" = some (.arr items))
      (done : Python.truthy (Python.get page "next_page_results") = false) :
      Serves path cur [items]
  | next {cur : Json} {page : List (String × Json)} {items : List Json} {pages : List (List Json)}
      (answer : api (pagePath repr path cur) = .ok (.obj page))
      (results : page.lookup "results" = some (.arr items))
      (more : Python.truthy (Python.get page "next_page_results") = true)
      (cursor : Python.truthy (Python.get page "next_cursor") = true)
      (rest : Serves path (Python.get page "next_cursor") pages) :
      Serves path cur (items :: pages)

variable {repr api} {path : String} {cur : Json} {pages : List (List Json)}

theorem readPages_of_serves (h : Serves repr api path cur pages) (rounds : ℕ) (out : List Json) :
    readPages repr api path rounds cur out = .ok (out ++ (pages.take rounds).flatten) := by
  induction h generalizing rounds out with
  | last answer results done =>
      cases rounds with
      | zero => simp [readPages]
      | succ rounds =>
          simp [readPages, answer, Python.asDict, Python.getD, results, Python.iterate, done, pure_eq]
  | next answer results more cursor rest ih =>
      cases rounds with
      | zero => simp [readPages]
      | succ rounds =>
          simp [readPages, answer, Python.asDict, Python.getD, results, Python.iterate, more, cursor,
            ih]

/-- What is read is the pages up to the number of rounds. -/
theorem paginate_of_serves (h : Serves repr api path .null pages) (rounds : ℕ) :
    paginate repr api rounds path = .ok (pages.take rounds).flatten :=
  readPages_of_serves h rounds []

end Paginate

/-- Pages that are not empty are missed when they are not read. -/
theorem flatten_take_iff {α : Type} {pages : List (List α)} (hne : ∀ page ∈ pages, page ≠ [])
    (n : ℕ) : (pages.take n).flatten = pages.flatten ↔ pages.length ≤ n := by
  constructor
  · intro h
    have hsplit : pages.flatten = (pages.take n).flatten ++ (pages.drop n).flatten := by
      rw [← List.flatten_append, List.take_append_drop]
    rw [h, List.self_eq_append_right, List.flatten_eq_nil_iff] at hsplit
    rw [← List.drop_eq_nil_iff, List.eq_nil_iff_forall_not_mem]
    exact fun page hpage ↦ hne page (List.mem_of_mem_drop hpage) (hsplit page hpage)
  · intro h
    rw [List.take_of_length_le h]

/-! ## The index -/

/-- `{w.get("external_id"): w["id"] for w in items if w.get("external_id")}`. -/
def byExt (items : List Json) : Except Exception (List (Key × Json)) :=
  items.foldlM (fun index w ↦ do
    let fields ← Python.asDict w
    let ext := Python.get fields "external_id"
    if Python.truthy ext then
      let id ← Python.subscript w "id"
      let key ← Python.hashKey ext
      return Dict.set key id index
    else return index) []

inductive Placement where
  | update (id : Json)
  | create (ext : String)

/-- An operation that resolves to no item goes by its external id. -/
def place (index : List (Key × Json)) (ext : String) : Placement :=
  match index.lookup (.str ext) with
  | some id => .update id
  | none => .create ext

/-- An item as the board has it: with an id, and an external id that can be hashed if any. -/
def IsWorkItem (w : Json) : Prop :=
  ∃ fields, w = .obj fields ∧ (∃ id, fields.lookup "id" = some id) ∧
    Python.Hashable (Python.get fields "external_id")

def HasExternalId (w : Json) (ext : String) : Prop :=
  ∃ fields, w = .obj fields ∧ Python.get fields "external_id" = .str ext ∧ ext ≠ ""

/-- The keys of the items are in the index, and those that were there still are. -/
theorem byExt_spec {items : List Json} (h : ∀ w ∈ items, IsWorkItem w) :
    ∃ index, byExt items = .ok index ∧
      ∀ w ∈ items, ∀ ext, HasExternalId w ext → (index.lookup (.str ext)).isSome = true := by
  induction items using List.reverseRecOn with
  | nil => exact ⟨[], rfl, fun w hw ↦ absurd hw List.not_mem_nil⟩
  | append_singleton items last ih =>
      obtain ⟨index, hindex, hkeys⟩ := ih fun w hw ↦ h w (List.mem_append_left [last] hw)
      obtain ⟨fields, rfl, ⟨id, hid⟩, key, hkey⟩ := h last (by simp)
      by_cases hext : Python.truthy (Python.get fields "external_id") = true
      · refine ⟨Dict.set key id index, ?_, ?_⟩
        · rw [byExt, List.foldlM_append, ← byExt, hindex]
          simp [Python.asDict, hext, Python.subscript, hid, hkey, pure_eq]
        · intro w hw ext hhas
          rw [Dict.lookup_set]
          split_ifs with hsame
          · rfl
          · rcases List.mem_append.mp hw with hold | hlast
            · exact hkeys w hold ext hhas
            · obtain ⟨fields', hfields, hget, -⟩ := hhas
              obtain rfl := Json.obj.inj ((List.mem_singleton.mp hlast).symm.trans hfields)
              rw [hget, Python.hashKey] at hkey
              exact absurd (Except.ok.inj hkey) hsame
      · refine ⟨index, ?_, ?_⟩
        · rw [byExt, List.foldlM_append, ← byExt, hindex]
          simp [Python.asDict, hext, pure_eq]
        · intro w hw ext hhas
          rcases List.mem_append.mp hw with hold | hlast
          · exact hkeys w hold ext hhas
          · obtain ⟨fields', hfields, hget, hne⟩ := hhas
            obtain rfl := Json.obj.inj ((List.mem_singleton.mp hlast).symm.trans hfields)
            simp [hget, Python.truthy, hne] at hext

/-! ## Whole collections -/

section Boards

variable (repr : Json → String) (api : String → Except Exception Json)

/-- The index of the items that `_paginate` returns. -/
def readIndex (path : String) : Except Exception (List (Key × Json)) := do
  byExt (← ApplyUpsertPlan.paginate repr api path)

/-- Every element is returned once and in order, and an item of the board with an external id
is updated, not created. -/
structure ReturnsEverything (path : String) (pages : List (List Json)) : Prop where
  client : PlaneClient.paginate repr api path = .ok pages.flatten
  plan : ApplyUpsertPlan.paginate repr api path = .ok pages.flatten
  index : (∀ w ∈ pages.flatten, IsWorkItem w) → ∃ index, readIndex repr api path = .ok index ∧
    ∀ w ∈ pages.flatten, ∀ ext, HasExternalId w ext → ∃ id, place index ext = .update id

variable {repr api} {path : String} {pages : List (List Json)}

/-- The whole collection is returned if and only if it is served in at most 80 pages. -/
theorem returnsEverything_iff (h : Serves repr api path .null pages)
    (hne : ∀ page ∈ pages, page ≠ []) :
    ReturnsEverything repr api path pages ↔ pages.length ≤ 80 := by
  have hread : Pagination.paginate repr api 80 path = .ok (pages.take 80).flatten :=
    paginate_of_serves h 80
  rw [← flatten_take_iff hne]
  constructor
  · intro hall
    exact Except.ok.inj (hread.symm.trans hall.client)
  · intro hall
    rw [hall] at hread
    refine ⟨hread, hread, fun hitems ↦ ?_⟩
    obtain ⟨index, hindex, hkeys⟩ := byExt_spec hitems
    refine ⟨index, ?_, fun w hw ext hext ↦ ?_⟩
    · rw [readIndex, ApplyUpsertPlan.paginate, hread]
      exact hindex
    · obtain ⟨id, hid⟩ := Option.isSome_iff_exists.mp (hkeys w hw ext hext)
      exact ⟨id, by rw [place, hid]⟩

end Boards

/-! ## A board of 81 pages -/

def samplePage (n : ℕ) : List Json :=
  [.obj [("id", .str ("W-" ++ toString n)), ("external_id", .str ("story:" ++ toString n))]]

def samplePages (count : ℕ) : List (List Json) := (List.range count).map samplePage

/-- The cursor of the n-th page has n characters, and the service counts them. -/
def sampleCursor (n : ℕ) : Json := .str (String.ofList (List.replicate n '1'))

def sampleAnswer (count n : ℕ) : List (String × Json) :=
  [("results", .arr (samplePage n)), ("next_page_results", .bool (n + 1 < count)),
    ("next_cursor", sampleCursor (n + 1))]

/-- A path without a cursor has 25 characters, and one with a cursor 33 before it. -/
def sampleApi (count : ℕ) (path : String) : Except Exception Json :=
  .ok (.obj (sampleAnswer count (path.length - 33)))

theorem get_next_page_results (count n : ℕ) :
    Python.get (sampleAnswer count n) "next_page_results" = .bool (n + 1 < count) := rfl

theorem get_next_cursor (count n : ℕ) :
    Python.get (sampleAnswer count n) "next_cursor" = sampleCursor (n + 1) := rfl

theorem truthy_sampleCursor (n : ℕ) : Python.truthy (sampleCursor (n + 1)) = true := by
  simp [sampleCursor, Python.truthy, List.replicate_succ]

theorem length_samplePath (n : ℕ) :
    (pagePath (fun _ ↦ "") "/work-items/" (sampleCursor (n + 1))).length = n + 1 + 33 := by
  have hbase : ("/work-items/" ++ ("?" ++ "per_page=100")).length = 25 := by decide
  have hcursor : "&cursor=".length = 8 := by decide
  rw [pagePath, if_pos (truthy_sampleCursor n), if_neg (by decide), String.length_append, hbase,
    String.length_append, hcursor, sampleCursor, Python.str, String.length_ofList,
    List.length_replicate]
  omega

theorem serves_from (left n : ℕ) (cur : Json)
    (hpath : (pagePath (fun _ ↦ "") "/work-items/" cur).length - 33 = n) :
    Serves (fun _ ↦ "") (sampleApi (n + left + 1)) "/work-items/" cur
      ((List.range' n (left + 1)).map samplePage) := by
  have hanswer : sampleApi (n + left + 1) (pagePath (fun _ ↦ "") "/work-items/" cur) =
      .ok (.obj (sampleAnswer (n + left + 1) n)) := by
    rw [sampleApi, hpath]
  induction left generalizing n cur with
  | zero => exact .last hanswer rfl (by simp [get_next_page_results, Python.truthy])
  | succ left ih =>
      have hrest := ih (n + 1) (sampleCursor (n + 1)) (by rw [length_samplePath]; omega)
        (by rw [sampleApi, length_samplePath]; rfl)
      rw [Nat.add_right_comm n 1 left, Nat.add_assoc n left 1] at hrest
      refine .next hanswer rfl (by simp [get_next_page_results, Python.truthy]) ?_ ?_
      · rw [get_next_cursor]
        exact truthy_sampleCursor n
      · rw [get_next_cursor]
        exact hrest

theorem serves_samplePages (count : ℕ) :
    Serves (fun _ ↦ "") (sampleApi (count + 1)) "/work-items/" .null (samplePages (count + 1)) := by
  have hserves := serves_from count 0 .null (by decide)
  rwa [Nat.zero_add, ← List.range_eq_range'] at hserves

theorem samplePages_ne (count : ℕ) : ∀ page ∈ samplePages count, page ≠ [] := by
  simp [samplePages, samplePage]

theorem returnsEverything_sample :
    Serves (fun _ ↦ "") (sampleApi 80) "/work-items/" .null (samplePages 80) ∧
    (ReturnsEverything (fun _ ↦ "") (sampleApi 80) "/work-items/" (samplePages 80) ↔
      (samplePages 80).length ≤ 80) :=
  ⟨serves_samplePages 79, returnsEverything_iff (serves_samplePages 79) (samplePages_ne 80)⟩

/-- The last page of 81 is not read. -/
theorem last_page_is_missed :
    Serves (fun _ ↦ "") (sampleApi 81) "/work-items/" .null (samplePages 81) ∧
    (∀ page ∈ samplePages 81, page ≠ []) ∧
    ¬ReturnsEverything (fun _ ↦ "") (sampleApi 81) "/work-items/" (samplePages 81) := by
  have hserves := serves_samplePages 80
  refine ⟨hserves, samplePages_ne 81, fun h ↦ ?_⟩
  have hread := (paginate_of_serves hserves 80).symm.trans h.client
  have hle := (flatten_take_iff (samplePages_ne 81) 80).mp (Except.ok.inj hread)
  simp [samplePages] at hle

end AgenticSDLC.Pagination
