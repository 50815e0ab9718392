import AgenticSDLC.Foundations.Runs
import AgenticSDLC.Wiring.WiringChecker
import AgenticSDLC.Wiring.WiringIngest

/-!
# Ids of ingested symbols

A candidate carries the number of its place in the analysis it comes from, while the file
knows its symbols by their names: the ids stay distinct as long as no symbol that is new to
the file stands at a place whose number has been given away.
-/

namespace AgenticSDLC.WiringIngest

open Python (Exception Key)
open Runs WiringChecker

/-- What a run analyzes, and whether its write succeeds. -/
structure Run where
  sourcePaths : List String
  sources : String → Source
  written : Bool

/-- The file after an analysis and the ingestion of its items. -/
def Run.ingest (valid : Json → Bool) (file : Option Json) (run : Run) : Option Json :=
  match analyze run.sourcePaths run.sources with
  | .error _ => file
  | .ok analysis => (ingestWiringCandidates valid (emitWiringItems analysis) run.written file).2

def ingestRuns (valid : Json → Bool) (file : Option Json) (runs : List Run) : Option Json :=
  runs.foldl (Run.ingest valid) file

/-- The ids of the items that have one. -/
def itemIds (items : List Json) : List Json :=
  items.filterMap fun
    | .obj members => members.lookup "id"
    | _ => none

def Distinct (ids : List Json) : Prop := ids.Pairwise fun a b ↦ Python.eq a b = false

def DistinctIds (file : Option Json) : Prop :=
  ∀ members items, loadModel file = some (members, items) → Distinct (itemIds items)

/-! ## The symbols that are new -/

def entryItem (entry : WiringItem × ℕ) : Json := .obj (candidate entry.2 entry.1)

/-- The obligations, with their places, that are the first of a name that is not known. -/
def newSymbols : List Key → List (WiringItem × ℕ) → List (WiringItem × ℕ)
  | _, [] => []
  | known, entry :: entries =>
      if .str entry.1.identity ∈ known then newSymbols known entries
      else entry :: newSymbols (.str entry.1.identity :: known) entries

theorem newSymbols_sublist (known : List Key) (entries : List (WiringItem × ℕ)) :
    (newSymbols known entries).Sublist entries := by
  induction entries generalizing known with
  | nil => exact List.Sublist.slnil
  | cons entry entries ih =>
      rw [newSymbols]
      split_ifs
      · exact (ih known).cons entry
      · exact (ih _).cons_cons entry

theorem qualKey_entryItem (entry : WiringItem × ℕ) :
    qualKey (entryItem entry) = .ok (some (.str entry.1.identity)) := rfl

theorem id_candidate (ordinal : ℕ) (item : WiringItem) :
    Python.get (candidate ordinal item) "id" = .str (itemId ordinal) := rfl

/-- A candidate has everything that `normalize_item` would fill in. -/
theorem normalizeItem_candidate (ordinal : ℕ) (item : WiringItem) :
    normalizeItem (candidate ordinal item) = candidate ordinal item := rfl

theorem take_entryItem (selection : Selection) (entry : WiringItem × ℕ) :
    selection.take (entryItem entry) =
      if .str entry.1.identity ∈ selection.quals then .ok selection
      else .ok ⟨selection.appended ++ [entryItem entry], .str entry.1.identity :: selection.quals,
        .str (itemId entry.2) :: selection.ids⟩ := by
  rw [Selection.take, qualKey_entryItem]
  simp only [entryItem, Python.asDict, Outcome.ok_bind, id_candidate, normalizeItem_candidate,
    pure_bind, Python.hashKey, reduceCtorEq, if_false, decide_eq_true_eq]
  split_ifs <;> rfl

theorem appended_foldlM_take (entries : List (WiringItem × ℕ)) (selection : Selection) :
    ∃ quals ids, (entries.map entryItem).foldlM Selection.take selection =
      .ok ⟨selection.appended ++ (newSymbols selection.quals entries).map entryItem, quals, ids⟩ := by
  induction entries generalizing selection with
  | nil => exact ⟨selection.quals, selection.ids, by simp [newSymbols]; rfl⟩
  | cons entry entries ih =>
      rw [List.map_cons, List.foldlM_cons, take_entryItem, newSymbols]
      split_ifs with hknown
      · exact ih selection
      · obtain ⟨quals, ids, hrest⟩ := ih ⟨selection.appended ++ [entryItem entry],
          .str entry.1.identity :: selection.quals, .str (itemId entry.2) :: selection.ids⟩
        refine ⟨quals, ids, hrest.trans ?_⟩
        rw [List.map_cons, List.append_assoc, List.singleton_append]

theorem selectNewCandidates_emit {items : List Json} {quals ids : List Key}
    (hquals : existingKeys qualKey items = .ok quals) (hids : existingKeys idKey items = .ok ids)
    (analysis : Analysis) :
    selectNewCandidates (emitWiringItems analysis) items =
      .ok ((newSymbols quals ((obligations analysis).zipIdx 1)).map entryItem) := by
  obtain ⟨quals', ids', hfold⟩ :=
    appended_foldlM_take ((obligations analysis).zipIdx 1) ⟨[], quals, ids⟩
  have hemit : emitWiringItems analysis = ((obligations analysis).zipIdx 1).map entryItem := rfl
  rw [selectNewCandidates, hquals, hids, hemit, Outcome.ok_bind, Outcome.ok_bind, hfold]
  rfl

/-! ## One run -/

/-- The run writes the file with items for these symbols. -/
structure Appends (valid : Json → Bool) (file : Option Json) (run : Run)
    (members : List (String × Json)) (items : List Json) (symbols : List (WiringItem × ℕ)) : Prop where
  model : loadModel file = some (members, items)
  analyzed : ∃ analysis quals ids, analyze run.sourcePaths run.sources = .ok analysis ∧
    existingKeys qualKey items = .ok quals ∧ existingKeys idKey items = .ok ids ∧
      symbols = newSymbols quals ((obligations analysis).zipIdx 1)
  nonempty : symbols ≠ []
  accepted : valid (extend members items (symbols.map entryItem)) = true
  written : run.written = true

/-- A run that writes has no new symbol at a place whose number is the id of an item. -/
def KeepsIds (valid : Json → Bool) (file : Option Json) (run : Run) : Prop :=
  ∀ members items symbols, Appends valid file run members items symbols →
    ∀ symbol ∈ symbols, .str (itemId symbol.2) ∉ itemIds items

section Step

variable {valid : Json → Bool} {file : Option Json} {run : Run} {members : List (String × Json)}
  {items : List Json} {symbols : List (WiringItem × ℕ)}

theorem ingest_of_appends (h : Appends valid file run members items symbols) :
    run.ingest valid file = some (extend members items (symbols.map entryItem)) := by
  obtain ⟨hmodel, ⟨analysis, quals, ids, hanalysis, hquals, hids, rfl⟩, hsome, hvalid, hwritten⟩ := h
  have hcandidates : emitWiringItems analysis ≠ [] := by
    intro hnil
    rw [emitWiringItems, List.map_eq_nil_iff] at hnil
    rw [hnil] at hsome
    exact hsome rfl
  simp only [Run.ingest, hanalysis, ingestWiringCandidates, if_neg hcandidates, hmodel,
    selectNewCandidates_emit hquals hids, List.map_eq_nil_iff, if_neg hsome, hvalid, hwritten,
    Bool.not_true, Bool.false_eq_true, if_false, if_true]

theorem ingest_of_not_appends
    (h : ∀ members items symbols, ¬Appends valid file run members items symbols) :
    run.ingest valid file = file := by
  rw [Run.ingest]
  cases hanalysis : analyze run.sourcePaths run.sources with
  | error exc => rfl
  | ok analysis =>
      change (ingestWiringCandidates valid (emitWiringItems analysis) run.written file).2 = file
      rw [ingestWiringCandidates]
      by_cases hcandidates : emitWiringItems analysis = []
      · rw [if_pos hcandidates]
      rw [if_neg hcandidates]
      cases hmodel : loadModel file with
      | none => rfl
      | some model =>
          obtain ⟨members, items⟩ := model
          cases hselect : selectNewCandidates (emitWiringItems analysis) items with
          | error exc => simp only [hselect]
          | ok appended =>
              obtain ⟨quals, hquals, hrest⟩ := Outcome.bind_eq_ok_iff.mp hselect
              obtain ⟨ids, hids, -⟩ := Outcome.bind_eq_ok_iff.mp hrest
              have happended := hselect.symm.trans (selectNewCandidates_emit hquals hids analysis)
              obtain rfl := Except.ok.inj happended
              simp only [hselect]
              split_ifs with hnil hinvalid hwritten
              · rfl
              · rfl
              · refine absurd ⟨hmodel, ⟨analysis, quals, ids, hanalysis, hquals, hids, rfl⟩, ?_, ?_,
                  hwritten⟩ (h members items _)
                · rwa [List.map_eq_nil_iff] at hnil
                · simpa using hinvalid
              · rfl

/-! ## The ids after a run -/

theorem itemIds_append (items others : List Json) :
    itemIds (items ++ others) = itemIds items ++ itemIds others :=
  List.filterMap_append

theorem itemIds_entryItems (symbols : List (WiringItem × ℕ)) :
    itemIds (symbols.map entryItem) = symbols.map fun symbol ↦ .str (itemId symbol.2) := by
  rw [itemIds, List.filterMap_map, ← List.filterMap_eq_map]
  rfl

/-- Two symbols of one run stand at different places. -/
theorem distinct_ids_newSymbols (known : List Key) (items : List WiringItem) :
    Distinct ((newSymbols known (items.zipIdx 1)).map fun symbol ↦ .str (itemId symbol.2)) := by
  have hplaces : ((items.zipIdx 1).map Prod.snd).Nodup := by
    rw [List.zipIdx_map_snd]
    exact List.nodup_range'
  have hnew : ((newSymbols known (items.zipIdx 1)).map Prod.snd).Nodup :=
    hplaces.sublist ((newSymbols_sublist known _).map Prod.snd)
  rw [Distinct, List.pairwise_map]
  refine (List.pairwise_map.mp hnew).imp fun hne ↦ ?_
  rw [Bool.eq_false_iff, ne_eq, Python.eq_str_iff]
  exact fun hsame ↦ hne (itemId_injective (Json.str.inj hsame))

theorem distinctIds_iff (hmodel : loadModel file = some (members, items)) :
    DistinctIds file ↔ Distinct (itemIds items) := by
  constructor
  · exact fun h ↦ h members items hmodel
  · intro h members' items' hmodel'
    obtain ⟨-, rfl⟩ := loadModel_inj hmodel hmodel'
    exact h

theorem distinctIds_of_appends (h : Appends valid file run members items symbols) :
    DistinctIds (run.ingest valid file) ↔
      Distinct (itemIds items) ∧ ∀ symbol ∈ symbols, .str (itemId symbol.2) ∉ itemIds items := by
  rw [ingest_of_appends h, distinctIds_iff (loadModel_extend members items _), itemIds_append,
    itemIds_entryItems, Distinct, List.pairwise_append]
  obtain ⟨-, ⟨analysis, quals, ids, -, -, -, rfl⟩, -, -, -⟩ := h
  constructor
  · rintro ⟨hold, -, hcross⟩
    refine ⟨hold, fun symbol hsymbol hmem ↦ ?_⟩
    have hne := hcross _ hmem _ (List.mem_map_of_mem hsymbol)
    rw [Python.eq_self] at hne
    cases hne
  · rintro ⟨hold, hfresh⟩
    refine ⟨hold, distinct_ids_newSymbols quals _, fun id hid other hother ↦ ?_⟩
    obtain ⟨symbol, hsymbol, rfl⟩ := List.mem_map.mp hother
    rw [Bool.eq_false_iff, ne_eq, Python.eq_str_iff]
    rintro rfl
    exact hfresh symbol hsymbol hid

theorem keepsIds_iff (hdistinct : DistinctIds file) :
    KeepsIds valid file run ↔ DistinctIds (run.ingest valid file) := by
  constructor
  · intro h
    by_cases happends : ∃ members items symbols, Appends valid file run members items symbols
    · obtain ⟨members, items, symbols, happends⟩ := happends
      rw [distinctIds_of_appends happends, ← distinctIds_iff happends.model]
      exact ⟨hdistinct, h members items symbols happends⟩
    · rwa [ingest_of_not_appends fun members items symbols hwrites ↦
        happends ⟨members, items, symbols, hwrites⟩]
  · intro h members items symbols happends
    exact ((distinctIds_of_appends happends).mp h).2

end Step

/-! ## Every run -/

theorem ingestRuns_append_singleton (valid : Json → Bool) (file : Option Json) (runs : List Run)
    (run : Run) :
    ingestRuns valid file (runs ++ [run]) = run.ingest valid (ingestRuns valid file runs) := by
  rw [ingestRuns, List.foldl_append]
  rfl

/-- The ids of the file stay distinct throughout just when every run keeps off the numbers
that are taken. -/
theorem ids_distinct_iff (valid : Json → Bool) {file : Option Json} (h : DistinctIds file)
    (runs : List Run) :
    EachPoint (fun before ↦ DistinctIds (ingestRuns valid file before)) runs ↔
      EachStep (fun before run ↦ KeepsIds valid (ingestRuns valid file before) run) runs := by
  refine eachPoint_iff_eachStep h fun before run hbefore ↦ ?_
  rw [ingestRuns_append_singleton]
  exact keepsIds_iff hbefore

/-! ## A function that is put in front -/

/-- A function whose body returns a number. -/
def sampleFunction (name : String) (lineno : ℕ) : Node :=
  .functionDef name lineno [.other []] [.other [.other []]] [] []

/-- `if __name__ == '__main__': func_a(); func_b()`. -/
def sampleMain : Node :=
  .other [.other [.name "__name__" true, .other [], .other []],
    .other [.call (.name "func_a" true) []], .other [.call (.name "func_b" true) []]]

def sampleRun (body : List Node) : Run := ⟨["m.py"], fun _ ↦ .parsed body, true⟩

def sampleModel : Json :=
  .obj [("schema_version", .str "1.0.0"), ("product_class", .str "agentic-sdlc-control-plane"),
    ("checklist_ref", .obj [("path", .str "checklist.md"), ("version", .str "1.0.0"),
      ("sha", .str "4b825dc6")]),
    ("items", .arr [])]

def sampleRuns : List Run :=
  [sampleRun [sampleFunction "func_a" 1, sampleFunction "func_b" 3, sampleMain],
    sampleRun [sampleFunction "func_new" 1, sampleFunction "func_a" 3, sampleFunction "func_b" 5,
      sampleMain]]

theorem distinctIds_sampleModel : DistinctIds (some sampleModel) := by
  intro members items hmodel
  have hitems : loadModel (some sampleModel) = some (_, []) := rfl
  obtain ⟨-, rfl⟩ := loadModel_inj hitems hmodel
  exact List.Pairwise.nil

theorem ids_distinct_sample :
    EachPoint (fun before ↦ DistinctIds (ingestRuns (fun _ ↦ true) (some sampleModel) before))
        sampleRuns ↔
      EachStep (fun before run ↦ KeepsIds (fun _ ↦ true)
        (ingestRuns (fun _ ↦ true) (some sampleModel) before) run) sampleRuns :=
  ids_distinct_iff (fun _ ↦ true) distinctIds_sampleModel sampleRuns

theorem itemIds_sampleRuns :
    ((loadModel (ingestRuns (fun _ ↦ true) (some sampleModel) sampleRuns)).map fun model ↦
      itemIds model.2) = some [.str "REQ-WIRE-001", .str "REQ-WIRE-002", .str "REQ-WIRE-001"] := by
  decide

/-- The second run numbers its new first function as the first run did its own. -/
theorem prepended_symbol_takes_id :
    DistinctIds (some sampleModel) ∧
      ¬EachPoint (fun before ↦ DistinctIds (ingestRuns (fun _ ↦ true) (some sampleModel) before))
        sampleRuns := by
  refine ⟨distinctIds_sampleModel, fun h ↦ ?_⟩
  obtain ⟨⟨members, items⟩, hmodel, hids⟩ := Option.map_eq_some_iff.mp itemIds_sampleRuns
  have hdistinct := h sampleRuns List.prefix_rfl members items hmodel
  rw [show itemIds items = _ from hids] at hdistinct
  exact absurd hdistinct (by simp [Distinct])

end AgenticSDLC.WiringIngest
