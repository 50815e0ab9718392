import AgenticSDLC.Foundations.FirstSeen
import AgenticSDLC.Foundations.Outcome
import AgenticSDLC.Foundations.Patterns
import AgenticSDLC.Foundations.Python

/-!
# The specification validator

`tools/spec_validator.py`: the structural checks of a list of requirements.  The consistency
check compares each outcome with the first one that was declared under its id.
-/

namespace AgenticSDLC.SpecValidator

open Patterns (Item)
open Python (Exception Key)

def validEarsPatterns : List String :=
  ["ubiquitous", "event-driven", "state-driven", "unwanted", "optional"]

def vagueAdjectives : List String :=
  ["fast", "slow", "secure", "scalable", "user-friendly", "robust", "efficient"]

/-- What the scan of a text takes from Unicode: `str.lower` and the class `\w`. -/
structure Unicode where
  lower : String → String
  isWord : Char → Bool

def requirementText (repr : Json → String) (req : List (String × Json)) : String :=
  let values := ["text", "ears_statement", "ears_stmt", "statement", "description"].map (Python.get req)
  " ".intercalate ((values.filter Python.truthy).map (Python.str repr))

def singlePatterns (repr : Json → String) : Json → List String
  | .null => []
  | .str s => if Python.strip s = "" then [] else [Python.strip s]
  | value => [Python.str repr value]

def pluralPatterns (repr : Json → String) : Json → List String
  | .arr items => (items.map fun p ↦ Python.strip (Python.str repr p)).filter (· ≠ "")
  | _ => []

def earsPatternsOf (repr : Json → String) (req : List (String × Json)) : List String :=
  singlePatterns repr (Python.get req "ears_pattern") ++
    pluralPatterns repr (Python.get req "ears_patterns")

/-- The class `[\w-]`. -/
def isToken (isWord : Char → Bool) (c : Char) : Bool := isWord c || c == '-'

/-- `(?<![\w-])adj(?![\w-])`. -/
def adjectivePattern (isWord : Char → Bool) (adj : String) : List (Item Char) :=
  .look (fun prev _ ↦ !prev.any (isToken isWord)) ::
    (Patterns.literal adj.toList ++ [.look fun _ next ↦ !next.any (isToken isWord)])

def findVagueAdjectives (unicode : Unicode) (text : String) : List String :=
  if text = "" then []
  else
    let lowered := (unicode.lower text).toList
    Python.sortedBy id (vagueAdjectives.filter fun adj ↦
      Patterns.search (adjectivePattern unicode.isWord adj) lowered)

def patternReason (patterns : List String) : String :=
  if patterns.length = 0 then "missing ears_pattern"
  else if 1 < patterns.length then "multiple ears_pattern tags"
  else "ears_pattern not in valid enum"

/-- The entry for an EARS tag that is missing, repeated or unknown. -/
def patternAmbiguity (index : ℕ) (reqId : Json) (reason : String) (patterns : List String) : Json :=
  .obj [("index", .int index), ("id", reqId), ("kind", .str "ears_pattern"), ("reason", .str reason),
    ("patterns", .arr (patterns.map Json.str))]

def vagueAmbiguity (index : ℕ) (reqId : Json) (adjectives : List String) : Json :=
  .obj [("index", .int index), ("id", reqId), ("kind", .str "vague_adjective"),
    ("reason", .str "vague adjective(s) without quantification"),
    ("adjectives", .arr (adjectives.map Json.str))]

def ambiguitiesOf (unicode : Unicode) (repr : Json → String) (req : Json) (index : ℕ) : List Json :=
  match req with
  | .obj members =>
      let reqId := Python.get members "id"
      let patterns := earsPatternsOf repr members
      let validPatterns := patterns.filter (· ∈ validEarsPatterns)
      let vagueHits := findVagueAdjectives unicode (requirementText repr members)
      (if patterns.length ≠ 1 ∨ validPatterns.length ≠ 1 then
        [patternAmbiguity index reqId (patternReason patterns) patterns] else []) ++
      if vagueHits ≠ [] then [vagueAmbiguity index reqId vagueHits] else []
  | _ => [patternAmbiguity index .null "requirement is not an object" []]

def ambiguities (unicode : Unicode) (repr : Json → String) (reqs : List Json) : List Json :=
  reqs.zipIdx.flatMap fun (req, index) ↦ ambiguitiesOf unicode repr req index

def coversOf (repr : Json → String) : Json → List String
  | .obj members =>
      match Python.get members "covers" with
      | .arr covers => covers.map (Python.str repr)
      | _ => []
  | _ => []

def uncovered (repr : Json → String) (reqs baseline : List Json) : List Json :=
  let covered := reqs.flatMap (coversOf repr)
  (baseline.filter fun item ↦ Python.str repr item ∉ covered).map fun item ↦
    .obj [("baseline_item", item), ("reason", .str "UNMAPPED")]

/-- Two outcomes are equal; a missing outcome is a sentinel that equals itself alone. -/
def sameOutcome : Option Json → Option Json → Bool
  | none, none => true
  | some a, some b => Python.eq a b
  | _, _ => false

def contradiction (reqId : Json) (first outcome : Option Json) : Json :=
  .obj [("id", reqId), ("kind", .str "outcome_conflict"),
    ("reason", .str "same id with conflicting outcome"),
    ("outcomes", .arr [first.getD .null, outcome.getD .null])]

/-- The first outcome of each id so far, and the contradictions with it. -/
structure Consistency where
  seenOutcomes : List (Key × Option Json)
  contradictions : List Json

def checkOutcome (state : Consistency) (req : Json) : Except Exception Consistency :=
  match req with
  | .obj members =>
      let reqId := Python.get members "id"
      let outcome := members.lookup "outcome"
      if reqId = .null then .ok state
      else do
        let key ← Python.hashKey reqId
        match state.seenOutcomes.lookup key with
        | none => return { state with seenOutcomes := state.seenOutcomes ++ [(key, outcome)] }
        | some first =>
            if sameOutcome first outcome then return state
            else return { state with
              contradictions := state.contradictions ++ [contradiction reqId first outcome] }
  | _ => .ok state

structure Report where
  contradictions : List Json
  ambiguities : List Json
  uncovered : List Json
  violationCount : ℕ

def validateSpec (unicode : Unicode) (repr : Json → String) (reqs baseline : List Json) :
    Except Exception Report := do
  let ambiguities := ambiguities unicode repr reqs
  let uncovered := uncovered repr reqs baseline
  let checked ← reqs.foldlM checkOutcome ⟨[], []⟩
  return {
    contradictions := checked.contradictions
    ambiguities := ambiguities
    uncovered := uncovered
    violationCount := checked.contradictions.length + ambiguities.length + uncovered.length }

/-! ## What order may change -/

/-- The id and the outcome of a requirement, up to Python's equality. -/
def declaration : Json → Option (String × Option Json)
  | .obj members =>
      match Python.get members "id" with
      | .str id => some (id, (members.lookup "outcome").map Python.canonical)
      | _ => none
  | _ => none

def declared (reqs : List Json) : List (String × Option Json) := reqs.filterMap declaration

/-- Every requirement has a string for its id, or no id. -/
def StringIds (reqs : List Json) : Prop :=
  ∀ members, .obj members ∈ reqs →
    Python.get members "id" = .null ∨ ∃ id, Python.get members "id" = .str id

/-- The violations are as many in every order of the requirements. -/
def OrderFree (unicode : Unicode) (repr : Json → String) (reqs baseline : List Json) : Prop :=
  ∀ reqs', reqs'.Perm reqs →
    (validateSpec unicode repr reqs' baseline).map Report.violationCount =
      (validateSpec unicode repr reqs baseline).map Report.violationCount

/-- Two requirements with the id have different outcomes. -/
def Conflicts (reqs : List Json) (id : String) : Prop :=
  ∃ a b, .obj a ∈ reqs ∧ .obj b ∈ reqs ∧ Python.get a "id" = .str id ∧ Python.get b "id" = .str id ∧
    sameOutcome (a.lookup "outcome") (b.lookup "outcome") = false

/-- The validator reports a contradiction for the ids of such requirements, and no others. -/
def ReportsConflicts (unicode : Unicode) (repr : Json → String) (reqs baseline : List Json) : Prop :=
  ∃ report, validateSpec unicode repr reqs baseline = .ok report ∧ ∀ id,
    (∃ members, .obj members ∈ report.contradictions ∧ Python.get members "id" = .str id) ↔
      Conflicts reqs id

/-! ## The consistency check -/

theorem sameOutcome_iff {a b : Option Json} :
    sameOutcome a b = true ↔ a.map Python.canonical = b.map Python.canonical := by
  cases a with
  | none => cases b <;> simp [sameOutcome]
  | some a => cases b <;> simp [sameOutcome, Python.eq_iff]

/-- A contradiction that is reported for the id. -/
def Reported (contradictions : List Json) (id : String) : Prop :=
  ∃ members, .obj members ∈ contradictions ∧ Python.get members "id" = .str id

theorem reported_append {contradictions : List Json} {other id : String}
    {first outcome : Option Json} :
    Reported (contradictions ++ [contradiction (.str other) first outcome]) id ↔
      Reported contradictions id ∨ other = id := by
  simp only [Reported, List.mem_append, List.mem_singleton, or_and_right, exists_or, contradiction,
    Json.obj.injEq, exists_eq_left]
  apply or_congr_right
  exact ⟨fun h ↦ Json.str.inj h, fun h ↦ congrArg Json.str h⟩

/-- The state after the requirements that declare the items. -/
structure Matches (state : Consistency) (items : List (String × Option Json)) : Prop where
  seen : ∀ id, (state.seenOutcomes.lookup (.str id)).map (Option.map Python.canonical) =
    items.lookup id
  count : state.contradictions.length = FirstSeen.conflicts items
  reported : ∀ id, Reported state.contradictions id ↔
    ∃ item ∈ items, item.1 = id ∧ FirstSeen.differs items item = true

theorem matches_nil : Matches ⟨[], []⟩ [] where
  seen id := rfl
  count := rfl
  reported id := by simp [Reported]

/-- The items with a conflict are those from before, and the last one where it is one. -/
theorem exists_differs_concat {items : List (String × Option Json)} {item : String × Option Json}
    {id : String} : (∃ other ∈ items ++ [item], other.1 = id ∧
      FirstSeen.differs (items ++ [item]) other = true) ↔
        (∃ other ∈ items, other.1 = id ∧ FirstSeen.differs items other = true) ∨
          item.1 = id ∧ FirstSeen.differs (items ++ [item]) item = true := by
  simp only [List.mem_append, List.mem_singleton, or_and_right, exists_or, exists_eq_left]
  apply or_congr_left
  apply exists_congr
  intro other
  apply and_congr_right
  intro hother
  rw [FirstSeen.differs_concat (Dict.isSome_lookup_iff.mpr (List.mem_map_of_mem hother))]

variable {state : Consistency} {items : List (String × Option Json)}
  {members : List (String × Json)} {id : String}

theorem differs_last (item : String × Option Json) : FirstSeen.differs (items ++ [item]) item = true ↔
    ∃ first, items.lookup item.1 = some first ∧ first ≠ item.2 := by
  rw [FirstSeen.differs, Dict.lookup_append_singleton, if_pos rfl]
  cases items.lookup item.1 <;> simp

theorem checkOutcome_first (hid : Python.get members "id" = .str id)
    (h : state.seenOutcomes.lookup (.str id) = none) :
    checkOutcome state (.obj members) = .ok { state with
      seenOutcomes := state.seenOutcomes ++ [(.str id, members.lookup "outcome")] } := by
  rw [checkOutcome, hid, if_neg (by simp), Python.hashKey, Outcome.ok_bind, h]
  rfl

theorem checkOutcome_later {first : Option Json} (hid : Python.get members "id" = .str id)
    (h : state.seenOutcomes.lookup (.str id) = some first) :
    checkOutcome state (.obj members) = .ok (
      if sameOutcome first (members.lookup "outcome") then state
      else { state with contradictions := state.contradictions ++
        [contradiction (.str id) first (members.lookup "outcome")] }) := by
  rw [checkOutcome, hid, if_neg (by simp), Python.hashKey, Outcome.ok_bind, h]
  simp only
  split_ifs <;> rfl

/-- One requirement with an id declares one more outcome. -/
theorem Matches.declares (h : Matches state items) (hid : Python.get members "id" = .str id) :
    ∃ next, checkOutcome state (.obj members) = .ok next ∧
      Matches next (items ++ [(id, (members.lookup "outcome").map Python.canonical)]) := by
  have hseen := h.seen id
  cases hlookup : state.seenOutcomes.lookup (.str id) with
  | none =>
      rw [hlookup, Option.map_none] at hseen
      refine ⟨_, checkOutcome_first hid hlookup, ?_, ?_, ?_⟩
      · intro other
        rw [Dict.lookup_append_singleton, Dict.lookup_append_singleton, ← h.seen other]
        by_cases hother : other = id
        · rw [hother, hlookup, if_pos rfl, if_pos rfl]
          rfl
        · rw [if_neg fun heq ↦ hother (Key.str.inj heq), if_neg hother, Option.or_none, Option.or_none]
      · rw [FirstSeen.conflicts_concat_of_none hseen.symm]
        exact h.count
      · intro other
        rw [exists_differs_concat, differs_last, ← hseen]
        simpa using h.reported other
  | some first =>
      rw [hlookup, Option.map_some] at hseen
      have hkept : ∀ other, items.lookup other = (items ++ [(id,
          (members.lookup "outcome").map Python.canonical)]).lookup other := by
        intro other
        rw [Dict.lookup_append_singleton]
        by_cases hother : other = id
        · rw [hother, ← hseen, Option.some_or]
        · rw [if_neg hother, Option.or_none]
      refine ⟨_, checkOutcome_later hid hlookup, ?_, ?_, ?_⟩
      · intro other
        rw [← hkept, ← h.seen other]
        split_ifs <;> rfl
      · rw [FirstSeen.conflicts_concat_of_some hseen.symm, ← h.count]
        by_cases hsame : sameOutcome first (members.lookup "outcome") = true
        · rw [if_pos hsame, if_pos (sameOutcome_iff.mp hsame)]
          rfl
        · rw [if_neg hsame, if_neg fun heq ↦ hsame (sameOutcome_iff.mpr heq)]
          exact List.length_append
      · intro other
        rw [exists_differs_concat, differs_last, ← hseen, ← h.reported]
        by_cases hsame : sameOutcome first (members.lookup "outcome") = true
        · rw [if_pos hsame]
          simp [sameOutcome_iff.mp hsame]
        · have hdiffers : ¬first.map Python.canonical =
              (members.lookup "outcome").map Python.canonical := fun heq ↦
            hsame (sameOutcome_iff.mpr heq)
          rw [if_neg hsame, reported_append]
          simp [hdiffers]

theorem scan_declared {reqs : List Json} (h : StringIds reqs) :
    ∃ state, reqs.foldlM checkOutcome ⟨[], []⟩ = .ok state ∧ Matches state (declared reqs) := by
  induction reqs using List.reverseRecOn with
  | nil => exact ⟨_, rfl, matches_nil⟩
  | append_singleton reqs req ih =>
      obtain ⟨state, hfold, hmatches⟩ := ih fun members hmem ↦ h members (List.mem_append_left _ hmem)
      rw [declared, List.filterMap_append, ← declared, List.foldlM_append, hfold, Outcome.ok_bind]
      cases req with
      | obj members =>
          rcases h members (by simp) with hnull | ⟨id, hid⟩
          · refine ⟨state, ?_, ?_⟩
            · simp [checkOutcome, hnull]
            · simpa [declaration, hnull] using hmatches
          · obtain ⟨next, hnext, hdeclares⟩ := hmatches.declares hid
            refine ⟨next, ?_, ?_⟩
            · simp [hnext]
            · simpa [declaration, hid] using hdeclares
      | _ =>
          refine ⟨state, by simp [checkOutcome], ?_⟩
          change Matches state (declared reqs ++ [])
          rwa [List.append_nil]

/-! ## The other two counts -/

section Counts

variable (unicode : Unicode) (repr : Json → String) {reqs reqs' : List Json}

theorem length_ambiguitiesOf (req : Json) (index : ℕ) :
    (ambiguitiesOf unicode repr req index).length = (ambiguitiesOf unicode repr req 0).length := by
  cases req with
  | obj members =>
      rw [ambiguitiesOf, ambiguitiesOf]
      simp only [List.length_append]
      split_ifs <;> rfl
  | _ => rfl

/-- An ambiguity is one of its requirement, wherever that stands. -/
theorem length_ambiguities (reqs : List Json) : (ambiguities unicode repr reqs).length =
    (reqs.flatMap fun req ↦ ambiguitiesOf unicode repr req 0).length := by
  have hcounts : (reqs.zipIdx.map fun entry ↦ (ambiguitiesOf unicode repr entry.1 entry.2).length) =
      (reqs.zipIdx.map Prod.fst).map fun req ↦ (ambiguitiesOf unicode repr req 0).length := by
    rw [List.map_map]
    apply List.map_congr_left
    intro entry _
    exact length_ambiguitiesOf unicode repr entry.1 entry.2
  rw [List.zipIdx_map_fst] at hcounts
  rw [ambiguities, List.length_flatMap, List.length_flatMap, ← hcounts]

theorem length_ambiguities_perm (h : reqs'.Perm reqs) :
    (ambiguities unicode repr reqs').length = (ambiguities unicode repr reqs).length := by
  rw [length_ambiguities, length_ambiguities]
  exact (h.flatMap_right _).length_eq

theorem uncovered_perm (h : reqs'.Perm reqs) (baseline : List Json) :
    uncovered repr reqs' baseline = uncovered repr reqs baseline := by
  have hcovered : ∀ item, item ∈ reqs'.flatMap (coversOf repr) ↔ item ∈ reqs.flatMap (coversOf repr) :=
    fun item ↦ (h.flatMap_right _).mem_iff
  simp only [uncovered, hcovered]

end Counts

/-! ## Order -/

section Order

variable (unicode : Unicode) (repr : Json → String) {reqs reqs' : List Json} (baseline : List Json)

theorem StringIds.perm (h : StringIds reqs) (hperm : reqs'.Perm reqs) : StringIds reqs' :=
  fun members hmem ↦ h members (hperm.mem_iff.mp hmem)

theorem validateSpec_eq (h : StringIds reqs) : ∃ report,
    validateSpec unicode repr reqs baseline = .ok report ∧
      report.violationCount = FirstSeen.conflicts (declared reqs) +
        (ambiguities unicode repr reqs).length + (uncovered repr reqs baseline).length ∧
      ∀ id, Reported report.contradictions id ↔ ∃ item ∈ declared reqs, item.1 = id ∧
        FirstSeen.differs (declared reqs) item = true := by
  obtain ⟨state, hfold, hmatches⟩ := scan_declared h
  refine ⟨_, by rw [validateSpec, hfold, Outcome.ok_bind]; rfl, ?_, hmatches.reported⟩
  simp only [hmatches.count]

theorem exists_perm_declared {items : List (String × Option Json)} (h : items.Perm (declared reqs)) :
    ∃ reqs', reqs'.Perm reqs ∧ declared reqs' = items := by
  induction items generalizing reqs with
  | nil => exact ⟨reqs, .refl reqs, h.symm.eq_nil⟩
  | cons item items ih =>
      obtain ⟨req, hreq, hitem⟩ := List.mem_filterMap.mp (h.mem_iff.mp List.mem_cons_self)
      have herase := List.perm_cons_erase hreq
      have hdeclared := h.trans (herase.filterMap declaration)
      rw [List.filterMap_cons_some hitem] at hdeclared
      obtain ⟨reqs', hperm, rfl⟩ := ih hdeclared.cons_inv
      refine ⟨req :: reqs', (hperm.cons req).trans herase.symm, ?_⟩
      exact List.filterMap_cons_some hitem

theorem orderFree_iff (h : StringIds reqs) :
    OrderFree unicode repr reqs baseline ↔ FirstSeen.Balanced (declared reqs) := by
  have hcount : ∀ {reqs'}, reqs'.Perm reqs →
      ((validateSpec unicode repr reqs' baseline).map Report.violationCount =
        (validateSpec unicode repr reqs baseline).map Report.violationCount ↔
          FirstSeen.conflicts (declared reqs') = FirstSeen.conflicts (declared reqs)) := by
    intro reqs' hperm
    obtain ⟨report, hreport, hviolations, -⟩ := validateSpec_eq unicode repr baseline h
    obtain ⟨report', hreport', hviolations', -⟩ :=
      validateSpec_eq unicode repr baseline (h.perm hperm)
    rw [length_ambiguities_perm unicode repr hperm, uncovered_perm repr hperm] at hviolations'
    rw [hreport, hreport', Except.map, Except.map, Except.ok.injEq, hviolations, hviolations']
    omega
  rw [← FirstSeen.conflicts_perm_iff, OrderFree]
  constructor
  · intro hfree items hitems
    obtain ⟨reqs', hperm, rfl⟩ := exists_perm_declared hitems
    exact (hcount hperm).mp (hfree reqs' hperm)
  · intro hconflicts reqs' hperm
    exact (hcount hperm).mpr (hconflicts _ (hperm.filterMap declaration))

theorem mem_declared {id : String} {outcome : Option Json} : (id, outcome) ∈ declared reqs ↔
    ∃ members, .obj members ∈ reqs ∧ Python.get members "id" = .str id ∧
      (members.lookup "outcome").map Python.canonical = outcome := by
  rw [declared, List.mem_filterMap]
  constructor
  · rintro ⟨req, hreq, hdeclaration⟩
    cases req with
    | obj members =>
        rw [declaration] at hdeclaration
        split at hdeclaration
        · next other hid =>
          obtain ⟨rfl, rfl⟩ := Prod.mk.inj (Option.some.inj hdeclaration)
          exact ⟨members, hreq, hid, rfl⟩
        · cases hdeclaration
    | _ => cases hdeclaration
  · rintro ⟨members, hmem, hid, rfl⟩
    refine ⟨_, hmem, ?_⟩
    rw [declaration, hid]

theorem conflicts_iff {id : String} : Conflicts reqs id ↔
    ∃ b ∈ FirstSeen.under (declared reqs) id, ∃ b' ∈ FirstSeen.under (declared reqs) id, b ≠ b' := by
  simp only [FirstSeen.mem_under, mem_declared]
  constructor
  · rintro ⟨a, b, ha, hb, haid, hbid, houtcome⟩
    refine ⟨_, ⟨a, ha, haid, rfl⟩, _, ⟨b, hb, hbid, rfl⟩, fun heq ↦ ?_⟩
    rw [sameOutcome_iff.mpr heq] at houtcome
    cases houtcome
  · rintro ⟨_, ⟨a, ha, haid, rfl⟩, _, ⟨b, hb, hbid, rfl⟩, hne⟩
    refine ⟨a, b, ha, hb, haid, hbid, eq_false_of_ne_true fun hsame ↦ ?_⟩
    exact hne (sameOutcome_iff.mp hsame)

/-- The number of violations is free of the order exactly when the outcomes under each id are
there equally often; which ids are reported always is. -/
theorem validateSpec_orderFree_iff (h : StringIds reqs) :
    (OrderFree unicode repr reqs baseline ↔ FirstSeen.Balanced (declared reqs)) ∧
      ReportsConflicts unicode repr reqs baseline := by
  refine ⟨orderFree_iff unicode repr baseline h, ?_⟩
  obtain ⟨report, hreport, -, hreported⟩ := validateSpec_eq unicode repr baseline h
  refine ⟨report, hreport, fun id ↦ ?_⟩
  rw [conflicts_iff, ← FirstSeen.exists_differs_iff]
  exact hreported id

end Order

section Sample

/-- Lower case and `\w` of an ASCII text. -/
def asciiUnicode : Unicode where
  lower := Text.asciiLower
  isWord c := c.isAlphanum || c == '_'

def sampleReq (outcome : String) : Json :=
  .obj [("id", .str "REQ-1"), ("ears_pattern", .str "ubiquitous"), ("outcome", .str outcome)]

theorem stringIds_sample (outcomes : List String) : StringIds (outcomes.map sampleReq) := by
  intro members hmem
  obtain ⟨outcome, -, heq⟩ := List.mem_map.mp hmem
  obtain rfl := Json.obj.inj heq
  exact Or.inr ⟨"REQ-1", rfl⟩

theorem validateSpec_orderFree_sample :
    (OrderFree asciiUnicode (fun _ ↦ "") (["accept", "reject"].map sampleReq) [] ↔
      FirstSeen.Balanced (declared (["accept", "reject"].map sampleReq))) ∧
    ReportsConflicts asciiUnicode (fun _ ↦ "") (["accept", "reject"].map sampleReq) [] :=
  validateSpec_orderFree_iff asciiUnicode (fun _ ↦ "") [] (stringIds_sample _)

/-- Two of three requirements conflict with the first one, or only one of them does. -/
theorem not_orderFree_sample :
    ¬OrderFree asciiUnicode (fun _ ↦ "") (["accept", "reject", "reject"].map sampleReq) [] := by
  rw [orderFree_iff asciiUnicode (fun _ ↦ "") [] (stringIds_sample _)]
  intro hbalanced
  have hcount := hbalanced "REQ-1" (some (.str "accept")) (by decide) (some (.str "reject"))
    (by decide)
  revert hcount
  decide

end Sample

end AgenticSDLC.SpecValidator
