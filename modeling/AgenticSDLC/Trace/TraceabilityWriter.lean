import AgenticSDLC.Foundations.Python
import AgenticSDLC.Trace.ReqIdScan
import Mathlib.Data.List.Lex
import Mathlib.Data.String.Basic

/-!
# The traceability links

`build_links` of `tools/traceability_writer.py`: the join of commits and tests over the
requirement ids that both name.  The tests are indexed by id first, and each commit then
looks its ids up.
-/

namespace AgenticSDLC.TraceabilityWriter

open ReqIdScan

/-- A dictionary with a string, `None` or nothing under each of the keys. -/
abbrev Entry (keys : List String) :=
  {fields : List (String × Json) //
    ∀ key ∈ keys, Python.get fields key = .null ∨ ∃ s, Python.get fields key = .str s}

abbrev Commit := Entry ["sha", "commit_sha", "message"]

abbrev Test := Entry ["test_file", "file", "path"]

structure Link where
  requirementId : String
  commitSha : String
  testFile : String
  deriving DecidableEq, Repr

/-- The field's text; `None` and a missing field are as false as the empty text. -/
def Entry.text {keys : List String} (entry : Entry keys) (key : String) : String :=
  match Python.get entry.1 key with
  | .str s => s
  | _ => ""

/-- `a or b`. -/
def orElse (a b : String) : String := if a = "" then b else a

def testFile (test : Test) : String :=
  orElse (test.text "test_file") (orElse (test.text "file") (test.text "path"))

def commitSha (commit : Commit) : String := orElse (commit.text "sha") (commit.text "commit_sha")

def string? : Json → Option String
  | .str s => some s
  | _ => none

/-- The strings of `requirement_ids` or `req_ids`, where that is a list. -/
def explicitIds (fields : List (String × Json)) : Option (List String) :=
  let first := Python.get fields "requirement_ids"
  let explicit := if Python.truthy first then first else Python.get fields "req_ids"
  match explicit with
  | .arr items => some (items.filterMap string?)
  | _ => none

def parseCommitTrailers (w : WordClass) (message : String) : List String := scanReqIds w message

def commitReqIds (w : WordClass) (commit : Commit) : List String :=
  match explicitIds commit.1 with
  | some ids => ids
  | none => parseCommitTrailers w (commit.text "message")

def singleId (fields : List (String × Json)) : Option String :=
  match Python.get fields "requirement_id" with
  | .str s => if s = "" then none else some s
  | _ => none

/-- The texts by which a test names itself. -/
def testBlob (repr : Json → String) (fields : List (String × Json)) : String :=
  " ".intercalate (["test_file", "test_name", "file", "path"].map fun key ↦
    Python.str repr (Python.getD fields key (.str "")))

def testReqIds (w : WordClass) (repr : Json → String) (test : Test) : List String :=
  match singleId test.1 with
  | some id => [id]
  | none =>
      match explicitIds test.1 with
      | some ids => ids
      | none => scanReqIds w (testBlob repr test.1)

/-! ## The index of the tests -/

def filesOf (index : List (String × List String)) (reqId : String) : List String :=
  (index.lookup reqId).getD []

/-- `tests_by_req.setdefault(req_id, set()).add(test_file)`. -/
def addFile (file : String) (index : List (String × List String)) (reqId : String) :
    List (String × List String) :=
  Dict.set reqId ((filesOf index reqId).insert file) index

/-- An entry that is `none` is no dictionary. -/
def addTest (w : WordClass) (repr : Json → String) (index : List (String × List String)) :
    Option Test → List (String × List String)
  | none => index
  | some test =>
      if testFile test = "" then index
      else (testReqIds w repr test).foldl (addFile (testFile test)) index

def testsByReq (w : WordClass) (repr : Json → String) (tests : List (Option Test)) :
    List (String × List String) :=
  tests.foldl (addTest w repr) []

/-! ## The links -/

def addFiles (sha reqId : String) (rows : List Link) (files : List String) : List Link :=
  files.foldl (fun rows file ↦ rows.insert ⟨reqId, sha, file⟩) rows

def addCommit (w : WordClass) (index : List (String × List String)) (rows : List Link) :
    Option Commit → List Link
  | none => rows
  | some commit =>
      if commitSha commit = "" then rows
      else (commitReqIds w commit).foldl
        (fun rows reqId ↦ addFiles (commitSha commit) reqId rows (filesOf index reqId)) rows

/-- The tuple by which the links are sorted. -/
def Link.key (link : Link) : List String := [link.requirementId, link.commitSha, link.testFile]

def buildLinks (w : WordClass) (repr : Json → String) (commits : List (Option Commit))
    (tests : List (Option Test)) : List Link :=
  (commits.foldl (addCommit w (testsByReq w repr tests)) []).insertionSort
    fun a b ↦ a.key ≤ b.key

/-! ## The relations -/

/-- The id stands in the text with no letter on either side. -/
def InText (w : WordClass) (text id : String) : Prop :=
  IsReqId id.toList ∧ ∃ before after, text.toList = before ++ id.toList ++ after ∧
    before.getLast?.any w.isWord = false ∧ after.head?.any w.isWord = false

/-- The commit's list names the id, or its message does where it has no list. -/
def References (w : WordClass) (commit : Commit) (id : String) : Prop :=
  (∃ ids, explicitIds commit.1 = some ids ∧ id ∈ ids) ∨
    explicitIds commit.1 = none ∧ InText w (commit.text "message") id

/-- The test's own field names the id, or its list, or the texts by which it names itself. -/
def Exercises (w : WordClass) (repr : Json → String) (test : Test) (id : String) : Prop :=
  singleId test.1 = some id ∨
    singleId test.1 = none ∧
      ((∃ ids, explicitIds test.1 = some ids ∧ id ∈ ids) ∨
        explicitIds test.1 = none ∧ InText w (testBlob repr test.1) id)

theorem mem_commitReqIds_iff (w : WordClass) (commit : Commit) (id : String) :
    id ∈ commitReqIds w commit ↔ References w commit id := by
  cases hids : explicitIds commit.1 with
  | some ids => simp [commitReqIds, References, hids]
  | none => simp [commitReqIds, parseCommitTrailers, References, hids, mem_scanReqIds_iff, InText]

theorem mem_testReqIds_iff (w : WordClass) (repr : Json → String) (test : Test) (id : String) :
    id ∈ testReqIds w repr test ↔ Exercises w repr test id := by
  cases hsingle : singleId test.1 with
  | some single => simp [testReqIds, Exercises, hsingle, eq_comm]
  | none =>
      cases hids : explicitIds test.1 with
      | some ids => simp [testReqIds, Exercises, hsingle, hids]
      | none => simp [testReqIds, Exercises, hsingle, hids, mem_scanReqIds_iff, InText]

/-! ## The index holds the tests -/

theorem mem_filesOf_addFile (file : String) (index : List (String × List String))
    (added reqId f : String) :
    f ∈ filesOf (addFile file index added) reqId ↔
      (reqId = added ∧ f = file) ∨ f ∈ filesOf index reqId := by
  rw [filesOf, addFile, Dict.lookup_set]
  by_cases h : reqId = added
  · subst h
    simp
  · simp [h, filesOf]

theorem mem_filesOf_foldl_addFile (file : String) (added : List String)
    (index : List (String × List String)) (reqId f : String) :
    f ∈ filesOf (added.foldl (addFile file) index) reqId ↔
      (reqId ∈ added ∧ f = file) ∨ f ∈ filesOf index reqId := by
  induction added generalizing index with
  | nil => simp
  | cons first added ih =>
      rw [List.foldl_cons, ih, mem_filesOf_addFile, List.mem_cons]
      tauto

/-- A test that the loop indexes under `file`. -/
def Indexed (w : WordClass) (repr : Json → String) (reqId file : String) (test : Test) : Prop :=
  testFile test = file ∧ file ≠ "" ∧ Exercises w repr test reqId

theorem mem_filesOf_addTest (w : WordClass) (repr : Json → String)
    (index : List (String × List String)) (test : Option Test) (reqId file : String) :
    file ∈ filesOf (addTest w repr index test) reqId ↔
      (∃ t ∈ test, Indexed w repr reqId file t) ∨ file ∈ filesOf index reqId := by
  cases test with
  | none => simp [addTest]
  | some test =>
      rw [addTest]
      by_cases hempty : testFile test = ""
      · rw [if_pos hempty]
        simp only [Option.mem_def, Option.some.injEq, exists_eq_left', Indexed]
        grind
      · rw [if_neg hempty, mem_filesOf_foldl_addFile, mem_testReqIds_iff]
        simp only [Option.mem_def, Option.some.injEq, exists_eq_left', Indexed]
        grind

theorem mem_filesOf_testsByReq (w : WordClass) (repr : Json → String) (tests : List (Option Test))
    (reqId file : String) :
    file ∈ filesOf (testsByReq w repr tests) reqId ↔
      ∃ test, some test ∈ tests ∧ Indexed w repr reqId file test := by
  have hfold : ∀ index, file ∈ filesOf (tests.foldl (addTest w repr) index) reqId ↔
      (∃ test, some test ∈ tests ∧ Indexed w repr reqId file test) ∨ file ∈ filesOf index reqId := by
    intro index
    induction tests generalizing index with
    | nil => simp
    | cons test tests ih =>
        rw [List.foldl_cons, ih, mem_filesOf_addTest]
        simp only [List.mem_cons, Option.mem_def]
        grind
  rw [testsByReq, hfold]
  simp [filesOf]

/-! ## The rows are the join -/

theorem mem_addFiles (sha reqId : String) (rows : List Link) (files : List String) (link : Link) :
    link ∈ addFiles sha reqId rows files ↔
      (∃ file ∈ files, link = ⟨reqId, sha, file⟩) ∨ link ∈ rows := by
  induction files generalizing rows with
  | nil => simp [addFiles]
  | cons file files ih =>
      rw [addFiles, List.foldl_cons, ← addFiles, ih, List.mem_insert_iff]
      simp only [List.mem_cons]
      grind

theorem nodup_addFiles (sha reqId : String) {rows : List Link} (files : List String)
    (h : rows.Nodup) : (addFiles sha reqId rows files).Nodup := by
  induction files generalizing rows with
  | nil => exact h
  | cons file files ih => exact ih h.insert

/-- A commit that makes `link`, by the index. -/
def Makes (w : WordClass) (index : List (String × List String)) (link : Link) (commit : Commit) :
    Prop :=
  commitSha commit = link.commitSha ∧ link.commitSha ≠ "" ∧
    References w commit link.requirementId ∧ link.testFile ∈ filesOf index link.requirementId

theorem mem_addCommit (w : WordClass) (index : List (String × List String)) (rows : List Link)
    (commit : Option Commit) (link : Link) :
    link ∈ addCommit w index rows commit ↔
      (∃ c ∈ commit, Makes w index link c) ∨ link ∈ rows := by
  cases commit with
  | none => simp [addCommit]
  | some commit =>
      have hfold : ∀ ids rows, link ∈ List.foldl (fun rows reqId ↦
          addFiles (commitSha commit) reqId rows (filesOf index reqId)) rows ids ↔
          (link.requirementId ∈ ids ∧ link.commitSha = commitSha commit ∧
            link.testFile ∈ filesOf index link.requirementId) ∨ link ∈ rows := by
        intro ids
        induction ids with
        | nil => simp
        | cons id ids ih =>
            intro rows
            rw [List.foldl_cons, ih, mem_addFiles, List.mem_cons]
            obtain ⟨reqId, sha, file⟩ := link
            grind
      rw [addCommit]
      by_cases hempty : commitSha commit = ""
      · rw [if_pos hempty]
        simp only [Option.mem_def, Option.some.injEq, exists_eq_left', Makes]
        grind
      · rw [if_neg hempty, hfold, mem_commitReqIds_iff]
        simp only [Option.mem_def, Option.some.injEq, exists_eq_left', Makes]
        grind

theorem nodup_addCommit (w : WordClass) (index : List (String × List String)) {rows : List Link}
    (commit : Option Commit) (h : rows.Nodup) : (addCommit w index rows commit).Nodup := by
  cases commit with
  | none => exact h
  | some commit =>
      rw [addCommit]
      split_ifs
      · exact h
      · generalize commitReqIds w commit = ids
        induction ids generalizing rows with
        | nil => exact h
        | cons id ids ih => exact ih (nodup_addFiles (commitSha commit) id _ h)

theorem mem_foldl_addCommit (w : WordClass) (index : List (String × List String))
    (commits : List (Option Commit)) (rows : List Link) (link : Link) :
    link ∈ commits.foldl (addCommit w index) rows ↔
      (∃ commit, some commit ∈ commits ∧ Makes w index link commit) ∨ link ∈ rows := by
  induction commits generalizing rows with
  | nil => simp
  | cons commit commits ih =>
      rw [List.foldl_cons, ih, mem_addCommit]
      simp only [List.mem_cons, Option.mem_def]
      grind

theorem nodup_foldl_addCommit (w : WordClass) (index : List (String × List String))
    (commits : List (Option Commit)) {rows : List Link} (h : rows.Nodup) :
    (commits.foldl (addCommit w index) rows).Nodup := by
  induction commits generalizing rows with
  | nil => exact h
  | cons commit commits ih => exact ih (nodup_addCommit w index commit h)

/-- The link joins a commit and a test over a requirement. -/
def Joins (w : WordClass) (repr : Json → String) (commits : List (Option Commit))
    (tests : List (Option Test)) (link : Link) : Prop :=
  ∃ commit test, some commit ∈ commits ∧ some test ∈ tests ∧
    commitSha commit = link.commitSha ∧ link.commitSha ≠ "" ∧
    testFile test = link.testFile ∧ link.testFile ≠ "" ∧
    References w commit link.requirementId ∧ Exercises w repr test link.requirementId

theorem mem_buildLinks_iff (w : WordClass) (repr : Json → String) (commits : List (Option Commit))
    (tests : List (Option Test)) (link : Link) :
    link ∈ buildLinks w repr commits tests ↔ Joins w repr commits tests link := by
  rw [buildLinks, List.mem_insertionSort, mem_foldl_addCommit]
  simp only [Makes, mem_filesOf_testsByReq, Indexed, Joins, List.not_mem_nil, or_false]
  grind

theorem nodup_buildLinks (w : WordClass) (repr : Json → String) (commits : List (Option Commit))
    (tests : List (Option Test)) : (buildLinks w repr commits tests).Nodup := by
  rw [buildLinks, (List.perm_insertionSort _ _).nodup_iff]
  exact nodup_foldl_addCommit w _ commits List.nodup_nil

/-! ## The order -/

theorem Link.key_injective : Function.Injective Link.key := by
  rintro ⟨r, c, t⟩ ⟨r', c', t'⟩ h
  simp only [Link.key, List.cons.injEq, and_true] at h
  obtain ⟨rfl, rfl, rfl⟩ := h
  rfl

theorem pairwise_buildLinks (w : WordClass) (repr : Json → String) (commits : List (Option Commit))
    (tests : List (Option Test)) :
    (buildLinks w repr commits tests).Pairwise fun a b ↦ a.key ≤ b.key := by
  have : Std.Total fun a b : Link ↦ a.key ≤ b.key := ⟨fun a b ↦ le_total a.key b.key⟩
  have : IsTrans Link fun a b ↦ a.key ≤ b.key := ⟨fun _ _ _ ↦ le_trans⟩
  exact List.pairwise_insertionSort _ _

/-- A sorted list of distinct links is given by which links it has. -/
theorem eq_of_same_links {as bs : List Link} (has : as.Nodup) (hbs : bs.Nodup)
    (hsorted : as.Pairwise fun a b ↦ a.key ≤ b.key)
    (hsorted' : bs.Pairwise fun a b ↦ a.key ≤ b.key) (h : ∀ link, link ∈ as ↔ link ∈ bs) :
    as = bs := by
  have hperm : as.Perm bs := (List.perm_ext_iff_of_nodup has hbs).mpr h
  apply hperm.eq_of_pairwise _ hsorted hsorted'
  intro a b _ _ hle hge
  exact Link.key_injective (le_antisymm hle hge)

/-- The links are the join, each once and in order, whatever the order of the commits and the
tests and however often one is there. -/
theorem buildLinks_join (w : WordClass) (repr : Json → String) (commits : List (Option Commit))
    (tests : List (Option Test)) :
    (∀ link, link ∈ buildLinks w repr commits tests ↔ Joins w repr commits tests link) ∧
    (buildLinks w repr commits tests).Nodup ∧
    (buildLinks w repr commits tests).Pairwise (fun a b ↦ a.key ≤ b.key) ∧
    ∀ commits' tests', (∀ commit, commit ∈ commits' ↔ commit ∈ commits) →
      (∀ test, test ∈ tests' ↔ test ∈ tests) →
      buildLinks w repr commits' tests' = buildLinks w repr commits tests := by
  refine ⟨mem_buildLinks_iff w repr commits tests, nodup_buildLinks w repr commits tests,
    pairwise_buildLinks w repr commits tests, ?_⟩
  intro commits' tests' hcommits htests
  apply eq_of_same_links (nodup_buildLinks w repr commits' tests')
    (nodup_buildLinks w repr commits tests) (pairwise_buildLinks w repr commits' tests')
    (pairwise_buildLinks w repr commits tests)
  intro link
  simp only [mem_buildLinks_iff, Joins, hcommits, htests]

end AgenticSDLC.TraceabilityWriter
