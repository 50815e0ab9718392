import AgenticSDLC.Trace.ExemptGlobs
import AgenticSDLC.Trace.OrphanDetector

/-!
# The diff-aware orphan detector

`detect_orphans_diff` of `tools/orphan_detector.py`: the units are those of the changed files and
the requirements those of the model's delta.  The ids that count as referenced are then those of
the units in scope, so a requirement in the delta loses the references from all other units.
-/

namespace AgenticSDLC.DiffOrphans

open ExemptGlobs Outcome OrphanDetector
open Python (Exception)

/-- The engine of `re.match`, and `git merge-base` of a commit in a directory. -/
structure Tools extends Library where
  reMatch : String → String → Option Bool
  mergedBase : String → String → Option String

def defaultAllowlistPattern : String := "tools/.*"

/-- The body of the loop of `_filter_forward_units_by_changed`. -/
def keepsUnit (reMatch : String → String → Option Bool) (changed : List Python.Key)
    (allowlistPattern : String) (unit : Fields) : Except Exception Bool :=
  let filePath := orElse (Python.get unit "file") (Python.get unit "path")
  if !Python.truthy filePath then .ok false
  else do
    let key ← Python.hashKey filePath
    if key ∉ changed then .ok false
    else
      match filePath with
      | .str path => .ok (!isPathExempt reMatch path allowlistPattern)
      | value => if allowlistPattern = "" then .ok true else .error (notText value)

def filterForwardUnitsByChanged (reMatch : String → String → Option Bool) (implUnits : List Fields)
    (changedFiles : Option (List Python.Key)) (allowlistPattern : String) :
    Except Exception (List Fields) :=
  match changedFiles with
  | none => .ok implUnits
  | some changed => selectM (keepsUnit reMatch changed allowlistPattern) implUnits

def inDelta (modelDeltaIds : List Python.Key) (req : Fields) : Except Exception Bool := do
  let key ← Python.hashKey (Python.get req "id")
  return key ∈ modelDeltaIds

def scopeRequirements (modelDeltaIds : Option (List Python.Key)) (requirements : List Fields) :
    Except Exception (List Fields) :=
  match modelDeltaIds with
  | none => .ok requirements
  | some delta => selectM (inDelta delta) requirements

/-- The inputs of one call; `changedFiles` and `modelDeltaIds` are sets, as the lists of their
elements. -/
structure Diff where
  changedFiles : Option (List Python.Key) := none
  baselineCommit : Option String := none
  modelDeltaIds : Option (List Python.Key) := none
  allowlistPattern : String := ""
  failClosedOnUnreachable : Bool := false
  root : String := "."

/-- The pattern in use: an empty one stands for the default. -/
def Diff.allowlist (diff : Diff) : String :=
  if diff.allowlistPattern = "" then defaultAllowlistPattern else diff.allowlistPattern

/-- The commit, unless it is empty. -/
def Diff.baseline (diff : Diff) : Option String := diff.baselineCommit.filter (· ≠ "")

def scopeDiffInputs (tools : Tools) (implUnits requirements : List Fields) (diff : Diff) :
    Except Exception (List Fields × List Fields × Option String) :=
  match diff.changedFiles with
  | none => .ok (implUnits, requirements, diff.baseline.map fun commit ↦
      "diff not computed against " ++ tools.repr (.str commit) ++ "; full-repo fallback (local)")
  | some changed => do
      let filteredUnits ← filterForwardUnitsByChanged tools.reMatch implUnits (some changed)
        diff.allowlist
      let scopedRequirements ← scopeRequirements diff.modelDeltaIds requirements
      return (filteredUnits, scopedRequirements, none)

def collectDanglingRefs (lib : Library) (filteredUnits : List Fields) (knownIds : List String) :
    Except Exception (List (String × DanglingRef)) :=
  if knownIds.isEmpty then .ok []
  else do
    let refs ← filteredUnits.mapM fun unit ↦ do
      let ids ← implUnitReqIds lib unit
      return (ids.filter (isDangling knownIds)).map fun id ↦ (id,
        { unit := implUnitRef lib unit
          message := "requirement ID '" ++ id ++ "' does not exist in feature_list.json" })
    return Dict.ofFirst refs.flatten

/-- The orphans without those that a dangling reference put there. -/
def dropDangling (orphans : List String) : List String :=
  orphans.filter fun orphan ↦ ¬ "[dangling-ref:".toList <:+: orphan.toList

def applyDanglingRefs (report : Report) (danglingRefs : List (String × DanglingRef)) : Report :=
  if danglingRefs.isEmpty then report
  else { report with
    danglingRefs := danglingRefs, ok := false
    forwardOrphans := dropDangling report.forwardOrphans }

/-- `detect_orphans_diff` after the question for the merge base. -/
def detectScoped (tools : Tools) (implUnits requirements : List Fields) (knownIds : List String)
    (diff : Diff) : Except Exception Report := do
  let (filteredUnits, scopedRequirements, fallbackReason) ←
    scopeDiffInputs tools implUnits requirements diff
  let report ← detectOrphans tools.toLibrary filteredUnits scopedRequirements knownIds
  let danglingRefs ← collectDanglingRefs tools.toLibrary filteredUnits knownIds
  return applyDanglingRefs { report with baselineFallbackReason := fallbackReason } danglingRefs

/-- The commit whose merge base cannot be reached, where that is asked for. -/
def unreachableBase (tools : Tools) (diff : Diff) : Option String :=
  if diff.failClosedOnUnreachable then
    diff.baseline.filter fun commit ↦ (tools.mergedBase commit diff.root).isNone
  else none

def detectOrphansDiff (tools : Tools) (implUnits requirements : List Fields)
    (knownIds : List String) (diff : Diff) : Except Exception Report :=
  match unreachableBase tools diff with
  | some commit => .ok
      { forwardOrphans := [], backwardOrphans := [], ok := false
        error := some ("merge-base " ++ tools.repr (.str commit) ++
          " unreachable — fetch-depth:0 required (CI misconfiguration, not a degrade)") }
  | none => detectScoped tools implUnits requirements knownIds diff

/-! ## The scope -/

variable {tools : Tools} {diff : Diff} {units requirements : List Fields}

/-- The unit's file is among the changed ones and not on the allowlist. -/
def UnitInScope (tools : Tools) (diff : Diff) (unit : Fields) : Prop :=
  ∀ changed ∈ diff.changedFiles, keepsUnit tools.reMatch changed diff.allowlist unit = .ok true

/-- The requirement is one of the delta; without a diff or a delta all are. -/
def RequirementInScope (diff : Diff) (req : Fields) : Prop :=
  diff.changedFiles.isSome → ∀ delta ∈ diff.modelDeltaIds, inDelta delta req = .ok true

theorem scopeDiffInputs_spec {scopedUnits scopedRequirements : List Fields} {reason : Option String}
    (h : scopeDiffInputs tools units requirements diff =
      .ok (scopedUnits, scopedRequirements, reason)) :
    (∀ unit, unit ∈ scopedUnits ↔ unit ∈ units ∧ UnitInScope tools diff unit) ∧
    ∀ req, req ∈ scopedRequirements ↔ req ∈ requirements ∧ RequirementInScope diff req := by
  unfold scopeDiffInputs at h
  cases hchanged : diff.changedFiles with
  | none =>
      simp only [hchanged, Except.ok.injEq, Prod.mk.injEq] at h
      obtain ⟨rfl, rfl, -⟩ := h
      simp [UnitInScope, RequirementInScope, hchanged]
  | some changed =>
      simp only [hchanged] at h
      obtain ⟨filtered, hfiltered, hrest⟩ := bind_eq_ok_iff.mp h
      obtain ⟨picked, hpicked, hout⟩ := bind_eq_ok_iff.mp hrest
      obtain ⟨rfl, hsame⟩ := Prod.mk.inj (Except.ok.inj hout)
      obtain ⟨rfl, -⟩ := Prod.mk.inj hsame
      constructor
      · intro unit
        rw [mem_of_selectM_eq_ok hfiltered]
        simp [UnitInScope, hchanged]
      · intro req
        unfold scopeRequirements at hpicked
        cases hdelta : diff.modelDeltaIds with
        | none =>
            simp only [hdelta, Except.ok.injEq] at hpicked
            simp [RequirementInScope, hdelta, hpicked]
        | some delta =>
            simp only [hdelta] at hpicked
            rw [mem_of_selectM_eq_ok hpicked]
            simp [RequirementInScope, hchanged, hdelta]

theorem forwardOrphans_applyDanglingRefs {report : Report} {refs : List (String × DanglingRef)}
    {orphan : String} (h : orphan ∈ (applyDanglingRefs report refs).forwardOrphans) :
    orphan ∈ report.forwardOrphans := by
  rw [applyDanglingRefs] at h
  split_ifs at h
  · exact h
  · exact List.mem_of_mem_filter h

theorem backwardOrphans_applyDanglingRefs (report : Report) (refs : List (String × DanglingRef)) :
    (applyDanglingRefs report refs).backwardOrphans = report.backwardOrphans := by
  rw [applyDanglingRefs]
  split_ifs <;> rfl

/-- What the scoped detection reports comes from what is in scope. -/
theorem detectScoped_spec {knownIds : List String} {report : Report}
    (h : detectScoped tools units requirements knownIds diff = .ok report) :
    (∀ orphan ∈ report.forwardOrphans, ∃ unit ∈ units, ∃ out,
      forwardUnit tools.toLibrary knownIds unit = .ok out ∧ orphan ∈ out.1) ∧
    ∀ id, id ∈ report.backwardOrphans ↔ ∃ req ∈ requirements, RequirementInScope diff req ∧
      requirementId tools.toLibrary req = some id ∧
      (¬ ∃ unit ∈ units, UnitInScope tools diff unit ∧ Cites tools.toLibrary unit id) ∧
      ownArtifact tools.toLibrary req = .ok false := by
  obtain ⟨⟨scopedUnits, scopedRequirements, reason⟩, hscope, hrest⟩ := bind_eq_ok_iff.mp h
  obtain ⟨inner, hinner, hrest⟩ := bind_eq_ok_iff.mp hrest
  obtain ⟨refs, -, hout⟩ := bind_eq_ok_iff.mp hrest
  obtain rfl := Except.ok.inj hout
  obtain ⟨hunits, hrequirements⟩ := scopeDiffInputs_spec hscope
  obtain ⟨hforward, hbackward⟩ := detectOrphans_spec hinner
  constructor
  · intro orphan horphan
    have hreported := forwardOrphans_applyDanglingRefs horphan
    obtain ⟨unit, hunit, hout⟩ := (hforward orphan).mp hreported
    exact ⟨unit, ((hunits unit).mp hunit).1, hout⟩
  · intro id
    rw [backwardOrphans_applyDanglingRefs]
    simp only [hbackward, Unproved, hunits, hrequirements]
    grind

/-! ## What the scope does to the report -/

/-- A unit names the requirement, but none in scope does. -/
def LosesReferences (tools : Tools) (diff : Diff) (units : List Fields) (id : String) : Prop :=
  (∃ unit ∈ units, Cites tools.toLibrary unit id) ∧
    ¬ ∃ unit ∈ units, UnitInScope tools diff unit ∧ Cites tools.toLibrary unit id

/-- The orphans of the diff are among those of the whole repository when no requirement in scope
without an artifact of its own loses its references, or no merge base is reached. -/
theorem detectOrphansDiff_subset_iff {knownIds : List String} {full report : Report}
    (hfull : detectOrphans tools.toLibrary units requirements knownIds = .ok full)
    (hreport : detectOrphansDiff tools units requirements knownIds diff = .ok report) :
    ((∀ orphan ∈ report.forwardOrphans, orphan ∈ full.forwardOrphans) ∧
      ∀ id ∈ report.backwardOrphans, id ∈ full.backwardOrphans) ↔
    (unreachableBase tools diff).isSome = true ∨
      ∀ req ∈ requirements, RequirementInScope diff req →
        ownArtifact tools.toLibrary req = .ok false →
        ∀ id, requirementId tools.toLibrary req = some id →
          ¬ LosesReferences tools diff units id := by
  obtain ⟨hforwardFull, hbackwardFull⟩ := detectOrphans_spec hfull
  unfold detectOrphansDiff at hreport
  cases hbase : unreachableBase tools diff with
  | some commit =>
      simp only [hbase, Except.ok.injEq] at hreport
      subst hreport
      simp
  | none =>
      simp only [hbase] at hreport
      obtain ⟨hforward, hbackward⟩ := detectScoped_spec hreport
      have hforwards : ∀ orphan ∈ report.forwardOrphans, orphan ∈ full.forwardOrphans :=
        fun orphan horphan ↦ (hforwardFull orphan).mpr (hforward orphan horphan)
      rw [and_iff_right hforwards]
      simp only [Option.isSome_none, Bool.false_eq_true, false_or]
      constructor
      · intro hsubset req hreq hscope hown id hid hloses
        have hreported := (hbackward id).mpr ⟨req, hreq, hscope, hid, hloses.2, hown⟩
        obtain ⟨other, -, -, hunreferenced, -⟩ := (hbackwardFull id).mp (hsubset id hreported)
        exact hunreferenced hloses.1
      · intro hkeeps id horphan
        obtain ⟨req, hreq, hscope, hid, hnone, hown⟩ := (hbackward id).mp horphan
        refine (hbackwardFull id).mpr ⟨req, hreq, hid, ?_, hown⟩
        intro hcited
        exact hkeeps req hreq hscope hown id hid ⟨hcited, hnone⟩

/-! ## A requirement whose unit has not changed -/

section Sample

def sampleTools : Tools where
  repr _ := ""
  word := .ascii
  reMatch := ExemptGlobs.reMatch
  mergedBase _ _ := none

def sampleUnit : Fields := [("file", .str "a.py"), ("requirement_id", .str "REQ-A-001")]

def sampleRequirement : Fields := [("id", .str "REQ-A-001")]

/-- The requirement is in the delta, and its unit's file has not changed. -/
def sampleDiff : Diff where
  changedFiles := some [.str "b.py"]
  modelDeltaIds := some [.str "REQ-A-001"]

theorem detectOrphans_sample :
    detectOrphans sampleTools.toLibrary [sampleUnit] [sampleRequirement] ["REQ-A-001"] =
      .ok { forwardOrphans := [], backwardOrphans := [], ok := true } := by
  apply Outcome.eq_ok_of_toOption
  decide +kernel

theorem detectOrphansDiff_sample :
    detectOrphansDiff sampleTools [sampleUnit] [sampleRequirement] ["REQ-A-001"] sampleDiff =
      .ok { forwardOrphans := [], backwardOrphans := ["REQ-A-001"], ok := false } := by
  apply Outcome.eq_ok_of_toOption
  decide +kernel

theorem detectOrphansDiff_subset_iff_sample :
    ((∀ orphan ∈ ([] : List String), orphan ∈ ([] : List String)) ∧
      ∀ id ∈ ["REQ-A-001"], id ∈ ([] : List String)) ↔
    (unreachableBase sampleTools sampleDiff).isSome = true ∨
      ∀ req ∈ [sampleRequirement], RequirementInScope sampleDiff req →
        ownArtifact sampleTools.toLibrary req = .ok false →
        ∀ id, requirementId sampleTools.toLibrary req = some id →
          ¬ LosesReferences sampleTools sampleDiff [sampleUnit] id :=
  detectOrphansDiff_subset_iff detectOrphans_sample detectOrphansDiff_sample

/-- The requirement is an orphan of the diff, and none of the whole repository. -/
theorem detectOrphansDiff_invents :
    ∃ full report,
      detectOrphans sampleTools.toLibrary [sampleUnit] [sampleRequirement] ["REQ-A-001"] =
        .ok full ∧
      detectOrphansDiff sampleTools [sampleUnit] [sampleRequirement] ["REQ-A-001"] sampleDiff =
        .ok report ∧
      ¬ ((∀ orphan ∈ report.forwardOrphans, orphan ∈ full.forwardOrphans) ∧
        ∀ id ∈ report.backwardOrphans, id ∈ full.backwardOrphans) := by
  refine ⟨_, _, detectOrphans_sample, detectOrphansDiff_sample, ?_⟩
  rintro ⟨-, hbackward⟩
  exact absurd (hbackward "REQ-A-001" List.mem_cons_self) (by decide)

end Sample

end AgenticSDLC.DiffOrphans
