import AgenticSDLC.Evidence.BaselineGate
import AgenticSDLC.Evidence.EvidenceGate
import AgenticSDLC.Foundations.Paths

/-!
# The CI evidence check

`tools/ci_evidence_check.py`.  `run` reads the model, the ledger and the trusted
baseline, asks the baseline gate first, skips when an input is absent, and
otherwise re-verifies the model against the artifacts on disk.  The artifacts
directory is a map from resolved paths to texts.
-/

namespace AgenticSDLC.CiEvidenceCheck

open Python (Exception Stdlib Key)
open EvidenceGate (Artifacts ItemAccepted)

/-- A file the check parses: `unreadable` raises on reading or on parsing. -/
inductive JsonFile where
  | absent
  | unreadable (exc : Exception)
  | document (value : Json)
  deriving DecidableEq

/-- `json.loads(path.read_text()) if path.is_file() else None`. -/
def JsonFile.loadOrNone : JsonFile → Except Exception Json
  | .absent => .ok .null
  | .unreadable exc => .error exc
  | .document value => .ok value

structure Inputs where
  cwd : ResolvedPath
  githubWorkspace : Option String
  featureList : JsonFile
  artifactsDir : String
  ledger : JsonFile
  baseline : Option (String × JsonFile)
  files : ResolvedPath → Option String

namespace Inputs

/-- `_assert_baseline_out_of_band` raises. -/
def baselineInWorkspace (inputs : Inputs) : Bool :=
  match inputs.baseline, inputs.githubWorkspace with
  | some (path, _), some workspace =>
      workspace ≠ "" &&
        (inputs.cwd.resolve path).isWithin (inputs.cwd.resolve workspace)
  | _, _ => false

def loadBaseline (inputs : Inputs) : Except Exception Json :=
  match inputs.baseline with
  | none => .ok .null
  | some (_, file) => file.loadOrNone

def artifactPath (inputs : Inputs) (testFile : String) : ResolvedPath :=
  (inputs.cwd.resolve inputs.artifactsDir).resolve testFile

def safeReadArtifact (inputs : Inputs) (testFile : Json) : Except Exception (Option String) :=
  match testFile with
  | .str text =>
      if Char.ofNat 0 ∈ text.toList then .error ⟨"ValueError", "embedded null byte"⟩
      else if (inputs.artifactPath text).isWithin (inputs.cwd.resolve inputs.artifactsDir) then
        .ok (inputs.files (inputs.artifactPath text))
      else .ok none
  | value => .error ⟨"TypeError",
      "unsupported operand type(s) for /: 'PosixPath' and '" ++ Python.typeName value ++ "'"⟩

/-- `item.get("evidence") or {}`, read as a dictionary. -/
def evidenceOrEmpty (evidence : Json) : Except Exception (List (String × Json)) :=
  if Python.truthy evidence then Python.asDict evidence else .ok []

/-- The artifact an item's own `evidence.test_file` names. -/
def ownArtifact (inputs : Inputs) (item : Json) : Except Exception (Option String) := do
  let fields ← Python.asDict item
  let ev ← evidenceOrEmpty (Python.get fields "evidence")
  let testFile := Python.get ev "test_file"
  if Python.truthy testFile then inputs.safeReadArtifact testFile else .ok none

end Inputs

def idKey (item : Json) : Except Exception Key := do
  let fields ← Python.asDict item
  Python.hashKey (Python.get fields "id")

/-- `artifacts[item.get("id")] = ...`: the newest entry of a key comes first. -/
def recordArtifact (inputs : Inputs) (artifacts : Artifacts) (item : Json) :
    Except Exception Artifacts := do
  let artifact ← inputs.ownArtifact item
  let key ← idKey item
  return (key, artifact) :: artifacts

def collectArtifacts (inputs : Inputs) (model : Json) : Except Exception Artifacts := do
  let fields ← Python.asDict model
  let items ← Python.iterate (Python.getD fields "items" (.arr []))
  items.foldlM (recordArtifact inputs) []

/-- The end of `run`, once there is a model. -/
def evaluate (py : Stdlib) (inputs : Inputs) (model : Json) : Except Exception ℕ := do
  match inputs.ledger with
  | .absent => return 0
  | .unreadable exc => throw exc
  | .document ledger =>
      let artifacts ← collectArtifacts inputs model
      if (EvidenceGate.checkModel py model ledger artifacts).accepted then return 0
      return 1

/-- The exit code, or the exception that escapes. -/
def run (py : Stdlib) (inputs : Inputs) : Except Exception ℕ := do
  if inputs.baselineInWorkspace then return 1
  let baseline ← inputs.loadBaseline
  let model ← inputs.featureList.loadOrNone
  if (BaselineGate.baselineGate py.repr baseline model).deny then return 1
  if model = .null then return 0
  evaluate py inputs model

/-- The evidence gate ran over the model and accepted it. -/
def Reverified (py : Stdlib) (inputs : Inputs) (model : Json) : Prop :=
  ∃ ledger artifacts, inputs.ledger = .document ledger ∧
    collectArtifacts inputs model = .ok artifacts ∧
      (EvidenceGate.checkModel py model ledger artifacts).accepted = true

theorem evaluate_eq_zero_iff (py : Stdlib) (inputs : Inputs) (model : Json) :
    evaluate py inputs model = .ok 0 ↔
      inputs.ledger = .absent ∨ Reverified py inputs model := by
  unfold evaluate Reverified
  cases inputs.ledger with
  | absent => exact ⟨fun _ ↦ Or.inl rfl, fun _ ↦ rfl⟩
  | unreadable exc =>
      constructor
      · intro h
        cases h
      · rintro (h | ⟨ledger, artifacts, h, -⟩) <;> cases h
  | document ledger =>
      constructor
      · intro h
        obtain ⟨artifacts, hartifacts, hverdict⟩ := Outcome.bind_eq_ok_iff.mp h
        split_ifs at hverdict with haccepted
        · exact Or.inr ⟨ledger, artifacts, rfl, hartifacts, haccepted⟩
        · cases hverdict
      · rintro (h | ⟨ledger', artifacts, h, hartifacts, haccepted⟩)
        · cases h
        · cases h
          refine Outcome.bind_eq_ok_iff.mpr ⟨artifacts, hartifacts, ?_⟩
          rw [if_pos haccepted]
          rfl

/-- The three ways to an exit code of zero. -/
theorem run_eq_zero_iff (py : Stdlib) (inputs : Inputs) :
    run py inputs = .ok 0 ↔
      inputs.baselineInWorkspace = false ∧
        ∃ baseline model, inputs.loadBaseline = .ok baseline ∧
          inputs.featureList.loadOrNone = .ok model ∧
            (BaselineGate.baselineGate py.repr baseline model).deny = false ∧
              (model = .null ∨ inputs.ledger = .absent ∨ Reverified py inputs model) := by
  simp only [run, ← evaluate_eq_zero_iff]
  cases inputs.baselineInWorkspace with
  | true => simp [pure, Except.pure]
  | false =>
      simp only [Bool.false_eq_true, if_false, true_and, Outcome.bind_eq_ok_iff]
      refine exists_congr fun baseline ↦ ?_
      rw [← exists_and_left]
      refine exists_congr fun model ↦ and_congr_right fun _ ↦ and_congr_right fun _ ↦ ?_
      cases (BaselineGate.baselineGate py.repr baseline model).deny with
      | true => simp [pure, Except.pure]
      | false =>
          by_cases hnull : model = .null
          · simp [hnull, pure, Except.pure]
          · simp [hnull]

/-! ## What acceptance says -/

section Artifacts

variable {inputs : Inputs}

def lastWithId (items : List Json) (key : Key) : Option Json :=
  items.reverse.find? fun item ↦ (idKey item).toOption = some key

/-- The artifact an id ends up with is the one of the last item carrying it. -/
theorem lookup_of_foldlM {items : List Json} {start artifacts : Artifacts}
    (h : items.foldlM (recordArtifact inputs) start = .ok artifacts) (key : Key) :
    artifacts.lookup key =
      ((lastWithId items key).map fun last ↦ (inputs.ownArtifact last).toOption.join).or
        (start.lookup key) := by
  induction items generalizing start with
  | nil =>
      obtain rfl := Except.ok.inj h
      simp [lastWithId]
  | cons item items ih =>
      obtain ⟨next, hstep, hrest⟩ := Outcome.foldlM_cons_eq_ok_iff.mp h
      obtain ⟨artifact, hartifact, hstep⟩ := Outcome.bind_eq_ok_iff.mp hstep
      obtain ⟨id, hid, hstep⟩ := Outcome.bind_eq_ok_iff.mp hstep
      obtain rfl := Except.ok.inj hstep
      rw [ih hrest, lastWithId, lastWithId, List.reverse_cons, List.find?_append,
        Option.map_or, Option.or_assoc]
      congr 1
      by_cases hkey : key = id
      · simp [hid, hartifact, hkey, Except.toOption]
      · have hbeq : (key == id) = false := by simpa using hkey
        simp [hid, Except.toOption, List.lookup_cons, hbeq, Ne.symm hkey]

theorem ownArtifact_of_foldlM {items : List Json} {start artifacts : Artifacts}
    (h : items.foldlM (recordArtifact inputs) start = .ok artifacts) :
    ∀ item ∈ items, ∃ artifact, inputs.ownArtifact item = .ok artifact := by
  induction items generalizing start with
  | nil => simp
  | cons item items ih =>
      obtain ⟨next, hstep, hrest⟩ := Outcome.foldlM_cons_eq_ok_iff.mp h
      obtain ⟨artifact, hartifact, -⟩ := Outcome.bind_eq_ok_iff.mp hstep
      intro other hother
      rcases List.mem_cons.mp hother with rfl | htail
      · exact ⟨artifact, hartifact⟩
      · exact ih hrest other htail

end Artifacts

end AgenticSDLC.CiEvidenceCheck
