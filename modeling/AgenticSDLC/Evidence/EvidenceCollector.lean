import AgenticSDLC.Foundations.Python

/-!
# Evidence records

`tools/evidence_collector.py`: the record of a verification and the validator
that the gates share.
-/

namespace AgenticSDLC.EvidenceCollector

open Python (Stdlib)

def requiredFields : List String :=
  ["test_file", "test_name", "output_hash", "collected_at"]

def isLowerHex (c : Char) : Bool :=
  ('a' ≤ c && c ≤ 'f') || ('0' ≤ c && c ≤ '9')

/-- `OUTPUT_HASH_PATTERN.match(text)`.  In Python `$` also matches before a
final line feed. -/
def outputHashMatches (text : String) : Bool :=
  let cs := text.toList
  let hex := (cs.drop 7).take 64
  cs.take 7 = "sha256:".toList && hex.length = 64 && hex.all isLowerHex &&
    (cs.drop 71 = [] || cs.drop 71 = ['\n'])

variable (py : Stdlib)

def collect (testFile testName output now : String) : List (String × Json) :=
  [("test_file", .str testFile), ("test_name", .str testName),
    ("output_hash", .str ("sha256:" ++ py.sha256 output)), ("collected_at", .str now)]

def fieldPresent (record : List (String × Json)) (field : String) : Bool :=
  match Python.get record field with
  | .str value => Python.strip value != ""
  | _ => false

def validateEvidenceRecord (record : Json) : Bool :=
  match record with
  | .obj members =>
      requiredFields.all (fieldPresent members) &&
        match Python.get members "output_hash", Python.get members "collected_at" with
        | .str outputHash, .str collectedAt =>
            outputHashMatches outputHash && py.fromisoformat collectedAt = some true
        | _, _ => false
  | _ => false

theorem exists_of_validateEvidenceRecord {record : Json}
    (h : validateEvidenceRecord py record = true) : ∃ members, record = .obj members := by
  cases record with
  | obj members => exact ⟨members, rfl⟩
  | _ => simp [validateEvidenceRecord] at h

end AgenticSDLC.EvidenceCollector
