import AgenticSDLC.Foundations.Matching
import AgenticSDLC.Foundations.Outcome
import AgenticSDLC.Foundations.Python

/-!
# The positive control of the canary

`assert_positive_path` of `tools/run_spine_canary.py`: the fires of the verifier are counted,
and one is enough for any number of proven items.
-/

namespace AgenticSDLC.SpineCanary

open Python (Exception)
open Matching
open Outcome (pure_eq throw_eq)

abbrev Fields := List (String × Json)

/-- `value if isinstance(value, dict) else None`. -/
def evidenceOf (row : Fields) : Option Fields := (Python.get row "evidence").object?

def fireEvidence (fireRow : Fields) : Fields :=
  match evidenceOf fireRow with
  | some ev => ev
  | none =>
      let containers := ["tool_input", "payload", "input"]
      (containers.findSome? fun container ↦
        (Python.get fireRow container).object?.bind evidenceOf).getD []

/-- The item is counted as a proven one. -/
def isProven (sliceId : Option String) (item : Fields) : Bool :=
  Python.get item "status" = .str "proven" &&
    Python.truthy (Python.getD item "in_scope" (.bool true)) &&
    sliceId.all fun id ↦ Python.get item "id" = .str id

def assertionError (detail : String) : Exception := ⟨"AssertionError", detail⟩

def provenItems (featureList : Json) (sliceId : Option String) : Except Exception (List Fields) := do
  match featureList with
  | .obj fields =>
      let items ← Python.iterate (Python.getD fields "items" (.arr []))
      return (Json.objects items).filter (isProven sliceId)
  | _ => return []

section Assertion

variable (repr : Json → String)

/-- The fire is one of a verifier, with two different sessions. -/
def qualifies (row : Json) : Bool :=
  match row with
  | .obj r =>
      let ev := fireEvidence r
      let agentType := Python.get r "agent_type"
      let actorAgent := Python.get r "actor_agent"
      let actor := Python.str repr (
        if Python.truthy agentType then agentType
        else if Python.truthy actorAgent then actorAgent
        else Python.getD ev "actor_agent" (.str ""))
      let vsid := Python.get ev "verifier_session_id"
      let isid := Python.get ev "implementer_session_id"
      actor = "verifier" && Python.truthy vsid && Python.truthy isid && !Python.eq vsid isid
  | _ => false

def assertPositivePath (fireRows : List Json) (featureList : Json) (sliceId : Option String) :
    Except Exception Unit := do
  let proven ← provenItems featureList sliceId
  if proven = [] then
    match sliceId with
    | some id => throw (assertionError ("positive path: slice " ++ repr (.str id) ++
        " never reached 'proven' — the verifier path did not close the canary slice"))
    | none => return ()
  else
    let qualifying := fireRows.countP (qualifies repr)
    if 1 ≤ qualifying then return ()
    else
      let ids := Json.arr (proven.map fun item ↦ Python.get item "id")
      throw (assertionError ("positive path: " ++ toString proven.length ++
        " in-scope item(s) are 'proven' (" ++ repr ids ++
        ") but NO qualifying verifier fire was found (need agent_type=='verifier' with distinct " ++
        "verifier/implementer sessions) — the item was not legitimately proven by an " ++
        "independent verifier"))

/-- If the assertion passes, the in-scope proven items are backed by different fires. -/
def BacksEveryItem (fireRows : List Json) (featureList : Json) : Prop :=
  assertPositivePath repr fireRows featureList none = .ok () →
    ∀ proven, provenItems featureList none = .ok proven →
      Matched (qualifies repr) proven fireRows

theorem assertPositivePath_eq_ok_iff {fireRows : List Json} {featureList : Json}
    {proven : List Fields} (h : provenItems featureList none = .ok proven) :
    assertPositivePath repr fireRows featureList none = .ok () ↔
      proven = [] ∨ 1 ≤ fireRows.countP (qualifies repr) := by
  rw [assertPositivePath, h]
  by_cases hproven : proven = []
  · simp [hproven, pure_eq]
  · by_cases hqualifying : 1 ≤ fireRows.countP (qualifies repr) <;>
      simp [hproven, hqualifying, pure_eq, throw_eq]

/-- One fire is as good as many: the items are backed if and only if there is no fire, or one
for each of them. -/
theorem backsEveryItem_iff (fireRows : List Json) (featureList : Json) :
    BacksEveryItem repr fireRows featureList ↔
      ∀ proven, provenItems featureList none = .ok proven →
        fireRows.countP (qualifies repr) = 0 ∨
          proven.length ≤ fireRows.countP (qualifies repr) := by
  simp only [BacksEveryItem, matched_iff]
  constructor
  · intro hbacked proven hproven
    rcases Nat.eq_zero_or_pos (fireRows.countP (qualifies repr)) with hnone | hsome
    · exact Or.inl hnone
    · right
      exact hbacked ((assertPositivePath_eq_ok_iff repr hproven).mpr (Or.inr hsome)) proven hproven
  · intro hcount hpassed proven hproven
    rcases (assertPositivePath_eq_ok_iff repr hproven).mp hpassed with hnone | hsome
    · exact hnone ▸ Nat.zero_le _
    · exact (hcount proven hproven).resolve_left (by omega)

end Assertion

def sampleFire : Json :=
  .obj [("hook_event", .str "SubagentStop"), ("agent_type", .str "verifier"),
    ("evidence", .obj [("actor_agent", .str "verifier"), ("verifier_session_id", .str "vses"),
      ("implementer_session_id", .str "ises")])]

def sampleItem (id : String) : Fields :=
  [("id", .str id), ("in_scope", .bool true), ("status", .str "proven")]

def sampleList (ids : List String) : Json :=
  .obj [("items", .arr (ids.map fun id ↦ .obj (sampleItem id)))]

def sampleRepr : Json → String
  | .str s => "'" ++ s ++ "'"
  | _ => "None"

theorem qualifies_sampleFire : qualifies sampleRepr sampleFire = true := by
  rfl

theorem provenItems_sampleList : provenItems (sampleList ["CANARY-001", "CANARY-002"]) none =
    .ok [sampleItem "CANARY-001", sampleItem "CANARY-002"] := by
  rfl

/-- One genuine fire vouches for a second item. -/
theorem one_fire_for_two_items :
    assertPositivePath sampleRepr [sampleFire] (sampleList ["CANARY-001", "CANARY-002"]) none =
        .ok () ∧
      ¬BacksEveryItem sampleRepr [sampleFire] (sampleList ["CANARY-001", "CANARY-002"]) := by
  have hcount : [sampleFire].countP (qualifies sampleRepr) = 1 := by
    rw [List.countP_singleton, if_pos qualifies_sampleFire]
  have hpassed : assertPositivePath sampleRepr [sampleFire]
      (sampleList ["CANARY-001", "CANARY-002"]) none = .ok () :=
    (assertPositivePath_eq_ok_iff sampleRepr provenItems_sampleList).mpr (Or.inr hcount.ge)
  refine ⟨hpassed, fun hbacked ↦ ?_⟩
  have hle := (hbacked hpassed _ provenItems_sampleList).length_le
  rw [hcount] at hle
  exact absurd hle (by decide)

end AgenticSDLC.SpineCanary
