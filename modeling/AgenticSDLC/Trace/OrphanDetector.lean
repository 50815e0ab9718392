import AgenticSDLC.Foundations.Outcome
import AgenticSDLC.Foundations.Python
import AgenticSDLC.Trace.ReqIdScan

/-!
# The orphan detector

`tools/orphan_detector.py`, the core without a diff: an implementation unit that names no
requirement is a forward orphan, and a requirement without a verification artifact is a
backward orphan.
-/

namespace AgenticSDLC.OrphanDetector

open Outcome Patterns
open Python (Exception)

/-- The fields of a unit or of a requirement. -/
abbrev Fields := List (String × Json)

/-- The library functions: `str` of a value that is no string, and the class `\w`. -/
structure Library where
  repr : Json → String
  word : ReqIdScan.WordClass

variable (lib : Library)

/-- `a or b`. -/
def orElse (a b : Json) : Json := if Python.truthy a then a else b

def notText (value : Json) : Exception :=
  ⟨"TypeError", "expected string or bytes-like object, got '" ++ Python.typeName value ++ "'"⟩

/-! ## Units -/

def implUnitRef (unit : Fields) : String :=
  let explicit := orElse (Python.get unit "ref") (Python.get unit "unit")
  let file := orElse (Python.get unit "file") (Python.get unit "path")
  let func := orElse (orElse (Python.get unit "function") (Python.get unit "name"))
    (Python.get unit "symbol")
  if Python.truthy explicit then Python.str lib.repr explicit
  else if Python.truthy file && Python.truthy func then
    Python.str lib.repr file ++ "::" ++ Python.str lib.repr func
  else Python.str lib.repr (orElse (orElse file func) (.str "<unknown-unit>"))

/-- `#\s*orphan-exempt:\s*\S+`. -/
def orphanExemptPattern : List (Item Char) :=
  [.one (· == '#'), .many Python.isspace] ++ literal "orphan-exempt:".toList ++
    [.many Python.isspace, .one (!Python.isspace ·), .many (!Python.isspace ·)]

def unitText (unit : Fields) : Json := orElse (Python.get unit "text") (Python.get unit "source")

def implUnitIsExempt (unit : Fields) : Except Exception Bool :=
  if Python.get unit "exempt" = .bool true ∨ Python.get unit "orphan_exempt" = .bool true then
    .ok true
  else if Python.truthy
      (orElse (Python.get unit "exempt_reason") (Python.get unit "orphan_exempt_reason")) then
    .ok true
  else
    match orElse (unitText unit) (.str "") with
    | .str text => .ok (search orphanExemptPattern text.toList)
    | value => .error (notText value)

/-- The ids under one of the plural keys. -/
def listedIds (value : Json) : List String :=
  match value with
  | .arr items => items.map (Python.str lib.repr)
  | .str s => if s = "" then [] else [s]
  | _ => []

def scannedIds (text : Json) : Except Exception (List String) :=
  if Python.truthy text then
    match text with
    | .str text => .ok (ReqIdScan.scanReqIds lib.word text)
    | value => .error (notText value)
  else .ok []

def implUnitReqIds (unit : Fields) : Except Exception (List String) := do
  let single := Python.get unit "requirement_id"
  let declared := (if Python.truthy single then [Python.str lib.repr single] else []) ++
    ["requirement_ids", "requirements", "req_ids"].flatMap fun key ↦
      listedIds lib (Python.get unit key)
  let ids := declared ++ (← scannedIds lib (unitText unit))
  let wellFormed := ids.filter fun id ↦
    fullmatch (ReqIdScan.reqIdPattern lib.word.isWord) id.toList
  return (Dict.ofFirst (wellFormed.map fun id ↦ (id, ()))).map Prod.fst

/-! ## Requirements -/

def requirementId (req : Fields) : Option String :=
  let id := orElse (Python.get req "id") (Python.get req "requirement_id")
  if Python.truthy id then some (Python.str lib.repr id) else none

/-- `str(value).lower() in ("test", "evidence")`; no other letter has a small one of these as its
lower case. -/
def isArtifactType (value : Json) : Bool :=
  Text.asciiLower (Python.str lib.repr value) ∈ ["test", "evidence"]

def linkCounts : Json → Bool
  | .obj link => isArtifactType lib (Python.getD link "link_type" (.str ""))
  | value => isArtifactType lib value

def hasEvidence (evidence : Json) : Bool :=
  match evidence with
  | .obj members => !members.isEmpty
  | .arr items => !items.isEmpty
  | _ => false

/-- What `_requirement_has_artifact` asks of a requirement that no unit references. -/
def ownArtifact (req : Fields) : Except Exception Bool :=
  if Python.truthy (Python.get req "has_artifact") || Python.truthy (Python.get req "verified") then
    .ok true
  else if hasEvidence (Python.get req "evidence") then .ok true
  else do
    let links ← Python.iterate (orElse (Python.getD req "traceability_links" (.arr [])) (.arr []))
    return links.any (linkCounts lib) || Python.truthy (Python.get req "evidence_records")

def requirementHasArtifact (req : Fields) (referencedIds : List String) : Except Exception Bool :=
  if ∃ id ∈ requirementId lib req, id ∈ referencedIds then .ok true else ownArtifact lib req

/-! ## The two passes -/

/-- An id that the model does not have; the ids of wiring findings are not asked for. -/
def isDangling (knownIds : List String) (id : String) : Bool :=
  !knownIds.isEmpty && !"REQ-WIRE".toList.isPrefixOf id.toList && id ∉ knownIds

/-- A unit without an id is an orphan unless it is exempt. -/
def unreferenced (unit : Fields) (unitIds : List String) : Except Exception (List String) :=
  if unitIds.isEmpty then do
    let exempt ← implUnitIsExempt unit
    return if exempt then [] else [implUnitRef lib unit]
  else .ok []

/-- The orphans that one unit adds, and the ids it references. -/
def forwardUnit (knownIds : List String) (unit : Fields) :
    Except Exception (List String × List String) := do
  let unitIds ← implUnitReqIds lib unit
  let dangling := (unitIds.filter (isDangling knownIds)).map fun id ↦
    implUnitRef lib unit ++ " [dangling-ref: " ++ id ++ " not in model]"
  let orphan ← unreferenced lib unit unitIds
  return (dangling ++ orphan, unitIds)

def forwardPass (implUnits : List Fields) (knownIds : List String) :
    Except Exception (List String × List String) := do
  let passed ← implUnits.mapM (forwardUnit lib knownIds)
  return (passed.flatMap Prod.fst, passed.flatMap Prod.snd)

def backwardRequirement (referencedIds : List String) (req : Fields) :
    Except Exception (Option String) :=
  match requirementId lib req with
  | none => .ok none
  | some id => do
      let found ← requirementHasArtifact lib req referencedIds
      return if found then none else some id

def backwardPass (requirements : List Fields) (referencedIds : List String) :
    Except Exception (List String) := do
  let passed ← requirements.mapM (backwardRequirement lib referencedIds)
  return passed.filterMap id

structure DanglingRef where
  unit : String
  message : String
  deriving DecidableEq

/-- The report; the last three fields are those that only the diff-aware mode adds. -/
structure Report where
  forwardOrphans : List String
  backwardOrphans : List String
  ok : Bool
  error : Option String := none
  baselineFallbackReason : Option String := none
  danglingRefs : List (String × DanglingRef) := []
  deriving DecidableEq

def detectOrphans (implUnits requirements : List Fields) (knownIds : List String) :
    Except Exception Report := do
  let (forwardOrphans, referencedIds) ← forwardPass lib implUnits knownIds
  let backwardOrphans ← backwardPass lib requirements referencedIds
  return { forwardOrphans := forwardOrphans
           backwardOrphans := backwardOrphans
           ok := forwardOrphans.isEmpty && backwardOrphans.isEmpty }

/-! ## What is reported -/

variable {lib}

/-- The unit names the requirement. -/
def Cites (lib : Library) (unit : Fields) (id : String) : Prop :=
  ∃ ids, implUnitReqIds lib unit = .ok ids ∧ id ∈ ids

theorem ids_of_forwardUnit {knownIds : List String} {unit : Fields}
    {out : List String × List String} (h : forwardUnit lib knownIds unit = .ok out) :
    implUnitReqIds lib unit = .ok out.2 := by
  obtain ⟨ids, hids, hrest⟩ := bind_eq_ok_iff.mp h
  obtain ⟨orphan, -, hout⟩ := bind_eq_ok_iff.mp hrest
  obtain rfl := Except.ok.inj hout
  exact hids

theorem forwardPass_spec {units : List Fields} {knownIds orphans referenced : List String}
    (h : forwardPass lib units knownIds = .ok (orphans, referenced)) :
    (∀ orphan, orphan ∈ orphans ↔
      ∃ unit ∈ units, ∃ out, forwardUnit lib knownIds unit = .ok out ∧ orphan ∈ out.1) ∧
    ∀ id, id ∈ referenced ↔ ∃ unit ∈ units, Cites lib unit id := by
  obtain ⟨passed, hpassed, hout⟩ := bind_eq_ok_iff.mp h
  obtain ⟨rfl, rfl⟩ := Prod.mk.inj (Except.ok.inj hout)
  have heach := exists_of_mapM_eq_ok hpassed
  have hall := exists_of_mem_mapM hpassed
  constructor
  · intro orphan
    rw [List.mem_flatMap]
    constructor
    · rintro ⟨out, hmem, horphan⟩
      obtain ⟨unit, hunit, hforward⟩ := hall out hmem
      exact ⟨unit, hunit, out, hforward, horphan⟩
    · rintro ⟨unit, hunit, out, hforward, horphan⟩
      obtain ⟨out', hmem, hforward'⟩ := heach unit hunit
      obtain rfl := Except.ok.inj (hforward.symm.trans hforward')
      exact ⟨out, hmem, horphan⟩
  · intro id
    rw [List.mem_flatMap]
    constructor
    · rintro ⟨out, hmem, hid⟩
      obtain ⟨unit, hunit, hforward⟩ := hall out hmem
      exact ⟨unit, hunit, out.2, ids_of_forwardUnit hforward, hid⟩
    · rintro ⟨unit, hunit, ids, hids, hid⟩
      obtain ⟨out, hmem, hforward⟩ := heach unit hunit
      obtain rfl := Except.ok.inj (hids.symm.trans (ids_of_forwardUnit hforward))
      exact ⟨out, hmem, hid⟩

theorem requirementHasArtifact_eq_false_iff {req : Fields} {id : String}
    (hid : requirementId lib req = some id) (referenced : List String) :
    requirementHasArtifact lib req referenced = .ok false ↔
      id ∉ referenced ∧ ownArtifact lib req = .ok false := by
  rw [requirementHasArtifact, hid]
  by_cases hreferenced : id ∈ referenced <;> simp [hreferenced]

theorem backwardRequirement_eq_some_iff {req : Fields} {id : String} {referenced : List String} :
    backwardRequirement lib referenced req = .ok (some id) ↔
      requirementId lib req = some id ∧ id ∉ referenced ∧ ownArtifact lib req = .ok false := by
  cases hid : requirementId lib req with
  | none => simp [backwardRequirement, hid]
  | some other =>
      have hfalse := requirementHasArtifact_eq_false_iff hid referenced
      rw [backwardRequirement, hid]
      cases hfound : requirementHasArtifact lib req referenced with
      | error exc =>
          rw [hfound] at hfalse
          simp only [reduceCtorEq, false_iff] at hfalse
          constructor
          · exact fun h ↦ nomatch h
          · rintro ⟨heq, hrest⟩
            exact absurd (Option.some.inj heq ▸ hrest) hfalse
      | ok found =>
          rw [hfound, Except.ok.injEq] at hfalse
          cases found with
          | true =>
              simp only [Bool.true_eq_false, false_iff] at hfalse
              constructor
              · exact fun h ↦ nomatch h
              · rintro ⟨heq, hrest⟩
                exact absurd (Option.some.inj heq ▸ hrest) hfalse
          | false =>
              have hrest := hfalse.mp rfl
              constructor
              · intro h
                obtain rfl : other = id := Option.some.inj (Except.ok.inj h)
                exact ⟨rfl, hrest⟩
              · rintro ⟨heq, -⟩
                rw [Option.some.inj heq]
                rfl

theorem backwardPass_spec {requirements : List Fields} {referenced orphans : List String}
    (h : backwardPass lib requirements referenced = .ok orphans) (id : String) :
    id ∈ orphans ↔ ∃ req ∈ requirements, requirementId lib req = some id ∧ id ∉ referenced ∧
      ownArtifact lib req = .ok false := by
  obtain ⟨passed, hpassed, hout⟩ := bind_eq_ok_iff.mp h
  obtain rfl := Except.ok.inj hout
  simp only [List.mem_filterMap, id_eq, exists_eq_right, ← backwardRequirement_eq_some_iff]
  constructor
  · exact exists_of_mem_mapM hpassed (some id)
  · rintro ⟨req, hreq, hbackward⟩
    obtain ⟨found, hmem, hfound⟩ := exists_of_mapM_eq_ok hpassed req hreq
    rwa [Except.ok.inj (hbackward.symm.trans hfound)]

/-- A requirement that no unit names and that has no artifact of its own. -/
def Unproved (lib : Library) (units : List Fields) (req : Fields) (id : String) : Prop :=
  requirementId lib req = some id ∧ (¬ ∃ unit ∈ units, Cites lib unit id) ∧
    ownArtifact lib req = .ok false

/-- The forward orphans come from the units one by one; a backward orphan is a requirement that
no unit at all names. -/
theorem detectOrphans_spec {units requirements : List Fields} {knownIds : List String}
    {report : Report} (h : detectOrphans lib units requirements knownIds = .ok report) :
    (∀ orphan, orphan ∈ report.forwardOrphans ↔
      ∃ unit ∈ units, ∃ out, forwardUnit lib knownIds unit = .ok out ∧ orphan ∈ out.1) ∧
    ∀ id, id ∈ report.backwardOrphans ↔ ∃ req ∈ requirements, Unproved lib units req id := by
  obtain ⟨⟨orphans, referenced⟩, hforward, hrest⟩ := bind_eq_ok_iff.mp h
  obtain ⟨backward, hbackward, hreport⟩ := bind_eq_ok_iff.mp hrest
  obtain rfl := Except.ok.inj hreport
  obtain ⟨horphans, hreferenced⟩ := forwardPass_spec hforward
  refine ⟨horphans, fun id ↦ ?_⟩
  rw [backwardPass_spec hbackward]
  simp only [Unproved, hreferenced]

end AgenticSDLC.OrphanDetector
