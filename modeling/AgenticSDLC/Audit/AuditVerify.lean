import AgenticSDLC.Audit.ChainCommitment
import AgenticSDLC.Foundations.Dict
import AgenticSDLC.Foundations.Lines
import AgenticSDLC.Foundations.Outcome

/-!
# The audit-chain verifier

`tools/audit_verify.py`: the rows of a chain, as dictionaries, walked in the order
of their sequence numbers.  It recomputes what `audit_log` recomputes, but it does
not ask that the numbers count up from 1.
-/

namespace AgenticSDLC.AuditVerify

open Python (Exception Stdlib)
open AuditLog (AuditEntry genesisPrevHash canonicalRow computeEntryHash sortedBySeq verifyFrom
  Numbered Intact intact_cons)
open HashChain (Linked)

abbrev Row := List (String × Json)

def field (row : Row) (name : String) : Except Exception Json :=
  match row.lookup name with
  | some value => .ok value
  | none => .error ⟨"ChainUnreadable", "row missing required field '" ++ name ++ "'"⟩

/-- `text.encode`, which only texts have. -/
def encoded : Json → Except Exception String
  | .str text => .ok text
  | value => .error (Python.noAttribute value "encode")

structure Verdict where
  ok : Bool
  brokenAt : Option ℕ
  count : ℕ
  brokenSeq : Option Json
  why : Option String
  deriving DecidableEq

section Verify

variable (py : Stdlib)

def rowCanonicalBytes (row : Row) : Except Exception String := do
  let seq ← field row "seq"
  let eventName ← field row "event_name"
  let toolName ← field row "tool_name"
  let decision ← field row "decision"
  let reason ← field row "reason"
  let requirementId ← field row "requirement_id"
  let actorAgent ← field row "actor_agent"
  let createdAt ← field row "created_at"
  return canonicalRow py seq eventName toolName decision reason requirementId actorAgent createdAt

def defaultGenesisPrevHash : String := py.sha256 ""

def genesisSentinels : List String := [defaultGenesisPrevHash py, genesisPrevHash]

def selectGenesis : List Row → Json
  | [] => .str (defaultGenesisPrevHash py)
  | row :: _ =>
      match field row "prev_hash" with
      | .ok firstPrev =>
          if (genesisSentinels py).any fun sentinel ↦ Python.eq firstPrev (.str sentinel) then
            firstPrev
          else .str (defaultGenesisPrevHash py)
      | .error _ => .str (defaultGenesisPrevHash py)

def walk (count : ℕ) : ℕ → Json → List Row → Except Exception Verdict
  | _, _, [] => .ok ⟨true, none, count, none, none⟩
  | index, prev, row :: rows => do
      let storedPrev ← field row "prev_hash"
      let storedEntry ← field row "entry_hash"
      let canonical ← rowCanonicalBytes py row
      let recomputed := computeEntryHash py canonical (← encoded storedPrev)
      if ¬Python.eq storedPrev prev then
        return ⟨false, some index, count, some (← field row "seq"), some "prev_hash mismatch"⟩
      else if ¬Python.eq storedEntry (.str recomputed) then
        return ⟨false, some index, count, some (← field row "seq"), some "entry_hash mismatch"⟩
      else walk count (index + 1) (.str recomputed) rows

def verifyChain (entries : List Row) (genesis : Option String) : Except Exception Verdict := do
  let keyed ← entries.mapM fun row ↦ do return (← field row "seq", row)
  let ordered := (← Python.sortByKey keyed).map Prod.snd
  let prev := match genesis with
    | some genesis => .str genesis
    | none => selectGenesis py ordered
  walk py entries.length 0 prev ordered

/-! ## Reading the rows -/

section Load

-- The floats of decimals, and the text of the error on a text that is no JSON.
variable (toFloat : String → Json) (decodeError : String → String)

def loadLines : ℕ → List (List Char) → Except Exception (List Json)
  | _, [] => .ok []
  | lineno, line :: lines => do
      let line := Python.strip (String.ofList line)
      if line = "" then loadLines (lineno + 1) lines
      else
        match Json.loads toFloat line with
        | some row => return row :: (← loadLines (lineno + 1) lines)
        | none => throw ⟨"ChainUnreadable",
            "line " ++ toString lineno ++ " is not valid JSON: " ++ decodeError line⟩

def checkObjects : ℕ → List Json → Except Exception (List Row)
  | _, [] => .ok []
  | i, row :: rows =>
      match row with
      | .obj members => do return members :: (← checkObjects (i + 1) rows)
      | _ => .error ⟨"ChainUnreadable", "row " ++ toString i ++ " is not a JSON object"⟩

def loadEntries (text : String) : Except Exception (List Row) := do
  let stripped := Python.strip text
  if stripped = "" then return []
  let rows ←
    if stripped.toList.head? = some '[' then
      match Json.loads toFloat stripped with
      | none => throw ⟨"ChainUnreadable", "chain is not valid JSON: " ++ decodeError stripped⟩
      | some (.arr rows) => pure rows
      | some _ => throw ⟨"ChainUnreadable", "top-level JSON must be an array of rows"⟩
    else loadLines toFloat decodeError 1 (Text.splitlines stripped.toList)
  checkObjects 0 rows

end Load

/-- The verdict is that the chain is in order. -/
def Ok (result : Except Exception Verdict) : Prop := ∃ verdict, result = .ok verdict ∧ verdict.ok = true

/-! ## Rows of entries -/

section Rows

-- Dictionaries of the entries, in whatever order of their keys.
variable {dict : AuditEntry → Row} (hdict : ∀ entry, field (dict entry) = field entry.asdict)
include hdict

theorem field_seq (entry : AuditEntry) : field (dict entry) "seq" = .ok (.int entry.seq) := by
  rw [hdict]
  rfl

theorem field_prevHash (entry : AuditEntry) :
    field (dict entry) "prev_hash" = .ok (.str entry.prevHash) := by
  rw [hdict]
  simp [field, AuditEntry.asdict, Dict.lookup_cons]

theorem field_entryHash (entry : AuditEntry) :
    field (dict entry) "entry_hash" = .ok (.str entry.entryHash) := by
  rw [hdict]
  simp [field, AuditEntry.asdict, Dict.lookup_cons]

theorem rowCanonicalBytes_dict (entry : AuditEntry) :
    rowCanonicalBytes py (dict entry) = .ok (entry.canonicalRow py) := by
  rw [rowCanonicalBytes, hdict]
  simp [field, AuditEntry.asdict, Dict.lookup_cons, AuditEntry.canonicalRow]

theorem ok_walk_iff {count index : ℕ} {start : String} {entries : List AuditEntry} :
    Ok (walk py count index (.str start) (entries.map dict)) ↔ Intact py start entries := by
  induction entries generalizing index start with
  | nil => exact ⟨fun _ ↦ ⟨trivial, by simp⟩, fun _ ↦ ⟨_, rfl, rfl⟩⟩
  | cons entry entries ih =>
      have hstep : walk py count index (.str start) ((entry :: entries).map dict) =
          if entry.prevHash ≠ start then
            .ok ⟨false, some index, count, some (.int entry.seq), some "prev_hash mismatch"⟩
          else if entry.entryHash ≠ entry.recomputed py then
            .ok ⟨false, some index, count, some (.int entry.seq), some "entry_hash mismatch"⟩
          else walk py count (index + 1) (.str (entry.recomputed py)) (entries.map dict) := by
        simp only [List.map_cons, walk, field_prevHash hdict, field_entryHash hdict,
          rowCanonicalBytes_dict py hdict, encoded, field_seq hdict, Outcome.ok_bind,
          Python.eq_str_iff, Json.str.injEq]
        rfl
      rw [hstep, intact_cons]
      by_cases hprev : entry.prevHash = start
      · by_cases hhash : entry.entryHash = entry.recomputed py
        · simp [hprev, ← hhash, ih]
        · simp [hprev, hhash, Ok]
      · simp [hprev, Ok]

theorem verifyChain_map (entries : List AuditEntry) (genesis : Option String) :
    verifyChain py (entries.map dict) genesis =
      walk py entries.length 0
        (match genesis with
          | some genesis => .str genesis
          | none => selectGenesis py ((sortedBySeq entries).map dict))
        ((sortedBySeq entries).map dict) := by
  have hkeyed : (entries.map dict).mapM (fun row ↦ do return (← field row "seq", row)) =
      .ok (entries.map fun entry ↦ (.int entry.seq, dict entry)) := by
    simp only [Outcome.mapM_map, field_seq hdict]
    exact (Outcome.mapM_map _ _ _).symm.trans (Outcome.mapM_ok _)
  rw [verifyChain, hkeyed, Outcome.ok_bind, Python.sortByKey_int, Outcome.ok_bind, List.map_map,
    List.length_map]
  rfl

/-- What `verify_chain` reports as ok, from a given genesis. -/
theorem ok_verifyChain_iff {entries : List AuditEntry} {genesis : String} :
    Ok (verifyChain py (entries.map dict) (some genesis)) ↔
      Intact py genesis (sortedBySeq entries) := by
  rw [verifyChain_map py hdict]
  exact ok_walk_iff py hdict

/-- Without a genesis the walk starts at some text, and at the in-memory log's when the
first row names that. -/
theorem selectGenesis_map (entries : List AuditEntry) :
    ∃ start, selectGenesis py (entries.map dict) = .str start ∧
      ((∀ first, entries.head? = some first → first.prevHash = genesisPrevHash) →
        entries ≠ [] → start = genesisPrevHash) := by
  cases entries with
  | nil => exact ⟨_, rfl, fun _ hne ↦ absurd rfl hne⟩
  | cons first entries =>
      by_cases hsentinel : (genesisSentinels py).any fun sentinel ↦
          Python.eq (.str first.prevHash) (.str sentinel)
      · refine ⟨first.prevHash, ?_, fun hfirst _ ↦ hfirst first rfl⟩
        rw [List.map_cons, selectGenesis, field_prevHash hdict]
        exact if_pos hsentinel
      · refine ⟨defaultGenesisPrevHash py, ?_, fun hfirst _ ↦ ?_⟩
        · rw [List.map_cons, selectGenesis, field_prevHash hdict]
          exact if_neg hsentinel
        · refine absurd ?_ hsentinel
          rw [hfirst first rfl]
          simp [genesisSentinels]

end Rows

/-- The verifiers give one verdict when the numbers count up from 1 or a link or a hash
is wrong, and only then. -/
theorem verifiers_agree_iff (entries : List AuditEntry) :
    (AuditLog.verifyChain py entries = true ↔
        Ok (verifyChain py (entries.map AuditEntry.asdict) (some genesisPrevHash))) ↔
      Numbered 1 (sortedBySeq entries) ∨ ¬Intact py genesisPrevHash (sortedBySeq entries) := by
  rw [AuditLog.verifyChain_eq_true_iff, ok_verifyChain_iff py fun _ ↦ rfl]
  constructor
  · intro hagree
    by_cases hintact : Intact py genesisPrevHash (sortedBySeq entries)
    · exact Or.inl (hagree.mpr hintact).1
    · exact Or.inr hintact
  · rintro (hnumbered | hbroken)
    · exact and_iff_right hnumbered
    · exact iff_of_false (fun h ↦ hbroken h.2) hbroken

end Verify

/-- What is left of a chain when its first entry is cut off and the second linked anew. -/
def cutEntry : AuditEntry :=
  { AuditLog.secondEntry with
    prevHash := genesisPrevHash
    entryHash := "af012f9991534a74e6d002e37b450f3eb843fd22ddb09c101e7a7eba7675f486" }

theorem cut_chain_accepted :
    ¬(AuditLog.verifyChain (AuditLog.tableStdlib [cutEntry]) [cutEntry] = true ↔
        Ok (verifyChain (AuditLog.tableStdlib [cutEntry]) ([cutEntry].map AuditEntry.asdict)
          (some genesisPrevHash))) := by
  have hintact : Intact (AuditLog.tableStdlib [cutEntry]) genesisPrevHash [cutEntry] := by
    refine ⟨⟨rfl, trivial⟩, fun entry hentry ↦ AuditLog.tableStdlib_recomputed ?_ hentry⟩
    intro one hone two htwo _ _
    rw [List.mem_singleton.mp hone, List.mem_singleton.mp htwo]
  intro hagree
  have haccepted := hagree.mpr ((ok_verifyChain_iff _ fun _ ↦ rfl).mpr hintact)
  have hseq := ((AuditLog.verifyChain_eq_true_iff _).mp haccepted).1.1
  simp [cutEntry, AuditLog.secondEntry] at hseq

end AgenticSDLC.AuditVerify
