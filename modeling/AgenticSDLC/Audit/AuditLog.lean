import AgenticSDLC.Foundations.HashChain
import AgenticSDLC.Foundations.JsonAscii

/-!
# The audit log

`tools/audit_log.py`: gate decisions as a chain of entries, each with the hash of
its canonical row and of the entry before it.  The entries are kept in memory, and
each is mirrored as a line of a file.
-/

namespace AgenticSDLC.AuditLog

open Python (Exception Stdlib)
open HashChain (Linked)

def genesisPrevHash : String := String.ofList (List.replicate 64 '0')

theorem toList_genesisPrevHash : genesisPrevHash.toList = List.replicate 64 '0' :=
  String.toList_ofList

def allowedDecisions : List String := ["allow", "block"]

structure AuditEntry where
  seq : ℤ
  eventName : String
  toolName : Option String
  decision : String
  reason : Option String
  requirementId : Option String
  actorAgent : String
  createdAt : String
  prevHash : String
  entryHash : String
  deriving DecidableEq

/-- A nullable text column. -/
def nullable : Option String → Json
  | none => .null
  | some text => .str text

section Hash

variable (py : Stdlib)

def canonicalRow (seq eventName toolName decision reason requirementId actorAgent
    createdAt : Json) : String :=
  Json.asciiDumps py.repr (.obj [("seq", seq), ("event_name", eventName), ("tool_name", toolName),
    ("decision", decision), ("reason", reason), ("requirement_id", requirementId),
    ("actor_agent", actorAgent), ("created_at", createdAt)])

def computeEntryHash (canonicalRow prevHash : String) : String := py.sha256 (canonicalRow ++ prevHash)

def AuditEntry.canonicalRow (entry : AuditEntry) : String :=
  AuditLog.canonicalRow py (.int entry.seq) (.str entry.eventName) (nullable entry.toolName)
    (.str entry.decision) (nullable entry.reason) (nullable entry.requirementId)
    (.str entry.actorAgent) (.str entry.createdAt)

/-- The hash that the entry ought to have. -/
def AuditEntry.recomputed (entry : AuditEntry) : String :=
  computeEntryHash py (entry.canonicalRow py) entry.prevHash

/-! ## Appending -/

/-- The arguments of `append`. -/
structure Decision where
  event : String
  tool : Option String
  decision : String
  reason : Option String
  requirementId : Option String
  actorAgent : String

def Decision.check (args : Decision) : Except Exception Unit := do
  if args.event = "" then throw ⟨"ValueError", "audit append requires a non-empty 'event'"⟩
  if args.actorAgent = "" then
    throw ⟨"ValueError", "audit append requires a non-empty 'actor_agent'"⟩
  if args.decision ∉ allowedDecisions then
    throw ⟨"ValueError", "audit 'decision' must be one of ('allow', 'block'), got " ++
      py.repr (.str args.decision)⟩

def tipHash (entries : List AuditEntry) : String :=
  (entries.getLast?.map AuditEntry.entryHash).getD genesisPrevHash

/-- The entry that `append` makes of its arguments and the entries before. -/
def nextEntry (entries : List AuditEntry) (args : Decision) (now : String) : AuditEntry :=
  let entry : AuditEntry := ⟨entries.length + 1, args.event, args.tool, args.decision, args.reason,
    args.requirementId, args.actorAgent, now, tipHash entries, ""⟩
  { entry with entryHash := entry.recomputed py }

def append (entries : List AuditEntry) (args : Decision) (now : String) :
    Except Exception AuditEntry := do
  args.check py
  return nextEntry py entries args now

/-- `asdict(entry)`. -/
def AuditEntry.asdict (entry : AuditEntry) : List (String × Json) :=
  [("seq", .int entry.seq), ("event_name", .str entry.eventName),
    ("tool_name", nullable entry.toolName), ("decision", .str entry.decision),
    ("reason", nullable entry.reason), ("requirement_id", nullable entry.requirementId),
    ("actor_agent", .str entry.actorAgent), ("created_at", .str entry.createdAt),
    ("prev_hash", .str entry.prevHash), ("entry_hash", .str entry.entryHash)]

/-- The line that `_mirror_to_file` appends, without the end of the line. -/
def mirrorLine (entry : AuditEntry) : String := Json.asciiDumps py.repr (.obj entry.asdict)

/-! ## Verification -/

def sortedBySeq (entries : List AuditEntry) : List AuditEntry :=
  entries.insertionSort fun entry other ↦ entry.seq ≤ other.seq

def verifyFrom : ℕ → String → List AuditEntry → Bool
  | _, _, [] => true
  | expectedSeq, prev, entry :: entries =>
      if entry.seq ≠ expectedSeq then false
      else if entry.prevHash ≠ prev then false
      else if entry.entryHash ≠ entry.recomputed py then false
      else verifyFrom (expectedSeq + 1) entry.entryHash entries

def verifyChain (entries : List AuditEntry) : Bool :=
  verifyFrom py 1 genesisPrevHash (sortedBySeq entries)

/-- The sequence numbers count up from `n`. -/
def Numbered : ℕ → List AuditEntry → Prop
  | _, [] => True
  | n, entry :: entries => entry.seq = n ∧ Numbered (n + 1) entries

/-- Every entry names the one before it, and has the hash of its own row. -/
structure Intact (start : String) (entries : List AuditEntry) : Prop where
  linked : Linked AuditEntry.prevHash AuditEntry.entryHash start entries
  hashed : ∀ entry ∈ entries, entry.entryHash = entry.recomputed py

theorem intact_cons {start : String} {entry : AuditEntry} {entries : List AuditEntry} :
    Intact py start (entry :: entries) ↔
      entry.prevHash = start ∧ entry.entryHash = entry.recomputed py ∧
        Intact py entry.entryHash entries := by
  constructor
  · rintro ⟨⟨hprev, hlinked⟩, hhashed⟩
    exact ⟨hprev, hhashed entry List.mem_cons_self,
      ⟨hlinked, fun other hother ↦ hhashed other (List.mem_cons_of_mem entry hother)⟩⟩
  · rintro ⟨hprev, hhash, hlinked, hhashed⟩
    refine ⟨⟨hprev, hlinked⟩, fun other hother ↦ ?_⟩
    rcases List.mem_cons.mp hother with rfl | htail
    · exact hhash
    · exact hhashed other htail

theorem verifyFrom_eq_true_iff {n : ℕ} {start : String} {entries : List AuditEntry} :
    verifyFrom py n start entries = true ↔ Numbered n entries ∧ Intact py start entries := by
  induction entries generalizing n start with
  | nil => exact ⟨fun _ ↦ ⟨trivial, trivial, by simp⟩, fun _ ↦ rfl⟩
  | cons entry entries ih =>
      rw [intact_cons, verifyFrom]
      by_cases hseq : entry.seq = n
      · by_cases hprev : entry.prevHash = start
        · by_cases hhash : entry.entryHash = entry.recomputed py
          · simp [hseq, hprev, ← hhash, ih, Numbered]
          · simp [hseq, hprev, hhash]
        · simp [hseq, hprev]
      · simp [hseq, Numbered]

/-- What `verify_chain` accepts. -/
theorem verifyChain_eq_true_iff {entries : List AuditEntry} :
    verifyChain py entries = true ↔
      Numbered 1 (sortedBySeq entries) ∧ Intact py genesisPrevHash (sortedBySeq entries) :=
  verifyFrom_eq_true_iff py

end Hash

end AgenticSDLC.AuditLog
