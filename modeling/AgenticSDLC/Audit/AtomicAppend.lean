import AgenticSDLC.Audit.MirrorFile

/-!
# Appends that raise

`append` takes what its caller passes, checks three of the arguments and serialises all of
them before it touches the log.  The entry then goes to memory first and to the file after
that, so a write that fails leaves an entry in memory that the file does not hold.
-/

namespace AgenticSDLC.AuditLog

open Python (Exception Stdlib)
open Runs

/-- An argument of a call: a value of JSON, or an object that `json.dumps` refuses. -/
inductive Argument where
  | json (value : Json)
  | object (typeName repr : String)

structure Arguments where
  event : Argument
  tool : Argument
  decision : Argument
  reason : Argument
  requirementId : Argument
  actorAgent : Argument

/-- The arguments of an append that goes through. -/
structure Fields where
  event : String
  tool : Json
  decision : String
  reason : Json
  requirementId : Json
  actorAgent : String

def Argument.repr (py : Stdlib) : Argument → String
  | .json value => py.repr value
  | .object _ text => text

def Argument.serialised : Argument → Except Exception Json
  | .json value => .ok value
  | .object typeName _ =>
      .error ⟨"TypeError", "Object of type " ++ typeName ++ " is not JSON serializable"⟩

/-- A non-empty text. -/
def Argument.required (name : String) : Argument → Except Exception String
  | .json (.str text) =>
      if text = "" then .error ⟨"ValueError", "audit append requires a non-empty '" ++ name ++ "'"⟩
      else .ok text
  | _ => .error ⟨"ValueError", "audit append requires a non-empty '" ++ name ++ "'"⟩

def notAllowed (py : Stdlib) (decision : Argument) : Exception :=
  ⟨"ValueError", "audit 'decision' must be one of ('allow', 'block'), got " ++ decision.repr py⟩

def Argument.allowed (py : Stdlib) : Argument → Except Exception String
  | .json (.str text) =>
      if text ∈ allowedDecisions then .ok text else .error (notAllowed py (.json (.str text)))
  | argument => .error (notAllowed py argument)

/-- The checks of `append`, and the fields by the order of the keys in the canonical row. -/
def Arguments.fields (py : Stdlib) (args : Arguments) : Except Exception Fields := do
  let event ← args.event.required "event"
  let actorAgent ← args.actorAgent.required "actor_agent"
  let decision ← args.decision.allowed py
  let reason ← args.reason.serialised
  let requirementId ← args.requirementId.serialised
  let tool ← args.tool.serialised
  return ⟨event, tool, decision, reason, requirementId, actorAgent⟩

/-- An entry whose nullable columns hold any value of JSON. -/
structure RawEntry where
  seq : ℤ
  eventName : String
  toolName : Json
  decision : String
  reason : Json
  requirementId : Json
  actorAgent : String
  createdAt : String
  prevHash : String
  entryHash : String

def RawEntry.asdict (entry : RawEntry) : List (String × Json) :=
  [("seq", .int entry.seq), ("event_name", .str entry.eventName), ("tool_name", entry.toolName),
    ("decision", .str entry.decision), ("reason", entry.reason),
    ("requirement_id", entry.requirementId), ("actor_agent", .str entry.actorAgent),
    ("created_at", .str entry.createdAt), ("prev_hash", .str entry.prevHash),
    ("entry_hash", .str entry.entryHash)]

/-- A log with its mirror file. -/
structure Log where
  entries : List RawEntry
  file : String

def Log.tipHash (log : Log) : String :=
  (log.entries.getLast?.map RawEntry.entryHash).getD genesisPrevHash

/-- A call of `append`, with the time it reads and the error of its write to the file, if
that fails. -/
structure Append where
  args : Arguments
  now : String
  fault : Option Exception

namespace Log

variable (py : Stdlib)

def nextEntry (log : Log) (fields : Fields) (now : String) : RawEntry :=
  let row := canonicalRow py (.int (log.entries.length + 1)) (.str fields.event) fields.tool
    (.str fields.decision) fields.reason fields.requirementId (.str fields.actorAgent) (.str now)
  ⟨log.entries.length + 1, fields.event, fields.tool, fields.decision, fields.reason,
    fields.requirementId, fields.actorAgent, now, log.tipHash, computeEntryHash py row log.tipHash⟩

/-- The line of an entry in the file. -/
def line (entry : RawEntry) : String := Json.asciiDumps py.repr (.obj entry.asdict) ++ "\n"

def append (log : Log) (call : Append) : Except Exception RawEntry × Log :=
  match call.args.fields py with
  | .error exc => (.error exc, log)
  | .ok fields =>
      let entry := log.nextEntry py fields call.now
      let entries := log.entries ++ [entry]
      match call.fault with
      | some exc => (.error exc, { log with entries := entries })
      | none => (.ok entry, ⟨entries, log.file ++ line py entry⟩)

def run (log : Log) (calls : List Append) : Log :=
  calls.foldl (fun log call ↦ (log.append py call).2) log

/-- The text of a file that holds the entries. -/
def fileText : List RawEntry → String
  | [] => ""
  | entry :: entries => line py entry ++ fileText entries

/-- The file holds the entries of the log, and nothing else. -/
def Mirrors (log : Log) : Prop := log.file = fileText py log.entries

/-- The call changes nothing where it raises. -/
def Atomic (log : Log) (call : Append) : Prop :=
  ∀ exc, (log.append py call).1 = .error exc → (log.append py call).2 = log

/-- The arguments pass the checks, and all of them can be serialised. -/
def Accepted (args : Arguments) : Prop := ∃ fields, args.fields py = .ok fields

theorem fileText_append_singleton (entries : List RawEntry) (entry : RawEntry) :
    fileText py (entries ++ [entry]) = fileText py entries ++ line py entry := by
  induction entries with
  | nil => simp [fileText]
  | cons first entries ih => rw [List.cons_append, fileText, ih, fileText, String.append_assoc]

/-- A call is atomic just when its write does not fail behind its checks. -/
theorem atomic_iff (log : Log) (call : Append) :
    Atomic py log call ↔ (Accepted py call.args → call.fault = none) := by
  cases hfields : call.args.fields py with
  | error exc =>
      refine iff_of_true (fun other _ ↦ ?_) ?_
      · rw [append, hfields]
      · rintro ⟨fields, hok⟩
        rw [hok] at hfields
        cases hfields
  | ok fields =>
      cases hfault : call.fault with
      | none =>
          refine iff_of_true (fun exc hraise ↦ ?_) fun _ ↦ rfl
          simp only [append, hfields, hfault] at hraise
          cases hraise
      | some exc =>
          refine iff_of_false (fun hatomic ↦ ?_) fun h ↦ ?_
          · have hlog := hatomic exc (by simp only [append, hfields, hfault])
            have hlength := congrArg (fun log ↦ log.entries.length) hlog
            simp [append, hfields, hfault] at hlength
          · cases h ⟨fields, hfields⟩

theorem mirrors_append {log : Log} (hmirrors : Mirrors py log) {call : Append}
    (h : Accepted py call.args → call.fault = none) : Mirrors py (log.append py call).2 := by
  rw [append]
  cases hfields : call.args.fields py with
  | error exc => exact hmirrors
  | ok fields =>
      simp only [h ⟨fields, hfields⟩]
      rw [Mirrors, fileText_append_singleton, ← hmirrors]

theorem run_append_singleton (log : Log) (calls : List Append) (call : Append) :
    log.run py (calls ++ [call]) = ((log.run py calls).append py call).2 := List.foldl_append

/-- In a sequence of appends no failed one changes the log, and the file mirrors the entries
after each, as long as no write fails behind the checks. -/
theorem appends_atomic_iff {log : Log} (hmirrors : Mirrors py log) (calls : List Append) :
    (EachStep (fun before call ↦ Atomic py (log.run py before) call) calls ∧
        EachPoint (fun before ↦ Mirrors py (log.run py before)) calls) ↔
      ∀ call ∈ calls, Accepted py call.args → call.fault = none := by
  constructor
  · rintro ⟨hatomic, -⟩ call hcall
    obtain ⟨before, after, hcalls⟩ := List.append_of_mem hcall
    exact (atomic_iff py _ call).mp (hatomic before call after hcalls)
  · intro h
    have hstep : EachStep (fun _ call ↦ Accepted py call.args → call.fault = none) calls := by
      rintro before call after rfl
      exact h call (List.mem_append_right _ List.mem_cons_self)
    refine ⟨fun before call after hcalls ↦ ?_, ?_⟩
    · exact (atomic_iff py _ call).mpr (hstep before call after hcalls)
    · refine eachPoint_of_eachStep hmirrors (fun before call hbefore hwritten ↦ ?_) hstep
      rw [run_append_singleton]
      exact mirrors_append py hbefore hwritten

/-! ## A file behind its log -/

/-- The file is shorter than the text of the entries. -/
def Lags (log : Log) : Prop := log.file.length < (fileText py log.entries).length

theorem length_line_pos (entry : RawEntry) : 0 < (line py entry).length := by
  rw [line, String.length_append]
  exact Nat.add_pos_right _ (by decide)

theorem not_mirrors_of_lags {log : Log} (h : Lags py log) : ¬Mirrors py log := by
  intro hmirrors
  rw [Lags, ← hmirrors] at h
  exact lt_irrefl _ h

/-- The file stays behind, whatever is appended. -/
theorem lags_append {log : Log} (h : Lags py log) (call : Append) :
    Lags py (log.append py call).2 := by
  rw [Lags] at h
  rw [append]
  cases call.args.fields py with
  | error exc => exact h
  | ok fields =>
      cases call.fault with
      | some exc =>
          simp only [Lags, fileText_append_singleton, String.length_append]
          omega
      | none =>
          simp only [Lags, fileText_append_singleton, String.length_append]
          omega

/-- A write that fails behind the checks leaves the file behind. -/
theorem lags_of_fault {log : Log} (hmirrors : Mirrors py log) {call : Append}
    (haccepted : Accepted py call.args) (hfault : call.fault ≠ none) :
    Lags py (log.append py call).2 := by
  obtain ⟨fields, hfields⟩ := haccepted
  obtain ⟨exc, hexc⟩ := Option.ne_none_iff_exists'.mp hfault
  simp only [append, hfields, hexc, Lags, fileText_append_singleton, String.length_append]
  rw [hmirrors]
  have hpos := length_line_pos py (log.nextEntry py fields call.now)
  omega

end Log

/-! ## Arguments that are texts -/

section Texts

variable (py : Stdlib)

def Decision.arguments (args : Decision) : Arguments where
  event := .json (.str args.event)
  tool := .json (nullable args.tool)
  decision := .json (.str args.decision)
  reason := .json (nullable args.reason)
  requirementId := .json (nullable args.requirementId)
  actorAgent := .json (.str args.actorAgent)

def Decision.fields (args : Decision) : Fields where
  event := args.event
  tool := nullable args.tool
  decision := args.decision
  reason := nullable args.reason
  requirementId := nullable args.requirementId
  actorAgent := args.actorAgent

def AuditEntry.raw (entry : AuditEntry) : RawEntry where
  seq := entry.seq
  eventName := entry.eventName
  toolName := nullable entry.toolName
  decision := entry.decision
  reason := nullable entry.reason
  requirementId := nullable entry.requirementId
  actorAgent := entry.actorAgent
  createdAt := entry.createdAt
  prevHash := entry.prevHash
  entryHash := entry.entryHash

theorem fields_arguments (args : Decision) :
    args.arguments.fields py = (args.check py).map fun _ ↦ args.fields := by
  simp only [Arguments.fields, Decision.arguments, Argument.required, Argument.allowed,
    Argument.serialised]
  rw [Decision.check]
  by_cases hevent : args.event = ""
  · rw [if_pos hevent, if_pos hevent]
    rfl
  · rw [if_neg hevent, if_neg hevent]
    by_cases hactor : args.actorAgent = ""
    · rw [if_pos hactor, if_pos hactor]
      rfl
    · rw [if_neg hactor, if_neg hactor]
      by_cases hallowed : args.decision ∈ allowedDecisions
      · rw [if_pos hallowed, if_neg (not_not_intro hallowed)]
        rfl
      · rw [if_neg hallowed, if_pos hallowed]
        rfl

theorem tipHash_raw (entries : List AuditEntry) (file : String) :
    Log.tipHash ⟨entries.map AuditEntry.raw, file⟩ = tipHash entries := by
  rw [Log.tipHash, List.getLast?_map, Option.map_map]
  rfl

/-- On texts, an append that is written makes the entry of the typed model. -/
theorem append_arguments (entries : List AuditEntry) (file : String) (args : Decision)
    (now : String) :
    (Log.append py ⟨entries.map AuditEntry.raw, file⟩ ⟨args.arguments, now, none⟩).1 =
      (append py entries args now).map AuditEntry.raw := by
  rw [Log.append, fields_arguments, append]
  cases args.check py with
  | error exc => rfl
  | ok checked =>
      simp only [Except.map, Log.nextEntry, tipHash_raw, List.length_map]
      rfl

end Texts

/-! ## Appends on fixed arguments -/

def diskFull : Exception := ⟨"OSError", "[Errno 28] No space left on device"⟩

def firstAppend (fault : Option Exception) : Append :=
  ⟨Mirror.firstDecision.arguments, firstEntry.createdAt, fault⟩

def secondAppend : Append := ⟨Mirror.secondDecision.arguments, secondEntry.createdAt, none⟩

theorem accepted_firstAppend (py : Stdlib) (fault : Option Exception) :
    Log.Accepted py (firstAppend fault).args := ⟨_, rfl⟩

/-- A write that fails, and the next append, whose line names an entry that is not there. -/
theorem append_fault_stays_in_memory :
    Log.Mirrors (tableStdlib [firstEntry, secondEntry]) ⟨[], ""⟩ ∧
      ¬Log.Atomic (tableStdlib [firstEntry, secondEntry]) ⟨[], ""⟩ (firstAppend (some diskFull)) ∧
      ¬Log.Mirrors (tableStdlib [firstEntry, secondEntry])
        (Log.run (tableStdlib [firstEntry, secondEntry]) ⟨[], ""⟩
          [firstAppend (some diskFull), secondAppend]) := by
  have hmirrors : Log.Mirrors (tableStdlib [firstEntry, secondEntry]) ⟨[], ""⟩ := rfl
  have haccepted := accepted_firstAppend (tableStdlib [firstEntry, secondEntry]) (some diskFull)
  refine ⟨hmirrors, fun hatomic ↦ ?_, ?_⟩
  · cases (Log.atomic_iff _ _ _).mp hatomic haccepted
  · apply Log.not_mirrors_of_lags
    exact Log.lags_append _ (Log.lags_of_fault _ hmirrors haccepted (Option.some_ne_none _)) _

theorem appends_atomic_sample :
    EachStep (fun before call ↦ Log.Atomic (tableStdlib [firstEntry, secondEntry])
        (Log.run (tableStdlib [firstEntry, secondEntry]) ⟨[], ""⟩ before) call)
          [firstAppend none, secondAppend] ∧
      EachPoint (fun before ↦ Log.Mirrors (tableStdlib [firstEntry, secondEntry])
        (Log.run (tableStdlib [firstEntry, secondEntry]) ⟨[], ""⟩ before))
          [firstAppend none, secondAppend] := by
  have hmirrors : Log.Mirrors (tableStdlib [firstEntry, secondEntry]) ⟨[], ""⟩ := rfl
  apply (Log.appends_atomic_iff _ hmirrors [firstAppend none, secondAppend]).mpr
  intro call hcall _
  rcases List.mem_pair.mp hcall with rfl | rfl <;> rfl

end AgenticSDLC.AuditLog
