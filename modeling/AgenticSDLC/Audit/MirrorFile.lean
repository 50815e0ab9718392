import AgenticSDLC.Audit.AuditVerify
import AgenticSDLC.Foundations.JsonLines
import AgenticSDLC.Foundations.Runs

/-!
# The mirror file across processes

Every process constructs a log on the same file and appends to it.  The log begins
empty, also on a file that has entries, so the next entry is numbered 1 and names the
genesis again: the file is one chain as long as only one process appends.
-/

namespace AgenticSDLC.AuditLog

open Python (Stdlib)
open Runs
open HashChain (Linked tip)

structure Mirror where
  file : String
  /-- The entries of the process that runs. -/
  entries : List AuditEntry
  /-- The entries of all processes. -/
  appended : List AuditEntry

inductive Action where
  /-- A process begins, and constructs its log. -/
  | start
  | append (args : Decision) (now : String)

namespace Mirror

variable (py : Stdlib)

def step (mirror : Mirror) : Action → Mirror
  | .start => { mirror with entries := [] }
  | .append args now =>
      match AuditLog.append py mirror.entries args now with
      | .ok entry => ⟨mirror.file ++ (mirrorLine py entry ++ "\n"), mirror.entries ++ [entry],
          mirror.appended ++ [entry]⟩
      | .error _ => mirror

def run (actions : List Action) : Mirror := actions.foldl (step py) ⟨"", [], []⟩

/-- An entry that begins a log also begins the file. -/
def Continues (mirror : Mirror) : Action → Prop
  | .start => True
  | .append args _ => args.check py = .ok () → mirror.entries = [] → mirror.file = ""

theorem run_append_singleton (actions : List Action) (action : Action) :
    run py (actions ++ [action]) = (run py actions).step py action :=
  List.foldl_append

end Mirror

/-! ## The lines of the file -/

/-- The dictionary of an entry as it is read back, with its keys in order. -/
def AuditEntry.mirrored (entry : AuditEntry) : AuditVerify.Row :=
  [("actor_agent", .str entry.actorAgent), ("created_at", .str entry.createdAt),
    ("decision", .str entry.decision), ("entry_hash", .str entry.entryHash),
    ("event_name", .str entry.eventName), ("prev_hash", .str entry.prevHash),
    ("reason", nullable entry.reason), ("requirement_id", nullable entry.requirementId),
    ("seq", .int entry.seq), ("tool_name", nullable entry.toolName)]

theorem sortedBy_asdict (entry : AuditEntry) :
    Python.sortedBy Prod.fst entry.asdict = entry.mirrored := by
  simp [AuditEntry.asdict, AuditEntry.mirrored, Python.sortedBy, List.insertionSort,
    List.orderedInsert]

theorem sortKeys_asdict (entry : AuditEntry) :
    (Json.obj entry.asdict).sortKeys = .obj entry.mirrored := by
  have hvalues : entry.asdict.map (fun m ↦ (m.1, m.2.sortKeys)) = entry.asdict := by
    simp [AuditEntry.asdict, sortKeys_nullable]
  rw [Json.sortKeys_obj, hvalues, sortedBy_asdict]

theorem plain_mirrored (entry : AuditEntry) : (Json.obj entry.mirrored).Plain := by
  simp [AuditEntry.mirrored, Json.Plain, Json.PlainMembers, plain_nullable]

/-- A row of the file is the entry's own dictionary. -/
theorem lookup_mirrored (entry : AuditEntry) (name : String) :
    entry.mirrored.lookup name = entry.asdict.lookup name := by
  have hperm : entry.mirrored.Perm entry.asdict := by
    rw [← sortedBy_asdict]
    exact List.perm_insertionSort _ _
  exact Dict.lookup_perm hperm (by simp [AuditEntry.mirrored]) name

theorem field_mirrored (entry : AuditEntry) :
    AuditVerify.field entry.mirrored = AuditVerify.field entry.asdict := by
  funext name
  rw [AuditVerify.field, lookup_mirrored]
  rfl

section Lines

variable (py : Stdlib)

theorem mirrorLine_eq (entry : AuditEntry) :
    mirrorLine py entry = String.ofList (Json.asciiText py.repr (.obj entry.mirrored)) := by
  rw [mirrorLine, Json.asciiDumps, sortKeys_asdict]

theorem loads_mirrorLine (toFloat : String → Json) (entry : AuditEntry) :
    Json.loads toFloat (mirrorLine py entry) = some (.obj entry.mirrored) := by
  have hplain : (Json.obj entry.asdict).sortKeys.Plain := by
    rw [sortKeys_asdict]
    exact plain_mirrored entry
  rw [mirrorLine, Json.loads_asciiDumps py.repr toFloat hplain, sortKeys_asdict]

theorem toList_mirrorLine_ne_nil (entry : AuditEntry) : (mirrorLine py entry).toList ≠ [] := by
  rw [mirrorLine_eq, String.toList_ofList]
  exact Json.asciiText_obj_ne_nil py.repr entry.mirrored

theorem isLineBreak_mirrorLine (entry : AuditEntry) :
    ∀ c ∈ (mirrorLine py entry).toList, Text.isLineBreak c = false := by
  rw [mirrorLine_eq, String.toList_ofList]
  exact Json.isLineBreak_asciiText py.repr (plain_mirrored entry)

theorem strip_mirrorLine (entry : AuditEntry) :
    Python.strip (mirrorLine py entry) = mirrorLine py entry := by
  rw [mirrorLine_eq, Json.strip_asciiText_obj]

/-- The text of a file of entries. -/
def mirrorText (entries : List AuditEntry) : List Char :=
  Text.unlines (entries.map fun entry ↦ (mirrorLine py entry).toList)

theorem mirrorText_append_singleton (entries : List AuditEntry) (entry : AuditEntry) :
    mirrorText py (entries ++ [entry]) =
      mirrorText py entries ++ (mirrorLine py entry).toList ++ ['\n'] := by
  simp [mirrorText, Text.unlines]

theorem mirrorText_eq_nil_iff {entries : List AuditEntry} :
    mirrorText py entries = [] ↔ entries = [] := by
  cases entries <;> simp [mirrorText, Text.unlines]

theorem loadLines_mirrorLines (toFloat : String → Json) (decodeError : String → String)
    (entries : List AuditEntry) (n : ℕ) :
    AuditVerify.loadLines toFloat decodeError n
        (entries.map fun entry ↦ (mirrorLine py entry).toList) =
      .ok (entries.map fun entry ↦ .obj entry.mirrored) := by
  induction entries generalizing n with
  | nil => rfl
  | cons entry entries ih =>
      have hne : mirrorLine py entry ≠ "" := fun h ↦
        toList_mirrorLine_ne_nil py entry (by rw [h]; rfl)
      simp only [List.map_cons, AuditVerify.loadLines, String.ofList_toList, strip_mirrorLine,
        if_neg hne, loads_mirrorLine, ih]
      rfl

theorem checkObjects_mirrored (entries : List AuditEntry) (i : ℕ) :
    AuditVerify.checkObjects i (entries.map fun entry ↦ .obj entry.mirrored) =
      .ok (entries.map AuditEntry.mirrored) := by
  induction entries generalizing i with
  | nil => rfl
  | cons entry entries ih =>
      rw [List.map_cons, AuditVerify.checkObjects, ih]
      rfl

theorem head?_mirrorText_append (entries : List AuditEntry) (entry : AuditEntry) :
    (mirrorText py entries ++ (mirrorLine py entry).toList).head? = some '\x7b' := by
  have hhead : ∀ entry, (mirrorLine py entry).toList.head? = some '\x7b' := by
    intro entry
    rw [mirrorLine_eq, String.toList_ofList, Json.head?_asciiText_obj]
  cases entries with
  | nil =>
      have hempty : mirrorText py [] = [] := rfl
      rw [hempty, List.nil_append, hhead]
  | cons first entries =>
      rw [mirrorText, Text.unlines, List.map_cons, List.flatMap_cons, List.append_assoc,
        List.append_assoc, List.head?_append_of_ne_nil _ (toList_mirrorLine_ne_nil py first), hhead]

/-- The file without the end of its last line. -/
theorem strip_mirrorText (entries : List AuditEntry) (entry : AuditEntry) :
    Python.strip (String.ofList (mirrorText py (entries ++ [entry]))) =
      String.ofList (mirrorText py entries ++ (mirrorLine py entry).toList) := by
  have hspace : Python.isspace '\x7b' = false := by decide
  rw [Python.strip, Text.trim, String.toList_ofList, mirrorText_append_singleton]
  congr 1
  have hhead := head?_mirrorText_append py entries entry
  rw [mirrorLine_eq, String.toList_ofList] at hhead ⊢
  apply Json.trimEnds_append_obj
  · intro c hc
    rw [List.head?_append, hc, Option.some_or] at hhead
    rw [Option.some.inj hhead]
    exact hspace
  · simp [Python.isspace]

/-- A file of entries reads back as their dictionaries. -/
theorem loadEntries_mirrorText (toFloat : String → Json) (decodeError : String → String)
    (entries : List AuditEntry) :
    AuditVerify.loadEntries toFloat decodeError (String.ofList (mirrorText py entries)) =
      .ok (entries.map AuditEntry.mirrored) := by
  rcases List.eq_nil_or_concat entries with rfl | ⟨front, last, rfl⟩
  · rfl
  · rw [List.concat_eq_append]
    have hhead := head?_mirrorText_append py front last
    have hne : String.ofList (mirrorText py front ++ (mirrorLine py last).toList) ≠ "" := by
      intro hempty
      rw [String.ofList_eq_empty_iff] at hempty
      rw [hempty] at hhead
      cases hhead
    have hbracket : (mirrorText py front ++ (mirrorLine py last).toList).head? ≠ some '[' := by
      rw [hhead]
      decide
    have hlines : Text.splitlines (mirrorText py front ++ (mirrorLine py last).toList) =
        (front ++ [last]).map fun entry ↦ (mirrorLine py entry).toList := by
      rw [List.map_append, List.map_singleton]
      refine Text.splitlines_unlines_append ?_ (isLineBreak_mirrorLine py last)
        (toList_mirrorLine_ne_nil py last)
      intro line hline
      obtain ⟨entry, -, rfl⟩ := List.mem_map.mp hline
      exact isLineBreak_mirrorLine py entry
    rw [AuditVerify.loadEntries, strip_mirrorText]
    simp only [if_neg hne, String.toList_ofList, if_neg hbracket, hlines, loadLines_mirrorLines]
    exact checkObjects_mirrored _ 0

end Lines

/-! ## Numbered chains -/

theorem numbered_append_singleton {n : ℕ} {entries : List AuditEntry} {entry : AuditEntry} :
    Numbered n (entries ++ [entry]) ↔ Numbered n entries ∧ entry.seq = n + entries.length := by
  induction entries generalizing n with
  | nil => simp [Numbered]
  | cons first entries ih =>
      rw [List.cons_append, Numbered, Numbered, ih, and_assoc, List.length_cons]
      have hcount : ((n + 1 : ℕ) : ℤ) + (entries.length : ℤ) = n + (entries.length + 1 : ℕ) := by
        omega
      rw [hcount]

theorem Numbered.le_seq {n : ℕ} {entries : List AuditEntry} (h : Numbered n entries) :
    ∀ entry ∈ entries, (n : ℤ) ≤ entry.seq := by
  induction entries generalizing n with
  | nil => simp
  | cons first entries ih =>
      intro entry hentry
      rcases List.mem_cons.mp hentry with rfl | htail
      · exact h.1.ge
      · have hle := ih h.2 entry htail
        omega

theorem Numbered.sortedBySeq_eq {n : ℕ} {entries : List AuditEntry} (h : Numbered n entries) :
    sortedBySeq entries = entries := by
  apply List.Pairwise.insertionSort_eq
  induction entries generalizing n with
  | nil => exact .nil
  | cons first entries ih =>
      refine .cons (fun entry hentry ↦ ?_) (ih h.2)
      have hle := h.2.le_seq entry hentry
      rw [h.1]
      omega

theorem tipHash_eq (entries : List AuditEntry) :
    tipHash entries = tip AuditEntry.entryHash genesisPrevHash entries := by
  cases hlast : entries.getLast? with
  | none =>
      rw [List.getLast?_eq_none_iff.mp hlast]
      rfl
  | some entry =>
      rw [HashChain.tip_of_getLast? hlast, tipHash, hlast]
      rfl

theorem append_eq_ok_iff (py : Stdlib) {entries : List AuditEntry} {args : Decision} {now : String}
    {entry : AuditEntry} :
    append py entries args now = .ok entry ↔
      args.check py = .ok () ∧ entry = nextEntry py entries args now := by
  rw [append, Outcome.bind_eq_ok_iff]
  constructor
  · rintro ⟨⟨⟩, hcheck, hentry⟩
    exact ⟨hcheck, (Except.ok.inj hentry).symm⟩
  · rintro ⟨hcheck, rfl⟩
    exact ⟨(), hcheck, rfl⟩

theorem intact_append_nextEntry {py : Stdlib} {entries : List AuditEntry} {args : Decision}
    {now : String} (h : Intact py genesisPrevHash entries) :
    Intact py genesisPrevHash (entries ++ [nextEntry py entries args now]) := by
  refine ⟨HashChain.linked_append_singleton.mpr ⟨h.linked, tipHash_eq entries⟩, ?_⟩
  intro entry hentry
  rcases List.mem_append.mp hentry with hold | hnew
  · exact h.hashed entry hold
  · rw [List.mem_singleton.mp hnew]
    rfl

namespace Mirror

variable {py : Stdlib}

/-- What a step does: a log begins anew, an entry is written, or the arguments are refused. -/
inductive Steps (py : Stdlib) (mirror : Mirror) : Action → Mirror → Prop where
  | starts : Steps py mirror .start { mirror with entries := [] }
  | writes (args : Decision) (now : String) (entry : AuditEntry)
      (hcheck : args.check py = .ok ()) (hentry : entry = nextEntry py mirror.entries args now) :
      Steps py mirror (.append args now) ⟨mirror.file ++ (mirrorLine py entry ++ "\n"),
        mirror.entries ++ [entry], mirror.appended ++ [entry]⟩
  | refuses (args : Decision) (now : String) (hcheck : args.check py ≠ .ok ()) :
      Steps py mirror (.append args now) mirror

variable (py) in
theorem steps (mirror : Mirror) (action : Action) :
    Steps py mirror action (mirror.step py action) := by
  cases action with
  | start => exact .starts
  | append args now =>
      cases h : AuditLog.append py mirror.entries args now with
      | ok entry =>
          obtain ⟨hcheck, hentry⟩ := (append_eq_ok_iff py).mp h
          rw [step, h]
          exact .writes args now entry hcheck hentry
      | error exc =>
          rw [step, h]
          refine .refuses args now fun hcheck ↦ ?_
          rw [(append_eq_ok_iff py).mpr ⟨hcheck, rfl⟩] at h
          cases h

/-- What holds of the file after any run. -/
structure Sound (py : Stdlib) (mirror : Mirror) : Prop where
  written : mirror.file.toList = mirrorText py mirror.appended
  hashed : ∀ entry ∈ mirror.appended, entry.entryHash = entry.recomputed py
  first : ∀ entry, mirror.appended.head? = some entry → entry.prevHash = genesisPrevHash
  unbegun : mirror.appended = [] → mirror.entries = []

theorem Sound.step {mirror : Mirror} (h : mirror.Sound py) (action : Action) :
    (mirror.step py action).Sound py := by
  have hsteps := steps py mirror action
  generalize mirror.step py action = next at hsteps ⊢
  cases hsteps with
  | starts => exact ⟨h.written, h.hashed, h.first, fun _ ↦ rfl⟩
  | writes args now entry hcheck hentry =>
      refine ⟨?_, fun other hother ↦ ?_, fun first hfirst ↦ ?_, by simp⟩
      · rw [mirrorText_append_singleton, String.toList_append, String.toList_append, h.written,
          List.append_assoc]
        rfl
      · rcases List.mem_append.mp hother with hold | hnew
        · exact h.hashed other hold
        · rw [List.mem_singleton.mp hnew, hentry]
          rfl
      · cases happended : mirror.appended with
        | nil =>
            rw [happended, List.nil_append, List.head?_cons] at hfirst
            rw [← Option.some.inj hfirst, hentry, h.unbegun happended]
            rfl
        | cons oldest appended =>
            rw [happended, List.cons_append, List.head?_cons] at hfirst
            exact h.first first (by rw [happended, List.head?_cons, hfirst])
  | refuses => exact h

variable (py) in
theorem sound_run (actions : List Action) : (run py actions).Sound py := by
  induction actions using List.reverseRecOn with
  | nil => exact ⟨rfl, by simp [run], by simp [run], fun _ ↦ rfl⟩
  | append_singleton actions action ih =>
      rw [run_append_singleton]
      exact ih.step action

theorem Sound.file_eq_empty_iff {mirror : Mirror} (h : mirror.Sound py) :
    mirror.file = "" ↔ mirror.appended = [] := by
  rw [← mirrorText_eq_nil_iff py, ← h.written, String.toList_eq_nil_iff]

/-- The file is one chain, and the log of the process is all of it or none. -/
structure Chained (py : Stdlib) (mirror : Mirror) : Prop where
  numbered : Numbered 1 mirror.appended
  intact : Intact py genesisPrevHash mirror.appended
  current : mirror.entries = [] ∨ mirror.entries = mirror.appended

theorem Chained.step {mirror : Mirror} (hsound : mirror.Sound py) (h : mirror.Chained py)
    {action : Action} (hcontinues : mirror.Continues py action) :
    (mirror.step py action).Chained py := by
  have hsteps := steps py mirror action
  generalize mirror.step py action = next at hsteps ⊢
  cases hsteps with
  | starts => exact ⟨h.numbered, h.intact, Or.inl rfl⟩
  | writes args now entry hcheck hentry =>
      have hentries : mirror.entries = mirror.appended := by
        rcases h.current with hnone | hall
        · rw [hnone, hsound.file_eq_empty_iff.mp (hcontinues hcheck hnone)]
        · exact hall
      rw [hentries] at hentry ⊢
      rw [hentry]
      refine ⟨numbered_append_singleton.mpr ⟨h.numbered, ?_⟩, intact_append_nextEntry h.intact,
        Or.inr rfl⟩
      simp only [nextEntry]
      omega
  | refuses => exact h

/-- The rows in the file are the entries of all processes, in order, and the verifier
accepts them. -/
def Verified (py : Stdlib) (toFloat : String → Json) (decodeError : String → String)
    (mirror : Mirror) : Prop :=
  ∃ rows, AuditVerify.loadEntries toFloat decodeError mirror.file = .ok rows ∧
    List.Forall₂ (fun row entry ↦ ∀ name, row.lookup name = entry.asdict.lookup name) rows
      mirror.appended ∧
    AuditVerify.Ok (AuditVerify.verifyChain py rows none)

theorem Sound.verified_iff {mirror : Mirror} (h : mirror.Sound py) (toFloat : String → Json)
    (decodeError : String → String) :
    mirror.Verified py toFloat decodeError ↔
      AuditVerify.Ok (AuditVerify.verifyChain py (mirror.appended.map AuditEntry.mirrored) none) := by
  have hfile : mirror.file = String.ofList (mirrorText py mirror.appended) := by
    rw [← h.written, String.ofList_toList]
  have hload := loadEntries_mirrorText py toFloat decodeError mirror.appended
  rw [Verified, hfile]
  constructor
  · rintro ⟨rows, hrows, -, hok⟩
    rw [hload] at hrows
    rwa [Except.ok.inj hrows]
  · refine fun hok ↦ ⟨_, hload, ?_, hok⟩
    rw [List.forall₂_map_left_iff]
    exact List.forall₂_same.mpr fun entry _ ↦ lookup_mirrored entry

theorem Chained.verified {mirror : Mirror} (hsound : mirror.Sound py) (h : mirror.Chained py)
    (toFloat : String → Json) (decodeError : String → String) :
    mirror.Verified py toFloat decodeError := by
  obtain ⟨start, hstart, hgenesis⟩ :=
    AuditVerify.selectGenesis_map py field_mirrored (sortedBySeq mirror.appended)
  rw [hsound.verified_iff, AuditVerify.verifyChain_map py field_mirrored]
  simp only [hstart]
  rw [AuditVerify.ok_walk_iff py field_mirrored]
  rw [h.numbered.sortedBySeq_eq] at hgenesis ⊢
  cases happended : mirror.appended with
  | nil => exact ⟨trivial, by simp⟩
  | cons entry appended =>
      rw [hgenesis hsound.first (by simp [happended]), ← happended]
      exact h.intact

/-- The mirror file stays verifiable as long as only one process appends to it. -/
theorem rows_verified (toFloat : String → Json) (decodeError : String → String)
    {actions : List Action}
    (h : EachStep (fun before action ↦ (run py before).Continues py action) actions) :
    EachPoint (fun before ↦ (run py before).Verified py toFloat decodeError) actions := by
  have hchained : EachPoint (fun before ↦ (run py before).Chained py) actions := by
    refine eachPoint_of_eachStep ⟨trivial, ⟨trivial, by simp [run]⟩, Or.inl rfl⟩ ?_ h
    intro before action hbefore hcontinues
    rw [run_append_singleton]
    exact hbefore.step (sound_run py before) hcontinues
  exact fun before hbefore ↦ (hchained before hbefore).verified (sound_run py before) _ _

/-- A log that begins on a file with entries breaks the file, unless a text hashes to
the genesis. -/
theorem not_verified_of_second_log (hgenesis : ∀ text, py.sha256 text ≠ genesisPrevHash)
    (toFloat : String → Json) (decodeError : String → String) {actions : List Action}
    {args : Decision} {now : String}
    (hforks : ¬(run py actions).Continues py (.append args now)) :
    ¬(run py (actions ++ [.append args now])).Verified py toFloat decodeError := by
  simp only [Continues, Classical.not_imp] at hforks
  obtain ⟨hcheck, hentries, hfile⟩ := hforks
  have hsound := sound_run py actions
  have hnext := sound_run py (actions ++ [.append args now])
  have hstep := steps py (run py actions) (.append args now)
  rw [run_append_singleton] at hnext ⊢
  generalize (run py actions).step py (.append args now) = next at hnext hstep ⊢
  intro hverified
  rw [hnext.verified_iff, AuditVerify.verifyChain_map py field_mirrored] at hverified
  obtain ⟨start, hstart, -⟩ :=
    AuditVerify.selectGenesis_map py field_mirrored (sortedBySeq next.appended)
  simp only [hstart] at hverified
  have hintact := (AuditVerify.ok_walk_iff py field_mirrored).mp hverified
  have hone : ((sortedBySeq next.appended).filter fun entry ↦
      entry.prevHash = genesisPrevHash).length ≤ 1 := by
    refine HashChain.length_filter_le_one hintact.linked fun entry hentry ↦ ?_
    rw [hintact.hashed entry hentry]
    exact hgenesis _
  rw [((sortedBySeq_perm next.appended).filter _).length_eq] at hone
  cases hstep with
  | writes _ _ entry _ hentry =>
      have hbegun : (run py actions).appended ≠ [] := fun h ↦
        hfile (hsound.file_eq_empty_iff.mpr h)
      obtain ⟨first, rest, happended⟩ := List.exists_cons_of_ne_nil hbegun
      have hfirst : first.prevHash = genesisPrevHash :=
        hsound.first first (by rw [happended, List.head?_cons])
      have hlast : entry.prevHash = genesisPrevHash := by
        rw [hentry, hentries]
        rfl
      simp only [happended, List.cons_append, List.filter_cons, List.filter_append, hfirst, hlast,
        decide_true, if_true, List.filter_nil, List.length_cons, List.length_append] at hone
      omega
  | refuses _ _ hrefused => exact hrefused hcheck

/-! ## Two runs -/

def firstDecision : Decision := ⟨"dispatch", none, "allow", none, none, "dispatcher"⟩

def secondDecision : Decision := { firstDecision with reason := some "retry" }

theorem check_firstDecision (py : Stdlib) : firstDecision.check py = .ok () := by
  simp [Decision.check, firstDecision, allowedDecisions]
  rfl

/-- The first entry of a process that begins a day after another. -/
def laterEntry : AuditEntry :=
  { firstEntry with
    createdAt := "2026-01-06T09:00:00+00:00"
    entryHash := "971062ef05b7db6815df66e7170d9dd388c0b75b14ca075cf054f6d609b202e5" }

/-- The process that appends one entry to an empty file. -/
theorem run_start_append (py : Stdlib) (now : String) :
    run py [.start, .append firstDecision now] =
      ⟨"" ++ (mirrorLine py (nextEntry py [] firstDecision now) ++ "\n"),
        [nextEntry py [] firstDecision now], [nextEntry py [] firstDecision now]⟩ := by
  have happend : AuditLog.append py [] firstDecision now = .ok (nextEntry py [] firstDecision now) :=
    (append_eq_ok_iff py).mpr ⟨check_firstDecision py, rfl⟩
  simp only [run, List.foldl_cons, List.foldl_nil, step, happend, List.nil_append]

/-- A second process that comes to append to the file. -/
theorem not_continues_second (py : Stdlib) (now later : String) :
    ¬(run py ([.start, .append firstDecision now] ++ [.start])).Continues py
      (.append firstDecision later) := by
  rw [run_append_singleton, run_start_append]
  intro hcontinues
  have hempty := hcontinues (check_firstDecision py) rfl
  have hlists := congrArg String.toList hempty
  simp only [step, String.toList_append] at hlists
  simp at hlists

/-- A chain of one entry, and an entry of the next day that begins the chain again. -/
theorem second_process_breaks_file :
    ¬(run (tableStdlib [firstEntry, laterEntry]) [.start, .append firstDecision firstEntry.createdAt,
      .start, .append firstDecision laterEntry.createdAt]).Verified
        (tableStdlib [firstEntry, laterEntry]) Json.str id := by
  have hhead : genesisPrevHash.toList.head? = some '0' := by
    rw [toList_genesisPrevHash]
    rfl
  have hhashes : ∀ entry ∈ [firstEntry, laterEntry], entry.entryHash ≠ genesisPrevHash := by
    intro entry hentry h
    rw [← h] at hhead
    rcases List.mem_cons.mp hentry with rfl | hlast
    · simp [firstEntry] at hhead
    · rw [List.mem_singleton.mp hlast] at hhead
      simp [laterEntry] at hhead
  have hgenesis : ∀ text, (tableStdlib [firstEntry, laterEntry]).sha256 text ≠ genesisPrevHash := by
    apply tableSha256_ne hhashes
    rw [hhead]
    decide
  have hbroken := not_verified_of_second_log hgenesis Json.str id
    (not_continues_second _ firstEntry.createdAt laterEntry.createdAt)
  simp only [List.cons_append, List.nil_append] at hbroken
  exact hbroken

theorem rows_verified_sample :
    EachPoint (fun before ↦ (run (tableStdlib [firstEntry, secondEntry]) before).Verified
        (tableStdlib [firstEntry, secondEntry]) Json.str id)
      [.start, .append firstDecision firstEntry.createdAt,
        .append secondDecision secondEntry.createdAt] := by
  have hstart : (run (tableStdlib [firstEntry, secondEntry]) [.start]).Continues
      (tableStdlib [firstEntry, secondEntry]) (.append firstDecision firstEntry.createdAt) :=
    fun _ _ ↦ rfl
  have hgoes : (run (tableStdlib [firstEntry, secondEntry])
      [.start, .append firstDecision firstEntry.createdAt]).Continues
        (tableStdlib [firstEntry, secondEntry])
        (.append secondDecision secondEntry.createdAt) := by
    rw [run_start_append]
    exact fun _ hnone ↦ absurd hnone (List.cons_ne_nil _ _)
  apply rows_verified Json.str id
  exact eachStep_cons.mpr ⟨trivial, eachStep_cons.mpr ⟨hstart, eachStep_cons.mpr ⟨hgoes,
    eachStep_nil _⟩⟩⟩

end Mirror

end AgenticSDLC.AuditLog
