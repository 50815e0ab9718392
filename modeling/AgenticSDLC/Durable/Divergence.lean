import AgenticSDLC.Durable.Recording

/-!
# Detecting divergence

The engine compares each command with the record as it is asked, and nothing
looks at the record when the body has ended.  So a body that stops early is not
noticed, nor is one that swallows what the engine raised.
-/

namespace AgenticSDLC.DurableOrchestrator

open Replay

/-! ## What is to be detected -/

/-- An activity completion or a timer fire. -/
def Event.isCommand (event : Event) : Bool :=
  event.type = .activityCompleted ∨ event.type = .timerFired

def Event.key (event : Event) : CommandKey := (event.type, event.name)

def commandKeys (history : List Event) : List CommandKey :=
  (history.filter Event.isCommand).map Event.key

/-- The commands the body issued during the last execution. -/
def Workflow.issued (wf : Workflow) : List CommandKey := wf.log.map Entry.key

/-- The part of a history that a replay goes through. -/
def recordOf : List Event → List Event
  | [] => []
  | first :: rest => if first.type = .workflowStarted then rest else first :: rest

/-- The issued commands are the recorded ones in their order, as far as either
goes, and no command is left in the record. -/
def Follows (record : List Event) (issued : List CommandKey) : Prop :=
  record.map Event.key <+: issued ∨
    issued <+: record.map Event.key ∧ ∀ event ∈ record.drop issued.length, ¬event.isCommand

def IsNonDeterminism (result : Except Raised Json) : Prop :=
  ∃ detail, result = .error (.nonDeterminism detail)

def DivergenceDetected (lib : Library) (wf : Workflow) (body : Body) (args : List Json) : Prop :=
  let executed := wf.execute lib body args
  (∀ result, executed.1 = .ok result → executed.2.issued = commandKeys executed.2.history) ∧
    (¬Follows (recordOf wf.history) executed.2.issued →
      IsNonDeterminism executed.1 ∧
        ∀ event ∈ executed.2.history.drop wf.history.length, event.type ≠ .workflowCompleted)

/-! ## When it is detected -/

/-- What the engine has raised in the body so far: nothing, a refusal, or a hand-off
and no refusal. -/
inductive Mode where
  | following
  | refused
  | handedOff
  deriving DecidableEq

def Command.handsOff (command : Command) : Bool :=
  (command.live 0).1.type = .workflowHandoff

def Mode.next (mode : Mode) (command : Command) : Mode :=
  if mode = .following ∧ command.handsOff then .handedOff else mode

/-- The body returns only when nothing was raised in it and no recorded command is
left; it raises anything but `NonDeterminismError` only when no command was
refused and none is left. -/
def Heeds (lib : Library) : Body → Mode → List Event → Prop
  | .done (.ok _), mode, record => mode = .following ∧ ∀ event ∈ record, ¬event.isCommand
  | .done (.error exc), mode, record =>
      exc.isNonDeterminism ∨ mode ≠ .refused ∧ ∀ event ∈ record, ¬event.isCommand
  | .ask command next, mode, record =>
      match command.reject with
      | some reply => Heeds lib (next reply) mode record
      | none =>
          match record with
          | event :: rest =>
              if (recorder lib).accepts event command then
                Heeds lib (next (.ok event.payload)) mode rest
              else
                Heeds lib (next ((recorder lib).refuse command event)) .refused (event :: rest)
          | [] => Heeds lib (next (command.live 0).2) (mode.next command) []

theorem live_reply (command : Command) (position : ℕ) :
    (command.live position).2 = (command.live 0).2 := by
  cases command with
  | durableTimer name seconds => rfl
  | runActivity activity =>
      cases houtcome : (runActivity activity).1 <;> simp [Command.live, houtcome]

section Heeds

variable {lib : Library} {command : Command} {next : Except Raised Json → Body} {mode : Mode}

theorem heeds_reject {reply : Except Raised Json} (h : command.reject = some reply)
    (record : List Event) :
    Heeds lib (.ask command next) mode record ↔ Heeds lib (next reply) mode record := by
  cases record <;> simp [Heeds, h]

theorem heeds_live (h : command.reject = none) :
    Heeds lib (.ask command next) mode [] ↔
      Heeds lib (next (command.live 0).2) (mode.next command) [] := by
  simp [Heeds, h]

theorem heeds_replayed (h : command.reject = none) {event : Event}
    (hevent : (recorder lib).accepts event command = true) (rest : List Event) :
    Heeds lib (.ask command next) mode (event :: rest) ↔
      Heeds lib (next (.ok event.payload)) mode rest := by
  simp [Heeds, h, hevent]

theorem heeds_refused (h : command.reject = none) {event : Event}
    (hevent : (recorder lib).accepts event command = false) (rest : List Event) :
    Heeds lib (.ask command next) mode (event :: rest) ↔
      Heeds lib (next ((recorder lib).refuse command event)) .refused (event :: rest) := by
  simp [Heeds, h, hevent]

end Heeds

/-- After a refusal, only `NonDeterminismError` is left to end in. -/
theorem isNonDeterminism_iff_heeds (lib : Library) (body : Body) :
    ∀ (record : List Event) (position : ℕ),
      IsNonDeterminism (body.script (recorder lib) record position).result ↔
        Heeds lib body .refused record := by
  induction body with
  | done result =>
      intro record position
      cases result with
      | ok value => simp [IsNonDeterminism, Heeds]
      | error exc => cases exc <;> simp [IsNonDeterminism, Heeds, Raised.isNonDeterminism]
  | ask command next ih =>
      intro record position
      cases hreject : command.reject with
      | some reply => rw [script_reject hreject, heeds_reject hreject, ih]
      | none =>
          cases record with
          | nil =>
              rw [script_live hreject, heeds_live hreject, recorder_live, live_reply]
              exact ih _ _ _
          | cons event rest =>
              cases haccepts : (recorder lib).accepts event command with
              | true =>
                  rw [script_replayed hreject haccepts, heeds_replayed hreject haccepts]
                  exact ih _ _ _
              | false =>
                  rw [script_refused hreject haccepts, heeds_refused hreject haccepts]
                  exact ih _ _ _

theorem ne_ok_iff_heeds (lib : Library) (body : Body) :
    ∀ position, (∀ value, (body.script (recorder lib) [] position).result ≠ .ok value) ↔
      Heeds lib body .handedOff [] := by
  induction body with
  | done result => cases result <;> simp [Heeds]
  | ask command next ih =>
      intro position
      cases hreject : command.reject with
      | some reply => rw [script_reject hreject, heeds_reject hreject, ih]
      | none =>
          rw [script_live hreject, heeds_live hreject, recorder_live, live_reply]
          exact ih _ _

/-! ## Sequences -/

@[simp] theorem commandKeys_nil : commandKeys [] = [] := rfl

theorem commandKeys_append (history history' : List Event) :
    commandKeys (history ++ history') = commandKeys history ++ commandKeys history' := by
  simp [commandKeys]

theorem commandKeys_cons_of_isCommand {event : Event} (h : event.isCommand = true)
    (history : List Event) :
    commandKeys (event :: history) = event.key :: commandKeys history := by
  simp [commandKeys, h]

theorem commandKeys_cons_of_not {event : Event} (h : event.isCommand = false)
    (history : List Event) : commandKeys (event :: history) = commandKeys history := by
  simp [commandKeys, h]

theorem commandKeys_eq_nil_iff {history : List Event} :
    commandKeys history = [] ↔ ∀ event ∈ history, ¬event.isCommand := by
  simp [commandKeys, List.filter_eq_nil_iff]

theorem length_commandKeys_le (history : List Event) :
    (commandKeys history).length ≤ history.length := by
  rw [commandKeys, List.length_map]
  exact List.length_filter_le _ _

theorem follows_nil (issued : List CommandKey) : Follows [] issued :=
  Or.inl (List.nil_prefix)

theorem follows_nil_right_iff {record : List Event} :
    Follows record [] ↔ ∀ event ∈ record, ¬event.isCommand := by
  constructor
  · rintro (hpre | ⟨-, hrest⟩)
    · simp [List.map_eq_nil_iff.mp (List.prefix_nil.mp hpre)]
    · simpa using hrest
  · exact fun h ↦ Or.inr ⟨List.nil_prefix, by simpa using h⟩

theorem follows_cons_cons_iff {event : Event} {record : List Event} {key : CommandKey}
    {issued : List CommandKey} :
    Follows (event :: record) (key :: issued) ↔ event.key = key ∧ Follows record issued := by
  simp only [Follows, List.map_cons, List.cons_prefix_cons, List.length_cons, List.drop_succ_cons]
  constructor
  · rintro (⟨rfl, h⟩ | ⟨⟨rfl, h⟩, hrest⟩)
    · exact ⟨rfl, Or.inl h⟩
    · exact ⟨rfl, Or.inr ⟨h, hrest⟩⟩
  · rintro ⟨rfl, h | ⟨h, hrest⟩⟩
    · exact Or.inl ⟨rfl, h⟩
    · exact Or.inr ⟨⟨rfl, h⟩, hrest⟩

theorem accepts_iff_key {lib : Library} {event : Event} {command : Command} :
    (recorder lib).accepts event command = true ↔
      event.key = (recorder lib).key command := by
  simp [Event.key]

theorem isCommand_of_accepts {lib : Library} {event : Event} {command : Command}
    (h : (recorder lib).accepts event command = true) : event.isCommand = true := by
  have htype := (recorder_accepts lib command event).mp h |>.1
  cases command <;> simp_all [Event.isCommand, Command.type]

/-! ## Detection and heeding, on scripts -/

/-- Detection on a script: what `DivergenceDetected` says of the record, the
commands issued, the events added and the result. -/
def Detects (record : List Event) (script : Script CommandKey Event (Except Raised Json)) :
    Prop :=
  (∀ value, script.result = .ok value →
      script.log.map Entry.key = commandKeys record ++ commandKeys script.events) ∧
    (¬Follows record (script.log.map Entry.key) → IsNonDeterminism script.result)

theorem detects_ret_iff (lib : Library) (record : List Event) (position : ℕ) (value : Json) :
    Detects record ((Program.done (.ok value) : Body).script (recorder lib) record position) ↔
      Heeds lib (.done (.ok value)) .following record := by
  constructor
  · rintro ⟨hissued, -⟩
    have hnil : [] = commandKeys record ++ [] := hissued value rfl
    exact ⟨rfl, commandKeys_eq_nil_iff.mp (by simpa using hnil.symm)⟩
  · rintro ⟨-, hrest⟩
    refine ⟨fun _ _ ↦ ?_, fun h ↦ absurd (follows_nil_right_iff.mpr hrest) h⟩
    simp [commandKeys_eq_nil_iff.mpr hrest]

theorem detects_raise_iff (lib : Library) (record : List Event) (position : ℕ) (exc : Raised) :
    Detects record ((Program.done (.error exc) : Body).script (recorder lib) record position) ↔
      Heeds lib (.done (.error exc)) .following record := by
  constructor
  · rintro ⟨-, hdiverged⟩
    by_cases hrest : ∀ event ∈ record, ¬event.isCommand
    · exact Or.inr ⟨by simp, hrest⟩
    · obtain ⟨detail, hdetail⟩ := hdiverged (mt follows_nil_right_iff.mp hrest)
      cases hdetail
      exact Or.inl rfl
  · intro hheeds
    refine ⟨fun _ h ↦ (by cases h), fun hdiverged ↦ ?_⟩
    rcases hheeds with hexc | ⟨-, hrest⟩
    · cases exc with
      | nonDeterminism detail => exact ⟨detail, rfl⟩
      | _ => cases hexc
    · exact absurd (follows_nil_right_iff.mpr hrest) hdiverged

theorem detects_handedOff_iff {script : Script CommandKey Event (Except Raised Json)}
    {entry : Entry CommandKey} {event : Event} (hevent : event.isCommand = false)
    (hlength : script.events.length ≤ script.log.length) :
    Detects [] (script.after entry [event]) ↔ ∀ value, script.result ≠ .ok value := by
  constructor
  · rintro ⟨hissued, -⟩ value hresult
    -- One command more was issued than there are events that could answer it.
    have hkeys := congrArg List.length (hissued value hresult)
    have hle := length_commandKeys_le script.events
    simp [commandKeys_cons_of_not hevent] at hkeys
    omega
  · exact fun hresult ↦ ⟨fun value h ↦ absurd h (hresult value),
      fun h ↦ absurd (follows_nil _) h⟩

theorem detects_refused_iff {script : Script CommandKey Event (Except Raised Json)}
    {entry : Entry CommandKey} {event : Event} {rest : List Event} (hkey : event.key ≠ entry.key) :
    Detects (event :: rest) (script.after entry []) ↔ IsNonDeterminism script.result := by
  have hdiverged : ¬Follows (event :: rest) ((script.after entry []).log.map Entry.key) :=
    fun h ↦ hkey (follows_cons_cons_iff.mp h).1
  constructor
  · exact fun h ↦ h.2 hdiverged
  · rintro ⟨detail, hresult⟩
    refine ⟨fun value h ↦ ?_, fun _ ↦ ⟨detail, hresult⟩⟩
    rw [after_result, hresult] at h
    cases h

theorem isCommand_live (command : Command) (position : ℕ) :
    (command.live position).1.isCommand = !command.handsOff := by
  cases command with
  | durableTimer name seconds => rfl
  | runActivity activity =>
      cases houtcome : (runActivity activity).1 <;>
        simp [Command.handsOff, Command.live, houtcome, Event.isCommand]

theorem key_live {command : Command} (h : command.handsOff = false) (position : ℕ) :
    (command.live position).1.key = (command.type, command.name) := by
  cases command with
  | durableTimer name seconds => rfl
  | runActivity activity =>
      cases houtcome : (runActivity activity).1 with
      | ok value => simp [Command.live, houtcome, Event.key, Command.type, Command.name]
      | error handoff => simp [Command.handsOff, Command.live, houtcome] at h

theorem detects_iff_heeds (lib : Library) (body : Body) :
    ∀ (record : List Event) (position : ℕ),
      Detects record (body.script (recorder lib) record position) ↔
        Heeds lib body .following record := by
  induction body with
  | done result =>
      intro record position
      cases result with
      | ok value => exact detects_ret_iff lib record position value
      | error exc => exact detects_raise_iff lib record position exc
  | ask command next ih =>
      intro record position
      cases hreject : command.reject with
      | some reply => rw [script_reject hreject, heeds_reject hreject, ih]
      | none =>
          cases record with
          | nil =>
              rw [script_live hreject, heeds_live hreject, recorder_live, live_reply]
              have hcommand := isCommand_live command position
              cases hhandoff : command.handsOff with
              | false =>
                  rw [Mode.next, if_neg (by simp [hhandoff]), ← ih _ _ (position + 1)]
                  rw [hhandoff] at hcommand
                  simp [Detects, follows_nil, commandKeys_cons_of_isCommand hcommand,
                    key_live hhandoff]
              | true =>
                  rw [Mode.next, if_pos ⟨rfl, hhandoff⟩, ← ne_ok_iff_heeds lib _ (position + 1)]
                  rw [hhandoff] at hcommand
                  exact detects_handedOff_iff hcommand (Program.length_events_le _ _ _ _)
          | cons event rest =>
              cases haccepts : (recorder lib).accepts event command with
              | true =>
                  rw [script_replayed hreject haccepts, heeds_replayed hreject haccepts,
                    recorder_recalled, ← ih _ _ (position + 1)]
                  have hkey := accepts_iff_key.mp haccepts
                  simp only [Detects, after_log, after_events, after_result, List.map_cons,
                    follows_cons_cons_iff, hkey, true_and, List.nil_append,
                    commandKeys_cons_of_isCommand (isCommand_of_accepts haccepts),
                    List.cons_append, List.cons.injEq]
              | false =>
                  rw [script_refused hreject haccepts, heeds_refused hreject haccepts,
                    ← isNonDeterminism_iff_heeds lib _ _ position]
                  refine detects_refused_iff fun hkey ↦ ?_
                  rw [accepts_iff_key.mpr hkey] at haccepts
                  cases haccepts

/-! ## One execution -/

theorem drop_start (wf : Workflow) (args : List Json) :
    (wf.start args).history.drop (wf.start args).cursor = recordOf wf.history := by
  obtain ⟨workflowId, history, cursor, log⟩ := wf
  cases history with
  | nil => rfl
  | cons first rest =>
      by_cases hfirst : first.type = .workflowStarted <;>
        simp [Workflow.start, recordOf, hfirst]

theorem script_eq_recordOf (lib : Library) (wf : Workflow) (body : Body) (args : List Json) :
    wf.script lib body args =
      body.script (recorder lib) (recordOf wf.history) (wf.start args).cursor := by
  rw [Workflow.script, drop_start]

theorem commandKeys_start (wf : Workflow) (args : List Json) :
    commandKeys (wf.start args).history = commandKeys (recordOf wf.history) := by
  obtain ⟨workflowId, history, cursor, log⟩ := wf
  cases history with
  | nil => rfl
  | cons first rest =>
      by_cases hfirst : first.type = .workflowStarted
      · have hnot : first.isCommand = false := by simp [Event.isCommand, hfirst]
        simp [Workflow.start, recordOf, hfirst, commandKeys_cons_of_not hnot]
      · simp [Workflow.start, recordOf, hfirst]

theorem commandKeys_closing (workflowId : String) (history : List Event)
    (result : Except Raised Json) : commandKeys (closing workflowId history result) = [] := by
  cases result with
  | error exc => rfl
  | ok value =>
      simp only [closing]
      split_ifs <;> rfl

theorem commandKeys_execute (lib : Library) (wf : Workflow) (body : Body) (args : List Json) :
    commandKeys (wf.execute lib body args).2.history =
      commandKeys (recordOf wf.history) ++ commandKeys (wf.script lib body args).events := by
  rw [history_execute, commandKeys_append, commandKeys_append, commandKeys_closing,
    commandKeys_start, List.append_nil]

/-- What an execution that raises adds to the history. -/
theorem not_completed_of_error {lib : Library} {wf : Workflow} {body : Body} {args : List Json}
    {exc : Raised} (h : (wf.execute lib body args).1 = .error exc) :
    ∀ event ∈ (wf.execute lib body args).2.history.drop wf.history.length,
      event.type ≠ .workflowCompleted := by
  rw [execute_fst] at h
  obtain ⟨opening, hstart, hopening⟩ := history_start wf args
  rw [history_execute, h, closing, List.append_nil, hstart, List.append_assoc,
    List.drop_left]
  intro event hevent
  rcases List.mem_append.mp hevent with hopened | hadded
  · simp [hopening event hopened]
  · exact type_ne_completed_of_mem_script hadded

/-- Divergence is detected exactly when the body heeds the record. -/
theorem divergence_detected_iff (lib : Library) (wf : Workflow) (body : Body)
    (args : List Json) :
    DivergenceDetected lib wf body args ↔
      Heeds lib body .following (recordOf wf.history) := by
  rw [← detects_iff_heeds lib body _ (wf.start args).cursor, ← script_eq_recordOf]
  have hissued : (wf.execute lib body args).2.issued =
      (wf.script lib body args).log.map Entry.key := by
    rw [Workflow.issued, log_execute]
  simp only [DivergenceDetected, Detects, hissued, commandKeys_execute, execute_fst]
  constructor
  · exact fun h ↦ ⟨h.1, fun hdiverged ↦ (h.2 hdiverged).1⟩
  · refine fun h ↦ ⟨h.1, fun hdiverged ↦ ?_⟩
    obtain ⟨detail, hresult⟩ := h.2 hdiverged
    exact ⟨⟨detail, hresult⟩, not_completed_of_error (by rw [execute_fst, hresult])⟩

section Sample

def recordedHistory : List Event :=
  [⟨0, .workflowStarted, "wf-1", .obj [("args", .arr [])]⟩,
    ⟨1, .activityCompleted, "A", .int 1⟩]

/-- A body that issues no command at all returns on a history that records one. -/
theorem early_return_undetected :
    ¬DivergenceDetected ⟨⟨fun _ ↦ "", fun _ ↦ "", fun _ ↦ none⟩, fun _ ↦ .error "", fun _ ↦ none⟩
      (.new "wf-1" recordedHistory) (.done (.ok .null)) [] := by
  rintro ⟨hissued, -⟩
  have hkeys := hissued .null rfl
  revert hkeys
  decide

end Sample

end AgenticSDLC.DurableOrchestrator
