import AgenticSDLC.Durable.Orchestrator

/-!
# The engine as a recorder

The cursor, the history and the log of the engine do what the recorder below
says: running a body is its script on the record from the cursor on.  With this
the rest of the development speaks of scripts only.
-/

namespace AgenticSDLC.DurableOrchestrator

open Replay

namespace Command

def type : Command → EventType
  | runActivity _ => .activityCompleted
  | durableTimer _ _ => .timerFired

def name : Command → String
  | runActivity activity => activity.name
  | durableTimer name _ => name

/-- The event a command leaves at a position of the history, and its reply. -/
def live : Command → ℕ → Event × Except Raised Json
  | runActivity activity, position =>
      match (DurableOrchestrator.runActivity activity).1 with
      | .ok value => (⟨position, .activityCompleted, activity.name, value⟩, .ok value)
      | .error handoff =>
          (⟨position, .workflowHandoff, activity.name, handoffPayload handoff⟩,
            .error (.handoff handoff))
  | durableTimer name seconds, position =>
      (⟨position, .timerFired, name, timerMarker name seconds⟩, .ok (timerMarker name seconds))

def reject : Command → Option (Except Raised Json)
  | runActivity _ => none
  | durableTimer _ seconds => if seconds.isNegative then some (.error negativeTimer) else none

end Command

def recorder (lib : Library) : Recorder Command (Except Raised Json) Event CommandKey where
  key command := (command.type, command.name)
  reject := Command.reject
  accepts event command := event.type = command.type ∧ event.name = command.name
  recalled event := .ok event.payload
  refuse command event := .error (replayDivergence lib event command.type command.name)
  live := Command.live

section Recorder

variable (lib : Library) (command : Command) (event : Event)

@[simp] theorem recorder_key :
    (recorder lib).key command = (command.type, command.name) := rfl

@[simp] theorem recorder_reject : (recorder lib).reject command = command.reject := rfl

@[simp] theorem recorder_accepts :
    (recorder lib).accepts event command = true ↔
      event.type = command.type ∧ event.name = command.name := by
  simp [recorder]

@[simp] theorem recorder_recalled : (recorder lib).recalled event = .ok event.payload := rfl

@[simp] theorem recorder_refuse :
    (recorder lib).refuse command event =
      .error (replayDivergence lib event command.type command.name) := rfl

@[simp] theorem recorder_live (position : ℕ) :
    (recorder lib).live command position = command.live position := rfl

end Recorder

/-- The answer to a command at a recorded event. -/
def Workflow.answerFrom (lib : Library) (wf : Workflow) (event : Event) (command : Command) :
    Except Raised Json × Workflow :=
  if (recorder lib).accepts event command then
    (.ok event.payload,
      { wf.note command.type command.name .replayed with cursor := wf.cursor + 1 })
  else
    (.error (replayDivergence lib event command.type command.name),
      wf.note command.type command.name .refused)

section Step

variable {lib : Library} {wf : Workflow} {command : Command}

theorem issue_of_reject {reply : Except Raised Json} (h : command.reject = some reply) :
    wf.issue lib command = (reply, wf) := by
  cases command with
  | runActivity activity => cases h
  | durableTimer name seconds =>
      simp only [Command.reject] at h
      split_ifs at h with hnegative
      cases h
      simp [Workflow.issue, Workflow.durableTimer, hnegative]

theorem replayOrExecute_of_recorded (command : Command) {event : Event}
    (hevent : wf.history[wf.cursor]? = some event)
    (produce : Workflow → Except Raised Json × Workflow) :
    wf.replayOrExecute lib command.type command.name produce =
      wf.answerFrom lib event command := by
  by_cases htype : event.type = command.type <;> by_cases hname : event.name = command.name <;>
    simp [Workflow.replayOrExecute, Workflow.answerFrom, hevent, htype, hname]

theorem issue_of_recorded (hreject : command.reject = none) {event : Event}
    (hevent : wf.history[wf.cursor]? = some event) :
    wf.issue lib command = wf.answerFrom lib event command := by
  cases command with
  | runActivity activity => exact replayOrExecute_of_recorded (.runActivity activity) hevent _
  | durableTimer name seconds =>
      have hnegative : ¬seconds.isNegative = true := by
        simpa [Command.reject] using hreject
      rw [Workflow.issue, Workflow.durableTimer, if_neg hnegative]
      exact replayOrExecute_of_recorded (.durableTimer name seconds) hevent _

theorem issue_of_frontier (hreject : command.reject = none)
    (hcursor : wf.cursor = wf.history.length) :
    wf.issue lib command =
      ((command.live wf.cursor).2,
        { wf.note command.type command.name .live with
          history := wf.history ++ [(command.live wf.cursor).1]
          cursor := wf.cursor + 1 }) := by
  cases command with
  | runActivity activity =>
      cases houtcome : (runActivity activity).1 with
      | ok value =>
          simp [Workflow.issue, Workflow.runActivity, Workflow.replayOrExecute,
            Activity.produce, houtcome, Command.live, Workflow.note, Workflow.record,
            Workflow.toFrontier, hcursor, Command.type, Command.name]
      | error handoff =>
          simp [Workflow.issue, Workflow.runActivity, Workflow.replayOrExecute,
            Activity.produce, houtcome, Command.live, Workflow.note, Workflow.record,
            Workflow.toFrontier, hcursor, Command.type, Command.name]
  | durableTimer name seconds =>
      have hnegative : seconds.isNegative = false := by
        simpa [Command.reject] using hreject
      simp [Workflow.issue, Workflow.durableTimer, hnegative, Workflow.replayOrExecute,
        Command.live, Workflow.note, Workflow.record, Workflow.toFrontier, hcursor, Command.type,
        Command.name]

end Step

def Workflow.afterScript (wf : Workflow)
    (script : Script CommandKey Event (Except Raised Json)) : Workflow :=
  { wf with
    history := wf.history ++ script.events
    cursor := script.stop
    log := wf.log ++ script.log }

/-- Running a body is its script on the history from the cursor on. -/
theorem run_eq_script (lib : Library) (body : Body) :
    ∀ wf : Workflow, wf.cursor ≤ wf.history.length →
      wf.run lib body =
        ((body.script (recorder lib) (wf.history.drop wf.cursor) wf.cursor).result,
          wf.afterScript (body.script (recorder lib) (wf.history.drop wf.cursor) wf.cursor)) := by
  induction body with
  | done result =>
      intro wf _
      simp [Workflow.run, Workflow.afterScript]
  | ask command next ih =>
      intro wf hcursor
      cases hreject : command.reject with
      | some reply =>
          rw [Workflow.run, issue_of_reject hreject, script_reject hreject]
          exact ih reply wf hcursor
      | none =>
          cases hrecord : wf.history.drop wf.cursor with
          | nil =>
              have hfrontier : wf.cursor = wf.history.length :=
                le_antisymm hcursor (List.drop_eq_nil_iff.mp hrecord)
              rw [Workflow.run, issue_of_frontier hreject hfrontier, script_live hreject]
              apply (ih _ _ (by simp [hfrontier])).trans
              have hdrop :
                  (wf.history ++ [(command.live wf.cursor).1]).drop (wf.cursor + 1) = [] := by
                simp [hfrontier]
              simp [Workflow.afterScript, Workflow.note, hdrop]
          | cons event rest =>
              have hhead : (wf.history.drop wf.cursor)[0]? = some event := by
                rw [hrecord]
                rfl
              have hevent : wf.history[wf.cursor]? = some event := by
                simpa using hhead
              have hlt : wf.cursor < wf.history.length := (List.getElem?_eq_some_iff.mp hevent).1
              have hrest : wf.history.drop (wf.cursor + 1) = rest := by
                rw [← List.drop_drop, hrecord]
                rfl
              cases haccepts : (recorder lib).accepts event command with
              | true =>
                  rw [Workflow.run, issue_of_recorded hreject hevent, Workflow.answerFrom,
                    if_pos haccepts, script_replayed hreject haccepts]
                  apply (ih _ _ (by exact hlt)).trans
                  simp [Workflow.afterScript, Workflow.note, hrest]
              | false =>
                  rw [Workflow.run, issue_of_recorded hreject hevent, Workflow.answerFrom,
                    if_neg (ne_true_of_eq_false haccepts), script_refused hreject haccepts]
                  apply (ih _ _ (by exact hcursor)).trans
                  simp [Workflow.afterScript, Workflow.note, hrecord]

/-! ## One execution -/

def Workflow.script (lib : Library) (wf : Workflow) (body : Body) (args : List Json) :
    Script CommandKey Event (Except Raised Json) :=
  body.script (recorder lib) ((wf.start args).history.drop (wf.start args).cursor)
    (wf.start args).cursor

theorem cursor_start_le (wf : Workflow) (args : List Json) :
    (wf.start args).cursor ≤ (wf.start args).history.length := by
  unfold Workflow.start
  split
  · simp [Workflow.toFrontier]
  · next first rest hhistory =>
      split_ifs <;> simp [hhistory]

/-- `execute` begins by adding nothing but a start event. -/
theorem history_start (wf : Workflow) (args : List Json) :
    ∃ opening, (wf.start args).history = wf.history ++ opening ∧
      ∀ event ∈ opening, event.type = .workflowStarted := by
  obtain ⟨workflowId, history, cursor, log⟩ := wf
  cases history with
  | nil =>
      refine ⟨[⟨0, .workflowStarted, workflowId, .obj [("args", .arr args)]⟩], rfl, ?_⟩
      simp
  | cons first rest => exact ⟨[], (List.append_nil _).symm, by simp⟩

@[simp] theorem log_start (wf : Workflow) (args : List Json) : (wf.start args).log = [] := by
  unfold Workflow.start
  split <;> rfl

@[simp] theorem workflowId_start (wf : Workflow) (args : List Json) :
    (wf.start args).workflowId = wf.workflowId := by
  unfold Workflow.start
  split <;> rfl

@[simp] theorem workflowId_finish (wf : Workflow) (result : Json) :
    (wf.finish result).workflowId = wf.workflowId := by
  unfold Workflow.finish
  split_ifs <;> rfl

@[simp] theorem log_finish (wf : Workflow) (result : Json) : (wf.finish result).log = wf.log := by
  unfold Workflow.finish
  split_ifs <;> rfl

section Execute

variable (lib : Library) (wf : Workflow) (body : Body) (args : List Json)

theorem execute_eq :
    wf.execute lib body args =
      match (wf.script lib body args).result with
      | .ok result =>
          (.ok result,
            ((wf.start args).afterScript (wf.script lib body args)).finish result)
      | .error exc => (.error exc, (wf.start args).afterScript (wf.script lib body args)) := by
  rw [Workflow.execute, run_eq_script lib body _ (cursor_start_le wf args), ← Workflow.script]
  cases (wf.script lib body args).result <;> rfl

@[simp] theorem execute_fst :
    (wf.execute lib body args).1 = (wf.script lib body args).result := by
  rw [execute_eq]
  cases (wf.script lib body args).result <;> rfl

@[simp] theorem log_execute :
    (wf.execute lib body args).2.log = (wf.script lib body args).log := by
  rw [execute_eq]
  cases (wf.script lib body args).result <;> simp [Workflow.afterScript]

@[simp] theorem workflowId_execute :
    (wf.execute lib body args).2.workflowId = wf.workflowId := by
  rw [execute_eq]
  cases (wf.script lib body args).result <;> simp [Workflow.afterScript]

/-- The event `execute` closes a history with, if any. -/
def closing (workflowId : String) (history : List Event) : Except Raised Json → List Event
  | .ok result =>
      if history.any fun event ↦ event.type = .workflowCompleted then []
      else [⟨history.length, .workflowCompleted, workflowId, .obj [("result", result)]⟩]
  | .error _ => []

theorem history_execute :
    (wf.execute lib body args).2.history =
      (wf.start args).history ++ (wf.script lib body args).events ++
        closing wf.workflowId ((wf.start args).history ++ (wf.script lib body args).events)
          (wf.script lib body args).result := by
  rw [execute_eq]
  cases (wf.script lib body args).result with
  | error exc => simp [Workflow.afterScript, closing]
  | ok result =>
      simp only [Workflow.finish, Workflow.afterScript, closing, workflowId_start]
      split_ifs <;> simp [Workflow.record]

end Execute

theorem type_live (command : Command) (position : ℕ) :
    (command.live position).1.type = command.type ∨
      (command.live position).1.type = .workflowHandoff := by
  cases command with
  | runActivity activity =>
      cases houtcome : (runActivity activity).1 with
      | ok value => exact Or.inl (by simp [Command.live, houtcome, Command.type])
      | error handoff => exact Or.inr (by simp [Command.live, houtcome])
  | durableTimer name seconds => exact Or.inl rfl

theorem type_ne_completed_of_mem_script {lib : Library} {wf : Workflow} {body : Body}
    {args : List Json} {event : Event} (h : event ∈ (wf.script lib body args).events) :
    event.type ≠ .workflowCompleted := by
  obtain ⟨command, position, rfl⟩ := Program.exists_of_mem_events body _ _ event h
  rcases type_live command position with htype | htype <;> rw [recorder_live, htype]
  · cases command <;> simp [Command.type]
  · simp

end AgenticSDLC.DurableOrchestrator
