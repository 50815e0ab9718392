import AgenticSDLC.Durable.CheckpointIntegrity

/-!
# The shape of a history

A history only grows at its end, its events are numbered by their places, it starts with
the start event and nothing comes after the closing one: a command never answers to a
closing event, so that replaying stops in front of it and nothing more is recorded.
-/

namespace AgenticSDLC.DurableOrchestrator

open Replay

/-- A new workflow, and whatever executions and resumptions from its own checkpoints make
of it. -/
inductive Workflow.Reachable (lib : Library) : Workflow → Prop where
  | fresh (workflowId : String) : Reachable lib (.new workflowId [])
  | executed {wf : Workflow} (h : Reachable lib wf) (body : Body) (args : List Json) :
      Reachable lib (wf.execute lib body args).2
  | resumed {wf other : Workflow} (h : Reachable lib wf) (hnative : NativePayloads wf.history)
      (hresume : resume lib (checkpoint lib wf) = .ok other) : Reachable lib other

structure WellFormed (history : List Event) : Prop where
  seq : ∀ (i : ℕ) (event : Event), history[i]? = some event → event.seq = i
  started : ∀ (i : ℕ) (event : Event), history[i]? = some event →
    event.type = .workflowStarted → i = 0
  completed : ∀ (i : ℕ) (event : Event), history[i]? = some event →
    event.type = .workflowCompleted → i + 1 = history.length

/-- Events that may come after a history that is not closed. -/
structure Extends (length : ℕ) (added : List Event) : Prop where
  seq : ∀ (i : ℕ) (event : Event), added[i]? = some event → event.seq = ((length + i : ℕ) : ℤ)
  started : ∀ event ∈ added, event.type ≠ .workflowStarted
  completed : ∀ (i : ℕ) (event : Event), added[i]? = some event →
    event.type = .workflowCompleted → i + 1 = added.length

section Shape

variable {history added : List Event}

theorem wellFormed_nil : WellFormed [] :=
  ⟨fun _ _ h ↦ (by cases h), fun _ _ h ↦ (by cases h), fun _ _ h ↦ (by cases h)⟩

theorem extends_nil (length : ℕ) : Extends length [] :=
  ⟨fun _ _ h ↦ (by cases h), fun _ h ↦ (by cases h), fun _ _ h ↦ (by cases h)⟩

theorem wellFormed_singleton {event : Event} (hseq : event.seq = 0) : WellFormed [event] := by
  have hzero : ∀ {i : ℕ} {other : Event}, [event][i]? = some other → i = 0 ∧ other = event := by
    intro i other h
    cases i with
    | zero => exact ⟨rfl, (Option.some.inj h).symm⟩
    | succ i => cases h
  refine ⟨fun i other h ↦ ?_, fun i other h _ ↦ (hzero h).1, fun i other h _ ↦ ?_⟩
  · obtain ⟨rfl, rfl⟩ := hzero h
    exact hseq
  · rw [(hzero h).1]
    rfl

theorem WellFormed.append (h : WellFormed history)
    (hopen : ∀ event ∈ history, event.type ≠ .workflowCompleted)
    (hadded : Extends history.length added) : WellFormed (history ++ added) := by
  have hcases : ∀ {i : ℕ} {event : Event}, (history ++ added)[i]? = some event →
      history[i]? = some event ∨ ∃ j, i = history.length + j ∧ added[j]? = some event := by
    intro i event hevent
    rcases lt_or_ge i history.length with hlt | hle
    · rw [List.getElem?_append_left hlt] at hevent
      exact Or.inl hevent
    · rw [List.getElem?_append_right hle] at hevent
      exact Or.inr ⟨i - history.length, by omega, hevent⟩
  refine ⟨fun i event hevent ↦ ?_, fun i event hevent htype ↦ ?_, fun i event hevent htype ↦ ?_⟩
  · rcases hcases hevent with hold | ⟨j, rfl, hnew⟩
    · exact h.seq i event hold
    · exact hadded.seq j event hnew
  · rcases hcases hevent with hold | ⟨j, -, hnew⟩
    · exact h.started i event hold htype
    · exact absurd htype (hadded.started event (List.mem_of_getElem? hnew))
  · rcases hcases hevent with hold | ⟨j, rfl, hnew⟩
    · exact absurd htype (hopen event (List.mem_of_getElem? hold))
    · have hlast := hadded.completed j event hnew htype
      rw [List.length_append]
      omega

/-- The order of keys in the payloads has no part in the shape. -/
theorem WellFormed.of_map_sortKeys {others : List Event} (h : WellFormed history)
    (hsame : others.map Event.sortKeys = history.map Event.sortKeys) : WellFormed others := by
  have hlength : others.length = history.length := by
    simpa using congrArg List.length hsame
  have hevent : ∀ {i : ℕ} {event : Event}, others[i]? = some event →
      ∃ old, history[i]? = some old ∧ event.seq = old.seq ∧ event.type = old.type := by
    intro i event h
    have hsorted : (history.map Event.sortKeys)[i]? = some event.sortKeys := by
      rw [← hsame, List.getElem?_map, h, Option.map_some]
    rw [List.getElem?_map] at hsorted
    obtain ⟨old, hold, heq⟩ := Option.map_eq_some_iff.mp hsorted
    obtain ⟨hseq, htype, -⟩ := keyOrder_event_iff.mp heq
    exact ⟨old, hold, hseq.symm, htype.symm⟩
  refine ⟨fun i event h' ↦ ?_, fun i event h' htype ↦ ?_, fun i event h' htype ↦ ?_⟩
  · obtain ⟨old, hold, hseq, -⟩ := hevent h'
    rw [hseq, h.seq i old hold]
  · obtain ⟨old, hold, -, htype'⟩ := hevent h'
    exact h.started i old hold (htype'.symm.trans htype)
  · obtain ⟨old, hold, -, htype'⟩ := hevent h'
    rw [hlength]
    exact h.completed i old hold (htype'.symm.trans htype)

end Shape

/-! ## One execution -/

section Execution

variable {lib : Library}

theorem seq_live (command : Command) (position : ℕ) : (command.live position).1.seq = position := by
  cases command with
  | durableTimer name seconds => rfl
  | runActivity activity =>
      rw [Command.live]
      split <;> rfl

theorem command_type_ne (command : Command) :
    command.type ≠ .workflowStarted ∧ command.type ≠ .workflowCompleted := by
  cases command <;> exact ⟨by simp [Command.type], by simp [Command.type]⟩

/-- No command is answered by a start or a closing event. -/
theorem blocks_of_completed {event : Event} (h : event.type = .workflowCompleted) :
    (recorder lib).Blocks event := by
  intro command
  have hne := (command_type_ne command).2
  simp [recorder, h, hne.symm]

variable (lib) in
theorem extends_script (wf : Workflow) (body : Body) (args : List Json) :
    Extends (wf.start args).history.length (wf.script lib body args).events ∧
      ∀ event ∈ (wf.script lib body args).events, event.type ≠ .workflowCompleted := by
  have hposition : (wf.start args).cursor +
      ((wf.start args).history.drop (wf.start args).cursor).length =
        (wf.start args).history.length := by
    have hle := cursor_start_le wf args
    rw [List.length_drop]
    omega
  have hcompleted : ∀ event ∈ (wf.script lib body args).events,
      event.type ≠ .workflowCompleted := fun event hevent ↦ type_ne_completed_of_mem_script hevent
  refine ⟨⟨fun i event hevent ↦ ?_, fun event hevent htype ↦ ?_, fun i event hevent htype ↦ ?_⟩,
    hcompleted⟩
  · obtain ⟨command, rfl⟩ := Program.exists_of_getElem?_events body _ _ i event hevent
    rw [recorder_live, seq_live, hposition]
  · obtain ⟨command, position, rfl⟩ := Program.exists_of_mem_events body _ _ event hevent
    rw [recorder_live] at htype
    rcases type_live command position with hsame | hhandoff
    · exact (command_type_ne command).1 (hsame.symm.trans htype)
    · cases hhandoff.symm.trans htype
  · exact absurd htype (hcompleted event (List.mem_of_getElem? hevent))

/-- A closing event stands past the cursor, where no command gets. -/
theorem script_events_of_completed {wf : Workflow} (body : Body) (args : List Json)
    {event : Event} (hevent : event ∈ (wf.start args).history)
    (htype : event.type = .workflowCompleted) : (wf.script lib body args).events = [] := by
  apply Program.events_eq_nil_of_blocks
  refine ⟨event, ?_, blocks_of_completed htype⟩
  obtain ⟨workflowId, history, cursor, log⟩ := wf
  cases history with
  | nil =>
      rw [List.mem_singleton.mp hevent] at htype
      cases htype
  | cons first rest =>
      by_cases hfirst : first.type = .workflowStarted
      · simp only [Workflow.start, hfirst, if_true, List.drop_succ_cons, List.drop_zero] at hevent ⊢
        rcases List.mem_cons.mp hevent with rfl | hrest
        · cases hfirst.symm.trans htype
        · exact hrest
      · simpa only [Workflow.start, if_neg hfirst, List.drop_zero] using hevent

theorem wellFormed_start {wf : Workflow} (h : WellFormed wf.history) (args : List Json) :
    WellFormed (wf.start args).history := by
  obtain ⟨workflowId, history, cursor, log⟩ := wf
  cases history with
  | nil => exact wellFormed_singleton rfl
  | cons first rest => exact h

theorem extends_closing (workflowId : String) (history : List Event) (result : Except Raised Json) :
    Extends history.length (closing workflowId history result) := by
  cases result with
  | error exc => exact extends_nil _
  | ok value =>
      rw [closing]
      split_ifs
      · exact extends_nil _
      · refine ⟨fun i event hevent ↦ ?_, fun event hevent ↦ ?_, fun i event hevent _ ↦ ?_⟩
        · cases i with
          | zero => rw [← Option.some.inj hevent, Nat.add_zero]
          | succ i => cases hevent
        · rw [List.mem_singleton.mp hevent]
          simp
        · cases i with
          | zero => rfl
          | succ i => cases hevent

theorem wellFormed_execute {wf : Workflow} (h : WellFormed wf.history) (body : Body)
    (args : List Json) : WellFormed (wf.execute lib body args).2.history := by
  have hstart := wellFormed_start h args
  rw [history_execute]
  by_cases hopen : ∀ event ∈ (wf.start args).history, event.type ≠ .workflowCompleted
  · obtain ⟨hadded, hcommands⟩ := extends_script lib wf body args
    refine (hstart.append hopen hadded).append (fun event hevent ↦ ?_) (extends_closing _ _ _)
    rcases List.mem_append.mp hevent with hold | hnew
    · exact hopen event hold
    · exact hcommands event hnew
  · push Not at hopen
    obtain ⟨event, hevent, htype⟩ := hopen
    have hclosed : closing wf.workflowId (wf.start args).history
        (wf.script lib body args).result = [] := by
      cases (wf.script lib body args).result with
      | error exc => rfl
      | ok value => exact if_pos (List.any_eq_true.mpr ⟨event, hevent, by simp [htype]⟩)
    rw [script_events_of_completed body args hevent htype, List.append_nil, hclosed, List.append_nil]
    exact hstart

theorem prefix_execute (wf : Workflow) (body : Body) (args : List Json) :
    wf.history <+: (wf.execute lib body args).2.history := by
  obtain ⟨opening, hopening, -⟩ := history_start wf args
  rw [history_execute, hopening, List.append_assoc, List.append_assoc]
  exact List.prefix_append _ _

theorem wellFormed_of_reachable {toFloat : String → Json} (hjson : lib.ReadsJson toFloat)
    {wf : Workflow} (h : wf.Reachable lib) : WellFormed wf.history := by
  induction h with
  | fresh workflowId => exact wellFormed_nil
  | executed _ body args ih => exact wellFormed_execute ih body args
  | resumed _ hnative hresume ih =>
      rw [resume_checkpoint (readsBack_of_native hjson hnative)] at hresume
      rw [← Except.ok.inj hresume]
      apply ih.of_map_sortKeys
      simp [Workflow.new, Function.comp_def]

/-- A reachable history is well formed, and executing only adds to its end. -/
theorem history_append_only {toFloat : String → Json} (hjson : lib.ReadsJson toFloat)
    {wf : Workflow} (h : wf.Reachable lib) :
    WellFormed wf.history ∧
      ∀ body args, wf.history <+: (wf.execute lib body args).2.history :=
  ⟨wellFormed_of_reachable hjson h, prefix_execute wf⟩

theorem history_append_only_sample :
    WellFormed ((Workflow.new "wf-1" []).execute readingLibrary waitingBody []).2.history ∧
      ∀ body args, ((Workflow.new "wf-1" []).execute readingLibrary waitingBody []).2.history <+:
        (((Workflow.new "wf-1" []).execute readingLibrary waitingBody []).2.execute readingLibrary
          body args).2.history :=
  history_append_only readingLibrary_readsJson (.executed (.fresh "wf-1") waitingBody [])

end Execution

end AgenticSDLC.DurableOrchestrator
