import AgenticSDLC.Durable.CrashReplay

/-!
# Replaying a hand-off

A hand-off is recorded as an event of its own type, and the replay answers a
command only with the type the command asks for.  So the command that handed off
is refused, whatever the body.
-/

namespace AgenticSDLC.DurableOrchestrator

open Replay

section Handoff

variable (lib : Library) (workflowId : String) (args : List Json) (body : Body)

/-- The uncrashed run ends in a hand-off of the activity `name`: its event is the
last one, and the body lets it pass. -/
structure HandsOff (handoff : Handoff) (name : String) : Prop where
  raised : (uncrashed lib workflowId args body).1 = .error (.handoff handoff)
  recorded : ∃ seq, (uncrashed lib workflowId args body).2.history.getLast? =
    some ⟨seq, .workflowHandoff, name, handoffPayload handoff⟩

def SameHandoff (handoff : Handoff) : Except Raised Json → Prop
  | .error (.handoff other) =>
      other.reason = handoff.reason ∧ other.attempts = handoff.attempts
  | _ => False

/-- Executed again on its recorded history, the workflow hands off in the same
way: the function of the activity is not called and no command is refused. -/
def HandoffDurable (handoff : Handoff) (name : String) : Prop :=
  ∃ wf, resume lib (checkpoint lib (uncrashed lib workflowId args body).2) = .ok wf ∧
    SameHandoff handoff (wf.execute lib body args).1 ∧
    (∀ entry ∈ (wf.execute lib body args).2.log,
      entry.answer = .live → entry.key ≠ (.activityCompleted, name)) ∧
    ∀ entry ∈ (wf.execute lib body args).2.log, entry.answer ≠ .refused

end Handoff

variable {lib : Library} {workflowId : String} {args : List Json} {body : Body}
  {handoff : Handoff} {name : String}

theorem handoff_mem_events (h : HandsOff lib workflowId args body handoff name) :
    (uncrashed lib workflowId args body).2.history =
        startedEvent workflowId args :: (body.script (recorder lib) [] 1).events ∧
      ∃ event ∈ (body.script (recorder lib) [] 1).events, event.type = .workflowHandoff := by
  have hresult : (body.script (recorder lib) [] 1).result = .error (.handoff handoff) := by
    simpa [uncrashed, script_new_nil] using h.raised
  have hhistory := history_uncrashed lib workflowId args body
  rw [hresult, closing, List.append_nil] at hhistory
  refine ⟨hhistory, ?_⟩
  obtain ⟨seq, hlast⟩ := h.recorded
  rw [hhistory] at hlast
  rcases List.mem_cons.mp (List.mem_of_getLast? hlast) with hstarted | hevent
  · cases hstarted
  · exact ⟨_, hevent, rfl⟩

theorem resume_handoff (h : HandsOff lib workflowId args body handoff name)
    (hjson : lib.ReadsBack (uncrashed lib workflowId args body).2) :
    resume lib (checkpoint lib (uncrashed lib workflowId args body).2) =
      .ok (.new workflowId ((startedEvent workflowId args).sortKeys ::
        (body.script (recorder lib) [] 1).events.map Event.sortKeys)) := by
  rw [resume_checkpoint hjson, (handoff_mem_events h).1, uncrashed, workflowId_execute]
  rfl

/-- The hand-off survives the replay exactly when the body raises it by itself
on the recorded results, before it asks for a command the record does not
answer; a body that cannot see the order of keys never does. -/
theorem handoff_durable_iff (h : HandsOff lib workflowId args body handoff name)
    (hjson : lib.ReadsBack (uncrashed lib workflowId args body).2) :
    (HandoffDurable lib workflowId args body handoff name ↔
        body.EndsOn (recorder lib) (SameHandoff handoff)
          ((uncrashed lib workflowId args body).2.history.tail.map Event.sortKeys)) ∧
      (KeyOrderBlind body → ¬HandoffDurable lib workflowId args body handoff name) := by
  obtain ⟨hhistory, event, hevent, htype⟩ := handoff_mem_events h
  have hfirst : (startedEvent workflowId args).sortKeys.type = .workflowStarted := rfl
  have hblocks : ∃ e ∈ (body.script (recorder lib) [] 1).events.map Event.sortKeys,
      (recorder lib).Blocks e :=
    ⟨event.sortKeys, List.mem_map_of_mem hevent, blocks_of_type htype⟩
  have hiff : HandoffDurable lib workflowId args body handoff name ↔
      body.EndsOn (recorder lib) (SameHandoff handoff)
        ((uncrashed lib workflowId args body).2.history.tail.map Event.sortKeys) := by
    rw [hhistory, List.tail_cons, ← Program.endsOn_iff body _ 1 hblocks]
    constructor
    · rintro ⟨wf, hresume, hsame, -, hrefused⟩
      rw [resume_handoff h hjson] at hresume
      obtain rfl := Except.ok.inj hresume
      rw [execute_fst, script_started lib body hfirst] at hsame
      rw [log_execute, script_started lib body hfirst] at hrefused
      exact ⟨hsame, hrefused⟩
    · rintro ⟨hsame, hrefused⟩
      refine ⟨_, resume_handoff h hjson, ?_, ?_, ?_⟩
      · rwa [execute_fst, script_started lib body hfirst]
      · rw [log_execute, script_started lib body hfirst]
        exact fun entry hentry hlive ↦
          absurd hlive (Program.ne_live_of_blocks body _ 1 hblocks entry hentry)
      · rwa [log_execute, script_started lib body hfirst]
  refine ⟨hiff, fun hblind hdurable ↦ ?_⟩
  have hends := hiff.mp hdurable
  rw [hhistory, List.tail_cons] at hends
  refine hblind.not_endsOn (respects_keyOrder lib) 1 _ (forall₂_sortKeys _) ?_
    ⟨event, hevent, blocks_of_type htype⟩ hends
  intro other _
  by_cases hother : other.type = .workflowHandoff
  · exact Or.inl (blocks_of_type hother)
  · exact Or.inr (repeats_of_type hother)

section Sample

def failingBody : Body :=
  .ask (.runActivity
    { name := "deploy"
      policy := ⟨2, [], by decide⟩
      fn := fun _ ↦ .failed ⟨"RuntimeError", "permanent"⟩ }) .done

def deployHandoff : Handoff :=
  retryBudgetExhausted "deploy" 2 (some ⟨"RuntimeError", "permanent"⟩)

def failingLibrary : Library :=
  let lib := sampleLibrary "cbabfb763dd7081fa38b56d359be150564378b580231e41876b6923858e416b9"
  lib.reading (uncrashed lib "wf-1" [] failingBody).2

theorem failingBody_handsOff :
    HandsOff failingLibrary "wf-1" [] failingBody deployHandoff "deploy" :=
  ⟨rfl, 1, rfl⟩

theorem handoff_durable_sample :
    (HandoffDurable failingLibrary "wf-1" [] failingBody deployHandoff "deploy" ↔
        failingBody.EndsOn (recorder failingLibrary) (SameHandoff deployHandoff)
          ((uncrashed failingLibrary "wf-1" [] failingBody).2.history.tail.map
            Event.sortKeys)) ∧
      (KeyOrderBlind failingBody →
        ¬HandoffDurable failingLibrary "wf-1" [] failingBody deployHandoff "deploy") :=
  handoff_durable_iff failingBody_handsOff (readsBack_reading _ _)

/-- The resumed workflow answers the activity with `NonDeterminismError`. -/
theorem handoff_not_replayed :
    HandsOff failingLibrary "wf-1" [] failingBody deployHandoff "deploy" ∧
      failingLibrary.ReadsBack (uncrashed failingLibrary "wf-1" [] failingBody).2 ∧
      ¬HandoffDurable failingLibrary "wf-1" [] failingBody deployHandoff "deploy" := by
  refine ⟨failingBody_handsOff, readsBack_reading _ _, ?_⟩
  rintro ⟨wf, hresume, hsame, -⟩
  rw [resume_handoff failingBody_handsOff (readsBack_reading _ _)] at hresume
  obtain rfl := Except.ok.inj hresume
  exact hsame

end Sample

end AgenticSDLC.DurableOrchestrator
