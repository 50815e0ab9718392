import AgenticSDLC.Durable.Recording

/-!
# Crash and replay

A checkpoint gives every payload back with the members of its objects in the
order of their keys.  A body that cannot see that order is resumed without a
trace; a hand-off is not, since no command is answered by its event.
-/

namespace AgenticSDLC.DurableOrchestrator

open Replay

/-! ## The round trip -/

def Event.sortKeys (event : Event) : Event := { event with payload := event.payload.sortKeys }

@[simp] theorem Event.type_sortKeys (event : Event) : event.sortKeys.type = event.type := rfl

@[simp] theorem Event.sortKeys_sortKeys (event : Event) :
    event.sortKeys.sortKeys = event.sortKeys := by
  simp [sortKeys]

/-- `json.loads` gives back what `json.dumps` wrote for this workflow, with the
members of each object in the order of the text. -/
def Library.ReadsBack (lib : Library) (wf : Workflow) : Prop :=
  lib.loads (checkpoint lib wf) = .ok (wf.blobObject lib).sortKeys

theorem sortKeys_toDict (event : Event) :
    event.toDict.sortKeys =
      .obj [("name", .str event.name), ("payload", event.payload.sortKeys),
        ("seq", .int event.seq), ("type", .str event.type.text)] := by
  simp [Event.toDict, Python.sortedBy]

theorem sortKeys_toDict_sortKeys (event : Event) :
    event.sortKeys.toDict.sortKeys = event.toDict.sortKeys := by
  simp [sortKeys_toDict, Event.sortKeys]

theorem sortKeys_blobObject (lib : Library) (wf : Workflow) :
    (wf.blobObject lib).sortKeys =
      .obj [("history", .arr (wf.history.map fun event ↦ event.toDict.sortKeys)),
        ("history_hash", .str (historyHash lib wf.history)), ("version", .int blobVersion),
        ("workflow_id", .str wf.workflowId)] := by
  simp [Workflow.blobObject, Python.sortedBy, Function.comp_def]

theorem historyHash_sortKeys (lib : Library) (history : List Event) :
    historyHash lib (history.map Event.sortKeys) = historyHash lib history := by
  have hsorted : (Json.arr ((history.map Event.sortKeys).map Event.toDict)).sortKeys =
      (Json.arr (history.map Event.toDict)).sortKeys := by
    simp [sortKeys_toDict_sortKeys, Function.comp_def]
  rw [historyHash, historyHash, ← Json.dumps_sortKeys, hsorted, Json.dumps_sortKeys]

theorem fromDict_toDict (lib : Library) (event : Event) :
    Event.fromDict lib event.toDict.sortKeys = .ok event.sortKeys := by
  rw [sortKeys_toDict]
  simp [Event.fromDict, Python.subscript, List.lookup_cons, toInt, Python.asDict, Python.str,
    Python.get, Event.sortKeys]

theorem mapM_fromDict (lib : Library) (history : List Event) :
    history.mapM (Event.fromDict lib ∘ fun event ↦ event.toDict.sortKeys) =
      .ok (history.map Event.sortKeys) := by
  induction history with
  | nil => rfl
  | cons event history ih =>
      rw [List.mapM_cons, Function.comp_apply, fromDict_toDict, ih]
      rfl

theorem resume_checkpoint {lib : Library} {wf : Workflow} (h : lib.ReadsBack wf) :
    resume lib (checkpoint lib wf) =
      .ok (.new wf.workflowId (wf.history.map Event.sortKeys)) := by
  rw [Library.ReadsBack, sortKeys_blobObject] at h
  simp [resume, h, Python.asDict, Python.get, Python.getD, List.lookup_cons, isBlobVersion,
    mapM_fromDict, historyHash_sortKeys, Python.str, Except.mapError]
  rfl

/-! ## Bodies that cannot see the order of keys -/

def Attempt.sortKeys : Attempt → Attempt
  | .returned value => .returned value.sortKeys
  | attempt => attempt

/-- The same command, up to the order of keys in what its function returns. -/
inductive Command.Alike : Command → Command → Prop where
  | runActivity (name : String) (policy : RetryPolicy) {fn fn' : ℕ → Attempt}
      (h : ∀ n, (fn n).sortKeys = (fn' n).sortKeys) :
      Alike (.runActivity ⟨name, policy, fn⟩) (.runActivity ⟨name, policy, fn'⟩)
  | durableTimer (name : String) (seconds : Decimal) :
      Alike (.durableTimer name seconds) (.durableTimer name seconds)

/-- What is equal up to the order of keys: dictionaries as Python compares them. -/
def keyOrder : Equivalences Command (Except Raised Json) (Except Raised Json) Event where
  command := Command.Alike
  reply reply reply' := reply.map Json.sortKeys = reply'.map Json.sortKeys
  result result result' := result.map Json.sortKeys = result'.map Json.sortKeys
  event event event' := event.sortKeys = event'.sortKeys

theorem keyOrder_event_iff {event event' : Event} :
    keyOrder.event event event' ↔ event.seq = event'.seq ∧ event.type = event'.type ∧
      event.name = event'.name ∧ event.payload.sortKeys = event'.payload.sortKeys := by
  simp [keyOrder, Event.sortKeys]

theorem keyOrder_reply_ok {value value' : Json} (h : value.sortKeys = value'.sortKeys) :
    keyOrder.reply (.ok value) (.ok value') :=
  congrArg Except.ok h

/-- The commands and the result of the body do not depend on the order in which
the members of the objects in earlier results come. -/
def KeyOrderBlind (body : Body) : Prop := Program.Alike keyOrder body body

theorem Attempt.alike_cases {attempt attempt' : Attempt}
    (h : attempt.sortKeys = attempt'.sortKeys) :
    attempt = attempt' ∨ ∃ value value', attempt = .returned value ∧
      attempt' = .returned value' ∧ value.sortKeys = value'.sortKeys := by
  cases attempt with
  | returned value =>
      cases attempt' with
      | returned value' => exact Or.inr ⟨value, value', rfl, rfl, by simpa [sortKeys] using h⟩
      | _ => cases h
  | handedOff handoff => cases attempt' <;> simp_all [sortKeys]
  | failed exc => cases attempt' <;> simp_all [sortKeys]

theorem attempt_alike (name : String) (policy : RetryPolicy) {fn fn' : ℕ → Attempt}
    (h : ∀ n, (fn n).sortKeys = (fn' n).sortKeys) (left : ℕ) :
    ∀ (made : ℕ) (lastError : Option Python.Exception),
      ((Activity.mk name policy fn).attempt left made lastError).1.map Json.sortKeys =
        ((Activity.mk name policy fn').attempt left made lastError).1.map Json.sortKeys := by
  induction left with
  | zero => exact fun made lastError ↦ rfl
  | succ left ih =>
      intro made lastError
      simp only [Activity.attempt]
      rcases Attempt.alike_cases (h (made + 1)) with heq | ⟨value, value', hfn, hfn', hvalue⟩
      · rw [heq]
        cases fn' (made + 1) with
        | returned value => rfl
        | handedOff handoff => rfl
        | failed exc =>
            dsimp only
            split_ifs
            · rfl
            · exact ih (made + 1) (some exc)
      · rw [hfn, hfn']
        exact congrArg Except.ok hvalue

theorem live_alike {command command' : Command} (h : command.Alike command') (position : ℕ) :
    (command.live position).1.sortKeys = (command'.live position).1.sortKeys ∧
      (command.live position).2.map Json.sortKeys =
        (command'.live position).2.map Json.sortKeys := by
  cases h with
  | durableTimer name seconds => exact ⟨rfl, rfl⟩
  | @runActivity name policy fn fn' hfn =>
      have houtcome := attempt_alike name policy hfn policy.maxAttempts 0 none
      unfold Command.live runActivity
      dsimp only
      generalize ((Activity.mk name policy fn).attempt policy.maxAttempts 0 none).1 = outcome
        at houtcome
      generalize ((Activity.mk name policy fn').attempt policy.maxAttempts 0 none).1 = outcome'
        at houtcome
      cases outcome with
      | ok value =>
          cases outcome' with
          | ok value' =>
              have hvalue : value.sortKeys = value'.sortKeys := Except.ok.inj houtcome
              simp [Event.sortKeys, Except.map, hvalue]
          | error handoff => cases houtcome
      | error handoff =>
          cases outcome' with
          | ok value' => cases houtcome
          | error handoff' =>
              obtain rfl : handoff = handoff' := Except.error.inj houtcome
              exact ⟨rfl, rfl⟩

theorem respects_keyOrder (lib : Library) : (recorder lib).Respects keyOrder where
  reject := by
    rintro command command' (_ | _) reply hreply
    · cases hreply
    · exact ⟨reply, hreply, rfl⟩
  unrejected := by
    rintro command command' (_ | _) hnone
    · rfl
    · exact hnone
  accepts := by
    intro command command' event event' hcommand hevent
    obtain ⟨-, htype, hname, -⟩ := keyOrder_event_iff.mp hevent
    rw [Bool.eq_iff_iff, recorder_accepts, recorder_accepts, htype, hname]
    cases hcommand <;> rfl
  recalled := by
    intro event event' hevent
    obtain ⟨-, -, -, hpayload⟩ := keyOrder_event_iff.mp hevent
    exact keyOrder_reply_ok hpayload
  live := fun position hcommand ↦ live_alike hcommand position

/-- Every event but a hand-off answers the command that left it. -/
theorem repeats_of_type {lib : Library} {event : Event} (h : event.type ≠ .workflowHandoff) :
    (recorder lib).Repeats keyOrder event := by
  rintro command position rfl
  simp only [recorder_live] at h ⊢
  cases command with
  | durableTimer name seconds =>
      refine ⟨by simp [Command.live, Command.type, Command.name], fun event' hevent ↦ ?_⟩
      exact keyOrder_reply_ok (keyOrder_event_iff.mp hevent).2.2.2
  | runActivity activity =>
      cases houtcome : (runActivity activity).1 with
      | ok value =>
          simp only [Command.live, houtcome]
          refine ⟨by simp [Command.type, Command.name], fun event' hevent ↦ ?_⟩
          exact keyOrder_reply_ok (keyOrder_event_iff.mp hevent).2.2.2
      | error handoff => simp [Command.live, houtcome] at h

theorem blocks_of_type {lib : Library} {event : Event} (h : event.type = .workflowHandoff) :
    (recorder lib).Blocks event := by
  intro command
  cases command <;> simp [recorder, Command.type, h]

/-! ## Crashes -/

section Crash

variable (lib : Library) (workflowId : String) (args : List Json) (body : Body)

def uncrashed : Except Raised Json × Workflow :=
  (Workflow.new workflowId []).execute lib body args

/-- The workflow is checkpointed on the history `crash`, resumed, and executed to
the end: the result and the history are those of the uncrashed run, and nothing
is executed whose event is in `crash`. -/
def ReplayInvisible (crash : List Event) : Prop :=
  ∃ wf, resume lib (checkpoint lib (.new workflowId crash)) = .ok wf ∧
    (wf.execute lib body args).1.map Json.sortKeys =
      (uncrashed lib workflowId args body).1.map Json.sortKeys ∧
    (wf.execute lib body args).2.history.map Event.sortKeys =
      (uncrashed lib workflowId args body).2.history.map Event.sortKeys ∧
    ∀ entry ∈ (wf.execute lib body args).2.log,
      entry.answer = .live → crash.length ≤ entry.position

def startedEvent : Event := ⟨0, .workflowStarted, workflowId, .obj [("args", .arr args)]⟩

theorem script_new_nil :
    (Workflow.new workflowId []).script lib body args = body.script (recorder lib) [] 1 := rfl

theorem history_uncrashed :
    (uncrashed lib workflowId args body).2.history =
      startedEvent workflowId args :: (body.script (recorder lib) [] 1).events ++
        closing workflowId
          (startedEvent workflowId args :: (body.script (recorder lib) [] 1).events)
          (body.script (recorder lib) [] 1).result := by
  rw [uncrashed, history_execute]
  rfl

variable {workflowId args} {first : Event} (hfirst : first.type = .workflowStarted)
  (rest : List Event)

include hfirst

theorem start_started :
    (Workflow.new workflowId (first :: rest)).start args =
      { Workflow.new workflowId (first :: rest) with cursor := 1 } := by
  simp [Workflow.start, Workflow.new, hfirst]

theorem script_started :
    (Workflow.new workflowId (first :: rest)).script lib body args =
      body.script (recorder lib) rest 1 := by
  rw [Workflow.script, start_started hfirst]
  rfl

theorem history_execute_started :
    ((Workflow.new workflowId (first :: rest)).execute lib body args).2.history =
      first :: (rest ++ (body.script (recorder lib) rest 1).events) ++
        closing workflowId (first :: (rest ++ (body.script (recorder lib) rest 1).events))
          (body.script (recorder lib) rest 1).result := by
  rw [history_execute, script_started lib body hfirst, start_started hfirst]
  rfl

end Crash

theorem closing_alike {workflowId : String} {history history' : List Event}
    {result result' : Except Raised Json}
    (hhistory : history.map Event.sortKeys = history'.map Event.sortKeys)
    (hresult : result.map Json.sortKeys = result'.map Json.sortKeys) :
    (closing workflowId history result).map Event.sortKeys =
      (closing workflowId history' result').map Event.sortKeys := by
  have hany : (history.any fun event ↦ event.type = .workflowCompleted) =
      history'.any fun event ↦ event.type = .workflowCompleted := by
    have hmap (events : List Event) :
        (events.any fun event ↦ event.type = .workflowCompleted) =
          (events.map Event.sortKeys).any fun event ↦ event.type = .workflowCompleted := by
      rw [List.any_map]
      rfl
    rw [hmap history, hhistory, ← hmap]
  have hlength : history.length = history'.length := by
    simpa using congrArg List.length hhistory
  cases result with
  | error exc =>
      cases result' with
      | error exc' => rfl
      | ok value' => cases hresult
  | ok value =>
      cases result' with
      | error exc' => cases hresult
      | ok value' =>
          have hvalue : value.sortKeys = value'.sortKeys := Except.ok.inj hresult
          simp only [closing, hany, hlength]
          split_ifs
          · rfl
          · simp [Event.sortKeys, hvalue, Python.sortedBy]

theorem forall₂_sortKeys (events : List Event) :
    List.Forall₂ keyOrder.event events (events.map Event.sortKeys) := by
  refine List.forall₂_map_right_iff.mpr (List.forall₂_same.mpr fun event _ ↦ ?_)
  simp [keyOrder, Event.sortKeys]

theorem map_sortKeys_of_forall₂ {events events' : List Event}
    (h : List.Forall₂ keyOrder.event events events') :
    events.map Event.sortKeys = events'.map Event.sortKeys := by
  induction h with
  | nil => rfl
  | cons hevent _ ih => rw [List.map_cons, List.map_cons, hevent, ih]

/-- A prefix of what comes before a closing event, or everything. -/
theorem prefix_closing_cases {crash events : List Event} {workflowId : String}
    {history : List Event} {result : Except Raised Json}
    (h : crash <+: events ++ closing workflowId history result) :
    ∃ before after, crash = before ++ after ∧ before <+: events ∧
      (after = [] ∨ before = events ∧ after = closing workflowId history result) := by
  rcases hclosing : closing workflowId history result with _ | ⟨event, rest⟩
  · rw [hclosing, List.append_nil] at h
    exact ⟨crash, [], by simp, h, Or.inl rfl⟩
  · obtain rfl : rest = [] := by
      cases result with
      | error exc => cases hclosing
      | ok value =>
          simp only [closing] at hclosing
          split_ifs at hclosing
          exact (List.cons.inj hclosing).2.symm
    rw [hclosing] at h
    rcases List.prefix_concat_iff.mp h with rfl | hpre
    · exact ⟨events, [event], rfl, List.prefix_rfl, Or.inr ⟨rfl, rfl⟩⟩
    · exact ⟨crash, [], by simp, hpre, Or.inl rfl⟩

theorem closing_of_closed {workflowId : String} {history history' : List Event}
    {result result' : Except Raised Json} {event : Event}
    (h : event ∈ closing workflowId history result) (hmem : event.sortKeys ∈ history') :
    closing workflowId history' result' = [] := by
  cases result with
  | error exc => cases h
  | ok value =>
      simp only [closing] at h
      split_ifs at h
      · cases h
      · obtain rfl := List.mem_singleton.mp h
        cases result' with
        | error exc => rfl
        | ok value' => 
            simp only [closing]
            rw [if_pos]
            exact List.any_eq_true.mpr ⟨_, hmem, by simp⟩

theorem replay_invisible {lib : Library} {workflowId : String} {args : List Json} {body : Body}
    {crash : List Event} (hblind : KeyOrderBlind body)
    (hhandoff : ∀ event ∈ (uncrashed lib workflowId args body).2.history,
      event.type ≠ .workflowHandoff)
    (hcrash : crash <+: (uncrashed lib workflowId args body).2.history)
    (hjson : lib.ReadsBack (.new workflowId crash)) :
    ReplayInvisible lib workflowId args body crash := by
  cases crash with
  | nil => exact ⟨_, resume_checkpoint hjson, rfl, rfl, fun entry _ _ ↦ Nat.zero_le _⟩
  | cons first rest =>
      rw [history_uncrashed] at hcrash hhandoff
      obtain ⟨rfl, hrest⟩ := List.cons_prefix_cons.mp hcrash
      obtain ⟨before, after, rfl, hbefore, hafter⟩ := prefix_closing_cases hrest
      have hfirst : (startedEvent workflowId args).sortKeys.type = .workflowStarted := rfl
      have hresume : resume lib (checkpoint lib
          (.new workflowId (startedEvent workflowId args :: (before ++ after)))) =
          .ok (.new workflowId ((startedEvent workflowId args).sortKeys ::
            (before.map Event.sortKeys ++ after.map Event.sortKeys))) := by
        rw [resume_checkpoint hjson]
        simp [Workflow.new]
      obtain ⟨hresult, hevents, hlog⟩ := hblind.replay (respects_keyOrder lib) 1 before
        (before.map Event.sortKeys) (after.map Event.sortKeys) hbefore
        (fun event hevent ↦ repeats_of_type (hhandoff event (by simp [hevent])))
        (forall₂_sortKeys before)
        (hafter.imp (fun h ↦ by rw [h, List.map_nil]) And.left)
      refine ⟨_, hresume, ?_, ?_, ?_⟩
      · rw [execute_fst, script_started lib body hfirst, uncrashed, execute_fst, script_new_nil]
        exact hresult.symm
      · rw [history_execute_started lib body hfirst, history_uncrashed]
        by_cases hnil : after = []
        · subst hnil
          simp only [List.map_nil, List.append_nil] at hevents hresult ⊢
          have hhistory := map_sortKeys_of_forall₂
            (.cons (Event.sortKeys_sortKeys _).symm hevents :
              List.Forall₂ keyOrder.event (startedEvent workflowId args :: _)
                ((startedEvent workflowId args).sortKeys :: _))
          rw [List.map_append, List.map_append, ← hhistory,
            closing_alike hhistory.symm hresult.symm]
        · obtain ⟨hall, hclosing⟩ := hafter.resolve_left hnil
          have hnone : (body.script (recorder lib)
              (before.map Event.sortKeys ++ after.map Event.sortKeys) 1).events = [] := by
            have hlength := hevents.length_eq
            rw [List.length_append, List.length_map, ← hall] at hlength
            exact List.length_eq_zero_iff.mp (by omega)
          obtain ⟨event, hevent⟩ := List.exists_mem_of_ne_nil after hnil
          rw [hnone, closing_of_closed (hclosing ▸ hevent), ← hclosing, ← hall]
          · simp [Function.comp_def]
          · simp only [List.append_nil, List.mem_cons, List.mem_append, List.mem_map]
            exact Or.inr (Or.inr ⟨event, hevent, rfl⟩)
      · intro entry hentry hlive
        rw [log_execute, script_started lib body hfirst] at hentry
        obtain ⟨hnil, hposition⟩ := (hlog entry hentry).2 hlive
        obtain rfl := List.map_eq_nil_iff.mp hnil
        simp only [List.append_nil, List.length_cons]
        omega

section Sample

/-- The library whose `loads` knows the checkpoint of one workflow. -/
def Library.reading (lib : Library) (wf : Workflow) : Library :=
  { lib with
    loads := fun text ↦
      if text = checkpoint lib wf then .ok (wf.blobObject lib).sortKeys
      else .error "Expecting value: line 1 column 1 (char 0)" }

theorem readsBack_reading (lib : Library) (wf : Workflow) : (lib.reading wf).ReadsBack wf := by
  have hcheckpoint : checkpoint (lib.reading wf) wf = checkpoint lib wf := rfl
  rw [Library.ReadsBack, hcheckpoint]
  exact if_pos rfl

/-- A library with one digest, that of the history the sample is resumed on. -/
def sampleLibrary (digest : String) : Library where
  repr
    | .str s => "'" ++ s ++ "'"
    | _ => ""
  sha256 := fun _ ↦ digest
  fromisoformat := fun _ ↦ none
  intOfText := fun _ ↦ none
  loads := fun _ ↦ .error "Expecting value: line 1 column 1 (char 0)"

def constantly (name : String) (value : Json) : Command :=
  .runActivity ⟨name, .default, fun _ ↦ .returned value⟩

/-- What comes after a command that is not in a `try`. -/
def orRaise (next : Json → Body) : Except Raised Json → Body
  | .ok value => next value
  | .error exc => .done (.error exc)

def samplePlan : Json := .obj [("b", .int 1), ("a", .int 2)]

def plannedEvent : Event := ⟨1, .activityCompleted, "plan", samplePlan⟩

def waitingBody : Body :=
  .ask (constantly "plan" samplePlan) (orRaise fun plan ↦
    .ask (.durableTimer "settle" ⟨false, 5, 0, by decide⟩) (orRaise fun _ ↦ .done (.ok plan)))

theorem constantly_alike (name : String) (value : Json) :
    (constantly name value).Alike (constantly name value) :=
  .runActivity name .default fun _ ↦ rfl

theorem orRaise_alike {next next' : Json → Body} {reply reply' : Except Raised Json}
    (hnext : ∀ value value', value.sortKeys = value'.sortKeys →
      Program.Alike keyOrder (next value) (next' value'))
    (hreply : keyOrder.reply reply reply') :
    Program.Alike keyOrder (orRaise next reply) (orRaise next' reply') := by
  cases reply with
  | ok value =>
      cases reply' with
      | ok value' => exact hnext value value' (Except.ok.inj hreply)
      | error exc' => cases hreply
  | error exc =>
      cases reply' with
      | ok value' => cases hreply
      | error exc' => exact .done hreply

theorem waitingBody_blind : KeyOrderBlind waitingBody := by
  refine .ask (constantly_alike _ _) fun reply reply' hreply ↦ orRaise_alike ?_ hreply
  intro plan plan' hplan
  refine .ask (.durableTimer _ _) fun reply reply' hreply ↦ orRaise_alike ?_ hreply
  exact fun _ _ _ ↦ .done (congrArg Except.ok hplan)

theorem replay_invisible_sample :
    ReplayInvisible ((sampleLibrary
        "365a438281f3e0c6fa81b976a5615c6a4036072fc0a5339f4fffc3ff321aecfe").reading
          (.new "wf-1" [startedEvent "wf-1" [], plannedEvent]))
      "wf-1" [] waitingBody [startedEvent "wf-1" [], plannedEvent] :=
  replay_invisible waitingBody_blind (by decide) (by decide) (readsBack_reading _ _)

/-- Plans, then runs the activity the first key of the plan names. -/
def firstKeyBody : Body :=
  .ask (constantly "plan" samplePlan) (orRaise fun plan ↦
    match plan with
    | .obj ((key, _) :: _) => .ask (constantly key .null) (orRaise fun _ ↦ .done (.ok .null))
    | _ => .done (.ok .null))

def firstKeyHistory : List Event :=
  [startedEvent "wf-1" [], plannedEvent, ⟨2, .activityCompleted, "b", .null⟩]

def firstKeyLibrary : Library :=
  (sampleLibrary "a094b8805b20ce88263e9ae72ccd86678c0c06a0de61df31a6b80eedd8bce098").reading
    (.new "wf-1" firstKeyHistory)

/-- The body asks for `b` before the crash and for `a` after it. -/
theorem keyOrder_visible :
    (∀ event ∈ (uncrashed firstKeyLibrary "wf-1" [] firstKeyBody).2.history,
      event.type ≠ .workflowHandoff) ∧
    firstKeyHistory <+: (uncrashed firstKeyLibrary "wf-1" [] firstKeyBody).2.history ∧
    firstKeyLibrary.ReadsBack (.new "wf-1" firstKeyHistory) ∧
    ¬ReplayInvisible firstKeyLibrary "wf-1" [] firstKeyBody firstKeyHistory := by
  refine ⟨by decide, by decide, readsBack_reading _ _, ?_⟩
  rintro ⟨wf, hresume, hresult, -⟩
  rw [firstKeyLibrary, resume_checkpoint (readsBack_reading _ _)] at hresume
  obtain rfl := Except.ok.inj hresume
  revert hresult
  decide

end Sample

end AgenticSDLC.DurableOrchestrator
