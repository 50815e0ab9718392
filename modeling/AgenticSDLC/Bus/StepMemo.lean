import AgenticSDLC.Bus.BusRuns

/-!
# Durable steps are memoised

A call of `run_step` answers from the ledger if it can, so all calls of one step
have the outcome that was recorded first.  The ledger holds the very object that the
function of the step returned, and only a copy of it in the text of a snapshot, so
this lasts as long as nobody changes a recorded object.
-/

namespace AgenticSDLC.EventBus

open Python (Exception)
open Runs

/-! ## Answers of the ledger -/

section Ledger

variable (repr : Json → String)

/-- The replay of a record depends on its value as it reads now. -/
theorem StepRecord.replay_congr (record other : StepRecord) {heap otherHeap : Heap}
    (hstatus : other.status = record.status) (herror : other.error = record.error)
    (hrecorded : other.recordedAt = record.recordedAt)
    (hread : other.value.read otherHeap = record.value.read heap) (stepId : String) :
    other.replay repr otherHeap stepId = record.replay repr heap stepId := by
  unfold StepRecord.replay StepRecord.toDict
  rw [hstatus, herror, hrecorded, hread]

/-- Two ledgers answer alike when the records they look up do. -/
theorem Bus.beginStep_of_rel {bus other : Bus} {heap otherHeap : Heap} {stepId : String}
    (h : Option.Rel (fun record next : StepRecord ↦
      next.replay repr otherHeap stepId = record.replay repr heap stepId)
      (bus.steps.lookup stepId) (other.steps.lookup stepId)) :
    other.beginStep repr otherHeap stepId = bus.beginStep repr heap stepId := by
  unfold Bus.beginStep
  split_ifs
  · rfl
  · generalize bus.steps.lookup stepId = record, other.steps.lookup stepId = next at h
    cases h with
    | none => rfl
    | some hreplay => exact congrArg some hreplay

theorem Bus.detached_of_snapshot {bus : Bus} {heap : Heap} {state : Json}
    (h : bus.snapshot heap = .ok state) : ∃ next, bus.detached heap = .ok next := by
  obtain ⟨dicts, hdicts, -⟩ := Outcome.bind_eq_ok_iff.mp h
  have hread : ∀ step ∈ bus.steps, ∃ value, step.2.value.read heap = .ok value := by
    intro step hstep
    obtain ⟨dict, -, hdict⟩ := Outcome.exists_of_mapM_eq_ok hdicts step hstep
    obtain ⟨fields, hfields, -⟩ := Outcome.bind_eq_ok_iff.mp hdict
    obtain ⟨value, hvalue, -⟩ := Outcome.bind_eq_ok_iff.mp hfields
    exact ⟨value, hvalue⟩
  have hsteps : ∃ steps, (bus.steps.mapM fun step : String × StepRecord ↦ do
      let value ← step.2.value.read heap
      return (step.1, { step.2 with value := .own value })) = .ok steps := by
    refine Outcome.mapM_eq_ok_of_forall fun step hstep ↦ ?_
    obtain ⟨value, hvalue⟩ := hread step hstep
    exact ⟨_, by rw [hvalue, Outcome.ok_bind]; rfl⟩
  obtain ⟨steps, hsteps⟩ := hsteps
  exact ⟨_, by rw [Bus.detached, hsteps]; rfl⟩

/-- A snapshot and its restoration leave every answer of the ledger as it was. -/
theorem Bus.beginStep_detached {bus next : Bus} {heap : Heap} (h : bus.detached heap = .ok next)
    (stepId : String) : next.beginStep repr heap stepId = bus.beginStep repr heap stepId := by
  obtain ⟨steps, hsteps, hnext⟩ := Outcome.bind_eq_ok_iff.mp h
  obtain rfl := Except.ok.inj hnext
  refine Bus.beginStep_of_rel repr (Dict.rel_lookup ?_ stepId)
  refine (Outcome.forall₂_of_mapM_eq_ok hsteps).imp fun step other hstep ↦ ?_
  obtain ⟨value, hread, hother⟩ := Outcome.bind_eq_ok_iff.mp hstep
  obtain rfl := Except.ok.inj hother
  exact ⟨rfl, StepRecord.replay_congr repr step.2 { step.2 with value := .own value } rfl rfl rfl
    hread.symm stepId⟩

theorem Bus.beginStep_eq_none_iff {bus : Bus} {heap : Heap} {stepId : String} :
    bus.beginStep repr heap stepId = none ↔ stepId ≠ "" ∧ bus.steps.lookup stepId = none := by
  unfold Bus.beginStep
  split_ifs with hempty
  · simp [hempty]
  · simp [hempty]

/-- The outcome of a step whose function ends with `result`. -/
def FirstOutcome (heap : Heap) (stepId : String) (result : FnResult) (outcome : StepOutcome) :
    Prop :=
  match result with
  | .returned value => ∃ json, value.read heap = .ok json ∧ outcome = .returned json
  | .raised exc => outcome = .raised ⟨"RuntimeError", "durable step " ++ repr (.str stepId) ++
      " previously failed and is being replayed: " ++ exc.text⟩

/-- The end of a function whose step the ledger does not have. -/
theorem Bus.endStep_fresh {bus : Bus} {heap : Heap} {stepId : String} {result : FnResult}
    (hfresh : bus.steps.lookup stepId = none)
    (hjson : ∀ value, result = .returned value → ∃ json, value.read heap = .ok json)
    (now : String) :
    ∃ record : StepRecord, FirstOutcome repr heap stepId result (record.replay repr heap stepId) ∧
      bus.endStep repr heap stepId result now =
        (record.replay repr heap stepId, { bus with steps := bus.steps ++ [(stepId, record)] }) := by
  cases result with
  | raised exc =>
      refine ⟨failed exc now, rfl, ?_⟩
      simp only [Bus.endStep, Bus.recordStep, hfresh]
  | returned value =>
      obtain ⟨json, hread⟩ := hjson value rfl
      refine ⟨succeeded value now, ⟨json, hread, ?_⟩, ?_⟩
      · simp only [StepRecord.replay, succeeded, hread, if_pos]
      · simp only [Bus.endStep, Bus.recordStep, hread, hfresh]

/-- A new record answers the calls of its step and no others. -/
theorem Bus.beginStep_record {bus : Bus} {heap : Heap} {stepId : String}
    (hfresh : bus.beginStep repr heap stepId = none) (record : StepRecord) (other : String) :
    ({ bus with steps := bus.steps ++ [(stepId, record)] } : Bus).beginStep repr heap other =
      if other = stepId then some (record.replay repr heap stepId)
      else bus.beginStep repr heap other := by
  obtain ⟨hnonempty, hlookup⟩ := (Bus.beginStep_eq_none_iff repr).mp hfresh
  simp only [Bus.beginStep, Dict.lookup_append_singleton]
  by_cases hother : other = stepId
  · subst hother
    simp [hnonempty, hlookup]
  · simp [hother]

end Ledger

namespace World

variable {Client : Type} (repr : Json → String)

/-! ## Runs -/

def answered (world : World Client) (stepId : String) : Option StepOutcome :=
  world.bus.beginStep repr world.heap stepId

/-- A call of the step has begun, whether it has ended or not. -/
def Called (world : World Client) (stepId : String) : Prop :=
  (∃ outcome, (stepId, outcome) ∈ world.outcomes) ∨
    ∃ client, world.stepCalls client = .executing stepId ∨
      world.stepCalls client = .interrupted stepId

/-- The calls of the run do not overlap on one step, functions return JSON values,
and a process ends only for one that is started on its snapshot. -/
def Proper (world : World Client) : Action Client → Prop
  | .runStep _ stepId => ∀ client, world.stepCalls client ≠ .executing stepId ∧
      world.stepCalls client ≠ .interrupted stepId
  | .fnEnds _ result _ =>
      ∀ value, result = .returned value → ∃ json, value.read world.heap = .ok json
  | .resume => ∃ state, world.bus.snapshot world.heap = .ok state ∧ world.stored = some state
  | _ => True

/-- Nobody changes an object that the ledger has. -/
def KeepsRecorded (world : World Client) : Action Client → Prop
  | .mutate heap => ∀ stepId record, world.bus.steps.lookup stepId = some record →
      record.value.read heap = record.value.read world.heap
  | _ => True

/-- The function is called for the first call of its step, whose outcome it gives, and
any later call ends with an outcome that was there. -/
def Memoised (world after : World Client) : Action Client → Prop
  | .runStep client stepId => world.stepCalls client = .idle → stepId ≠ "" →
      (¬world.Called stepId → after.stepCalls client = .executing stepId) ∧
        (world.Called stepId → after.stepCalls = world.stepCalls ∧
          ∃ outcome, (stepId, outcome) ∈ world.outcomes ∧
            after.outcomes = world.outcomes ++ [(stepId, outcome)])
  | .fnEnds client result _ => ∀ stepId, world.stepCalls client = .executing stepId →
      ∃ outcome, FirstOutcome repr world.heap stepId result outcome ∧
        after.outcomes = world.outcomes ++ [(stepId, outcome)]
  | _ => True

def SameOutcomes (world : World Client) : Prop :=
  ∀ stepId first second, (stepId, first) ∈ world.outcomes → (stepId, second) ∈ world.outcomes →
    first = second

/-- The ledger answers with the outcomes there have been, and no function is being
executed for a step that it answers. -/
structure Memo (world : World Client) : Prop where
  outcomes : ∀ stepId outcome, (stepId, outcome) ∈ world.outcomes →
    world.answered repr stepId = some outcome
  recorded : ∀ stepId outcome, stepId ≠ "" → world.answered repr stepId = some outcome →
    (stepId, outcome) ∈ world.outcomes
  executing : ∀ client stepId, world.stepCalls client = .executing stepId →
    world.answered repr stepId = none
  alone : ∀ client other stepId, world.stepCalls client = .executing stepId →
    world.stepCalls other = .executing stepId → client = other

variable {repr}

theorem memo_initial (heap : Heap) : Memo repr (initial heap : World Client) := by
  refine ⟨by simp [initial], fun stepId outcome hnonempty hanswered ↦ ?_, by simp [initial],
    by simp [initial]⟩
  have hnone : (initial heap : World Client).answered repr stepId = none :=
    (Bus.beginStep_eq_none_iff repr).mpr ⟨hnonempty, rfl⟩
  rw [hnone] at hanswered
  cases hanswered

theorem Memo.sameOutcomes {world : World Client} (h : Memo repr world) : world.SameOutcomes :=
  fun stepId first second hfirst hsecond ↦
    Option.some.inj ((h.outcomes stepId first hfirst).symm.trans (h.outcomes stepId second hsecond))

/-- The ledger goes on answering as it did, and functions are at most cut off. -/
theorem Memo.of_answered {world next : World Client} (h : Memo repr world)
    (hanswered : ∀ stepId, next.answered repr stepId = world.answered repr stepId)
    (houtcomes : next.outcomes = world.outcomes)
    (hcalls : ∀ client stepId, next.stepCalls client = .executing stepId →
      world.stepCalls client = .executing stepId) : Memo repr next where
  outcomes stepId outcome hmem := by
    rw [hanswered]
    exact h.outcomes stepId outcome (houtcomes ▸ hmem)
  recorded stepId outcome hnonempty hrecorded := by
    rw [houtcomes]
    exact h.recorded stepId outcome hnonempty (hanswered stepId ▸ hrecorded)
  executing client stepId hcall := by
    rw [hanswered]
    exact h.executing client stepId (hcalls client stepId hcall)
  alone client other stepId hclient hother :=
    h.alone client other stepId (hcalls client stepId hclient) (hcalls other stepId hother)

theorem Memo.mutate {world : World Client} (h : Memo repr world) {heap : Heap}
    (hkeeps : world.KeepsRecorded (.mutate heap)) :
    Memo repr ({ world with heap := heap } : World Client) := by
  refine h.of_answered (fun stepId ↦ Bus.beginStep_of_rel repr ?_) rfl fun _ _ ↦ id
  cases hlookup : world.bus.steps.lookup stepId with
  | none => exact .none
  | some record =>
      exact .some (StepRecord.replay_congr repr record record rfl rfl rfl
        (hkeeps stepId record hlookup) stepId)

/-- A process that is started on a snapshot of its predecessor has the bus that was there. -/
theorem detached_restored {world : World Client} {state : Json}
    (hstate : world.bus.snapshot world.heap = .ok state) (hstored : world.stored = some state) :
    world.bus.detached world.heap = .ok (world.restored repr) := by
  obtain ⟨next, hnext⟩ := Bus.detached_of_snapshot hstate
  have hrestore := Bus.snapshot_restore world.bus world.heap repr
  rw [hstate, Outcome.ok_bind, hnext] at hrestore
  simp only [restored, hstored, Option.map_some, hrestore, hnext]

theorem Memo.resume {world : World Client} (h : Memo repr world)
    (hproper : world.Proper .resume) : Memo repr (world.resume repr) := by
  obtain ⟨state, hstate, hstored⟩ := hproper
  have hnext : world.bus.detached world.heap = .ok (world.restored repr) :=
    detached_restored hstate hstored
  refine h.of_answered (fun stepId ↦ ?_) rfl fun client stepId hcall ↦ ?_
  · simp only [answered, World.resume]
    exact Bus.beginStep_detached repr hnext stepId
  · simp only [World.resume] at hcall
    cases hold : world.stepCalls client with
    | executing other =>
        rw [hold] at hcall
        cases hcall
    | _ =>
        rw [hold] at hcall
        cases hcall

theorem called_iff {world : World Client} {client : Client} {stepId : String}
    (hproper : world.Proper (.runStep client stepId)) :
    world.Called stepId ↔ ∃ outcome, (stepId, outcome) ∈ world.outcomes := by
  apply or_iff_left
  rintro ⟨other, hexecuting | hinterrupted⟩
  · exact (hproper other).1 hexecuting
  · exact (hproper other).2 hinterrupted

/-- The ledger answers a call. -/
theorem Memo.answers {world : World Client} (h : Memo repr world) {stepId : String}
    {outcome : StepOutcome} (hanswered : world.answered repr stepId = some outcome) :
    Memo repr ({ world with outcomes := world.outcomes ++ [(stepId, outcome)] } : World Client) where
  outcomes other found hmem := by
    rcases List.mem_append.mp hmem with hold | hnew
    · exact h.outcomes other found hold
    · obtain ⟨rfl, rfl⟩ := Prod.mk.inj (List.mem_singleton.mp hnew)
      exact hanswered
  recorded other found hnonempty hfound :=
    List.mem_append_left _ (h.recorded other found hnonempty hfound)
  executing := h.executing
  alone := h.alone

variable [DecidableEq Client]

/-- A function is called that nobody is executing. -/
theorem Memo.executes {world : World Client} (h : Memo repr world) (client : Client)
    {stepId : String} (hproper : world.Proper (.runStep client stepId))
    (hanswered : world.answered repr stepId = none) :
    Memo repr ({ world with
      stepCalls := Function.update world.stepCalls client (.executing stepId) } :
        World Client) where
  outcomes := h.outcomes
  recorded := h.recorded
  executing other id hother := by
    by_cases hclient : other = client
    · subst hclient
      obtain rfl : stepId = id := by simpa using hother
      exact hanswered
    · apply h.executing other id
      simpa [Function.update_of_ne hclient] using hother
  alone first second id hfirst hsecond := by
    have hnew : ∀ other : Client, other ≠ client →
        Function.update world.stepCalls client (.executing stepId) other = .executing id →
          id ≠ stepId := by
      rintro other hother hcall rfl
      rw [Function.update_of_ne hother] at hcall
      exact (hproper other).1 hcall
    by_cases hone : first = client <;> by_cases htwo : second = client
    · rw [hone, htwo]
    · subst hone
      obtain rfl : stepId = id := by simpa using hfirst
      exact absurd rfl (hnew second htwo hsecond)
    · subst htwo
      obtain rfl : stepId = id := by simpa using hsecond
      exact absurd rfl (hnew first hone hfirst)
    · apply h.alone first second id
      · simpa [Function.update_of_ne hone] using hfirst
      · simpa [Function.update_of_ne htwo] using hsecond

theorem Memo.runStep {world : World Client} (h : Memo repr world) {client : Client}
    {stepId : String} (hproper : world.Proper (.runStep client stepId)) :
    Memo repr (world.runStep repr client stepId) ∧
      world.Memoised repr (world.runStep repr client stepId) (.runStep client stepId) := by
  cases hcall : world.stepCalls client with
  | executing | interrupted =>
      have hsame : world.runStep repr client stepId = world := by
        simp only [World.runStep, hcall]
      rw [hsame]
      refine ⟨h, fun hidle ↦ ?_⟩
      rw [hcall] at hidle
      cases hidle
  | idle =>
      cases hanswered : world.answered repr stepId with
      | some outcome =>
          have hnext : world.runStep repr client stepId =
              { world with outcomes := world.outcomes ++ [(stepId, outcome)] } := by
            simp only [World.runStep, hcall]
            rw [answered] at hanswered
            rw [hanswered]
          rw [hnext]
          refine ⟨h.answers hanswered, fun _ hnonempty ↦ ?_⟩
          have hearlier := h.recorded stepId outcome hnonempty hanswered
          refine ⟨fun hfirst ↦ ?_, fun _ ↦ ⟨rfl, outcome, hearlier, rfl⟩⟩
          exact absurd ((called_iff hproper).mpr ⟨outcome, hearlier⟩) hfirst
      | none =>
          have hnext : world.runStep repr client stepId =
              { world with
                stepCalls := Function.update world.stepCalls client (.executing stepId) } := by
            simp only [World.runStep, hcall]
            rw [answered] at hanswered
            rw [hanswered]
          rw [hnext]
          refine ⟨h.executes client hproper hanswered, fun _ _ ↦ ⟨fun _ ↦ by simp, fun hcalled ↦ ?_⟩⟩
          obtain ⟨outcome, hmem⟩ := (called_iff hproper).mp hcalled
          have hsome := h.outcomes stepId outcome hmem
          rw [hanswered] at hsome
          cases hsome

theorem Memo.fnEnds {world : World Client} (h : Memo repr world) {client : Client}
    {result : FnResult} {now : String} (hproper : world.Proper (.fnEnds client result now)) :
    Memo repr (world.fnEnds repr client result now) ∧
      world.Memoised repr (world.fnEnds repr client result now) (.fnEnds client result now) := by
  cases hcall : world.stepCalls client with
  | idle | interrupted =>
      have hsame : world.fnEnds repr client result now = world := by
        simp only [World.fnEnds, hcall]
      rw [hsame]
      refine ⟨h, fun stepId hexecuting ↦ ?_⟩
      rw [hcall] at hexecuting
      cases hexecuting
  | executing stepId =>
      have hfresh := h.executing client stepId hcall
      obtain ⟨hnonempty, hlookup⟩ := (Bus.beginStep_eq_none_iff repr).mp hfresh
      obtain ⟨record, hfirst, hended⟩ := Bus.endStep_fresh repr hlookup hproper now
      have hnext : world.fnEnds repr client result now =
          { world with
            bus := { world.bus with steps := world.bus.steps ++ [(stepId, record)] }
            stepCalls := Function.update world.stepCalls client .idle
            outcomes := world.outcomes ++ [(stepId, record.replay repr world.heap stepId)] } := by
        simp only [World.fnEnds, hcall, hended]
      have hanswered : ∀ other, (world.fnEnds repr client result now).answered repr other =
          if other = stepId then some (record.replay repr world.heap stepId)
          else world.answered repr other := by
        intro other
        rw [hnext]
        exact Bus.beginStep_record repr hfresh record other
      have hcalls : ∀ other id, (world.fnEnds repr client result now).stepCalls other =
          .executing id → other ≠ client ∧ world.stepCalls other = .executing id := by
        intro other id hother
        rw [hnext] at hother
        by_cases hclient : other = client
        · subst hclient
          simp at hother
        · exact ⟨hclient, by simpa [Function.update_of_ne hclient] using hother⟩
      have houtcomes : (world.fnEnds repr client result now).outcomes =
          world.outcomes ++ [(stepId, record.replay repr world.heap stepId)] := by rw [hnext]
      refine ⟨⟨fun other found hmem ↦ ?_, fun other found hother hfound ↦ ?_,
        fun other id hother ↦ ?_, fun first second id hone htwo ↦ ?_⟩, fun other hexecuting ↦ ?_⟩
      · rw [hanswered]
        rw [houtcomes] at hmem
        rcases List.mem_append.mp hmem with hold | hnew
        · have hsome := h.outcomes other found hold
          rw [if_neg, hsome]
          rintro rfl
          rw [hfresh] at hsome
          cases hsome
        · obtain ⟨rfl, rfl⟩ := Prod.mk.inj (List.mem_singleton.mp hnew)
          rw [if_pos rfl]
      · rw [hanswered] at hfound
        rw [houtcomes]
        split_ifs at hfound with hsame
        · refine List.mem_append_right _ (List.mem_singleton.mpr ?_)
          rw [hsame, Option.some.inj hfound]
        · exact List.mem_append_left _ (h.recorded other found hother hfound)
      · obtain ⟨hclient, hexecuting⟩ := hcalls other id hother
        rw [hanswered, if_neg, h.executing other id hexecuting]
        rintro rfl
        exact hclient (h.alone other client id hexecuting hcall)
      · exact h.alone first second id (hcalls first id hone).2 (hcalls second id htwo).2
      · obtain rfl : stepId = other := StepCall.executing.inj (hcall.symm.trans hexecuting)
        exact ⟨_, hfirst, houtcomes⟩

/-- The two worlds agree on everything a call of `run_step` depends on. -/
structure SameSteps (world next : World Client) : Prop where
  steps : next.bus.steps = world.bus.steps
  heap : next.heap = world.heap
  stepCalls : next.stepCalls = world.stepCalls
  outcomes : next.outcomes = world.outcomes

theorem sameSteps_step (world : World Client) {action : Action Client}
    (hmutate : ∀ heap, action ≠ .mutate heap) (hresume : action ≠ .resume)
    (hcall : ∀ client stepId, action ≠ .runStep client stepId)
    (hend : ∀ client result now, action ≠ .fnEnds client result now) :
    SameSteps world (world.step repr action) := by
  cases action with
  | mutate heap => exact absurd rfl (hmutate heap)
  | resume => exact absurd rfl hresume
  | runStep client stepId => exact absurd rfl (hcall client stepId)
  | fnEnds client result now => exact absurd rfl (hend client result now)
  | on name handler =>
      simp only [step, Bus.on]
      split_ifs <;> exact ⟨rfl, rfl, rfl, rfl⟩
  | unsubscribe name handler =>
      simp only [step, Bus.unsubscribe]
      split <;> exact ⟨rfl, rfl, rfl, rfl⟩
  | emit event now =>
      have hemits := emits world event now
      simp only [step]
      generalize world.emit event now = next at hemits ⊢
      cases hemits <;> exact ⟨rfl, rfl, rfl, rfl⟩
  | deliver client =>
      have hdelivers := delivers repr world client
      simp only [step]
      generalize world.deliver repr client = next at hdelivers ⊢
      cases hdelivers <;> exact ⟨rfl, rfl, rfl, rfl⟩
  | answer client result now =>
      have hanswers := answers repr world client result now
      simp only [step]
      generalize world.answer repr client result now = next at hanswers ⊢
      cases hanswers <;> exact ⟨rfl, rfl, rfl, rfl⟩
  | snapshot =>
      simp only [step]
      split <;> exact ⟨rfl, rfl, rfl, rfl⟩

theorem Memo.step {world : World Client} (h : Memo repr world) {action : Action Client}
    (hproper : world.Proper action) (hkeeps : world.KeepsRecorded action) :
    Memo repr (world.step repr action) ∧
      world.Memoised repr (world.step repr action) action := by
  have hsame : (∀ heap, action ≠ .mutate heap) → action ≠ .resume →
      (∀ client stepId, action ≠ .runStep client stepId) →
      (∀ client result now, action ≠ .fnEnds client result now) →
        Memo repr (world.step repr action) := by
    intro hmutate hresume hcall hend
    have hsteps : SameSteps world (world.step repr action) :=
      sameSteps_step world hmutate hresume hcall hend
    obtain ⟨hsteps, hheap, hcalls, houtcomes⟩ := hsteps
    refine h.of_answered (fun stepId ↦ ?_) houtcomes fun client stepId hclient ↦ hcalls ▸ hclient
    simp only [answered, Bus.beginStep, hsteps, hheap]
  cases action with
  | runStep client stepId => exact h.runStep hproper
  | fnEnds client result now => exact h.fnEnds hproper
  | mutate heap => exact ⟨h.mutate hkeeps, trivial⟩
  | resume => exact ⟨h.resume hproper, trivial⟩
  | _ => exact ⟨hsame (by simp) (by simp) (by simp) (by simp), trivial⟩

theorem memo_run (heap : Heap) {actions : List (Action Client)}
    (hproper : EachStep (fun before action ↦ ((initial heap).run repr before).Proper action) actions)
    (hkeeps : EachStep (fun before action ↦ ((initial heap).run repr before).KeepsRecorded action)
      actions) :
    EachPoint (fun before ↦ Memo repr ((initial heap).run repr before)) actions := by
  refine eachPoint_of_eachStep (P := fun before action ↦
    ((initial heap).run repr before).Proper action ∧
      ((initial heap).run repr before).KeepsRecorded action) (memo_initial heap) ?_ ?_
  · intro before action hmemo hconditions
    rw [run_append_singleton]
    exact (hmemo.step hconditions.1 hconditions.2).1
  · exact fun before action after hactions ↦
      ⟨hproper before action after hactions, hkeeps before action after hactions⟩

/-- As long as nobody changes a recorded object, only the function of the first call of
a step is executed, and all calls of the step have its outcome. -/
theorem steps_memoised (heap : Heap) (actions : List (Action Client))
    (hproper : EachStep (fun before action ↦ ((initial heap).run repr before).Proper action) actions)
    (hkeeps : EachStep (fun before action ↦ ((initial heap).run repr before).KeepsRecorded action)
      actions) :
    EachStep (fun before action ↦
        ((initial heap).run repr before).Memoised repr
          ((initial heap).run repr (before ++ [action])) action) actions ∧
      EachPoint (fun before ↦ ((initial heap).run repr before).SameOutcomes) actions := by
  have hmemo := memo_run heap hproper hkeeps
  refine ⟨fun before action after hactions ↦ ?_, fun before hbefore ↦
    (hmemo before hbefore).sameOutcomes⟩
  have hstep := ((hmemo before ⟨action :: after, hactions.symm⟩).step
    (hproper before action after hactions) (hkeeps before action after hactions)).2
  rwa [← run_append_singleton] at hstep

end World

section Sample

theorem proper_runStep {world : World Unit} (hidle : world.stepCalls () = .idle)
    (stepId : String) : world.Proper (.runStep () stepId) := by
  intro client
  rw [hidle]
  exact ⟨by simp, by simp⟩

/-- One outside object, a list. -/
def listHeap (items : List Json) : Heap := fun _ ↦ ⟨"list", .ok (.arr items)⟩

/-- The function of the step returns a list it keeps, and changes it later. -/
def aliasingRun : List (Action Unit) :=
  [.runStep () "slice", .fnEnds () (.returned (.shared 0)) "now", .mutate (listHeap [.int 1]),
    .runStep () "slice"]

theorem recorded_list_changed :
    EachStep (fun before action ↦
        ((World.initial (listHeap [])).run (fun _ ↦ "") before).Proper action) aliasingRun ∧
      ¬((World.initial (listHeap [])).run (fun _ ↦ "") aliasingRun).SameOutcomes := by
  refine ⟨?_, fun hsame ↦ ?_⟩
  · simp only [aliasingRun, eachStep_cons, eachStep_nil, and_true]
    exact ⟨proper_runStep rfl _, fun _ hvalue ↦ ⟨.arr [], by cases hvalue; rfl⟩, trivial,
      proper_runStep rfl _⟩
  · have hequal := hsame "slice" (.returned (.arr [])) (.returned (.arr [.int 1])) (by decide)
      (by decide)
    revert hequal
    decide

/-- The outcomes of two steps survive a process, as the list is left alone. -/
def memoisedRun : List (Action Unit) :=
  [.runStep () "slice", .fnEnds () (.returned (.shared 0)) "now", .runStep () "review",
    .fnEnds () (.raised ⟨"ValueError", "no tests"⟩) "now", .snapshot, .resume,
    .mutate (listHeap [.int 1]), .runStep () "slice", .runStep () "review"]

theorem steps_memoised_sample :
    EachStep (fun before action ↦
        ((World.initial (listHeap [])).run (fun _ ↦ "") before).Memoised (fun _ ↦ "")
          ((World.initial (listHeap [])).run (fun _ ↦ "") (before ++ [action])) action)
        memoisedRun ∧
      EachPoint (fun before ↦ ((World.initial (listHeap [])).run (fun _ ↦ "") before).SameOutcomes)
        memoisedRun := by
  apply World.steps_memoised (listHeap []) memoisedRun
  · simp only [memoisedRun, eachStep_cons, eachStep_nil, and_true]
    exact ⟨proper_runStep rfl _, fun _ hvalue ↦ ⟨.arr [], by cases hvalue; rfl⟩,
      proper_runStep rfl _, fun _ hvalue ↦ (by cases hvalue), trivial, ⟨_, rfl, rfl⟩, trivial,
      proper_runStep rfl _, proper_runStep rfl _⟩
  · simp only [memoisedRun, eachStep_cons, eachStep_nil, and_true]
    refine ⟨trivial, trivial, trivial, trivial, trivial, trivial, ?_, trivial, trivial⟩
    intro stepId record hlookup
    change List.lookup stepId [("slice", succeeded (.own (.arr [])) "now"),
      ("review", failed ⟨"ValueError", "no tests"⟩ "now")] = some record at hlookup
    rw [Dict.lookup_cons, Dict.lookup_cons] at hlookup
    split_ifs at hlookup
    · obtain rfl := Option.some.inj hlookup
      rfl
    · obtain rfl := Option.some.inj hlookup
      rfl
    · cases hlookup

end Sample

end AgenticSDLC.EventBus
