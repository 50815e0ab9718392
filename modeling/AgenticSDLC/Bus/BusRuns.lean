import AgenticSDLC.Bus.EventBus
import AgenticSDLC.Foundations.Runs
import Mathlib.Logic.Function.Basic

/-!
# Runs of the event bus

A world is one process with its bus, the durable storage of its host, and what
any number of clients are doing on the bus.  A handler or the function of a step
is code of a client: what it does on the bus while it runs are further actions
between its call and its end.  Three lists record what can be observed: which
handlers were called on which event ids, which of these calls returned, and how
the calls of `run_step` ended.
-/

namespace AgenticSDLC.EventBus

open Python (Exception)

/-- A client's call of `run_step`.  A call that the end of its process cuts off is
interrupted: it has begun and never ends. -/
inductive StepCall where
  | idle
  | executing (stepId : String)
  | interrupted (stepId : String)
  deriving DecidableEq

structure World (Client : Type) where
  seq : ℕ
  bus : Bus
  heap : Heap
  deliveries : Client → Delivery
  stepCalls : Client → StepCall
  stored : Option Json
  invoked : List (Handler × Json)
  handled : List (Handler × Json)
  outcomes : List (String × StepOutcome)

/-- `mutate` is any change that the holders of outside objects make to them;
`snapshot` stores the JSON text of a snapshot, and `resume` starts a new process
on the last one stored. -/
inductive Action (Client : Type) where
  | on (name : String) (handler : Handler)
  | unsubscribe (name : String) (handler : Handler)
  | emit (event : Json) (now : String)
  | deliver (client : Client)
  | answer (client : Client) (result : Except Exception Unit) (now : String)
  | runStep (client : Client) (stepId : String)
  | fnEnds (client : Client) (result : FnResult) (now : String)
  | mutate (heap : Heap)
  | snapshot
  | resume

/-- The call of a handler that a client is in. -/
def Delivery.current : Delivery → Option (Handler × Event)
  | .invoking _ event handler _ => some (handler, event)
  | _ => none

/-- The event a client has taken from the queue and not finished. -/
def Delivery.event : Delivery → Option Event
  | .handling _ event _ | .invoking _ event _ _ => some event
  | _ => none

def Delivery.remaining : Delivery → List Handler
  | .handling _ _ remaining | .invoking _ _ _ remaining => remaining
  | _ => []

/-- A call of a handler, as it is observed. -/
def observed (call : Handler × Event) : Handler × Json := (call.1, eventId call.2)

/-- The action concerns neither the queue nor a delivery. -/
def Action.isAside {Client : Type} : Action Client → Bool
  | .emit .. | .deliver .. | .answer .. | .resume => false
  | _ => true

def StepCall.interrupt : StepCall → StepCall
  | .executing stepId => .interrupted stepId
  | call => call

namespace World

variable {Client : Type} [DecidableEq Client] (repr : Json → String)

def initial (heap : Heap) : World Client where
  seq := 0
  bus := .empty
  heap := heap
  deliveries := fun _ ↦ .idle
  stepCalls := fun _ ↦ .idle
  stored := none
  invoked := []
  handled := []
  outcomes := []

def deliver (world : World Client) (client : Client) : World Client :=
  let next := world.bus.deliver repr (world.deliveries client)
  { world with
    bus := next.2
    deliveries := Function.update world.deliveries client next.1
    invoked := world.invoked ++
      (if (world.deliveries client).current = none then next.1.current.toList.map observed
      else []) }

def answer (world : World Client) (client : Client) (result : Except Exception Unit)
    (now : String) : World Client :=
  let next := world.bus.answer repr result now (world.deliveries client)
  { world with
    bus := next.2
    deliveries := Function.update world.deliveries client next.1
    handled := world.handled ++
      (if result.isOk then (world.deliveries client).current.toList.map observed else []) }

def runStep (world : World Client) (client : Client) (stepId : String) : World Client :=
  match world.stepCalls client with
  | .idle =>
      match world.bus.beginStep repr world.heap stepId with
      | some outcome => { world with outcomes := world.outcomes ++ [(stepId, outcome)] }
      | none =>
          { world with
            stepCalls := Function.update world.stepCalls client (.executing stepId) }
  | _ => world

def fnEnds (world : World Client) (client : Client) (result : FnResult) (now : String) :
    World Client :=
  match world.stepCalls client with
  | .executing stepId =>
      let ended := world.bus.endStep repr world.heap stepId result now
      { world with
        bus := ended.2
        stepCalls := Function.update world.stepCalls client .idle
        outcomes := world.outcomes ++ [(stepId, ended.1)] }
  | _ => world

def emit (world : World Client) (event : Json) (now : String) : World Client :=
  match Bus.checkEvent event with
  | .ok event =>
      { world with
        seq := world.seq + 1
        bus := (world.bus.emit event (world.seq + 1) now).2 }
  | .error _ => world

/-- The bus a new process starts on. -/
def restored (world : World Client) : Bus :=
  match world.stored.map (Bus.restore repr) with
  | some (.ok bus) => bus
  | _ => .empty

def resume (world : World Client) : World Client :=
  { world with
    seq := 0
    bus := world.restored repr
    deliveries := fun _ ↦ .idle
    stepCalls := fun client ↦ (world.stepCalls client).interrupt }

def step (world : World Client) : Action Client → World Client
  | .on name handler =>
      match world.bus.on name handler with
      | .ok bus => { world with bus := bus }
      | .error _ => world
  | .unsubscribe name handler => { world with bus := world.bus.unsubscribe name handler }
  | .emit event now => world.emit event now
  | .deliver client => world.deliver repr client
  | .answer client result now => world.answer repr client result now
  | .runStep client stepId => world.runStep repr client stepId
  | .fnEnds client result now => world.fnEnds repr client result now
  | .mutate heap => { world with heap := heap }
  | .snapshot =>
      match world.bus.snapshot world.heap with
      | .ok state => { world with stored := some state }
      | .error _ => world
  | .resume => world.resume repr

def run (world : World Client) (actions : List (Action Client)) : World Client :=
  actions.foldl (step repr) world

@[simp] theorem run_nil (world : World Client) : world.run repr [] = world := rfl

theorem run_append (world : World Client) (actions more : List (Action Client)) :
    world.run repr (actions ++ more) = (world.run repr actions).run repr more := by
  simp [run]

theorem run_append_singleton (world : World Client) (actions : List (Action Client))
    (action : Action Client) :
    world.run repr (actions ++ [action]) = (world.run repr actions).step repr action := by
  simp [run]

/-! ## What one action can do to the deliveries -/

def enter (world : World Client) (client : Client) (next : Delivery) : World Client :=
  { world with deliveries := Function.update world.deliveries client next }

def withQueue (world : World Client) (queue : List ℕ) : World Client :=
  { world with bus := { world.bus with queue := queue } }

/-- The stretches of a `deliver` call, by what they leave. -/
inductive Delivers (world : World Client) (client : Client) : World Client → Prop where
  /-- The call starts, comes back to its loop, or returns. -/
  | turns (next : Delivery) (hnext : next.event = none)
      (hremaining : (world.deliveries client).remaining = [])
      (hcurrent : (world.deliveries client).current = none) :
      Delivers world client (world.enter client next)
  /-- An entry of the queue leads to no handler. -/
  | skips (next : Delivery) (index : ℕ) (queue : List ℕ) (hnext : next.event = none)
      (hevent : (world.deliveries client).event = none) (hqueue : world.bus.queue = index :: queue)
      (hnone : ∀ event, world.bus.log[index]? = some event → world.bus.handlersFor event = []) :
      Delivers world client ((world.withQueue queue).enter client next)
  | takes (receipts : List Receipt) (index : ℕ) (queue : List ℕ) (event : Event)
      (hlooping : (world.deliveries client) = .looping receipts)
      (hqueue : world.bus.queue = index :: queue) (hlog : world.bus.log[index]? = some event) :
      Delivers world client ((world.withQueue queue).enter client
        (.handling receipts event (world.bus.handlersFor event)))
  | passes (receipts more : List Receipt) (event : Event) (handler : Handler)
      (remaining : List Handler)
      (hhandling : world.deliveries client = .handling receipts event (handler :: remaining))
      (hdelivered : world.bus.isDelivered repr event handler = true) :
      Delivers world client (world.enter client (.handling more event remaining))
  | calls (receipts : List Receipt) (event : Event) (handler : Handler) (remaining : List Handler)
      (hhandling : world.deliveries client = .handling receipts event (handler :: remaining))
      (hdelivered : world.bus.isDelivered repr event handler = false) :
      Delivers world client
        { world.enter client (.invoking receipts event handler remaining) with
          invoked := world.invoked ++ [(handler, eventId event)] }
  /-- The client waits for the handler it has called. -/
  | waits : Delivers world client world

theorem delivers (world : World Client) (client : Client) :
    Delivers repr world client (world.deliver repr client) := by
  cases hphase : world.deliveries client with
  | idle | returned _ | raised _ =>
      have h : Delivers repr world client (world.enter client (.looping [])) :=
        .turns _ rfl (by rw [hphase]; rfl) (by rw [hphase]; rfl)
      simpa [deliver, Bus.deliver, hphase, enter, Delivery.current] using h
  | looping receipts =>
      cases hqueue : world.bus.queue with
      | nil =>
          have h : Delivers repr world client (world.enter client (.returned receipts)) :=
            .turns _ rfl (by rw [hphase]; rfl) (by rw [hphase]; rfl)
          simpa [deliver, Bus.deliver, hphase, hqueue, enter, Delivery.current] using h
      | cons index queue =>
          cases hlog : world.bus.log[index]? with
          | none =>
              have h : Delivers repr world client ((world.withQueue queue).enter client
                  (.raised ⟨"IndexError", "list index out of range"⟩)) :=
                .skips _ index queue rfl (by rw [hphase]; rfl) hqueue (by simp [hlog])
              simpa [deliver, Bus.deliver, hphase, hqueue, hlog, enter, withQueue,
                Delivery.current] using h
          | some event =>
              cases hhandlers : world.bus.handlersFor event with
              | nil =>
                  have h : Delivers repr world client ((world.withQueue queue).enter client
                      (.looping (receipts ++ [⟨event, none, .skipped⟩]))) :=
                    .skips _ index queue rfl (by rw [hphase]; rfl) hqueue
                      (by rw [hlog]; rintro _ ⟨⟩; exact hhandlers)
                  simpa [deliver, Bus.deliver, hphase, hqueue, hlog, hhandlers, enter, withQueue,
                    Delivery.current] using h
              | cons handler handlers =>
                  have h : Delivers repr world client ((world.withQueue queue).enter client
                      (.handling receipts event (world.bus.handlersFor event))) :=
                    .takes receipts index queue event hphase hqueue hlog
                  simpa [deliver, Bus.deliver, hphase, hqueue, hlog, hhandlers, enter, withQueue,
                    Delivery.current] using h
  | handling receipts event remaining =>
      cases remaining with
      | nil =>
          have h : Delivers repr world client (world.enter client (.looping receipts)) :=
            .turns _ rfl (by rw [hphase]; rfl) (by rw [hphase]; rfl)
          simpa [deliver, Bus.deliver, hphase, enter, Delivery.current] using h
      | cons handler remaining =>
          cases hdelivered : world.bus.isDelivered repr event handler with
          | true =>
              have h : Delivers repr world client (world.enter client
                  (.handling (receipts ++ [receipt repr event handler .deduplicated]) event
                    remaining)) :=
                .passes receipts _ event handler remaining hphase hdelivered
              simpa [deliver, Bus.deliver, hphase, hdelivered, enter, Delivery.current] using h
          | false =>
              have h : Delivers repr world client
                  { world.enter client (.invoking receipts event handler remaining) with
                    invoked := world.invoked ++ [(handler, eventId event)] } :=
                .calls receipts event handler remaining hphase hdelivered
              simpa [deliver, Bus.deliver, hphase, hdelivered, enter, Delivery.current,
                observed] using h
  | invoking receipts event handler remaining =>
      have hself := Function.update_eq_self client world.deliveries
      rw [hphase] at hself
      have hsame : world.deliver repr client = world := by
        simp [deliver, Bus.deliver, hphase, Delivery.current, hself]
      rw [hsame]
      exact .waits

/-- The end of a handler, by what it leaves. -/
inductive Answers (world : World Client) (client : Client) (result : Except Exception Unit)
    (now : String) : World Client → Prop where
  | returns (receipts more : List Receipt) (event : Event) (handler : Handler)
      (remaining : List Handler)
      (hinvoking : world.deliveries client = .invoking receipts event handler remaining)
      (hresult : result = .ok ()) :
      Answers world client result now
        { world.enter client (.handling more event remaining) with
          bus :=
            { world.bus with
              delivered := Dict.set (deliveryId repr (eventId event) handler) (.str now)
                world.bus.delivered }
          handled := world.handled ++ [(handler, eventId event)] }
  | raises (receipts : List Receipt) (event : Event) (handler : Handler)
      (remaining : List Handler) (exc : Exception)
      (hinvoking : world.deliveries client = .invoking receipts event handler remaining)
      (hresult : result = .error exc) :
      Answers world client result now (world.enter client (.raised exc))
  /-- The client is in no handler. -/
  | idles : Answers world client result now world

theorem answers (world : World Client) (client : Client) (result : Except Exception Unit)
    (now : String) :
    Answers repr world client result now (world.answer repr client result now) := by
  cases hphase : world.deliveries client with
  | invoking receipts event handler remaining =>
      cases result with
      | ok value =>
          have h : Answers repr world client (.ok value) now
              { world.enter client
                  (.handling (receipts ++ [receipt repr event handler .delivered]) event remaining)
                with
                bus :=
                  { world.bus with
                    delivered := Dict.set (deliveryId repr (eventId event) handler) (.str now)
                      world.bus.delivered }
                handled := world.handled ++ [(handler, eventId event)] } :=
            .returns receipts _ event handler remaining hphase rfl
          simpa [answer, Bus.answer, hphase, enter, Delivery.current, observed,
            Except.isOk, Except.toBool] using h
      | error exc =>
          have h : Answers repr world client (.error exc) now (world.enter client (.raised exc)) :=
            .raises receipts event handler remaining exc hphase rfl
          simpa [answer, Bus.answer, hphase, enter, Except.isOk, Except.toBool] using h
  | _ =>
      have hself := Function.update_eq_self client world.deliveries
      rw [hphase] at hself
      have hsame : world.answer repr client result now = world := by
        simp [answer, Bus.answer, hphase, Delivery.current, hself]
      rw [hsame]
      exact .idles

/-- An emit, by what it leaves: the event is refused, stored, or found in the log. -/
inductive Emits (world : World Client) (event : Json) (now : String) : World Client → Prop where
  | refuses (exc : Exception) (hcheck : Bus.checkEvent event = .error exc) :
      Emits world event now world
  | stores (members : Event) (hcheck : Bus.checkEvent event = .ok members)
      (hnew : ∀ other ∈ world.bus.log,
        Python.eq (eventId other) (eventId (Bus.stamped members (world.seq + 1) now)) = false) :
      Emits world event now
        { world with
          seq := world.seq + 1
          bus :=
            { world.bus with
              log := world.bus.log ++ [Bus.stamped members (world.seq + 1) now]
              queue := world.bus.queue ++ [world.bus.log.length] } }
  | finds (members : Event) (index : ℕ) (found : Event)
      (hcheck : Bus.checkEvent event = .ok members) (hlog : world.bus.log[index]? = some found)
      (hid : Python.eq (eventId found)
        (eventId (Bus.stamped members (world.seq + 1) now)) = true) :
      Emits world event now
        { world with
          seq := world.seq + 1
          bus := { world.bus with queue := world.bus.queue ++ [index] } }

omit [DecidableEq Client] in
theorem emits (world : World Client) (event : Json) (now : String) :
    Emits world event now (world.emit event now) := by
  unfold emit
  cases hcheck : Bus.checkEvent event with
  | error exc => exact .refuses exc hcheck
  | ok members =>
      simp only [Bus.emit]
      cases hindex : world.bus.indexOf
          (eventId (Bus.stamped members (world.seq + 1) now)) with
      | none =>
          refine .stores members hcheck fun other hother ↦ ?_
          simpa using List.findIdx?_eq_none_iff.mp hindex other hother
      | some index =>
          obtain ⟨hlt, hid, -⟩ := List.findIdx?_eq_some_iff_getElem.mp hindex
          exact .finds members index _ hcheck (List.getElem?_eq_getElem hlt) hid

/-! ## Actions that leave deliveries alone -/

/-- The two worlds agree on everything a delivery depends on, the handlers apart. -/
structure SameDeliveries (world next : World Client) : Prop where
  log : next.bus.log = world.bus.log
  delivered : next.bus.delivered = world.bus.delivered
  queue : next.bus.queue = world.bus.queue
  deliveries : next.deliveries = world.deliveries
  invoked : next.invoked = world.invoked
  handled : next.handled = world.handled

theorem recordStep_bus (bus : Bus) (heap : Heap) (stepId : String) (record : StepRecord) :
    ∃ steps, (bus.recordStep repr heap stepId record).2 = { bus with steps := steps } := by
  unfold Bus.recordStep
  split
  · exact ⟨bus.steps, rfl⟩
  · exact ⟨_, rfl⟩

theorem endStep_bus (bus : Bus) (heap : Heap) (stepId : String) (result : FnResult)
    (now : String) :
    ∃ steps, (bus.endStep repr heap stepId result now).2 = { bus with steps := steps } := by
  unfold Bus.endStep
  split
  · exact recordStep_bus repr bus heap stepId _
  · split
    · exact ⟨bus.steps, rfl⟩
    · exact recordStep_bus repr bus heap stepId _

theorem sameDeliveries_step (world : World Client) {action : Action Client}
    (h : action.isAside = true) : SameDeliveries world (world.step repr action) := by
  cases action with
  | emit | deliver | answer | resume => cases h
  | on name handler =>
      simp only [step, Bus.on]
      split_ifs <;> exact ⟨rfl, rfl, rfl, rfl, rfl, rfl⟩
  | unsubscribe name handler =>
      simp only [step, Bus.unsubscribe]
      split <;> exact ⟨rfl, rfl, rfl, rfl, rfl, rfl⟩
  | runStep client stepId =>
      simp only [step, runStep]
      split
      · split <;> exact ⟨rfl, rfl, rfl, rfl, rfl, rfl⟩
      · exact ⟨rfl, rfl, rfl, rfl, rfl, rfl⟩
  | fnEnds client result now =>
      simp only [step, fnEnds]
      split
      · next stepId _ =>
          obtain ⟨steps, hbus⟩ := endStep_bus repr world.bus world.heap stepId result now
          exact ⟨by rw [hbus], by rw [hbus], by rw [hbus], rfl, rfl, rfl⟩
      · exact ⟨rfl, rfl, rfl, rfl, rfl, rfl⟩
  | mutate heap => exact ⟨rfl, rfl, rfl, rfl, rfl, rfl⟩
  | snapshot =>
      simp only [step]
      split <;> exact ⟨rfl, rfl, rfl, rfl, rfl, rfl⟩

/-- Only a snapshot changes what is stored. -/
theorem stored_step (world : World Client) {action : Action Client} (h : action ≠ .snapshot) :
    (world.step repr action).stored = world.stored := by
  cases action with
  | on name handler =>
      simp only [step]
      split <;> rfl
  | emit event now =>
      simp only [step, emit]
      split <;> rfl
  | runStep client stepId =>
      simp only [step, runStep]
      split
      · split <;> rfl
      · rfl
  | fnEnds client result now =>
      simp only [step, fnEnds]
      split <;> rfl
  | snapshot => exact absurd rfl h
  | _ => rfl

/-- A registration ends only with `unsubscribe` or with its process. -/
theorem mem_handlersNamed_step {world : World Client} {action : Action Client} {name : Json}
    {handler : Handler} (hunsubscribe : ∀ name, action ≠ .unsubscribe name handler)
    (hresume : action ≠ .resume) (h : handler ∈ world.bus.handlersNamed name) :
    handler ∈ (world.step repr action).bus.handlersNamed name := by
  cases action with
  | on other new =>
      simp only [step]
      split
      · next bus hon => exact Bus.mem_handlersNamed_on hon h
      · exact h
  | unsubscribe other old =>
      refine Bus.mem_handlersNamed_unsubscribe ?_ h
      rintro rfl
      exact hunsubscribe other rfl
  | emit event now =>
      have hemits := emits world event now
      simp only [step]
      generalize world.emit event now = next at hemits ⊢
      cases hemits <;> exact h
  | deliver client =>
      have hdelivers := delivers repr world client
      simp only [step]
      generalize world.deliver repr client = next at hdelivers ⊢
      cases hdelivers <;> exact h
  | answer client result now =>
      have hanswers := answers repr world client result now
      simp only [step]
      generalize world.answer repr client result now = next at hanswers ⊢
      cases hanswers <;> exact h
  | runStep client stepId =>
      simp only [step, runStep]
      split
      · split <;> exact h
      · exact h
  | fnEnds client result now =>
      simp only [step, fnEnds]
      split
      · next stepId _ =>
          obtain ⟨steps, hbus⟩ := endStep_bus repr world.bus world.heap stepId result now
          rw [hbus]
          exact h
      · exact h
  | mutate heap => exact h
  | snapshot =>
      simp only [step]
      split <;> exact h
  | resume => exact absurd rfl hresume

end World

end AgenticSDLC.EventBus
