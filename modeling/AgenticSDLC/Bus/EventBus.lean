import AgenticSDLC.Foundations.Dict
import AgenticSDLC.Foundations.Outcome
import AgenticSDLC.Foundations.Python

/-!
# The event bus

`tools/event_bus.py`: an append-only event log, handlers by event name, durable
steps memoised by their id, and delivery with one mark for each event and
handler.  What the source does under one hold of its lock is one definition
here, so that calls of any number of clients can interleave between the holds.
-/

namespace AgenticSDLC.EventBus

open Python (Exception)

/-! ## Events and handlers -/

abbrev Event := List (String × Json)

def eventId (event : Event) : Json := Python.get event "id"

def eventName (event : Event) : Json := Python.getD event "name" (.str "")

/-- A registered callable: which one it is, and the attributes `_handler_key`
reads, empty where the callable has none. -/
structure Handler where
  identity : ℕ
  qualname : String
  name : String
  moduleName : String
  repr : String
  deriving DecidableEq

def handlerKey (handler : Handler) : String :=
  let name := if handler.qualname ≠ "" then handler.qualname else handler.name
  if name = "" then handler.repr
  else if handler.moduleName = "" then name
  else handler.moduleName ++ "." ++ name

def zeroPadded (width n : ℕ) : String :=
  String.ofList (List.replicate (width - (toString n).length) '0') ++ toString n

/-- `new_event_id`, when the counter has come to `n`. -/
def newEventId (n : ℕ) : String := "evt-" ++ zeroPadded 12 n

/-! ## Durable steps -/

/-- An object that lives outside of the bus, by what `json.dumps` makes of it now:
the value it stands for, or the exception of an object that is not serialisable. -/
structure Object where
  typeName : String
  content : Except Exception Json

abbrev Heap := ℕ → Object

/-- A value held by the ledger: one nobody else can change, or an object that the
function of the step returned and may still hold. -/
inductive Slot where
  | own (value : Json)
  | shared (object : ℕ)
  deriving DecidableEq

def Slot.read (heap : Heap) : Slot → Except Exception Json
  | .own value => .ok value
  | .shared object => (heap object).content

def Slot.typeName (heap : Heap) : Slot → String
  | .own value => Python.typeName value
  | .shared object => (heap object).typeName

structure StepRecord where
  status : Json
  value : Slot
  error : Json
  recordedAt : Json
  deriving DecidableEq

/-- How a call of `run_step` ends for its caller. -/
inductive StepOutcome where
  | returned (value : Json)
  | raised (exc : Exception)
  deriving DecidableEq

/-- How the function of a step ends. -/
inductive FnResult where
  | returned (value : Slot)
  | raised (exc : Exception)
  deriving DecidableEq

/-! ## The bus -/

structure Bus where
  log : List Event
  handlers : List (String × List Handler)
  steps : List (String × StepRecord)
  delivered : List (String × Json)
  queue : List ℕ

namespace Bus

def empty : Bus := ⟨[], [], [], [], []⟩

/-- `self._handlers.get(name, [])`. -/
def handlersNamed (bus : Bus) (name : Json) : List Handler :=
  match name with
  | .str name => (bus.handlers.lookup name).getD []
  | _ => []

def handlersFor (bus : Bus) (event : Event) : List Handler := bus.handlersNamed (eventName event)

def indexOf (bus : Bus) (id : Json) : Option ℕ :=
  bus.log.findIdx? fun event ↦ Python.eq (eventId event) id

def checkEvent : Json → Except Exception Event
  | .obj members =>
      match Python.get members "name" with
      | .str name =>
          if name = "" then
            .error ⟨"ValueError", "event must carry a non-empty string 'name'"⟩
          else .ok members
      | _ => .error ⟨"ValueError", "event must carry a non-empty string 'name'"⟩
  | _ => .error ⟨"TypeError", "event must be a dict"⟩

/-- The event as it is stored; `n` is the count of ids this process has made. -/
def stamped (event : Event) (n : ℕ) (now : String) : Event :=
  Dict.setDefault "ts" (.str now) (Dict.setDefault "id" (.str (newEventId n)) event)

/-- `emit` of an event that has passed its checks. -/
def emit (bus : Bus) (event : Event) (n : ℕ) (now : String) : Event × Bus :=
  let stored := stamped event n now
  match bus.indexOf (eventId stored) with
  | none =>
      (stored, { bus with log := bus.log ++ [stored], queue := bus.queue ++ [bus.log.length] })
  | some index => ((bus.log[index]?).getD [], { bus with queue := bus.queue ++ [index] })

def on (bus : Bus) (name : String) (handler : Handler) : Except Exception Bus :=
  if name = "" then .error ⟨"ValueError", "event_name must be a non-empty string"⟩
  else
    let handlers := (bus.handlers.lookup name).getD []
    .ok { bus with
      handlers := Dict.set name
        (if handler ∈ handlers then handlers else handlers ++ [handler]) bus.handlers }

theorem mem_handlersNamed_on {bus next : Bus} {name : String} {new : Handler}
    (hon : bus.on name new = .ok next) {other : Json} {handler : Handler}
    (h : handler ∈ bus.handlersNamed other) : handler ∈ next.handlersNamed other := by
  unfold on at hon
  by_cases hempty : name = ""
  · rw [if_pos hempty] at hon
    cases hon
  rw [if_neg hempty] at hon
  obtain rfl := Except.ok.inj hon
  cases other with
  | str other =>
      simp only [handlersNamed, Dict.lookup_set] at h ⊢
      by_cases hname : other = name
      · subst hname
        simp only [if_pos, Option.getD_some]
        split_ifs
        · exact h
        · exact List.mem_append_left _ h
      · rwa [if_neg hname]
  | _ => exact absurd h (by simp [handlersNamed])

def unsubscribe (bus : Bus) (name : String) (handler : Handler) : Bus :=
  match bus.handlers.lookup name with
  | some handlers => { bus with handlers := Dict.set name (handlers.erase handler) bus.handlers }
  | none => bus

theorem mem_handlersNamed_unsubscribe {bus : Bus} {name : String} {old : Handler} {other : Json}
    {handler : Handler} (hold : handler ≠ old) (h : handler ∈ bus.handlersNamed other) :
    handler ∈ (bus.unsubscribe name old).handlersNamed other := by
  unfold unsubscribe
  cases hlookup : bus.handlers.lookup name with
  | none => exact h
  | some handlers =>
      cases other with
      | str other =>
          simp only [handlersNamed, Dict.lookup_set] at h ⊢
          by_cases hname : other = name
          · subst hname
            rw [hlookup] at h
            rw [if_pos rfl]
            exact (List.mem_erase_of_ne hold).mpr h
          · rwa [if_neg hname]
      | _ => exact absurd h (by simp [handlersNamed])

end Bus

/-! ## Delivery -/

inductive ReceiptStatus where
  | delivered
  | deduplicated
  | skipped
  deriving DecidableEq

structure Receipt where
  event : Event
  handler : Option (String × String)
  status : ReceiptStatus
  deriving DecidableEq

/-- Where a client stands in its call of `deliver`: between two calls, at the top
of the loop, at the next handler of an event, or in the call of a handler. -/
inductive Delivery where
  | idle
  | looping (receipts : List Receipt)
  | handling (receipts : List Receipt) (event : Event) (remaining : List Handler)
  | invoking (receipts : List Receipt) (event : Event) (handler : Handler)
      (remaining : List Handler)
  | returned (receipts : List Receipt)
  | raised (exc : Exception)

section Repr

variable (repr : Json → String)

/-- The text of the mark of one delivery, by the id of its event. -/
def deliveryId (id : Json) (handler : Handler) : String :=
  Python.str repr id ++ ":" ++ handlerKey handler

def receipt (event : Event) (handler : Handler) (status : ReceiptStatus) : Receipt :=
  ⟨event, some (handlerKey handler, deliveryId repr (eventId event) handler), status⟩

def Bus.isDelivered (bus : Bus) (event : Event) (handler : Handler) : Bool :=
  (bus.delivered.lookup (deliveryId repr (eventId event) handler)).isSome

/-- The next stretch of a client's `deliver` call, up to its next hold of the lock. -/
def Bus.deliver (bus : Bus) : Delivery → Delivery × Bus
  | .idle | .returned _ | .raised _ => (.looping [], bus)
  | .looping receipts =>
      match bus.queue with
      | [] => (.returned receipts, bus)
      | index :: queue =>
          match bus.log[index]? with
          | none => (.raised ⟨"IndexError", "list index out of range"⟩, { bus with queue := queue })
          | some event =>
              match bus.handlersFor event with
              | [] =>
                  (.looping (receipts ++ [⟨event, none, .skipped⟩]), { bus with queue := queue })
              | handlers => (.handling receipts event handlers, { bus with queue := queue })
  | .handling receipts _ [] => (.looping receipts, bus)
  | .handling receipts event (handler :: remaining) =>
      if bus.isDelivered repr event handler then
        (.handling (receipts ++ [receipt repr event handler .deduplicated]) event remaining, bus)
      else (.invoking receipts event handler remaining, bus)
  | .invoking receipts event handler remaining => (.invoking receipts event handler remaining, bus)

/-- The handler a client has called returns or raises. -/
def Bus.answer (bus : Bus) (result : Except Exception Unit) (now : String) :
    Delivery → Delivery × Bus
  | .invoking receipts event handler remaining =>
      match result with
      | .ok _ =>
          (.handling (receipts ++ [receipt repr event handler .delivered]) event remaining,
            { bus with
              delivered :=
                Dict.set (deliveryId repr (eventId event) handler) (.str now) bus.delivered })
      | .error exc => (.raised exc, bus)
  | delivery => (delivery, bus)

/-! ## Steps -/

def StepRecord.toDict (heap : Heap) (record : StepRecord) : Except Exception Json := do
  let value ← record.value.read heap
  return .obj [("status", record.status), ("value", value), ("error", record.error),
    ("recorded_at", record.recordedAt)]

/-- `_replay`; the clone of a value is the value it stands for now. -/
def StepRecord.replay (heap : Heap) (stepId : String) (record : StepRecord) : StepOutcome :=
  if record.status = .str "ok" then
    match record.value.read heap with
    | .ok value => .returned value
    | .error exc => .raised exc
  else if record.status = .str "error" then
    .raised ⟨"RuntimeError", "durable step " ++ repr (.str stepId) ++
      " previously failed and is being replayed: " ++ Python.str repr record.error⟩
  else
    .raised ⟨"DurableStepError", "durable step " ++ repr (.str stepId) ++
      " has a corrupt ledger record (no terminal status): " ++
      repr ((record.toDict heap).toOption.getD .null)⟩

/-- `run_step` up to the call of the function; `none` goes on to call it. -/
def Bus.beginStep (bus : Bus) (heap : Heap) (stepId : String) : Option StepOutcome :=
  if stepId = "" then some (.raised ⟨"ValueError", "step_id must be a non-empty string"⟩)
  else (bus.steps.lookup stepId).map (StepRecord.replay repr heap stepId)

def succeeded (value : Slot) (now : String) : StepRecord := ⟨.str "ok", value, .null, .str now⟩

def failed (exc : Exception) (now : String) : StepRecord :=
  ⟨.str "error", .own .null, .str exc.text, .str now⟩

/-- Record `record` unless a concurrent call was first, and replay what is recorded. -/
def Bus.recordStep (bus : Bus) (heap : Heap) (stepId : String) (record : StepRecord) :
    StepOutcome × Bus :=
  match bus.steps.lookup stepId with
  | some existing => (existing.replay repr heap stepId, bus)
  | none => (record.replay repr heap stepId, { bus with steps := bus.steps ++ [(stepId, record)] })

/-- `run_step` from the end of the function on. -/
def Bus.endStep (bus : Bus) (heap : Heap) (stepId : String) (result : FnResult) (now : String) :
    StepOutcome × Bus :=
  match result with
  | .raised exc => bus.recordStep repr heap stepId (failed exc now)
  | .returned value =>
      match value.read heap with
      | .error exc =>
          (.raised ⟨"DurableStepError", "step " ++ repr (.str stepId) ++
            " returned a non-JSON-serializable result (" ++ value.typeName heap ++
            "); durable steps must return JSON-serializable values: " ++ exc.detail⟩, bus)
      | .ok _ => bus.recordStep repr heap stepId (succeeded value now)

end Repr

/-! ## Snapshot and restore -/

namespace Bus

def dictItems : Json → Except Exception (List (String × Json))
  | .obj members => .ok members
  | value => .error (Python.noAttribute value "items")

def snapshot (bus : Bus) (heap : Heap) : Except Exception Json := do
  let steps ← bus.steps.mapM fun step ↦ do return (step.1, ← step.2.toDict heap)
  return .obj [("log", .arr (bus.log.map .obj)),
    ("queue", .arr (bus.queue.map fun index : ℕ ↦ .int index)), ("steps", .obj steps),
    ("delivered", .obj bus.delivered)]

def restoreIndex : Json → Except Exception ℕ
  | .int (.ofNat index) => .ok index
  | value => .error ⟨"TypeError",
      "list indices must be integers or slices, not " ++ Python.typeName value⟩

def restoreStep (repr : Json → String) (stepId : String) (dict : Json) :
    Except Exception StepRecord := do
  let fields ← dictItems dict
  if (fields.lookup "status").isNone then
    throw ⟨"DurableStepError", "restored step " ++ repr (.str stepId) ++
      " has no terminal status: " ++ repr dict⟩
  else
    return ⟨Python.get fields "status", .own (Python.get fields "value"),
      Python.get fields "error", Python.get fields "recorded_at"⟩

def restore (repr : Json → String) (state : Json) : Except Exception Bus := do
  let fields ← Python.asDict state
  let log ← Python.iterate (Python.getD fields "log" (.arr []))
  let log ← log.mapM dictItems
  let queue ← Python.iterate (Python.getD fields "queue" (.arr []))
  let queue ← queue.mapM restoreIndex
  let steps ← dictItems (Python.getD fields "steps" (.obj []))
  let steps ← steps.mapM fun step ↦ do return (step.1, ← restoreStep repr step.1 step.2)
  let delivered ← dictItems (Python.getD fields "delivered" (.obj []))
  return ⟨log, [], steps, delivered, queue⟩

/-- The bus on the other side of a snapshot: no handlers, and every value its own. -/
def detached (bus : Bus) (heap : Heap) : Except Exception Bus := do
  let steps ← bus.steps.mapM fun step ↦ do
    let value ← step.2.value.read heap
    return (step.1, { step.2 with value := .own value })
  return { bus with handlers := [], steps := steps }

theorem snapshot_restore (bus : Bus) (heap : Heap) (repr : Json → String) :
    (bus.snapshot heap >>= restore repr) = bus.detached heap := by
  have hlog : (bus.log.map Json.obj).mapM dictItems = .ok bus.log := by
    rw [Outcome.mapM_map]
    exact Outcome.mapM_ok bus.log
  have hqueue : (bus.queue.map fun index : ℕ ↦ Json.int index).mapM restoreIndex =
      .ok bus.queue := by
    rw [Outcome.mapM_map]
    exact Outcome.mapM_ok bus.queue
  have hsteps := Outcome.mapM_bind_mapM
    (f := fun step : String × StepRecord ↦ do return (step.1, ← step.2.toDict heap))
    (g := fun step : String × Json ↦ do return (step.1, ← restoreStep repr step.1 step.2))
    (h := fun step ↦ do
      let value ← step.2.value.read heap
      return (step.1, { step.2 with value := .own value }))
    (by
      rintro ⟨stepId, record⟩
      cases hread : record.value.read heap with
      | error exc => simp [StepRecord.toDict, hread, Bind.bind, Except.bind]
      | ok value =>
          simp only [StepRecord.toDict, hread]
          rfl)
    (by
      rintro ⟨stepId, record⟩ dict hdict
      cases hread : record.value.read heap with
      | error exc => simp [StepRecord.toDict, hread, Bind.bind, Except.bind] at hdict
      | ok value =>
          simp only [StepRecord.toDict, hread] at hdict
          obtain rfl := Except.ok.inj hdict
          exact ⟨_, rfl⟩)
    bus.steps
  rw [detached, ← hsteps, snapshot]
  cases hdicts : bus.steps.mapM fun step ↦ do return (step.1, ← step.2.toDict heap) with
  | error exc => rfl
  | ok dicts =>
      have hfields : restore repr (.obj [("log", .arr (bus.log.map .obj)),
          ("queue", .arr (bus.queue.map fun index : ℕ ↦ .int index)), ("steps", .obj dicts),
          ("delivered", .obj bus.delivered)]) =
          ((bus.log.map Json.obj).mapM dictItems >>= fun log ↦
            (bus.queue.map fun index : ℕ ↦ Json.int index).mapM restoreIndex >>= fun queue ↦
              (dicts.mapM fun step ↦ do return (step.1, ← restoreStep repr step.1 step.2)) >>=
                fun steps ↦ .ok ⟨log, [], steps, bus.delivered, queue⟩) := rfl
      apply hfields.trans
      rw [hlog, hqueue]
      rfl

end Bus

end AgenticSDLC.EventBus
