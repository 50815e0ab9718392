import AgenticSDLC.Foundations.Dict
import AgenticSDLC.Foundations.JsonReader
import AgenticSDLC.Foundations.Outcome

/-!
# The webhook receiver

`plane-integration/webhook_handler.py`: a signed delivery is remembered by its id,
routed by its payload, and put into the queue as a job.  The delivery ids, the last
dispatched states and the queue are files of their own, and any of the writes may
fail, or be the last thing that the process does.
-/

namespace AgenticSDLC.Webhook

open Python (Exception Key)

def seenCap : ℕ := 5000

def dispatchOnState : List (String × String) :=
  [("Agent-Triaged", "initializer"), ("Plan-Approved", "implementer"),
    ("Agent-Executing", "verifier"), ("In-Verification", "verifier")]

def noDispatchOnCreate : List String := ["Agent-Executing", "In-Verification"]

/-- What the receiver runs with: its secret, whether unsigned requests are let in
without one, and library functions: the HMAC of a body, the float of a decimal, and
the name that a key gets in JSON when it is no string. -/
structure Env where
  secret : String
  allowUnsigned : Bool
  hmacSha256 : String → String → String
  toFloat : String → Json
  keyName : Key → String

/-- The headers that are read, and the body. -/
structure Request where
  signature : String
  delivery : String
  event : String
  raw : String

abbrev Job := List (String × Json)

structure Files where
  /-- The delivery ids, oldest first. -/
  seen : List String
  /-- The last dispatched state of every item. -/
  dispatched : List (String × String)
  queue : List Job

structure World where
  files : Files
  seen : List String
  dispatched : List (Key × String)
  replies : List (ℕ × String)

/-- The receiver as it starts on its files. -/
def World.load (files : Files) : World :=
  ⟨files, files.seen, (Dict.ofItems files.dispatched).map fun item ↦ (.str item.1, item.2), []⟩

/-! ## Writes -/

inductive Fate where
  | lands
  | fails (exc : Exception)
  /-- The text is written, but not flushed to the disk. -/
  | failsAfter (exc : Exception)
  | crashesBefore
  | crashesAfter
  deriving DecidableEq

/-- The write takes effect. -/
def Fate.written : Fate → Bool
  | .lands | .failsAfter _ | .crashesAfter => true
  | .fails _ | .crashesBefore => false

/-- How each write of one handling goes. -/
structure Fates where
  seen : Fate
  reply : Fate
  dispatched : Fate
  queue : Fate
  /-- The record of a route error. -/
  recorded : Fate

def Fates.fine : Fates := ⟨.lands, .lands, .lands, .lands, .lands⟩

/-- How a handling ends early: by an exception, or with the process. -/
inductive Stop where
  | raised (exc : Exception) (world : World)
  | crashed (files : Files)

/-- The receiver after the handling; a crashed one is started again. -/
def Stop.world : Stop → World
  | .raised _ world => world
  | .crashed files => .load files

/-- The receiver after a computation, however it ended. -/
def ended : Except Stop World → World
  | .ok world => world
  | .error stop => stop.world

def write (fate : Fate) (effect : Files → Files) (world : World) : Except Stop World :=
  match fate with
  | .lands => .ok { world with files := effect world.files }
  | .fails exc => .error (.raised exc world)
  | .failsAfter exc => .error (.raised exc { world with files := effect world.files })
  | .crashesBefore => .error (.crashed world.files)
  | .crashesAfter => .error (.crashed (effect world.files))

def saveSeen (fate : Fate) (world : World) : Except Stop World :=
  -- The oldest ids leave until the others fit.
  let world := { world with seen := Python.lastItems seenCap world.seen }
  write fate (fun files ↦ { files with seen := world.seen }) world

def enqueued (job : Job) (now : String) : Job := job ++ [("enqueued_at", .str now)]

def enqueue (fate : Fate) (job : Job) (now : String) (world : World) : Except Stop World :=
  write fate (fun files ↦ { files with queue := files.queue ++ [enqueued job now] }) world

def reply (fate : Fate) (code : ℕ) (message : String) (world : World) : Except Stop World := do
  let world ← write fate id world
  return { world with replies := world.replies ++ [(code, message)] }

/-! ## Routing -/

/-- `d.get(key) or {}`. -/
def member (members : List (String × Json)) (key : String) : Json :=
  let value := Python.get members key
  if Python.truthy value then value else .obj []

def isStateTransition (payload : List (String × Json)) : Except Exception (Option Bool) := do
  let act ← Python.asDict (member payload "activity")
  let field := Python.get act "field"
  return if field = .null then none else some (Python.eq field (.str "state"))

/-- `DISPATCH_ON_STATE.get(state_name)`, with the name of the state. -/
def roleOf (stateName : Json) : Except Exception (Option (String × String)) := do
  let _ ← Python.hashKey stateName
  match stateName with
  | .str state => return (dispatchOnState.lookup state).map fun role ↦ (state, role)
  | _ => return none

/-- The name of the state that an issue is in, which its data gives alone or in full. -/
def stateNameOf (data : List (String × Json)) : Json :=
  match Python.get data "state" with
  | .obj sv => Python.get sv "name"
  | sv => sv

/-- What an event calls for. -/
inductive Routing where
  | nothing
  /-- A job, unless the item's last dispatched state is this one. -/
  | dispatch (key : Key) (state : String) (job : Job)
  | record (job : Job)

def routing (event : String) (payload : Json) (delivery : String) : Except Exception Routing := do
  let payload ← Python.asDict payload
  let action := Python.get payload "action"
  let data := member payload "data"
  if event = "issue" then
    let data ← Python.asDict data
    let issueId := Python.get data "id"
    match ← roleOf (stateNameOf data) with
    | none => return .nothing
    | some (state, role) =>
        if ¬Python.truthy issueId then return .nothing
        if (← isStateTransition payload) = some false then return .nothing
        if action = .str "created" ∧ state ∈ noDispatchOnCreate then return .nothing
        return .dispatch (← Python.hashKey issueId) state
          [("kind", .str "agent_dispatch"), ("agent_role", .str role), ("issue_id", issueId),
            ("state", .str state), ("action", action), ("delivery", .str delivery),
            ("name", Python.get data "name")]
  else if event = "issue_comment" then
    let data ← Python.asDict data
    return .record [("kind", .str "comment"), ("issue_id", Python.get data "issue"),
      ("action", action), ("delivery", .str delivery)]
  else
    return .record [("kind", .str "event"), ("event", .str event), ("action", action),
      ("delivery", .str delivery)]

section Handler

variable (env : Env)

def keyText : Key → String
  | .str s => s
  | key => env.keyName key

def route (fates : Fates) (event : String) (payload : Json) (delivery now : String)
    (world : World) : Except Stop World :=
  match routing event payload delivery with
  | .error exc => .error (.raised exc world)
  | .ok .nothing => .ok world
  | .ok (.record job) => enqueue fates.queue job now world
  | .ok (.dispatch key state job) =>
      if world.dispatched.lookup key = some state then .ok world
      else do
        let world := { world with dispatched := Dict.set key state world.dispatched }
        let world ← write fates.dispatched (fun files ↦
          { files with
            dispatched := world.dispatched.map fun item ↦ (keyText env item.1, item.2) }) world
        enqueue fates.queue job now world

/-! ## Requests -/

def verify (signature raw : String) : Except Exception Bool :=
  if env.secret = "" then .ok env.allowUnsigned
  else if signature = "" then .ok false
  else
    let signature := if ['s', 'h', 'a', '2', '5', '6', '='].isPrefixOf signature.toList then
      String.ofList (signature.toList.drop 7) else signature
    if Text.isAscii signature then .ok (env.hmacSha256 env.secret raw = signature)
    else .error ⟨"TypeError", "comparing strings with non-ASCII characters is not supported"⟩

def body (request : Request) : Option Json :=
  Json.loads env.toFloat (if request.raw = "" then "\x7b\x7d" else request.raw)

def routeError (exc : Exception) (delivery : String) : Job :=
  [("kind", .str "route_error"), ("error", .str (String.ofList (exc.detail.toList.take 200))),
    ("delivery", .str delivery)]

/-- The routing of an accepted request, with the record of an exception in it. -/
def routeOrRecord (fates : Fates) (event : String) (payload : Json) (delivery now : String)
    (world : World) : Except Stop World :=
  match route env fates event payload delivery now world with
  | .error (.raised exc world) =>
      enqueue fates.recorded (routeError exc delivery) now world
  | outcome => outcome

def doPost (fates : Fates) (request : Request) (now : String) (world : World) :
    Except Stop World :=
  match verify env request.signature request.raw with
  | .error exc => .error (.raised exc world)
  | .ok false => reply fates.reply 403 "invalid signature" world
  | .ok true =>
      if request.delivery ≠ "" ∧ request.delivery ∈ world.seen then
        reply fates.reply 200 "duplicate ignored" world
      else do
        let world ←
          if request.delivery ≠ "" then
            saveSeen fates.seen { world with seen := world.seen ++ [request.delivery] }
          else .ok world
        match body env request with
        | none => reply fates.reply 400 "bad json" world
        | some payload =>
            let world ← reply fates.reply 200 "accepted" world
            routeOrRecord env fates request.event payload request.delivery now world

/-- The receiver after it has handled the request. -/
def World.handle (fates : Fates) (request : Request) (now : String) (world : World) : World :=
  ended (doPost env fates request now world)

/-! ## Handling without failure -/

variable {env}

/-- The receiver once it has remembered a delivery and answered it. -/
def World.accepted (delivery : String) (world : World) : World :=
  let seen := if delivery = "" then world.seen else Python.lastItems seenCap (world.seen ++ [delivery])
  { world with
    files := if delivery = "" then world.files else { world.files with seen := seen }
    seen := seen
    replies := world.replies ++ [(200, "accepted")] }

@[simp] theorem World.queue_accepted (delivery : String) (world : World) :
    (world.accepted delivery).files.queue = world.files.queue := by
  by_cases h : delivery = "" <;> simp [World.accepted, h]

@[simp] theorem World.dispatched_accepted (delivery : String) (world : World) :
    (world.accepted delivery).dispatched = world.dispatched := rfl

theorem World.mem_seen_accepted {delivery id : String} {world : World}
    (h : id ∈ (world.accepted delivery).seen) : id ∈ world.seen ∨ id = delivery := by
  simp only [World.accepted] at h
  split_ifs at h with hempty
  · exact Or.inl h
  · rcases List.mem_append.mp ((Python.lastItems_suffix _ _).mem h) with hold | hnew
    · exact Or.inl hold
    · exact Or.inr (List.mem_singleton.mp hnew)

variable (env) in
/-- What a routing does to the queue and the last dispatched states. -/
def Routing.perform (now : String) (world : World) : Routing → World
  | .nothing => world
  | .record job => { world with files :=
      { world.files with queue := world.files.queue ++ [enqueued job now] } }
  | .dispatch key state job =>
      if world.dispatched.lookup key = some state then world
      else
        let dispatched := Dict.set key state world.dispatched
        { world with
          dispatched := dispatched
          files := { world.files with
            dispatched := dispatched.map fun item ↦ (keyText env item.1, item.2)
            queue := world.files.queue ++ [enqueued job now] } }

theorem handle_fine {request : Request} {payload : Json} {routed : Routing} {world : World}
    (hsigned : verify env request.signature request.raw = .ok true)
    (hbody : body env request = some payload)
    (hrouting : routing request.event payload request.delivery = .ok routed)
    (hnew : ¬(request.delivery ≠ "" ∧ request.delivery ∈ world.seen)) (now : String) :
    world.handle env .fine request now =
      routed.perform env now (world.accepted request.delivery) := by
  have hroute : routeOrRecord env .fine request.event payload request.delivery now
      (world.accepted request.delivery) =
        .ok (routed.perform env now (world.accepted request.delivery)) := by
    rw [routeOrRecord, route, hrouting]
    cases routed with
    | nothing => rfl
    | record job => rfl
    | dispatch key state job =>
        simp only [Routing.perform]
        split_ifs <;> rfl
  have hpost : doPost env .fine request now world =
      .ok (routed.perform env now (world.accepted request.delivery)) := by
    rw [doPost, hsigned]
    simp only [if_neg hnew, hbody]
    by_cases hempty : request.delivery = ""
    · have haccepted : reply Fates.fine.reply 200 "accepted" world =
          .ok (world.accepted request.delivery) := by
        simp only [World.accepted, hempty, if_pos]
        rfl
      rw [if_neg (not_not.mpr hempty), Outcome.ok_bind, haccepted, Outcome.ok_bind, hroute]
    · have hremembered : ∃ next, saveSeen Fates.fine.seen
            { world with seen := world.seen ++ [request.delivery] } = .ok next ∧
          reply Fates.fine.reply 200 "accepted" next =
            .ok (world.accepted request.delivery) := by
        simp only [saveSeen, World.accepted, if_neg hempty]
        exact ⟨_, rfl, rfl⟩
      obtain ⟨next, hsave, haccepted⟩ := hremembered
      rw [if_pos hempty, hsave, Outcome.ok_bind, haccepted, Outcome.ok_bind, hroute]
  rw [World.handle, hpost, ended]

end Handler

end AgenticSDLC.Webhook
