import AgenticSDLC.Bridge.Redelivery
import AgenticSDLC.Bridge.SettledJobs
import AgenticSDLC.Foundations.JsonIndent

/-!
# From the board to the agents

The receiver and the dispatcher run side by side, with nothing between them but the queue file:
the one adds lines of JSON, the other reads all of them again at every drain.
-/

namespace AgenticSDLC.Bridge

open Python (Exception Stdlib)
open Webhook (Fates Files Request Routing Stop ended enqueued routeError)
open Dispatcher (Drain dispatchKey jobKey readJobs)

abbrev Job := List (String × Json)

structure World where
  receiver : Webhook.World
  dispatcher : Dispatcher.World

inductive Action where
  | post (fates : Fates) (request : Request) (now : String)
  | restart
  | drain (drain : Drain)

section System

variable (env : Webhook.Env) (py : Stdlib)

/-- The lines of the jobs: `json.dumps(job)`, each with a line feed. -/
def queueText (jobs : List Job) : List Char :=
  Text.unlines (jobs.map fun job ↦ Json.laidOut Json.asciiQuoting py.repr .space (.obj job))

def World.start : World := ⟨.load ⟨[], [], []⟩, .start⟩

/-- The receiver goes on, and the lines that it has added are in the file. -/
def World.receive (world : World) (receiver : Webhook.World) : World :=
  let added := receiver.files.queue.drop world.receiver.files.queue.length
  ⟨receiver, world.dispatcher.step py env.toFloat (.append (String.ofList (queueText py added)))⟩

def World.step (world : World) : Action → World
  | .post fates request now => world.receive env py (world.receiver.handle env fates request now)
  | .restart => world.receive env py (.load world.receiver.files)
  | .drain drain => { world with dispatcher := world.dispatcher.step py env.toFloat (.drain drain) }

def World.run (actions : List Action) : World := actions.foldl (World.step env py) .start

theorem run_append_singleton (actions : List Action) (action : Action) :
    World.run env py (actions ++ [action]) = (World.run env py actions).step env py action :=
  List.foldl_append

end System

/-! ## What the receiver adds -/

section Receiver

variable (env : Webhook.Env)

/-- The job comes of the request, which is signed. -/
inductive Emits (request : Request) (now : String) : Job → Prop
  | routed {payload : Json} {routing : Routing} {job : Job}
      (hsigned : Webhook.verify env request.signature request.raw = .ok true)
      (hbody : Webhook.body env request = some payload)
      (hrouting : Webhook.routing request.event payload request.delivery = .ok routing)
      (hjob : routing.job? = some job) : Emits request now (enqueued job now)
  | error (hsigned : Webhook.verify env request.signature request.raw = .ok true)
      (exc : Exception) : Emits request now (enqueued (routeError exc request.delivery) now)

variable {env}

/-- The queue is what it was, and then jobs that satisfy `p`. -/
def Grows (p : Job → Prop) (queue : List Job) (outcome : Except Stop Webhook.World) : Prop :=
  ∃ jobs, (ended outcome).files.queue = queue ++ jobs ∧ ∀ job ∈ jobs, p job

variable {p : Job → Prop} {queue : List Job}

theorem grows_same {outcome : Except Stop Webhook.World}
    (h : (ended outcome).files.queue = queue) : Grows p queue outcome :=
  ⟨[], by rw [h, List.append_nil], List.forall_mem_nil _⟩

theorem grows_write {effect : Files → Files} (h : ∀ files, (effect files).queue = files.queue)
    (fate : Webhook.Fate) {world : Webhook.World} (hworld : world.files.queue = queue) :
    Grows p queue (Webhook.write fate effect world) := by
  apply grows_same
  cases fate <;> simp [Webhook.write, ended, Stop.world, Webhook.World.load, h, hworld]

theorem grows_enqueue {job : Job} {now : String} (h : p (enqueued job now)) (fate : Webhook.Fate)
    (world : Webhook.World) : Grows p world.files.queue (Webhook.enqueue fate job now world) := by
  have hadds : ∃ jobs, world.files.queue ++ [enqueued job now] = world.files.queue ++ jobs ∧
      ∀ job ∈ jobs, p job := ⟨_, rfl, List.forall_mem_singleton.mpr h⟩
  cases fate with
  | fails exc => exact grows_same rfl
  | crashesBefore => exact grows_same rfl
  | _ => exact hadds

theorem grows_bind {m : Except Stop Webhook.World} {f : Webhook.World → Except Stop Webhook.World}
    (hm : Grows p queue m) (hf : ∀ world, m = .ok world → Grows p world.files.queue (f world)) :
    Grows p queue (m >>= f) := by
  cases m with
  | error stop => exact hm
  | ok world =>
      obtain ⟨first, hfirst, hfirsts⟩ := hm
      obtain ⟨more, hmore, hmores⟩ := hf world rfl
      refine ⟨first ++ more, ?_, List.forall_mem_append.mpr ⟨hfirsts, hmores⟩⟩
      rw [Outcome.ok_bind, hmore, ← List.append_assoc]
      exact congrArg (· ++ more) hfirst

theorem grows_reply (fate : Webhook.Fate) (code : ℕ) (message : String) (world : Webhook.World) :
    Grows p world.files.queue (Webhook.reply fate code message world) :=
  grows_bind (grows_write (fun _ ↦ rfl) fate rfl) fun _ _ ↦ grows_same rfl

theorem grows_saveSeen (fate : Webhook.Fate) (world : Webhook.World) :
    Grows p world.files.queue (Webhook.saveSeen fate world) := by
  rw [Webhook.saveSeen]
  refine grows_write ?_ fate rfl
  exact fun _ ↦ rfl

theorem grows_route {fates : Fates} {event delivery now : String} {payload : Json}
    (h : ∀ routing job, Webhook.routing event payload delivery = .ok routing →
      routing.job? = some job → p (enqueued job now)) (world : Webhook.World) :
    Grows p world.files.queue (Webhook.route env fates event payload delivery now world) := by
  rw [Webhook.route]
  cases hrouting : Webhook.routing event payload delivery with
  | error exc => exact grows_same rfl
  | ok routing =>
      cases routing with
      | nothing => exact grows_same rfl
      | record job => exact grows_enqueue (h _ job hrouting rfl) _ _
      | dispatch key state job =>
          simp only
          split_ifs
          · exact grows_same rfl
          · refine grows_bind (grows_write ?_ fates.dispatched rfl) fun world _ ↦ ?_
            · exact fun _ ↦ rfl
            · exact grows_enqueue (h _ job hrouting rfl) _ _

theorem grows_routeOrRecord {fates : Fates} {event delivery now : String} {payload : Json}
    (h : ∀ routing job, Webhook.routing event payload delivery = .ok routing →
      routing.job? = some job → p (enqueued job now))
    (herror : ∀ exc, p (enqueued (routeError exc delivery) now)) (world : Webhook.World) :
    Grows p world.files.queue
      (Webhook.routeOrRecord env fates event payload delivery now world) := by
  have hroute : Grows p world.files.queue
      (Webhook.route env fates event payload delivery now world) := grows_route h world
  rw [Webhook.routeOrRecord]
  cases houtcome : Webhook.route env fates event payload delivery now world with
  | ok next =>
      rw [houtcome] at hroute
      exact hroute
  | error stop =>
      rw [houtcome] at hroute
      cases stop with
      | crashed files => exact hroute
      | raised exc next =>
          obtain ⟨first, hfirst, hfirsts⟩ := hroute
          obtain ⟨more, hmore, hmores⟩ := grows_enqueue (herror exc) fates.recorded next
          refine ⟨first ++ more, ?_, List.forall_mem_append.mpr ⟨hfirsts, hmores⟩⟩
          rw [← List.append_assoc]
          exact hmore.trans (congrArg (· ++ more) hfirst)

variable (env) in
/-- However a handling ends, it has only added jobs that come of its request. -/
theorem grows_handle (fates : Fates) (request : Request) (now : String) (world : Webhook.World) :
    ∃ jobs, (world.handle env fates request now).files.queue = world.files.queue ++ jobs ∧
      ∀ job ∈ jobs, Emits env request now job := by
  show Grows (Emits env request now) world.files.queue
    (Webhook.doPost env fates request now world)
  rw [Webhook.doPost]
  cases hsigned : Webhook.verify env request.signature request.raw with
  | error exc => exact grows_same rfl
  | ok signed =>
      cases signed with
      | false => exact grows_reply _ _ _ _
      | true =>
          cases hbody : Webhook.body env request with
          | none =>
              simp only
              split_ifs
              · exact grows_reply _ _ _ _
              · exact grows_bind (grows_saveSeen fates.seen _) fun world _ ↦ grows_reply _ _ _ _
              · exact grows_reply _ _ _ _
          | some payload =>
              have hhandled (world : Webhook.World) : Grows (Emits env request now)
                  world.files.queue (Webhook.reply fates.reply 200 "accepted" world >>= fun world ↦
                    Webhook.routeOrRecord env fates request.event payload request.delivery now
                      world) := by
                refine grows_bind (grows_reply _ _ _ _) fun world _ ↦ ?_
                exact grows_routeOrRecord (fun routing job hrouting hjob ↦
                  .routed hsigned hbody hrouting hjob) (fun exc ↦ .error hsigned exc) world
              simp only
              split_ifs
              · exact grows_reply _ _ _ _
              · exact grows_bind (grows_saveSeen fates.seen _) fun world _ ↦ hhandled world
              · exact hhandled world

end Receiver

/-! ## The jobs -/

section Jobs

/-- The members of a job for an agent. -/
def dispatchJob (members data : Job) (role state delivery : String) : Job :=
  [("kind", .str "agent_dispatch"), ("agent_role", .str role), ("issue_id", Python.get data "id"),
    ("state", .str state), ("action", Python.get members "action"), ("delivery", .str delivery),
    ("name", Python.get data "name")]

def commentJob (members data : Job) (delivery : String) : Job :=
  [("kind", .str "comment"), ("issue_id", Python.get data "issue"),
    ("action", Python.get members "action"), ("delivery", .str delivery)]

def eventJob (members : Job) (event delivery : String) : Job :=
  [("kind", .str "event"), ("event", .str event), ("action", Python.get members "action"),
    ("delivery", .str delivery)]

theorem obj_of_asDict {value : Json} {members : Job} (h : Python.asDict value = .ok members) :
    value = .obj members := by
  cases value <;> cases h
  rfl

theorem roleOf_eq_some {stateName : Json} {state role : String}
    (h : Webhook.roleOf stateName = .ok (some (state, role))) :
    Webhook.dispatchOnState.lookup state = some role := by
  unfold Webhook.roleOf at h
  obtain ⟨_, -, h⟩ := Outcome.bind_eq_ok_iff.mp h
  cases stateName with
  | str name =>
      obtain ⟨other, hother, hpair⟩ := Option.map_eq_some_iff.mp (Except.ok.inj h)
      obtain ⟨rfl, rfl⟩ := Prod.mk.inj hpair
      exact hother
  | _ => cases h

/-- What the jobs of a routing are made of. -/
theorem routing_cases {event delivery : String} {payload : Json} {routing : Routing} {job : Job}
    (hrouting : Webhook.routing event payload delivery = .ok routing)
    (hjob : routing.job? = some job) :
    ∃ members, payload = .obj members ∧
      ((∃ data key state role, Webhook.member members "data" = .obj data ∧
          routing = .dispatch key state job ∧
          Webhook.dispatchOnState.lookup state = some role ∧
          job = dispatchJob members data role state delivery) ∨
        (∃ data, Webhook.member members "data" = .obj data ∧
          job = commentJob members data delivery) ∨
        job = eventJob members event delivery) := by
  obtain ⟨members, hmembers, hrouting⟩ := Outcome.bind_eq_ok_iff.mp hrouting
  refine ⟨members, obj_of_asDict hmembers, ?_⟩
  split_ifs at hrouting
  · obtain ⟨data, hdata, hrouting⟩ := Outcome.bind_eq_ok_iff.mp hrouting
    obtain ⟨role, hrole, hrouting⟩ := Outcome.bind_eq_ok_iff.mp hrouting
    rcases role with _ | ⟨state, role⟩
    · cases hrouting
      cases hjob
    · split_ifs at hrouting
      · obtain ⟨transition, -, hrouting⟩ := Outcome.bind_eq_ok_iff.mp hrouting
        split_ifs at hrouting
        · cases hrouting
          cases hjob
        · cases hrouting
          cases hjob
        · obtain ⟨key, -, hrouting⟩ := Outcome.bind_eq_ok_iff.mp hrouting
          cases hrouting
          cases hjob
          exact Or.inl ⟨data, key, state, role, obj_of_asDict hdata, rfl,
            roleOf_eq_some hrole, rfl⟩
      · cases hrouting
        cases hjob
  · obtain ⟨data, hdata, hrouting⟩ := Outcome.bind_eq_ok_iff.mp hrouting
    cases hrouting
    cases hjob
    exact Or.inr (Or.inl ⟨data, obj_of_asDict hdata, rfl⟩)
  · cases hrouting
    cases hjob
    exact Or.inr (Or.inr rfl)

variable {env : Webhook.Env} {py : Stdlib} {request : Request} {now : String} {job : Job}

/-- The request is signed and calls for the agent of the state that an item enters, and the key is
that of its job. -/
def CallsFor (env : Webhook.Env) (py : Stdlib) (request : Request) (now key : String) : Prop :=
  Webhook.verify env request.signature request.raw = .ok true ∧
    ∃ payload item state role job, Webhook.body env request = some payload ∧
      Webhook.routing request.event payload request.delivery = .ok (.dispatch item state job) ∧
      Webhook.dispatchOnState.lookup state = some role ∧
      Python.get job "agent_role" = .str role ∧ jobKey py (enqueued job now) = key

theorem roles_valid {state role : String} (h : Webhook.dispatchOnState.lookup state = some role) :
    role ∈ Dispatcher.validRoles := by
  have htable : ∀ row ∈ Webhook.dispatchOnState, row.2 ∈ Dispatcher.validRoles := by decide
  exact htable _ (Dict.mem_of_lookup h)

/-- A job for an agent is one of a call. -/
theorem Emits.dispatch (h : Emits env request now job) {key : String}
    (hkey : dispatchKey py (.obj job) = some key) : CallsFor env py request now key ∧
      ∃ role, Dispatcher.validRole (Python.get job "agent_role") = .ok (some role) := by
  cases h with
  | error hsigned exc => simp [dispatchKey, enqueued, routeError, Python.get, Dict.lookup_cons] at hkey
  | @routed payload routing job hsigned hbody hrouting hjob =>
      obtain ⟨members, rfl, hcases⟩ := routing_cases hrouting hjob
      rcases hcases with ⟨data, item, state, role, hdata, rfl, hrole, rfl⟩ | ⟨data, hdata, rfl⟩ | rfl
      · obtain rfl := Option.some.inj hkey
        refine ⟨⟨hsigned, _, item, state, role, _, hbody, hrouting, hrole, rfl, rfl⟩, role, ?_⟩
        have hget : Python.get (enqueued (dispatchJob members data role state request.delivery) now)
            "agent_role" = .str role := rfl
        rw [hget]
        exact congrArg Except.ok (if_pos (roles_valid hrole))
      · simp [dispatchKey, enqueued, commentJob, Python.get, Dict.lookup_cons] at hkey
      · simp [dispatchKey, enqueued, eventJob, Python.get, Dict.lookup_cons] at hkey

/-- What the receiver writes can be read back. -/
theorem Emits.native (hnative : ∀ text, (env.toFloat text).Native fun _ ↦ True)
    (h : Emits env request now job) : (Json.obj job).Native fun _ ↦ True := by
  cases h with
  | error hsigned exc => exact ⟨by simp [enqueued, routeError], trivial, trivial, trivial, trivial, trivial⟩
  | @routed payload routing job hsigned hbody hrouting hjob =>
      obtain ⟨members, rfl, hcases⟩ := routing_cases hrouting hjob
      have hmembers : (Json.obj members).Native fun _ ↦ True := Json.native_of_loads hnative hbody
      have hdata : ∀ data, Webhook.member members "data" = .obj data →
          (Json.obj data).Native fun _ ↦ True := by
        intro data hdata
        rw [← hdata, Webhook.member]
        split_ifs
        · exact Json.native_get hmembers "data"
        · exact ⟨List.nodup_nil, trivial⟩
      rcases hcases with ⟨data, item, state, role, hdict, rfl, hrole, rfl⟩ | ⟨data, hdict, rfl⟩ | rfl
      · exact ⟨by simp [enqueued, dispatchJob], trivial, trivial, Json.native_get (hdata data hdict) _,
          trivial, Json.native_get hmembers _, trivial, Json.native_get (hdata data hdict) _, trivial,
          trivial⟩
      · exact ⟨by simp [enqueued, commentJob], trivial, Json.native_get (hdata data hdict) _,
          Json.native_get hmembers _, trivial, trivial, trivial⟩
      · exact ⟨by simp [enqueued, eventJob], trivial, trivial, Json.native_get hmembers _, trivial,
          trivial, trivial⟩

end Jobs

/-! ## What the dispatcher reads -/

section Queue

variable {toFloat : String → Json} {py : Stdlib}

theorem queueText_append (jobs more : List Job) :
    queueText py (jobs ++ more) = queueText py jobs ++ queueText py more := by
  simp [queueText, Text.unlines]

/-- The dispatcher reads the jobs that the receiver has written. -/
theorem readJobs_queueText (hfloats : Json.FloatTexts py.repr toFloat) {jobs : List Job}
    (h : ∀ job ∈ jobs, (Json.obj job).Native fun _ ↦ True) :
    readJobs toFloat (String.ofList (queueText py jobs)) = jobs.map Json.obj := by
  have hlines := Json.splitlines_values hfloats (jobs.map Json.obj)
  rw [List.map_map] at hlines
  have htext : queueText py jobs = Text.unlines (jobs.map
    (Json.laidOut Json.asciiQuoting py.repr .space ∘ Json.obj)) := rfl
  rw [readJobs, String.toList_ofList, htext, hlines, List.filterMap_map, ← List.filterMap_eq_map]
  apply List.filterMap_congr
  intro job hjob
  have hreads : (Json.obj job).Native (Json.ReadsFloat py.repr toFloat) :=
    (h job hjob).imp (fun x _ ↦ hfloats.readsFloat x) _
  have hne : String.ofList (Json.laidOut Json.asciiQuoting py.repr .space (.obj job)) ≠ "" := by
    intro hempty
    have hloads := Json.loads_laidOut Json.asciiQuoting py.repr .space toFloat hreads
    rw [hempty] at hloads
    cases hloads
  simp only [Function.comp_apply, Json.strip_laidOut, if_neg hne]
  exact Json.loads_laidOut Json.asciiQuoting py.repr .space toFloat hreads

/-- The progress of a drain, wherever it ended. -/
def progressOf : Dispatcher.Step → Dispatcher.Progress
  | .ok progress => progress
  | .error (_, progress) => progress

theorem invoked_newJob {drain : Drain} {n : ℕ} {job : Job} {progress : Dispatcher.Progress}
    {step : Dispatcher.Step} (h : Dispatcher.NewJob py drain n job progress step) {key : String}
    (hkey : .invoked key ∈ (progressOf step).log) :
    .invoked key ∈ progress.log ∨ key = jobKey py job := by
  cases h <;> simp [progressOf, Dispatcher.settle, Dispatcher.forgetAttempts] at hkey
  all_goals tauto

theorem invoked_processJob {drain : Drain} {n : ℕ} {line : Json} {progress : Dispatcher.Progress}
    {key : String} (hkey : .invoked key ∈ (progressOf (Dispatcher.processJob py drain n line
      progress)).log) : .invoked key ∈ progress.log ∨ dispatchKey py line = some key := by
  rcases Dispatcher.processJob_cases py drain n line progress with
    ⟨exc, -, hstep⟩ | ⟨-, -, hstep⟩ | ⟨job, -, hdispatch, -, hnew⟩
  · rw [hstep] at hkey
    exact Or.inl hkey
  · rw [hstep] at hkey
    exact Or.inl hkey
  · rcases invoked_newJob hnew hkey with hold | rfl
    · exact Or.inl hold
    · exact Or.inr hdispatch

theorem invoked_processJobs {drain : Drain} {n : ℕ} {lines : List Json}
    {progress : Dispatcher.Progress} {key : String}
    (hkey : .invoked key ∈ (progressOf (Dispatcher.processJobs py drain n lines progress)).log) :
    .invoked key ∈ progress.log ∨ ∃ line ∈ lines, dispatchKey py line = some key := by
  induction lines generalizing n progress with
  | nil => exact Or.inl hkey
  | cons line lines ih =>
      have hfirst : .invoked key ∈ (progressOf (Dispatcher.processJob py drain n line progress)).log →
          .invoked key ∈ progress.log ∨ dispatchKey py line = some key := invoked_processJob
      rw [Dispatcher.processJobs] at hkey
      cases hstep : Dispatcher.processJob py drain n line progress with
      | error failure =>
          rw [hstep] at hkey hfirst
          exact (hfirst hkey).imp_right fun hline ↦ ⟨line, List.mem_cons_self, hline⟩
      | ok next =>
          rw [hstep] at hkey hfirst
          rcases ih hkey with hlog | ⟨later, hlater, hline⟩
          · exact (hfirst hlog).imp_right fun hline ↦ ⟨line, List.mem_cons_self, hline⟩
          · exact Or.inr ⟨later, List.mem_cons_of_mem line hlater, hline⟩

variable (toFloat py) in
/-- A drain leaves the queue as it is, and the log as its jobs left it. -/
theorem drain_spec (world : Dispatcher.World) (drain : Drain) :
    (world.drain py toFloat drain).1.queue = world.queue ∧
      (world.drain py toFloat drain).1.log =
        (progressOf (Dispatcher.processJobs py drain 0 (readJobs toFloat world.queue)
          world.begin)).log := by
  rw [Dispatcher.World.drain]
  cases Dispatcher.processJobs py drain 0 (readJobs toFloat world.queue) world.begin with
  | error failure => exact ⟨rfl, rfl⟩
  | ok progress =>
      simp only
      cases drain.save with
      | lands =>
          simp only
          split_ifs
          · exact ⟨rfl, rfl⟩
          · cases drain.baseline <;> exact ⟨rfl, rfl⟩
      | _ => exact ⟨rfl, rfl⟩

end Queue

/-! ## Runs -/

section Runs

variable (env : Webhook.Env) (py : Stdlib)

/-- Some delivery of the run satisfies `p`. -/
def Posted (p : Request → String → Prop) (actions : List Action) : Prop :=
  ∃ fates request now, .post fates request now ∈ actions ∧ p request now

/-- The file has the lines of the receiver's jobs, all jobs are those of deliveries, and so are
the calls of the agents. -/
structure Traced (actions : List Action) (world : World) : Prop where
  queue : world.dispatcher.queue = String.ofList (queueText py world.receiver.files.queue)
  emitted : ∀ job ∈ world.receiver.files.queue,
    Posted (fun request now ↦ Emits env request now job) actions
  called : ∀ key, .invoked key ∈ world.dispatcher.log →
    Posted (fun request now ↦ CallsFor env py request now key) actions

variable {env py}

theorem Posted.mono {p : Request → String → Prop} {actions : List Action} (h : Posted p actions)
    (more : List Action) : Posted p (actions ++ more) := by
  obtain ⟨fates, request, now, hmem, hp⟩ := h
  exact ⟨fates, request, now, List.mem_append_left more hmem, hp⟩

/-- The receiver adds jobs that are traced. -/
theorem Traced.receive {actions : List Action} {world : World} (h : Traced env py actions world)
    (action : Action) {receiver : Webhook.World} {jobs : List Job}
    (hqueue : receiver.files.queue = world.receiver.files.queue ++ jobs)
    (hjobs : ∀ job ∈ jobs, Posted (fun request now ↦ Emits env request now job)
      (actions ++ [action])) :
    Traced env py (actions ++ [action]) (world.receive env py receiver) := by
  have hadded : receiver.files.queue.drop world.receiver.files.queue.length = jobs := by
    rw [hqueue, List.drop_left]
  refine ⟨?_, fun job hjob ↦ ?_, fun key hkey ↦ (h.called key hkey).mono _⟩
  · rw [World.receive, hadded]
    show world.dispatcher.queue ++ String.ofList (queueText py jobs) =
      String.ofList (queueText py receiver.files.queue)
    rw [h.queue, hqueue, queueText_append, String.ofList_append]
  · rcases List.mem_append.mp (hqueue ▸ hjob) with hold | hnew
    · exact (h.emitted job hold).mono _
    · exact hjobs job hnew

theorem Traced.native {actions : List Action} {world : World} (h : Traced env py actions world)
    (hfloats : Json.FloatTexts py.repr env.toFloat) :
    ∀ job ∈ world.receiver.files.queue, (Json.obj job).Native fun _ ↦ True := by
  intro job hjob
  obtain ⟨fates, request, now, -, hemits⟩ := h.emitted job hjob
  exact hemits.native hfloats.native

theorem Traced.readJobs_eq {actions : List Action} {world : World} (h : Traced env py actions world)
    (hfloats : Json.FloatTexts py.repr env.toFloat) :
    readJobs env.toFloat world.dispatcher.queue = world.receiver.files.queue.map Json.obj := by
  rw [h.queue, readJobs_queueText hfloats (h.native hfloats)]

/-- A drain goes through the jobs of the receiver. -/
theorem Traced.log_drain {actions : List Action} {world : World} (h : Traced env py actions world)
    (hfloats : Json.FloatTexts py.repr env.toFloat) (drain : Drain) :
    (world.step env py (.drain drain)).dispatcher.log =
      (progressOf (Dispatcher.processJobs py drain 0 (world.receiver.files.queue.map Json.obj)
        world.dispatcher.begin)).log := by
  rw [← h.readJobs_eq hfloats]
  exact (drain_spec env.toFloat py world.dispatcher drain).2

theorem Traced.step {actions : List Action} {world : World} (h : Traced env py actions world)
    (hfloats : Json.FloatTexts py.repr env.toFloat) (action : Action) :
    Traced env py (actions ++ [action]) (world.step env py action) := by
  cases action with
  | post fates request now =>
      obtain ⟨jobs, hqueue, hjobs⟩ := grows_handle env fates request now world.receiver
      refine h.receive _ hqueue fun job hjob ↦ ?_
      exact ⟨fates, request, now, List.mem_append_right _ List.mem_cons_self, hjobs job hjob⟩
  | restart =>
      exact h.receive _ (List.append_nil _).symm (List.forall_mem_nil _)
  | drain drain =>
      have hqueue := (drain_spec env.toFloat py world.dispatcher drain).1
      refine ⟨hqueue.trans h.queue, fun job hjob ↦ (h.emitted job hjob).mono _, fun key hkey ↦ ?_⟩
      rw [h.log_drain hfloats] at hkey
      rcases invoked_processJobs hkey with hold | ⟨line, hline, hdispatch⟩
      · exact (h.called key hold).mono _
      · obtain ⟨job, hjob, rfl⟩ := List.mem_map.mp hline
        obtain ⟨fates, request, now, hposted, hemits⟩ := h.emitted job hjob
        exact ⟨fates, request, now, List.mem_append_left _ hposted, (hemits.dispatch hdispatch).1⟩

theorem traced_run (hfloats : Json.FloatTexts py.repr env.toFloat) (actions : List Action) :
    Traced env py actions (World.run env py actions) := by
  induction actions using List.reverseRecOn with
  | nil => exact ⟨rfl, List.forall_mem_nil _, fun key hkey ↦ by cases hkey⟩
  | append_singleton actions action ih =>
      rw [run_append_singleton]
      exact ih.step hfloats action

end Runs

/-! ## A sample -/

def sampleEnv : Webhook.Env :=
  { Webhook.sampleEnv with toFloat := fun text ↦ Json.readScientific text.toList }

def samplePy : Stdlib := ⟨Json.scientificRepr,
  fun _ ↦ "910c4384780a9f3af1265714685736b9a6f1649ef12430d1a56bd9de7572fd0e", fun _ ↦ none⟩

def sampleRequest : Request := (Webhook.enters "Agent-Executing" "d1").request

theorem floatTexts_sample : Json.FloatTexts samplePy.repr sampleEnv.toFloat :=
  Json.floatTexts_scientific

theorem body_sampleRequest :
    Webhook.body sampleEnv sampleRequest = some (Webhook.changePayload "Agent-Executing") := by
  have hsorted : (Webhook.changePayload "Agent-Executing").sortKeys =
      Webhook.changePayload "Agent-Executing" := by
    simp [Webhook.changePayload, Python.sortedBy, List.insertionSort]
  have hplain : (Webhook.changePayload "Agent-Executing").sortKeys.Plain := by
    rw [hsorted]
    simp [Webhook.changePayload, Json.Plain, Json.PlainMembers]
  have hraw : sampleRequest.raw =
      Json.asciiDumps (fun _ ↦ "") (Webhook.changePayload "Agent-Executing") := rfl
  have hloads : Json.loads sampleEnv.toFloat sampleRequest.raw =
      some (Webhook.changePayload "Agent-Executing") := by
    rw [hraw, Json.loads_asciiDumps _ _ hplain, hsorted]
  rw [Webhook.body, if_neg]
  · exact hloads
  · intro hempty
    rw [hempty] at hloads
    cases hloads

/-- The reading of floats has no say in what is signed. -/
theorem verify_sampleRequest :
    Webhook.verify sampleEnv sampleRequest.signature sampleRequest.raw = .ok true := by
  have hverify : ∀ (env : Webhook.Env) (toFloat : String → Json) (signature raw : String),
      Webhook.verify { env with toFloat := toFloat } signature raw =
        Webhook.verify env signature raw := fun _ _ _ _ ↦ rfl
  exact (hverify Webhook.sampleEnv _ _ _).trans (Webhook.verify_enters "Agent-Executing" "d1")

def sampleJob : Job :=
  enqueued (dispatchJob [("action", .str "updated")]
    [("id", .str "7f1c2a9e"), ("name", .str "Export report")] "verifier" "Agent-Executing" "d1")
    "2026-01-05T09:00:00Z"

theorem receiver_run_post (env : Webhook.Env) (py : Stdlib) (fates : Fates) (request : Request)
    (now : String) : (World.run env py [.post fates request now]).receiver =
      World.start.receiver.handle env fates request now := rfl

theorem queue_sample : (World.run sampleEnv samplePy
    [.post .fine sampleRequest "2026-01-05T09:00:00Z"]).receiver.files.queue = [sampleJob] := by
  rw [receiver_run_post, Webhook.World.handle, Webhook.doPost, verify_sampleRequest]
  simp only [body_sampleRequest]
  decide +kernel

theorem log_sample : (World.run sampleEnv samplePy ([.post .fine sampleRequest
    "2026-01-05T09:00:00Z"] ++ [.drain Dispatcher.sampleDrain])).dispatcher.log =
      [.invoked "910c4384780a9f3a", .settled "910c4384780a9f3a"] := by
  rw [run_append_singleton, (traced_run floatTexts_sample _).log_drain floatTexts_sample,
    queue_sample]
  decide +kernel

end AgenticSDLC.Bridge
