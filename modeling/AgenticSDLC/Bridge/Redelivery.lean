import AgenticSDLC.Bridge.TransitionDispatch

/-!
# Redelivery after a failure

The receiver remembers a delivery before it routes it, and it ignores one that it
remembers.  So a handling that ends between the write of the delivery ids and the
write of the queue has lost its job: the sender may deliver again, but the receiver
will not handle it.
-/

namespace AgenticSDLC.Webhook

open Python (Exception Key)

/-- The job of a routing, if nothing suppresses it. -/
def Routing.job? : Routing → Option Job
  | .nothing => none
  | .dispatch _ _ job => some job
  | .record job => some job

def World.Queued (world : World) (job : Job) : Prop := ∃ now, enqueued job now ∈ world.files.queue

/-- The receiver will ignore the request, or suppress the job of its event. -/
def World.Remembers (world : World) (request : Request) : Routing → Prop
  | .dispatch key state _ => (request.delivery ≠ "" ∧ request.delivery ∈ world.seen) ∨
      world.dispatched.lookup key = some state
  | _ => request.delivery ≠ "" ∧ request.delivery ∈ world.seen

/-- The handling stopped before the delivery was remembered for good. -/
def Fates.Forgets (fates : Fates) (restarted : Bool) : Prop :=
  fates.seen = .crashesBefore ∨ (∃ exc, fates.seen = .fails exc) ∧ restarted = true

/-- The handling came to write the job. -/
def Fates.Queues (fates : Fates) (routed : Routing) : Prop :=
  fates.seen = .lands ∧ fates.reply = .lands ∧
    (∀ key state job, routed = .dispatch key state job → fates.dispatched = .lands) ∧
    fates.queue.written = true

section Handling

variable (env : Env)

/-- The request is signed, and its event calls for the job. -/
structure Calls (request : Request) (routed : Routing) (job : Job) : Prop where
  signed : verify env request.signature request.raw = .ok true
  routing : ∃ payload, body env request = some payload ∧
    Webhook.routing request.event payload request.delivery = .ok routed
  job : routed.job? = some job

variable {env}

theorem enqueued_injective {job other : Job} {now later : String}
    (h : enqueued job now = enqueued other later) : job = other :=
  (List.append_inj' h rfl).1

theorem queued_append {world : World} {other : Job} {now : String} {next : World} {job : Job}
    (h : next.files.queue = world.files.queue ++ [enqueued other now]) :
    next.Queued job ↔ world.Queued job ∨ job = other := by
  simp only [World.Queued, h, List.mem_append, List.mem_singleton]
  constructor
  · rintro ⟨time, hold | hnew⟩
    · exact Or.inl ⟨time, hold⟩
    · exact Or.inr (enqueued_injective hnew)
  · rintro (⟨time, hold⟩ | rfl)
    · exact ⟨time, Or.inl hold⟩
    · exact ⟨now, Or.inr rfl⟩

/-- What a handling without failure leaves, in whatever state it comes. -/
theorem Calls.queued_iff {request : Request} {routed : Routing} {job : Job}
    (h : Calls env request routed job) (world : World) (now : String) :
    (world.handle env .fine request now).Queued job ↔
      world.Queued job ∨ ¬world.Remembers request routed := by
  obtain ⟨payload, hbody, hrouting⟩ := h.routing
  by_cases hduplicate : request.delivery ≠ "" ∧ request.delivery ∈ world.seen
  · have hremembers : world.Remembers request routed := by
      cases routed with
      | dispatch key state other => exact Or.inl hduplicate
      | _ => exact hduplicate
    have hfiles : (world.handle env .fine request now).files = world.files := by
      rw [World.handle, doPost, h.signed]
      simp only [if_pos hduplicate]
      rfl
    simp only [World.Queued, hfiles, hremembers, not_true_eq_false, or_false]
  · rw [handle_fine h.signed hbody hrouting hduplicate]
    have hjob := h.job
    cases routed with
    | nothing => cases hjob
    | record other =>
        obtain rfl := Option.some.inj hjob
        have hqueue : (Routing.perform env now (world.accepted request.delivery)
            (.record other)).files.queue = world.files.queue ++ [enqueued other now] := by
          simp [Routing.perform]
        rw [queued_append hqueue]
        simp [World.Remembers, hduplicate]
    | dispatch key state other =>
        obtain rfl := Option.some.inj hjob
        rw [Routing.perform, World.dispatched_accepted]
        by_cases hsame : world.dispatched.lookup key = some state
        · rw [if_pos hsame]
          simp [World.Queued, World.Remembers, hsame]
        · rw [if_neg hsame]
          dsimp only
          rw [queued_append (show _ = world.files.queue ++ [enqueued other now] by simp)]
          simp [World.Remembers, hsame, hduplicate]

/-! ## How far a handling comes -/

/-- No job is the record of a route error. -/
theorem job_ne_routeError {event : String} {payload : Json} {delivery other : String}
    {routed : Routing} {job : Job} (hrouting : routing event payload delivery = .ok routed)
    (hjob : routed.job? = some job) (exc : Exception) : job ≠ routeError exc other := by
  have hkind : job.head? ≠ some ("kind", .str "route_error") := by
    obtain ⟨payload, -, hrouting⟩ := Outcome.bind_eq_ok_iff.mp hrouting
    split_ifs at hrouting
    · obtain ⟨data, -, hrouting⟩ := Outcome.bind_eq_ok_iff.mp hrouting
      obtain ⟨role, -, hrouting⟩ := Outcome.bind_eq_ok_iff.mp hrouting
      rcases role with _ | ⟨state, role⟩
      · cases hrouting
        cases hjob
      · split_ifs at hrouting
        · obtain ⟨transition, -, hrouting⟩ := Outcome.bind_eq_ok_iff.mp hrouting
          split_ifs at hrouting
          · cases hrouting
            cases hjob
          · cases hrouting
            cases hjob
          · obtain ⟨key, -, hrouting⟩ := Outcome.bind_eq_ok_iff.mp hrouting
            cases hrouting
            cases hjob
            simp
        · cases hrouting
          cases hjob
    · obtain ⟨data, -, hrouting⟩ := Outcome.bind_eq_ok_iff.mp hrouting
      cases hrouting
      cases hjob
      simp
    · cases hrouting
      cases hjob
      simp
  rintro rfl
  exact hkind rfl

theorem queued_write {fate : Fate} {effect : Files → Files} {world : World} {job : Job}
    (heffect : ∀ files, (effect files).queue = files.queue) :
    (ended (write fate effect world)).Queued job ↔ world.Queued job := by
  cases fate <;> simp [write, ended, Stop.world, World.load, World.Queued, heffect]

theorem queued_enqueue {fate : Fate} {world : World} {job other : Job} {now : String} :
    (ended (enqueue fate other now world)).Queued job ↔
      world.Queued job ∨ job = other ∧ fate.written = true := by
  by_cases hwritten : fate.written = true
  · have hqueue : (ended (enqueue fate other now world)).files.queue =
        world.files.queue ++ [enqueued other now] := by
      cases fate with
      | fails exc => cases hwritten
      | crashesBefore => cases hwritten
      | _ => rfl
    rw [queued_append hqueue]
    simp [hwritten]
  · have hqueue : (ended (enqueue fate other now world)).files.queue = world.files.queue := by
      cases fate with
      | fails exc => rfl
      | crashesBefore => rfl
      | _ => exact absurd rfl hwritten
    simp [World.Queued, hqueue, hwritten]

/-- A computation goes on after a write just when the write lands. -/
theorem write_bind (fate : Fate) (effect : Files → Files) (world : World)
    (f : World → Except Stop World) :
    (write fate effect world >>= f) =
      if fate = .lands then f { world with files := effect world.files }
      else write fate effect world := by
  cases fate <;> rfl

/-- The record of a route error is no job. -/
theorem queued_record {event : String} {payload : Json} {delivery : String} {routed : Routing}
    {job : Job} (hrouting : routing event payload delivery = .ok routed)
    (hjob : routed.job? = some job) (fates : Fates) (now : String) (world : World) :
    (ended (routeOrRecord env fates event payload delivery now world)).Queued job ↔
      (ended (route env fates event payload delivery now world)).Queued job := by
  rw [routeOrRecord]
  cases route env fates event payload delivery now world with
  | ok next => rfl
  | error stop =>
      cases stop with
      | crashed files => rfl
      | raised exc next =>
          simp only [queued_enqueue, job_ne_routeError hrouting hjob exc, false_and, or_false]
          rfl

theorem queued_routeOrRecord {event : String} {payload : Json} {delivery : String}
    {routed : Routing} {job : Job} (hrouting : routing event payload delivery = .ok routed)
    (hjob : routed.job? = some job) {world : World}
    (hfresh : ∀ key state other, routed = .dispatch key state other →
      world.dispatched.lookup key ≠ some state) (fates : Fates) (now : String) :
    (ended (routeOrRecord env fates event payload delivery now world)).Queued job ↔
      world.Queued job ∨
        (∀ key state other, routed = .dispatch key state other → fates.dispatched = .lands) ∧
          fates.queue.written = true := by
  rw [queued_record hrouting hjob, route, hrouting]
  cases routed with
  | nothing => cases hjob
  | record other =>
      obtain rfl := Option.some.inj hjob
      simp [queued_enqueue]
  | dispatch key state other =>
      obtain rfl := Option.some.inj hjob
      simp only [if_neg (hfresh key state other rfl), write_bind]
      by_cases hlands : fates.dispatched = .lands
      · rw [if_pos hlands, queued_enqueue]
        simp [hlands, World.Queued]
      · rw [if_neg hlands, queued_write]
        · simp [hlands, World.Queued]
        · exact fun _ ↦ rfl

/-- The receiver once it has the delivery in its memory. -/
def World.noted (delivery : String) (world : World) : World :=
  { world with seen := Python.lastItems seenCap (world.seen ++ [delivery]) }

@[simp] theorem World.files_noted (delivery : String) (world : World) :
    (world.noted delivery).files = world.files := rfl

theorem World.mem_seen_noted (delivery : String) (world : World) :
    delivery ∈ (world.noted delivery).seen :=
  Python.mem_lastItems_append (by decide) world.seen delivery

/-- The writes of a handling, one after another. -/
theorem Calls.doPost_eq {request : Request} {routed : Routing} {job : Job}
    (h : Calls env request routed job) (hid : request.delivery ≠ "") {world : World}
    (hnew : request.delivery ∉ world.seen) (fates : Fates) (now : String) :
    ∃ payload, Webhook.routing request.event payload request.delivery = .ok routed ∧
      doPost env fates request now world =
        (write fates.seen
          (fun files ↦ { files with seen := (world.noted request.delivery).seen })
          (world.noted request.delivery) >>= fun world ↦
        write fates.reply id world >>= fun world ↦
        routeOrRecord env fates request.event payload request.delivery now
          { world with replies := world.replies ++ [(200, "accepted")] }) := by
  obtain ⟨payload, hbody, hrouting⟩ := h.routing
  refine ⟨payload, hrouting, ?_⟩
  rw [doPost, h.signed]
  have hfresh : ¬(request.delivery ≠ "" ∧ request.delivery ∈ world.seen) := fun h ↦ hnew h.2
  have hreply : ∀ world : World, (reply fates.reply 200 "accepted" world >>= fun world ↦
      routeOrRecord env fates request.event payload request.delivery now world) =
        (write fates.reply id world >>= fun world ↦
          routeOrRecord env fates request.event payload request.delivery now
            { world with replies := world.replies ++ [(200, "accepted")] }) := by
    intro world
    rw [reply]
    cases fates.reply <;> rfl
  simp only [if_neg hfresh, if_pos hid, hbody, hreply]
  rfl

theorem remembers_of_mem {request : Request} {routed : Routing} {world : World}
    (hid : request.delivery ≠ "") (h : request.delivery ∈ world.seen) :
    world.Remembers request routed := by
  cases routed with
  | dispatch key state other => exact Or.inl ⟨hid, h⟩
  | _ => exact ⟨hid, h⟩

/-- What a failing handling leaves in the queue. -/
theorem Calls.queued_handle {request : Request} {routed : Routing} {job : Job}
    (h : Calls env request routed job) (hid : request.delivery ≠ "") {world : World}
    (hnew : ¬world.Remembers request routed) (fates : Fates) (now : String) :
    (world.handle env fates request now).Queued job ↔ world.Queued job ∨ fates.Queues routed := by
  have hunseen : request.delivery ∉ world.seen := fun hseen ↦
    hnew (remembers_of_mem hid hseen)
  have hfresh : ∀ key state other, routed = .dispatch key state other →
      world.dispatched.lookup key ≠ some state := by
    rintro key state other rfl hsame
    exact hnew (Or.inr hsame)
  obtain ⟨payload, hrouting, hpost⟩ := h.doPost_eq hid hunseen fates now
  rw [World.handle, hpost, write_bind]
  by_cases hseen : fates.seen = .lands
  · rw [if_pos hseen, write_bind]
    by_cases hreply : fates.reply = .lands
    · rw [if_pos hreply, queued_routeOrRecord hrouting h.job]
      · simp [Fates.Queues, hseen, hreply, World.Queued]
      · exact hfresh
    · rw [if_neg hreply, queued_write]
      · simp [Fates.Queues, hreply, World.Queued]
      · exact fun _ ↦ rfl
  · rw [if_neg hseen, queued_write]
    · simp [Fates.Queues, hseen, World.Queued]
    · exact fun _ ↦ rfl

/-! ## What a failing handling remembers -/

/-- The delivery is remembered, and a restart does not change that. -/
structure World.Keeps (world : World) (delivery : String) : Prop where
  memory : delivery ∈ world.seen
  files : delivery ∈ world.files.seen

theorem World.Keeps.write {world : World} {delivery : String} (h : world.Keeps delivery)
    (fate : Fate) {effect : Files → Files} (heffect : ∀ files, (effect files).seen = files.seen) :
    (ended (write fate effect world)).Keeps delivery := by
  have hfiles : delivery ∈ (effect world.files).seen := by
    rw [heffect]
    exact h.files
  cases fate with
  | lands => exact ⟨h.memory, hfiles⟩
  | fails exc => exact h
  | failsAfter exc => exact ⟨h.memory, hfiles⟩
  | crashesBefore => exact ⟨h.files, h.files⟩
  | crashesAfter => exact ⟨hfiles, hfiles⟩

theorem keeps_write_bind {world : World} {delivery : String} (h : world.Keeps delivery) {fate : Fate}
    {effect : Files → Files} (heffect : ∀ files, (effect files).seen = files.seen)
    {f : World → Except Stop World}
    (hf : ∀ next : World, next.Keeps delivery → (ended (f next)).Keeps delivery) :
    (ended (write fate effect world >>= f)).Keeps delivery := by
  have hwritten := h.write fate heffect
  rw [write_bind]
  split_ifs with hlands
  · rw [hlands] at hwritten
    exact hf _ hwritten
  · exact hwritten

theorem World.Keeps.routeOrRecord {world : World} {id : String} (h : world.Keeps id)
    (fates : Fates) (event : String) (payload : Json) (delivery now : String) :
    (ended (routeOrRecord env fates event payload delivery now world)).Keeps id := by
  have hroute : (ended (route env fates event payload delivery now world)).Keeps id := by
    rw [route]
    split
    · exact h
    · exact h
    · exact h.write _ fun _ ↦ rfl
    · split_ifs
      · exact h
      · apply keeps_write_bind
        · exact ⟨h.memory, h.files⟩
        · exact fun _ ↦ rfl
        · exact fun next hnext ↦ hnext.write _ fun _ ↦ rfl
  rw [Webhook.routeOrRecord]
  cases hcase : route env fates event payload delivery now world with
  | ok next =>
      rw [hcase] at hroute
      exact hroute
  | error stop =>
      rw [hcase] at hroute
      cases stop with
      | crashed files => exact hroute
      | raised exc next => exact World.Keeps.write hroute _ fun _ ↦ rfl

/-- A handling that has written the delivery ids keeps the delivery, whatever comes next. -/
theorem Calls.keeps_handle {request : Request} {routed : Routing} {job : Job}
    (h : Calls env request routed job) (hid : request.delivery ≠ "") {world : World}
    (hunseen : request.delivery ∉ world.seen) {fates : Fates}
    (hwritten : fates.seen.written = true) (now : String) :
    (world.handle env fates request now).Keeps request.delivery := by
  obtain ⟨payload, -, hpost⟩ := h.doPost_eq hid hunseen fates now
  have hnoted := world.mem_seen_noted request.delivery
  rw [World.handle, hpost, write_bind]
  split_ifs with hlands
  · apply keeps_write_bind
    · exact ⟨hnoted, hnoted⟩
    · exact fun _ ↦ rfl
    · intro next hnext
      apply World.Keeps.routeOrRecord
      exact ⟨hnext.memory, hnext.files⟩
  · cases hseen : fates.seen with
    | lands => exact absurd hseen hlands
    | fails exc =>
        rw [hseen] at hwritten
        cases hwritten
    | crashesBefore =>
        rw [hseen] at hwritten
        cases hwritten
    | _ => exact ⟨hnoted, hnoted⟩

theorem Fates.not_forgets (fates : Fates) (hwritten : fates.seen.written = true) (restarted : Bool) :
    ¬fates.Forgets restarted := by
  rintro (hseen | ⟨⟨exc, hseen⟩, -⟩)
  · rw [hseen] at hwritten
    cases hwritten
  · rw [hseen] at hwritten
    cases hwritten

/-- Whether the receiver remembers the delivery after a failing handling. -/
theorem Calls.remembers_iff {request : Request} {routed : Routing} {job : Job}
    (h : Calls env request routed job) (hid : request.delivery ≠ "") {world : World}
    (hnew : ¬world.Remembers request routed) (fates : Fates) (now : String) (restarted : Bool) :
    let failed := world.handle env fates request now
    let again := if restarted then .load failed.files else failed
    again.Remembers request routed ↔
      ¬(fates.Forgets restarted ∧ ¬(World.load world.files).Remembers request routed) := by
  intro failed again
  have hunseen : request.delivery ∉ world.seen := fun hseen ↦
    hnew (remembers_of_mem hid hseen)
  by_cases hwritten : fates.seen.written = true
  · have hkeeps : failed.Keeps request.delivery := h.keeps_handle hid hunseen hwritten now
    have hremembers : again.Remembers request routed := by
      apply remembers_of_mem hid
      cases restarted with
      | false => exact hkeeps.memory
      | true => exact hkeeps.files
    exact iff_of_true hremembers fun hforgets ↦ fates.not_forgets hwritten restarted hforgets.1
  · obtain ⟨payload, -, hpost⟩ := h.doPost_eq hid hunseen fates now
    have hfailed : failed = ended _ := congrArg ended hpost
    rw [write_bind] at hfailed
    cases hseen : fates.seen with
    | crashesBefore =>
        rw [hseen, if_neg (by simp)] at hfailed
        have hcrashed : failed = .load world.files := hfailed
        have hagain : again = .load world.files := by
          cases restarted with
          | false => exact hcrashed
          | true =>
              have hfiles : failed.files = world.files := by rw [hcrashed, World.load]
              exact congrArg World.load hfiles
        simp [Fates.Forgets, hseen, hagain]
    | fails exc =>
        rw [hseen, if_neg (by simp)] at hfailed
        cases restarted with
        | false =>
            have hremembers : again.Remembers request routed := by
              apply remembers_of_mem hid
              change request.delivery ∈ failed.seen
              rw [hfailed]
              exact world.mem_seen_noted request.delivery
            simp [Fates.Forgets, hseen, hremembers]
        | true =>
            have hfiles : failed.files = world.files := by
              rw [hfailed]
              rfl
            have hagain : again = .load world.files := congrArg World.load hfiles
            simp [Fates.Forgets, hseen, hagain]
    | _ =>
        rw [hseen] at hwritten
        exact absurd rfl hwritten

/-! ## Redelivery -/

inductive Action where
  | post (fates : Fates) (request : Request) (now : String)
  | restart

variable (env) in
def World.step (world : World) : Action → World
  | .post fates request now => world.handle env fates request now
  | .restart => .load world.files

/-- A redelivered job comes into the queue, if and only if the failing handling has
already put it there, or ended before anything was remembered.  After anything else
that happens until then it is what the receiver remembers that counts. -/
theorem redelivered_iff {request : Request} {routed : Routing} {job : Job}
    (h : Calls env request routed job) (hid : request.delivery ≠ "") {world : World}
    (hnew : ¬world.Remembers request routed) (fates : Fates) (now later : String) :
    (∀ restarted : Bool,
      let failed := world.handle env fates request now
      let again := if restarted then .load failed.files else failed
      (again.handle env .fine request later).Queued job ↔
        world.Queued job ∨ fates.Queues routed ∨
          fates.Forgets restarted ∧ ¬(World.load world.files).Remembers request routed) ∧
    ∀ actions : List Action,
      let again := actions.foldl (World.step env) (world.handle env fates request now)
      (again.handle env .fine request later).Queued job ↔
        again.Queued job ∨ ¬again.Remembers request routed := by
  refine ⟨fun restarted ↦ ?_, fun actions ↦ h.queued_iff _ later⟩
  intro failed again
  have hqueued : again.Queued job ↔ failed.Queued job := by
    cases restarted <;> exact Iff.rfl
  have hfailed : failed.Queued job ↔ world.Queued job ∨ fates.Queues routed :=
    h.queued_handle hid hnew fates now
  have hremembers : again.Remembers request routed ↔
      ¬(fates.Forgets restarted ∧ ¬(World.load world.files).Remembers request routed) :=
    h.remembers_iff hid hnew fates now restarted
  rw [h.queued_iff, hqueued, hfailed, hremembers, not_not, or_assoc]

end Handling

/-! ## A crash between the writes -/

def sampleRequest : Request := (enters "Agent-Executing" "d1").request

def sampleJob : Job := (enters "Agent-Executing" "d1").job

def sampleRouted : Routing := .dispatch (.str "7f1c2a9e") "Agent-Executing" sampleJob

def emptyWorld : World := .load ⟨[], [], []⟩

theorem calls_sample : Calls sampleEnv sampleRequest sampleRouted sampleJob := by
  have hgenuine := genuine_enters "Agent-Executing" "d1"
  obtain ⟨payload, hbody, hrouting⟩ := hgenuine.routing_eq
  refine ⟨hgenuine.signed, ⟨payload, hbody, ?_⟩, rfl⟩
  rw [if_pos (by simp [Change.due, enters, dispatchOnState])] at hrouting
  exact hrouting

theorem not_remembers_emptyWorld : ¬emptyWorld.Remembers sampleRequest sampleRouted := by
  simp [emptyWorld, World.load, World.Remembers, sampleRouted, Dict.ofItems]

/-- The process ends right after it has saved the delivery id. -/
theorem crash_loses_job :
    Calls sampleEnv sampleRequest sampleRouted sampleJob ∧
      ¬emptyWorld.Remembers sampleRequest sampleRouted ∧
      ¬((emptyWorld.handle sampleEnv { Fates.fine with seen := .crashesAfter } sampleRequest
        "2026-01-05T09:00:00Z").handle sampleEnv .fine sampleRequest
          "2026-01-05T09:10:00Z").Queued sampleJob := by
  have hid : sampleRequest.delivery ≠ "" := by simp [sampleRequest, enters]
  refine ⟨calls_sample, not_remembers_emptyWorld, fun hqueued ↦ ?_⟩
  rcases (calls_sample.queued_iff _ _).mp hqueued with hearly | hforgotten
  · rw [calls_sample.queued_handle hid not_remembers_emptyWorld] at hearly
    rcases hearly with ⟨now, hnone⟩ | hqueues
    · exact List.not_mem_nil hnone
    · cases hqueues.1
  · have hremembers := calls_sample.remembers_iff hid not_remembers_emptyWorld
      { Fates.fine with seen := .crashesAfter } "2026-01-05T09:00:00Z" false
    simp only [Bool.false_eq_true, if_false] at hremembers
    refine hforgotten (hremembers.mpr ?_)
    rintro ⟨hforgets, -⟩
    rcases hforgets with hseen | ⟨⟨exc, hseen⟩, -⟩
    · cases hseen
    · cases hseen

theorem redelivered_sample :
    ((emptyWorld.handle sampleEnv { Fates.fine with seen := .crashesBefore } sampleRequest
      "2026-01-05T09:00:00Z").handle sampleEnv .fine sampleRequest
        "2026-01-05T09:10:00Z").Queued sampleJob := by
  have hid : sampleRequest.delivery ≠ "" := by simp [sampleRequest, enters]
  have hredelivered := (redelivered_iff calls_sample hid not_remembers_emptyWorld
    { Fates.fine with seen := .crashesBefore } "2026-01-05T09:00:00Z" "2026-01-05T09:10:00Z").1
      false
  simp only [Bool.false_eq_true, if_false] at hredelivered
  exact hredelivered.mpr (Or.inr (Or.inr ⟨Or.inl rfl, not_remembers_emptyWorld⟩))

end AgenticSDLC.Webhook
