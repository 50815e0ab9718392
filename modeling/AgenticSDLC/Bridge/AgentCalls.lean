import AgenticSDLC.Bridge.BoardToAgents
import AgenticSDLC.Foundations.FirstSeen

/-!
# One call for each job

While the agents answer and the state file is written, the calls of the agents are the keys of
the queue's jobs in their order, each once, however the drains lie between the deliveries, the
failures and the restarts of the receiver.
-/

namespace AgenticSDLC.Bridge

open FirstSeen (fresh fresh_append fresh_congr fresh_of_subset mem_fresh)
open Python (Stdlib)
open Dispatcher (Drain Event dispatchKey jobKey jobKeys loadState seenCap)

/-- Every agent answers with an object, the row of it is written, and so is the state file. -/
structure Answered (drain : Drain) : Prop where
  delivers : ∀ n, drain.Delivers n
  saved : drain.save = .lands

/-- The job with the key is called and settled, and so on. -/
def callsOf (keys : List String) : List Event :=
  keys.flatMap fun key ↦ [.invoked key, .settled key]

theorem callsOf_append (keys more : List String) :
    callsOf (keys ++ more) = callsOf keys ++ callsOf more := List.flatMap_append

section Drains

variable (py : Stdlib)

/-- The keys of the jobs for agents, in their order. -/
def queuedKeys (jobs : List Job) : List String := jobKeys py (jobs.map Json.obj)

variable {py}

theorem queuedKeys_cons (job : Job) (jobs : List Job) :
    queuedKeys py (job :: jobs) = (dispatchKey py (.obj job)).toList ++ queuedKeys py jobs := by
  have hkeys : ∀ lines, jobKeys py lines = lines.filterMap (dispatchKey py) := fun _ ↦ rfl
  rw [queuedKeys, queuedKeys, hkeys, hkeys, List.map_cons, List.filterMap_cons]
  cases dispatchKey py (.obj job) <;> rfl

theorem queuedKeys_append (jobs more : List Job) :
    queuedKeys py (jobs ++ more) = queuedKeys py jobs ++ queuedKeys py more := by
  rw [queuedKeys, List.map_append]
  exact List.filterMap_append

/-- The role of each job for an agent is a valid one. -/
def RolesValid (py : Stdlib) (jobs : List Job) : Prop :=
  ∀ job ∈ jobs, ∀ key, dispatchKey py (.obj job) = some key →
    ∃ role, Dispatcher.validRole (Python.get job "agent_role") = .ok (some role)

/-- A drain with answers calls the new keys, one after another. -/
theorem processJobs_answered {drain : Drain} (hdrain : Answered drain) {jobs : List Job}
    (hroles : RolesValid py jobs) (n : ℕ) (progress : Dispatcher.Progress) :
    ∃ next, Dispatcher.processJobs py drain n (jobs.map Json.obj) progress = .ok next ∧
      next.seen = progress.seen ++ fresh progress.seen (queuedKeys py jobs) ∧
      next.log = progress.log ++ callsOf (fresh progress.seen (queuedKeys py jobs)) := by
  induction jobs generalizing n progress with
  | nil => exact ⟨progress, rfl, (List.append_nil _).symm, (List.append_nil _).symm⟩
  | cons job jobs ih =>
      have hrest := ih fun other hother ↦ hroles other (List.mem_cons_of_mem job hother)
      rw [List.map_cons, Dispatcher.processJobs, queuedKeys_cons, fresh_append]
      rcases Dispatcher.processJob_cases py drain n (.obj job) progress with
        ⟨exc, hno, -⟩ | ⟨-, hseen, hstep⟩ | ⟨other, hother, hdispatch, hnew, -⟩
      · exact absurd rfl (hno job)
      · have hnone : fresh progress.seen (dispatchKey py (.obj job)).toList = [] := by
          apply fresh_of_subset
          intro key hkey
          exact hseen key (by simpa using hkey)
        have hsame : fresh (progress.seen ++ (dispatchKey py (.obj job)).toList)
            (queuedKeys py jobs) = fresh progress.seen (queuedKeys py jobs) := by
          apply fresh_congr
          intro key
          rw [List.mem_append, or_iff_left_iff_imp]
          exact fun hkey ↦ hseen key (by simpa using hkey)
        obtain ⟨next, hnext, hseen', hlog⟩ := hrest (n + 1) progress
        rw [hstep, Outcome.ok_bind, hnone, hsame, List.nil_append]
        exact ⟨next, hnext, hseen', hlog⟩
      · obtain rfl := Json.obj.inj hother
        obtain ⟨role, hrole⟩ := hroles job List.mem_cons_self _ hdispatch
        obtain ⟨middle, hmiddle, hseen, hlog, -⟩ :=
          Dispatcher.processJob_of_delivers py hdispatch hnew hrole (hdrain.delivers n)
        obtain ⟨next, hnext, hseen', hlog'⟩ := hrest (n + 1) middle
        have hone : fresh progress.seen (dispatchKey py (.obj job)).toList = [jobKey py job] := by
          rw [hdispatch, Option.toList_some, fresh, if_neg hnew, fresh]
        have hmore : fresh (progress.seen ++ (dispatchKey py (.obj job)).toList)
            (queuedKeys py jobs) = fresh middle.seen (queuedKeys py jobs) := by
          rw [hdispatch, hseen, Option.toList_some]
        rw [hmiddle, Outcome.ok_bind, hone, hmore]
        refine ⟨next, hnext, ?_, ?_⟩
        · rw [hseen', hseen, List.append_assoc]
        · rw [hlog', hlog, List.append_assoc, callsOf_append]
          rfl

end Drains

/-! ## Runs -/

section Runs

variable {env : Webhook.Env} {py : Stdlib}

/-- The jobs of the keys have been called, and they are the first ones of the queue. -/
structure Called (py : Stdlib) (world : World) (keys : List String) : Prop where
  log : world.dispatcher.log = callsOf (fresh [] keys)
  seen : (loadState world.dispatcher.state).seen.Perm (fresh [] keys)
  queued : keys <+: queuedKeys py world.receiver.files.queue

theorem Traced.rolesValid {actions : List Action} {world : World} (h : Traced env py actions world) :
    RolesValid py world.receiver.files.queue := by
  intro job hjob key hkey
  obtain ⟨fates, request, now, -, hemits⟩ := h.emitted job hjob
  exact (hemits.dispatch hkey).2

/-- The keys that a drain meets are those called already, and then the others. -/
theorem fresh_of_called {seen keys : List String} (hseen : seen.Perm (fresh [] keys))
    (rest : List String) :
    fresh seen (keys ++ rest) = fresh keys rest ∧
      fresh [] (keys ++ rest) = fresh [] keys ++ fresh keys rest := by
  have hmem : ∀ key, key ∈ seen ↔ key ∈ keys := fun key ↦ by
    rw [hseen.mem_iff, mem_fresh]
    simp
  constructor
  · rw [fresh_append, fresh_of_subset fun key hkey ↦ (hmem key).mpr hkey, List.nil_append]
    apply fresh_congr
    intro key
    rw [List.mem_append, hmem, or_self]
  · exact fresh_append [] keys rest

/-- A drain calls the jobs that are left. -/
theorem Called.drain {actions : List Action} {world : World} {keys : List String}
    (h : Called py world keys) (htraced : Traced env py actions world)
    (hfloats : Json.FloatTexts py.repr env.toFloat) {drain : Drain} (hdrain : Answered drain)
    (hfew : (fresh [] (queuedKeys py world.receiver.files.queue)).length ≤ seenCap) :
    Called py (world.step env py (.drain drain)) (queuedKeys py world.receiver.files.queue) := by
  obtain ⟨rest, hrest⟩ := h.queued
  obtain ⟨next, hnext, hseen, hlog⟩ :=
    processJobs_answered hdrain htraced.rolesValid 0 world.dispatcher.begin
  obtain ⟨hnew, hall⟩ := fresh_of_called h.seen rest
  rw [hrest] at hnew hall
  rw [← htraced.readJobs_eq hfloats] at hnext
  have hbegin : world.dispatcher.begin.seen = (loadState world.dispatcher.state).seen := rfl
  have hfirst : world.dispatcher.begin.log = world.dispatcher.log := rfl
  rw [hbegin, hnew] at hseen hlog
  rw [hfirst, h.log, ← callsOf_append, ← hall] at hlog
  have hperm : next.seen.Perm (fresh [] (queuedKeys py world.receiver.files.queue)) := by
    rw [hseen, hall]
    exact h.seen.append_right _
  have hlisted : (drain.listed next.seen).Perm
      (fresh [] (queuedKeys py world.receiver.files.queue)) := (drain.listed_perm _).trans hperm
  have hstate : (world.dispatcher.drain py env.toFloat drain).1.state =
      some ⟨drain.listed next.seen, next.attempts⟩ := by
    rw [Dispatcher.World.drain, hnext]
    simp only [hdrain.saved]
    have hsaved : Dispatcher.saveState drain next =
        some ⟨drain.listed next.seen, next.attempts⟩ := by
      rw [Dispatcher.saveState, Python.lastItems_of_length_le (hlisted.length_eq.trans_le hfew)]
    rw [← hsaved]
    split_ifs
    · rfl
    · cases drain.baseline <;> rfl
  refine ⟨?_, ?_, List.prefix_refl _⟩
  · show (world.dispatcher.drain py env.toFloat drain).1.log = _
    rw [(drain_spec env.toFloat py world.dispatcher drain).2, hnext]
    exact hlog
  · show (loadState (world.dispatcher.drain py env.toFloat drain).1.state).seen.Perm _
    rw [hstate]
    exact hlisted

theorem Called.receive {world : World} {keys : List String} (h : Called py world keys)
    {receiver : Webhook.World} (hqueue : world.receiver.files.queue <+: receiver.files.queue) :
    Called py (world.receive env py receiver) keys := by
  refine ⟨h.log, h.seen, h.queued.trans ?_⟩
  obtain ⟨jobs, hjobs⟩ := hqueue
  show queuedKeys py world.receiver.files.queue <+: queuedKeys py receiver.files.queue
  rw [← hjobs, queuedKeys_append]
  exact List.prefix_append _ _

variable (env py) in
/-- No step takes a job out of the queue. -/
theorem queue_step (world : World) (action : Action) :
    world.receiver.files.queue <+: (world.step env py action).receiver.files.queue := by
  cases action with
  | post fates request now =>
      obtain ⟨jobs, hqueue, -⟩ := grows_handle env fates request now world.receiver
      exact hqueue.symm ▸ List.prefix_append _ _
  | restart => exact List.prefix_refl _
  | drain drain => exact List.prefix_refl _

theorem length_fresh_le {keys more : List String} (h : keys <+: more) :
    (fresh [] keys).length ≤ (fresh [] more).length := by
  obtain ⟨rest, rfl⟩ := h
  rw [fresh_append, List.length_append]
  exact Nat.le_add_right _ _

theorem queuedKeys_grow {jobs more : List Job} (h : jobs <+: more) :
    queuedKeys py jobs <+: queuedKeys py more := by
  obtain ⟨rest, rfl⟩ := h
  rw [queuedKeys_append]
  exact List.prefix_append _ _

theorem called_run (hfloats : Json.FloatTexts py.repr env.toFloat) {actions : List Action}
    (hdrains : ∀ drain, .drain drain ∈ actions → Answered drain)
    (hfew : (fresh [] (queuedKeys py (World.run env py actions).receiver.files.queue)).length ≤
      seenCap) : ∃ keys, Called py (World.run env py actions) keys := by
  induction actions using List.reverseRecOn with
  | nil => exact ⟨[], rfl, .nil, List.nil_prefix⟩
  | append_singleton actions action ih =>
      rw [run_append_singleton] at hfew ⊢
      have hgrows := queue_step env py (World.run env py actions) action
      have hbefore := (length_fresh_le (queuedKeys_grow hgrows)).trans hfew
      obtain ⟨keys, hcalled⟩ := ih (fun drain hdrain ↦ hdrains drain (List.mem_append_left _ hdrain))
        hbefore
      cases action with
      | post fates request now => exact ⟨keys, hcalled.receive hgrows⟩
      | restart => exact ⟨keys, hcalled.receive (List.prefix_refl _)⟩
      | drain drain =>
          have hdrain := hdrains drain (List.mem_append_right _ List.mem_cons_self)
          exact ⟨_, hcalled.drain (traced_run hfloats actions) hfloats hdrain hbefore⟩

end Runs

/-! ## A sample -/

theorem answered_sampleDrain : Answered Dispatcher.sampleDrain := by
  refine ⟨fun n ↦ ?_, rfl⟩
  exact ⟨⟨_, rfl⟩, rfl⟩

theorem fresh_sample : fresh [] (queuedKeys samplePy (World.run sampleEnv samplePy
    [.post .fine sampleRequest "2026-01-05T09:00:00Z"]).receiver.files.queue) =
      ["910c4384780a9f3a"] := by
  rw [queue_sample]
  decide +kernel

end AgenticSDLC.Bridge
