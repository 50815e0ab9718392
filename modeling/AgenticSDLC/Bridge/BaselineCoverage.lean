import AgenticSDLC.Bridge.SettledJobs

/-!
# What the baseline covers

Every drain that dispatches something writes the whole baseline anew.  So an id stays
on it just when each such drain dispatches it again; which ids a drain dispatches can be
read off the queue, the state file and the answers.
-/

namespace AgenticSDLC.Dispatcher

open Python (Exception Stdlib)
open Runs

section Lines

variable (py : Stdlib) (state : State) (drain : Drain)

/-- The line is a job whose agent is invoked in vain, if it has its turn at the place. -/
def FailsAt (n : ℕ) (line : Json) : Prop :=
  ∃ job role, line = .obj job ∧ validRole (Python.get job "agent_role") = .ok (some role) ∧
    drain.Fails n

def occurrences (key : String) (lines : List Json) : ℕ :=
  lines.countP fun line ↦ dispatchKey py line = some key

/-- The key is not settled when the drain is through with the lines. -/
structure Waits (before : List Json) (key : String) : Prop where
  new : key ∉ state.seen
  failed : EachStep (fun earlier line ↦ dispatchKey py line = some key →
    FailsAt drain earlier.length line) before
  left : occurrences py key before = 0 ∨
    (state.attempts.lookup key).getD 0 + occurrences py key before < drain.maxAttempts

/-- The job has its turn after the lines. -/
structure Turn (before : List Json) (line : Json) (job : Job) : Prop where
  object : line = .obj job
  dispatch : dispatchKey py line = some (jobKey py job)
  waits : Waits py state drain before (jobKey py job)

/-- The turn of the job at the place ends the drain. -/
def StopsAt (n : ℕ) (job : Job) : Prop :=
  (∃ exc, Python.hashKey (Python.get job "agent_role") = .error exc) ∨
    (validRole (Python.get job "agent_role") = .ok none ∧ drain.blockAudit n ≠ none) ∨
    ∃ role, validRole (Python.get job "agent_role") = .ok (some role) ∧
      (drain.Interrupts n ∨ (drain.Fails n ∧ drain.blockAudit n ≠ none))

def Stops (before : List Json) (line : Json) : Prop :=
  (∀ job, line ≠ .obj job) ∨
    ∃ job, Turn py state drain before line job ∧ StopsAt drain before.length job

/-- The turn of the line dispatches the issue. -/
def DispatchesHere (id : String) (before : List Json) (line : Json) : Prop :=
  ∃ job role, Turn py state drain before line job ∧
    validRole (Python.get job "agent_role") = .ok (some role) ∧ drain.Delivers before.length ∧
    Python.truthy (Python.get job "issue_id") = true ∧
    id = Python.str py.repr (Python.get job "issue_id")

/-- A turn that the drain comes to dispatches the issue. -/
def Due (id : String) (lines : List Json) : Prop :=
  SomeStep (fun before line ↦ EachStep (fun earlier other ↦ ¬Stops py state drain earlier other) before ∧
    DispatchesHere py state drain id before line) lines

/-- What the drain knows when it is through with the lines. -/
structure Follows (before : List Json) (progress : Progress) : Prop where
  seen : ∀ key, key ∉ progress.seen ↔ Waits py state drain before key
  tries : ∀ key, key ∉ progress.seen →
    tries key progress = (state.attempts.lookup key).getD 0 + occurrences py key before
  going : EachStep (fun earlier other ↦ ¬Stops py state drain earlier other) before
  ids : ∀ id, id ∈ progress.dispatchedIds ↔ Due py state drain id before

variable {py state drain}

variable (py) in
theorem occurrences_append_singleton (key : String) (before : List Json) (line : Json) :
    occurrences py key (before ++ [line]) =
      occurrences py key before + if dispatchKey py line = some key then 1 else 0 := by
  simp [occurrences, List.countP_cons]

theorem waits_of_ne {before : List Json} {line : Json} {key : String}
    (hkey : dispatchKey py line ≠ some key) :
    Waits py state drain (before ++ [line]) key ↔ Waits py state drain before key := by
  have hcount := occurrences_append_singleton py key before line
  rw [if_neg hkey, Nat.add_zero] at hcount
  constructor
  · rintro ⟨hnew, hfailed, hleft⟩
    rw [hcount] at hleft
    exact ⟨hnew, (eachStep_append_singleton.mp hfailed).1, hleft⟩
  · rintro ⟨hnew, hfailed, hleft⟩
    refine ⟨hnew, eachStep_append_singleton.mpr ⟨hfailed, fun hsame ↦ absurd hsame hkey⟩, ?_⟩
    rwa [hcount]

theorem waits_of_eq {before : List Json} {line : Json} {key : String}
    (hkey : dispatchKey py line = some key) :
    Waits py state drain (before ++ [line]) key ↔ Waits py state drain before key ∧
      FailsAt drain before.length line ∧
      (state.attempts.lookup key).getD 0 + occurrences py key before + 1 < drain.maxAttempts := by
  have hcount := occurrences_append_singleton py key before line
  rw [if_pos hkey] at hcount
  constructor
  · rintro ⟨hnew, hfailed, hleft⟩
    obtain ⟨hearlier, hlast⟩ := eachStep_append_singleton.mp hfailed
    rw [hcount] at hleft
    have hless := hleft.resolve_left (Nat.succ_ne_zero _)
    exact ⟨⟨hnew, hearlier, Or.inr (by omega)⟩, hlast hkey, by omega⟩
  · rintro ⟨⟨hnew, hfailed, -⟩, hlast, hless⟩
    refine ⟨hnew, eachStep_append_singleton.mpr ⟨hfailed, fun _ ↦ hlast⟩, Or.inr ?_⟩
    rw [hcount]
    omega

/-- A job passes through its turn, or it ends the drain there. -/
theorem not_stops_iff {before : List Json} {line : Json} {job : Job}
    (hturn : Turn py state drain before line job) :
    ¬Stops py state drain before line ↔ ¬StopsAt drain before.length job := by
  obtain rfl := hturn.object
  constructor
  · exact fun h hstops ↦ h (Or.inr ⟨job, hturn, hstops⟩)
  · rintro h (hno | ⟨other, hother, hstops⟩)
    · exact hno job rfl
    · obtain rfl := Json.obj.inj hother.object
      exact h hstops

theorem due_append_singleton {id : String} {before : List Json} {line : Json}
    (h : EachStep (fun earlier other ↦ ¬Stops py state drain earlier other) before) :
    Due py state drain id (before ++ [line]) ↔
      Due py state drain id before ∨ DispatchesHere py state drain id before line := by
  rw [Due, someStep_append_singleton]
  exact or_congr_right ⟨fun hhere ↦ hhere.2, fun hhere ↦ ⟨h, hhere⟩⟩

theorem dispatchesHere_iff {id : String} {before : List Json} {line : Json} {job : Job}
    (hturn : Turn py state drain before line job) :
    DispatchesHere py state drain id before line ↔
      (∃ role, validRole (Python.get job "agent_role") = .ok (some role)) ∧
        drain.Delivers before.length ∧ id ∈ if Python.truthy (Python.get job "issue_id") then
          [Python.str py.repr (Python.get job "issue_id")] else [] := by
  obtain rfl := hturn.object
  constructor
  · rintro ⟨other, role, hother, hrole, hdelivers, htruthy, rfl⟩
    obtain rfl := Json.obj.inj hother.object
    rw [if_pos htruthy]
    exact ⟨⟨role, hrole⟩, hdelivers, List.mem_singleton_self _⟩
  · rintro ⟨⟨role, hrole⟩, hdelivers, hid⟩
    split_ifs at hid with htruthy
    · exact ⟨job, role, hturn, hrole, hdelivers, htruthy, List.mem_singleton.mp hid⟩
    · cases hid

theorem failsAt_iff {n : ℕ} {job : Job} {role : String}
    (hrole : validRole (Python.get job "agent_role") = .ok (some role)) :
    FailsAt drain n (.obj job) ↔ drain.Fails n := by
  constructor
  · rintro ⟨other, role, -, -, hfails⟩
    exact hfails
  · exact fun hfails ↦ ⟨job, role, rfl, hrole, hfails⟩

theorem stopsAt_iff {n : ℕ} {job : Job} {role : String}
    (hrole : validRole (Python.get job "agent_role") = .ok (some role)) :
    StopsAt drain n job ↔ drain.Interrupts n ∨ (drain.Fails n ∧ drain.blockAudit n ≠ none) := by
  constructor
  · rintro (⟨exc, herror⟩ | ⟨hrefused, -⟩ | ⟨other, -, hstops⟩)
    · exact absurd herror (hashKey_ne_error_of_validRole hrole exc)
    · rw [hrole] at hrefused
      cases hrefused
    · exact hstops
  · exact fun hstops ↦ Or.inr (Or.inr ⟨role, hrole, hstops⟩)

theorem not_stopsAt_of_delivers {n : ℕ} {job : Job} {role : String}
    (hrole : validRole (Python.get job "agent_role") = .ok (some role)) (hdelivers : drain.Delivers n) :
    ¬StopsAt drain n job := by
  rw [stopsAt_iff hrole]
  rintro (⟨exc, hanswer⟩ | ⟨hfails, -⟩)
  · obtain ⟨⟨result, hresult⟩, -⟩ := hdelivers
    rw [hanswer] at hresult
    cases hresult
  · exact hfails.2 hdelivers

theorem not_stopsAt_of_fails {n : ℕ} {job : Job} {role : String}
    (hrole : validRole (Python.get job "agent_role") = .ok (some role)) (hfails : drain.Fails n)
    (haudit : drain.blockAudit n = none) : ¬StopsAt drain n job := by
  rw [stopsAt_iff hrole]
  rintro (hanswer | ⟨-, hblock⟩)
  · exact hfails.1 hanswer
  · exact hblock haudit

/-- A turn whose agent gives no result dispatches nothing. -/
theorem mem_or_dispatchesHere_iff {before : List Json} {line : Json} {job : Job}
    (hturn : Turn py state drain before line job)
    (hno : ∀ role, validRole (Python.get job "agent_role") = .ok (some role) →
      ¬drain.Delivers before.length) (ids : List String) (id : String) :
    id ∈ ids ↔ id ∈ ids ∨ DispatchesHere py state drain id before line := by
  rw [dispatchesHere_iff hturn]
  refine ⟨Or.inl, fun hid ↦ hid.resolve_right ?_⟩
  rintro ⟨⟨role, hrole⟩, hdelivers, -⟩
  exact hno role hrole hdelivers

/-- Nothing is dispatched from the line on that ends the drain. -/
theorem due_append_of_stops {id : String} {before : List Json} {line : Json}
    (h : Stops py state drain before line) (rest : List Json) :
    Due py state drain id (before ++ line :: rest) ↔ Due py state drain id before := by
  induction rest using List.reverseRecOn with
  | nil =>
      rw [Due, someStep_append_singleton]
      refine ⟨fun hdue ↦ hdue.resolve_right ?_, Or.inl⟩
      rintro ⟨-, job, role, hturn, hrole, hdelivers, -⟩
      exact (not_stops_iff hturn).mpr (not_stopsAt_of_delivers hrole hdelivers) h
  | append_singleton rest last ih =>
      rw [← List.cons_append, ← List.append_assoc, Due, someStep_append_singleton]
      refine Iff.trans ⟨fun hdue ↦ hdue.resolve_right fun hlast ↦ ?_, Or.inl⟩ ih
      exact hlast.1 before line rest rfl h

/-! ## One drain -/

/-- A line without a turn changes nothing. -/
theorem Follows.pass {before : List Json} {progress : Progress} {line : Json}
    (h : Follows py state drain before progress) (hobject : ∃ job, line = .obj job)
    (hseen : ∀ key, dispatchKey py line = some key → key ∈ progress.seen) :
    Follows py state drain (before ++ [line]) progress := by
  have hturn : ∀ job, ¬Turn py state drain before line job := fun job hturn ↦
    (h.seen _).mpr hturn.waits (hseen _ hturn.dispatch)
  have hstops : ¬Stops py state drain before line := by
    rintro (hno | ⟨job, hjob, -⟩)
    · obtain ⟨job, hjob⟩ := hobject
      exact hno job hjob
    · exact hturn job hjob
  constructor
  · intro key
    by_cases hkey : dispatchKey py line = some key
    · rw [waits_of_eq hkey]
      exact ⟨fun hnew ↦ absurd (hseen key hkey) hnew, fun hwaits ↦ (h.seen key).mpr hwaits.1⟩
    · rw [waits_of_ne hkey]
      exact h.seen key
  · intro key hnew
    have hkey : dispatchKey py line ≠ some key := fun hkey ↦ hnew (hseen key hkey)
    rw [occurrences_append_singleton, if_neg hkey, Nat.add_zero]
    exact h.tries key hnew
  · exact eachStep_append_singleton.mpr ⟨h.going, hstops⟩
  · intro id
    rw [due_append_singleton h.going, h.ids id]
    refine ⟨Or.inl, fun hdue ↦ hdue.resolve_right ?_⟩
    rintro ⟨job, role, hjob, -⟩
    exact hturn job hjob

/-- What a turn has to do for the key of its job. -/
theorem Follows.turn {before : List Json} {progress next : Progress} {line : Json} {job : Job}
    (h : Follows py state drain before progress) (hturn : Turn py state drain before line job)
    (hagrees : ∀ key, key ≠ jobKey py job → progress.Agrees key next)
    (hseen : jobKey py job ∉ next.seen ↔ FailsAt drain before.length line ∧
      Dispatcher.tries (jobKey py job) progress + 1 < drain.maxAttempts)
    (htries : jobKey py job ∉ next.seen →
      Dispatcher.tries (jobKey py job) next = Dispatcher.tries (jobKey py job) progress + 1)
    (hgoing : ¬StopsAt drain before.length job)
    (hids : ∀ id, id ∈ next.dispatchedIds ↔
      id ∈ progress.dispatchedIds ∨ DispatchesHere py state drain id before line) :
    Follows py state drain (before ++ [line]) next := by
  have hnew := (h.seen _).mpr hturn.waits
  have hcount := h.tries _ hnew
  constructor
  · intro key
    by_cases hkey : key = jobKey py job
    · rw [hkey, waits_of_eq hturn.dispatch, hseen, hcount]
      exact ⟨fun hfails ↦ ⟨hturn.waits, hfails⟩, fun hwaits ↦ hwaits.2⟩
    · rw [waits_of_ne fun hsame ↦ hkey (Option.some.inj (hsame.symm.trans hturn.dispatch)),
        (hagrees key hkey).seen]
      exact h.seen key
  · intro key hkey
    rw [occurrences_append_singleton]
    by_cases hsame : key = jobKey py job
    · rw [hsame] at hkey ⊢
      rw [if_pos hturn.dispatch, htries hkey, hcount, Nat.add_assoc]
    · rw [if_neg fun hother ↦ hsame (Option.some.inj (hother.symm.trans hturn.dispatch)),
        (hagrees key hsame).tries]
      exact h.tries key fun hin ↦ hkey ((hagrees key hsame).seen.mpr hin)
  · exact eachStep_append_singleton.mpr ⟨h.going, (not_stops_iff hturn).mpr hgoing⟩
  · intro id
    rw [due_append_singleton h.going, hids, h.ids id]

variable (py) in
/-- A line ends the drain, or the drain goes on knowing what it has to. -/
theorem Follows.line {before : List Json} {progress : Progress}
    (h : Follows py state drain before progress) (line : Json) :
    (∃ next, processJob py drain before.length line progress = .ok next ∧
        Follows py state drain (before ++ [line]) next) ∨
      ∃ exc next, processJob py drain before.length line progress = .error (exc, next) ∧
        Stops py state drain before line ∧ next.dispatchedIds = progress.dispatchedIds := by
  rcases processJob_cases py drain before.length line progress with
    ⟨exc, hno, hstep⟩ | ⟨hobject, hseen, hstep⟩ | ⟨job, rfl, hdispatch, hnew, hjob⟩
  · exact Or.inr ⟨exc, progress, hstep, Or.inl hno, rfl⟩
  · exact Or.inl ⟨progress, hstep, h.pass hobject hseen⟩
  · have hturn : Turn py state drain before (.obj job) job := ⟨rfl, hdispatch, (h.seen _).mp hnew⟩
    have hstop : StopsAt drain before.length job → Stops py state drain before (.obj job) :=
      fun hstops ↦ Or.inr ⟨job, hturn, hstops⟩
    generalize processJob py drain before.length (.obj job) progress = step at hjob
    have hagrees : ∀ next, step = .ok next → ∀ key, key ≠ jobKey py job →
        progress.Agrees key next := by
      rintro next rfl key hkey
      exact hjob.agrees hkey
    cases hjob with
    | unhashable exc hrole => exact Or.inr ⟨exc, progress, rfl, hstop (Or.inl ⟨exc, hrole⟩), rfl⟩
    | unrecorded hrole exc haudit =>
        refine Or.inr ⟨exc, progress, rfl, hstop (Or.inr (Or.inl ⟨hrole, ?_⟩)), rfl⟩
        simp [haudit]
    | interrupted role hrole exc hanswer =>
        exact Or.inr ⟨exc, _, rfl, hstop (Or.inr (Or.inr ⟨role, hrole, Or.inl ⟨exc, hanswer⟩⟩)), rfl⟩
    | uncounted role hrole hfails exc haudit attempts =>
        refine Or.inr ⟨exc, _, rfl, hstop (Or.inr (Or.inr ⟨role, hrole, Or.inr ⟨hfails, ?_⟩⟩)), rfl⟩
        simp [haudit]
    | refused hrole haudit rows =>
        have hno : ∀ role, validRole (Python.get job "agent_role") ≠ .ok (some role) := by
          intro role hvalid
          rw [hrole] at hvalid
          cases hvalid
        refine Or.inl ⟨_, rfl, h.turn hturn (hagrees _ rfl) ⟨fun hnot ↦ ?_, ?_⟩ (fun hnot ↦ ?_) ?_
          (mem_or_dispatchesHere_iff hturn (fun role hvalid ↦ absurd hvalid (hno role)) _)⟩
        · simp at hnot
        · rintro ⟨⟨other, role, hother, hvalid, -⟩, -⟩
          obtain rfl := Json.obj.inj hother
          exact absurd hvalid (hno role)
        · simp at hnot
        · rintro (⟨exc, herror⟩ | ⟨-, hblock⟩ | ⟨role, hvalid, -⟩)
          · exact hashKey_ne_error_of_validRole hrole exc herror
          · exact hblock haudit
          · exact hno role hvalid
    | dispatched role hrole hdelivers rows =>
        refine Or.inl ⟨_, rfl, h.turn hturn (hagrees _ rfl) ⟨fun hnot ↦ ?_, ?_⟩ (fun hnot ↦ ?_)
          (not_stopsAt_of_delivers hrole hdelivers) fun id ↦ ?_⟩
        · simp [forgetAttempts] at hnot
        · rintro ⟨hfails, -⟩
          exact absurd hdelivers ((failsAt_iff hrole).mp hfails).2
        · simp [forgetAttempts] at hnot
        · rw [dispatchesHere_iff hturn, List.mem_append]
          exact or_congr_right ⟨fun hid ↦ ⟨⟨role, hrole⟩, hdelivers, hid⟩, fun hid ↦ hid.2.2⟩
    | quarantined role hrole hfails haudit hmax rows =>
        refine Or.inl ⟨_, rfl, h.turn hturn (hagrees _ rfl) ⟨fun hnot ↦ ?_, ?_⟩ (fun hnot ↦ ?_)
          (not_stopsAt_of_fails hrole hfails haudit)
          (mem_or_dispatchesHere_iff hturn (fun _ _ ↦ hfails.2) _)⟩
        · simp [forgetAttempts] at hnot
        · exact fun hless ↦ absurd hless.2 (Nat.not_lt_of_le hmax)
        · simp [forgetAttempts] at hnot
    | retried role hrole hfails haudit hmax rows =>
        refine Or.inl ⟨_, rfl, h.turn hturn (hagrees _ rfl) ⟨fun _ ↦ ?_, fun _ ↦ hnew⟩ (fun _ ↦ ?_)
          (not_stopsAt_of_fails hrole hfails haudit)
          (mem_or_dispatchesHere_iff hturn (fun _ _ ↦ hfails.2) _)⟩
        · exact ⟨(failsAt_iff hrole).mpr hfails, hmax⟩
        · rw [Dispatcher.tries, Dict.lookup_set, if_pos rfl, Option.getD_some]

variable (py) in
theorem Follows.lines {before : List Json} {progress : Progress}
    (h : Follows py state drain before progress) (rest : List Json) :
    (∃ next, processJobs py drain before.length rest progress = .ok next ∧
        Follows py state drain (before ++ rest) next) ∨
      ∃ exc next, processJobs py drain before.length rest progress = .error (exc, next) ∧
        SomeStep (Stops py state drain) (before ++ rest) ∧
        ∀ id, id ∈ next.dispatchedIds ↔ Due py state drain id (before ++ rest) := by
  induction rest generalizing before progress with
  | nil =>
      rw [List.append_nil]
      exact Or.inl ⟨progress, rfl, h⟩
  | cons line rest ih =>
      rcases h.line py line with ⟨next, hstep, hnext⟩ | ⟨exc, next, hstep, hstops, hids⟩
      · have hrest := ih hnext
        rw [List.length_append, List.length_singleton, List.append_assoc,
          List.singleton_append] at hrest
        rw [processJobs, hstep, Outcome.ok_bind]
        exact hrest
      · refine Or.inr ⟨exc, next, ?_, ⟨before, line, rest, rfl, hstops⟩, fun id ↦ ?_⟩
        · rw [processJobs, hstep]
          rfl
        · rw [hids, h.ids id, due_append_of_stops hstops]

theorem follows_nil {progress : Progress} (hseen : progress.seen = state.seen)
    (hattempts : progress.attempts = state.attempts) (hids : progress.dispatchedIds = []) :
    Follows py state drain [] progress := by
  constructor
  · intro key
    rw [hseen]
    exact ⟨fun hnew ↦ ⟨hnew, eachStep_nil _, Or.inl rfl⟩, Waits.new⟩
  · intro key _
    rw [tries, hattempts]
    rfl
  · exact eachStep_nil _
  · intro id
    rw [hids, Due]
    simp

end Lines

section Drains

variable (py : Stdlib) (toFloat : String → Json)

/-- The issues of the jobs that the drain dispatches. -/
def World.dispatches (world : World) : Action → List String
  | .append _ => []
  | .drain drain =>
      match processJobs py drain 0 (readJobs toFloat world.queue) world.begin with
      | .ok progress => progress.dispatchedIds
      | .error (_, progress) => progress.dispatchedIds

def World.Due (world : World) (drain : Drain) (id : String) : Prop :=
  Dispatcher.Due py (loadState world.state) drain id (readJobs toFloat world.queue)

/-- A line of the queue ends the drain. -/
def World.Cut (world : World) (drain : Drain) : Prop :=
  SomeStep (Stops py (loadState world.state) drain) (readJobs toFloat world.queue)

/-- The drain comes to write the baseline. -/
structure World.Rewrites (world : World) (drain : Drain) : Prop where
  uncut : ¬world.Cut py toFloat drain
  saved : drain.save = .lands
  due : ∃ id, world.Due py toFloat drain id

def World.Listed (world : World) (id : String) : Prop :=
  ∃ ids, world.baseline = some ids ∧ id ∈ ids

def Dispatched (id : String) (actions : List Action) : Prop :=
  SomeStep (fun before action ↦ id ∈ (World.run py toFloat before).dispatches py toFloat action)
    actions

def Covered (actions : List Action) : Prop :=
  ∀ id, Dispatched py toFloat id actions → (World.run py toFloat actions).Listed id

/-- What a drain has to do when some issues were dispatched before it. -/
structure World.Keeps (world : World) (dispatched : String → Prop) (drain : Drain) : Prop where
  again : world.Rewrites py toFloat drain → drain.baseline = .lands →
    ∀ id, dispatched id → world.Due py toFloat drain id
  listed : ¬(world.Rewrites py toFloat drain ∧ drain.baseline = .lands) →
    ∀ id, world.Due py toFloat drain id → world.Listed id
  whole : world.Rewrites py toFloat drain → ∀ exc, drain.baseline ≠ .tears exc

def World.KeepsStep (world : World) (dispatched : String → Prop) : Action → Prop
  | .append _ => True
  | .drain drain => world.Keeps py toFloat dispatched drain

theorem World.processJobs_cases (world : World) (drain : Drain) :
    (∃ progress, processJobs py drain 0 (readJobs toFloat world.queue) world.begin = .ok progress ∧
        ¬world.Cut py toFloat drain ∧ ∀ id, id ∈ progress.dispatchedIds ↔ world.Due py toFloat drain id) ∨
      ∃ exc progress, processJobs py drain 0 (readJobs toFloat world.queue) world.begin =
          .error (exc, progress) ∧ world.Cut py toFloat drain ∧
        ∀ id, id ∈ progress.dispatchedIds ↔ world.Due py toFloat drain id := by
  have hbegin : Follows py (loadState world.state) drain [] world.begin := follows_nil rfl rfl rfl
  rcases hbegin.lines py (readJobs toFloat world.queue) with
    ⟨progress, hjobs, hprogress⟩ | ⟨exc, progress, hjobs, hstops, hids⟩
  · refine Or.inl ⟨progress, hjobs, ?_, hprogress.ids⟩
    rintro ⟨before, line, after, hlines, hstops⟩
    exact hprogress.going before line after hlines hstops
  · exact Or.inr ⟨exc, progress, hjobs, hstops, hids⟩

variable {py toFloat}

theorem World.mem_dispatches_iff (world : World) (drain : Drain) (id : String) :
    id ∈ world.dispatches py toFloat (.drain drain) ↔ world.Due py toFloat drain id := by
  rw [World.dispatches]
  rcases world.processJobs_cases py toFloat drain with
    ⟨progress, hjobs, -, hids⟩ | ⟨exc, progress, hjobs, -, hids⟩
  · rw [hjobs]
    exact hids id
  · rw [hjobs]
    exact hids id

/-- The baseline after a drain that does not come to write it. -/
theorem World.baseline_of_not_rewrites {world : World} {drain : Drain}
    (h : ¬world.Rewrites py toFloat drain) :
    (world.drain py toFloat drain).1.baseline = world.baseline := by
  rw [World.drain]
  rcases world.processJobs_cases py toFloat drain with
    ⟨progress, hjobs, huncut, hids⟩ | ⟨exc, progress, hjobs, -, -⟩
  · rw [hjobs]
    cases hsave : drain.save with
    | fails exc => rfl
    | tears exc => rfl
    | lands =>
        have hnone : progress.dispatchedIds = [] := by
          by_contra hsome
          obtain ⟨id, hid⟩ := List.exists_mem_of_ne_nil _ hsome
          exact h ⟨huncut, hsave, id, (hids id).mp hid⟩
        simp only [hnone, if_true]
  · rw [hjobs]

/-- The baseline after a drain that comes to write it. -/
theorem World.baseline_of_rewrites {world : World} {drain : Drain}
    (h : world.Rewrites py toFloat drain) :
    ∃ ids, (∀ id, id ∈ ids ↔ world.Due py toFloat drain id) ∧
      (world.drain py toFloat drain).1.baseline =
        match drain.baseline with
        | .lands => some ids
        | .fails _ => world.baseline
        | .tears _ => none := by
  rcases world.processJobs_cases py toFloat drain with
    ⟨progress, hjobs, -, hids⟩ | ⟨exc, progress, -, hcut, -⟩
  · refine ⟨progress.dispatchedIds, hids, ?_⟩
    have hsome : progress.dispatchedIds ≠ [] := by
      intro hnone
      obtain ⟨id, hdue⟩ := h.due
      have hid := (hids id).mpr hdue
      rw [hnone] at hid
      cases hid
    rw [World.drain, hjobs]
    simp only [h.saved, if_neg hsome]
    cases drain.baseline <;> rfl
  · exact absurd hcut h.uncut

/-- One drain of a covered run. -/
theorem World.keeps_iff {world : World} {dispatched : String → Prop} {drain : Drain}
    (h : ∀ id, dispatched id → world.Listed id) :
    world.Keeps py toFloat dispatched drain ↔
      ∀ id, dispatched id ∨ world.Due py toFloat drain id →
        (world.drain py toFloat drain).1.Listed id := by
  by_cases hrewrites : world.Rewrites py toFloat drain
  · obtain ⟨ids, hids, hbaseline⟩ := World.baseline_of_rewrites hrewrites
    simp only [World.Listed, hbaseline]
    cases hwrite : drain.baseline with
    | lands =>
        constructor
        · rintro hkeeps id (hold | hdue)
          · exact ⟨ids, rfl, (hids id).mpr (hkeeps.again hrewrites hwrite id hold)⟩
          · exact ⟨ids, rfl, (hids id).mpr hdue⟩
        · refine fun hlisted ↦ ⟨fun _ _ id hold ↦ ?_, fun hnot ↦ ?_, fun _ exc htears ↦ ?_⟩
          · obtain ⟨others, hothers, hid⟩ := hlisted id (Or.inl hold)
            rw [← Option.some.inj hothers] at hid
            exact (hids id).mp hid
          · exact absurd ⟨hrewrites, hwrite⟩ hnot
          · rw [hwrite] at htears
            cases htears
    | fails exc =>
        have hno : ¬(world.Rewrites py toFloat drain ∧ drain.baseline = .lands) := by
          simp [hwrite]
        constructor
        · rintro hkeeps id (hold | hdue)
          · exact h id hold
          · exact hkeeps.listed hno id hdue
        · refine fun hlisted ↦ ⟨fun _ hlands ↦ ?_, fun _ id hdue ↦ ?_, fun _ other htears ↦ ?_⟩
          · exact absurd ⟨hrewrites, hlands⟩ hno
          · exact hlisted id (Or.inr hdue)
          · rw [hwrite] at htears
            cases htears
    | tears exc =>
        constructor
        · exact fun hkeeps ↦ absurd hwrite (hkeeps.whole hrewrites exc)
        · intro hlisted
          obtain ⟨id, hdue⟩ := hrewrites.due
          obtain ⟨others, hothers, -⟩ := hlisted id (Or.inr hdue)
          cases hothers
  · have hbaseline := World.baseline_of_not_rewrites hrewrites
    simp only [World.Listed, hbaseline]
    constructor
    · rintro hkeeps id (hold | hdue)
      · exact h id hold
      · exact hkeeps.listed (fun hboth ↦ hrewrites hboth.1) id hdue
    · intro hlisted
      exact ⟨fun hyes ↦ absurd hyes hrewrites, fun _ id hdue ↦ hlisted id (Or.inr hdue),
        fun hyes ↦ absurd hyes hrewrites⟩

end Drains

/-! ## Two drains -/

def otherJob : Job :=
  [("agent_role", .str "verifier"), ("delivery", .str "d2"), ("issue_id", .str "c0d81b56"),
    ("kind", .str "agent_dispatch"), ("state", .str "Agent-Executing")]

/-- The hashes of the two jobs. -/
def pairStdlib : Stdlib :=
  ⟨fun _ ↦ "", fun text ↦
    if text = "d2|c0d81b56|Agent-Executing|agent_dispatch" then
      "af064a2ebf0d76477812d187be23abf00fe72dda77dc3a67c1abd20f24544435"
    else "910c4384780a9f3af1265714685736b9a6f1649ef12430d1a56bd9de7572fd0e", fun _ ↦ none⟩

def otherLine : List Char := Json.asciiText (fun _ ↦ "") (.obj otherJob) ++ ['\n']

theorem readJobs_pair :
    readJobs Json.str (sampleQueue otherLine) = [.obj sampleJob, .obj otherJob] := by
  have hplain : (Json.obj otherJob).Plain := by
    simp [otherJob, Json.Plain, Json.PlainMembers]
  rw [sampleQueue, readJobs_cons _ _ plain_sampleJob, otherLine, readJobs_cons _ _ hplain]
  rfl

theorem sampleQueue_append : sampleQueue [] ++ String.ofList otherLine = sampleQueue otherLine := by
  rw [sampleQueue, sampleQueue, ← String.ofList_append, List.append_assoc, List.singleton_append]

theorem jobKey_ne : jobKey pairStdlib otherJob ≠ jobKey pairStdlib sampleJob := by decide

/-- A drain in which all goes well, and something is dispatched. -/
theorem drain_of_dispatchedIds {world : World} {progress : Progress}
    (hjobs : processJobs pairStdlib sampleDrain 0 (readJobs Json.str world.queue) world.begin =
      .ok progress) (hids : progress.dispatchedIds ≠ []) :
    (world.drain pairStdlib Json.str sampleDrain).1 = ⟨world.queue, saveState sampleDrain progress,
      some progress.dispatchedIds, progress.rows, progress.log⟩ := by
  have hsave : sampleDrain.save = .lands := rfl
  have hbaseline : sampleDrain.baseline = .lands := rfl
  rw [World.drain, hjobs]
  simp only [hsave, hbaseline, if_neg hids]

theorem mem_dispatches {world : World} {drain : Drain} {progress : Progress} {id : String}
    (hjobs : processJobs pairStdlib drain 0 (readJobs Json.str world.queue) world.begin =
      .ok progress) (hid : id ∈ progress.dispatchedIds) :
    id ∈ world.dispatches pairStdlib Json.str (.drain drain) := by
  rw [World.dispatches, hjobs]
  exact hid

/-- A text is appended after a run and drained. -/
theorem run_append_drain (py : Stdlib) (toFloat : String → Json) (before : List Action)
    (text : String) (drain : Drain) :
    World.run py toFloat (before ++ [.append text, .drain drain]) =
      (((World.run py toFloat before).step py toFloat (.append text)).drain py toFloat drain).1 :=
  List.foldl_append

theorem processJob_first {world : World} (hstate : world.state = none) :
    ∃ progress, processJob pairStdlib sampleDrain 0 (.obj sampleJob) world.begin = .ok progress ∧
      progress.seen = [jobKey pairStdlib sampleJob] ∧ progress.dispatchedIds = ["7f1c2a9e"] := by
  have hkind : Python.get sampleJob "kind" = .str "agent_dispatch" := rfl
  have hrole : validRole (Python.get sampleJob "agent_role") = .ok (some "verifier") := rfl
  have hbegin : world.begin.seen = [] := by
    rw [World.begin, hstate]
    rfl
  have hnew : jobKey pairStdlib sampleJob ∉ world.begin.seen := by
    rw [hbegin]
    exact List.not_mem_nil
  obtain ⟨progress, hstep, hseen, -, hids⟩ := processJob_of_delivers pairStdlib
    (if_pos hkind) hnew hrole delivers_sampleDrain
  rw [hbegin] at hseen
  exact ⟨progress, hstep, hseen, hids⟩

theorem processJob_second {world : World} (n : ℕ)
    (hseen : world.begin.seen = [jobKey pairStdlib sampleJob]) :
    ∃ progress, processJob pairStdlib sampleDrain n (.obj otherJob) world.begin = .ok progress ∧
      progress.dispatchedIds = ["c0d81b56"] := by
  have hkind : Python.get otherJob "kind" = .str "agent_dispatch" := rfl
  have hrole : validRole (Python.get otherJob "agent_role") = .ok (some "verifier") := rfl
  have hnew : jobKey pairStdlib otherJob ∉ world.begin.seen := by
    rw [hseen, List.mem_singleton]
    exact jobKey_ne
  obtain ⟨progress, hstep, -, -, hids⟩ := processJob_of_delivers pairStdlib
    (if_pos hkind) hnew hrole (show sampleDrain.Delivers n from ⟨⟨_, rfl⟩, rfl⟩)
  exact ⟨progress, hstep, hids⟩

end AgenticSDLC.Dispatcher
