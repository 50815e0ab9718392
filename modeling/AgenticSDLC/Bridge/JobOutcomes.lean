import AgenticSDLC.Bridge.Dispatcher
import AgenticSDLC.Foundations.Runs

/-!
# What a drain does with a job

The outcomes of a line, once for all: a job that is neither settled nor another's
concern is refused, dispatched, retried or quarantined, or it ends the drain.  What the
lines before have left of a key can be read off the lines and the answers.
-/

namespace AgenticSDLC.Dispatcher

open Python (Exception Stdlib)
open Runs

section Jobs

variable (py : Stdlib)

/-- The key of a line that is a job for an agent. -/
def dispatchKey : Json → Option String
  | .obj job => if Python.get job "kind" = .str "agent_dispatch" then some (jobKey py job) else none
  | _ => none

/-- The invocation at a place returns a result, and its row can be written. -/
def Drain.Delivers (drain : Drain) (n : ℕ) : Prop :=
  (∃ result, drain.answer n = .returns (.obj result)) ∧ drain.allowAudit n = none

def Drain.Interrupts (drain : Drain) (n : ℕ) : Prop :=
  ∃ exc, drain.answer n = .interrupts exc

/-- A place whose invocation raises, in the end. -/
def Drain.Fails (drain : Drain) (n : ℕ) : Prop :=
  ¬drain.Interrupts n ∧ ¬drain.Delivers n

def tries (key : String) (progress : Progress) : ℕ :=
  (progress.attempts.lookup key).getD 0

/-- How a new job ends. -/
inductive NewJob (drain : Drain) (n : ℕ) (job : Job) (progress : Progress) : Step → Prop
  | unhashable (exc : Exception) (hrole : Python.hashKey (Python.get job "agent_role") = .error exc) :
      NewJob drain n job progress (.error (exc, progress))
  | refused (hrole : validRole (Python.get job "agent_role") = .ok none)
      (haudit : drain.blockAudit n = none) (rows : List AuditRow) :
      NewJob drain n job progress (.ok (settle (jobKey py job) { progress with rows := rows }))
  | unrecorded (hrole : validRole (Python.get job "agent_role") = .ok none) (exc : Exception)
      (haudit : drain.blockAudit n = some exc) :
      NewJob drain n job progress (.error (exc, progress))
  | interrupted (role : String) (hrole : validRole (Python.get job "agent_role") = .ok (some role))
      (exc : Exception) (hanswer : drain.answer n = .interrupts exc) :
      NewJob drain n job progress
        (.error (exc, { progress with log := progress.log ++ [.invoked (jobKey py job)] }))
  | dispatched (role : String) (hrole : validRole (Python.get job "agent_role") = .ok (some role))
      (hdelivers : drain.Delivers n) (rows : List AuditRow) :
      NewJob drain n job progress (.ok { forgetAttempts (jobKey py job) (settle (jobKey py job)
          { progress with rows := rows, log := progress.log ++ [.invoked (jobKey py job)] }) with
        dispatched := progress.dispatched + 1
        dispatchedIds := progress.dispatchedIds ++
          if Python.truthy (Python.get job "issue_id") then
            [Python.str py.repr (Python.get job "issue_id")] else [] })
  | uncounted (role : String) (hrole : validRole (Python.get job "agent_role") = .ok (some role))
      (hfails : drain.Fails n) (exc : Exception) (haudit : drain.blockAudit n = some exc)
      (attempts : List (String × ℕ)) :
      NewJob drain n job progress (.error (exc, { progress with
        attempts := attempts, log := progress.log ++ [.invoked (jobKey py job)] }))
  | quarantined (role : String) (hrole : validRole (Python.get job "agent_role") = .ok (some role))
      (hfails : drain.Fails n) (haudit : drain.blockAudit n = none)
      (hmax : drain.maxAttempts ≤ tries (jobKey py job) progress + 1) (rows : List AuditRow) :
      NewJob drain n job progress (.ok (forgetAttempts (jobKey py job) (settle (jobKey py job)
        { progress with
          attempts := Dict.set (jobKey py job) (tries (jobKey py job) progress + 1)
            progress.attempts
          rows := rows, log := progress.log ++ [.invoked (jobKey py job)] })))
  | retried (role : String) (hrole : validRole (Python.get job "agent_role") = .ok (some role))
      (hfails : drain.Fails n) (haudit : drain.blockAudit n = none)
      (hmax : tries (jobKey py job) progress + 1 < drain.maxAttempts) (rows : List AuditRow) :
      NewJob drain n job progress (.ok { progress with
        attempts := Dict.set (jobKey py job) (tries (jobKey py job) progress + 1)
          progress.attempts
        rows := rows, log := progress.log ++ [.invoked (jobKey py job)] })

variable {py}

theorem hashKey_error_of_validRole {role : Json} {exc : Exception} (h : validRole role = .error exc) :
    Python.hashKey role = .error exc := by
  cases role with
  | arr items =>
      cases h
      rfl
  | obj members =>
      cases h
      rfl
  | _ => cases h

theorem hashKey_ne_error_of_validRole {role : Json} {valid : Option String}
    (h : validRole role = .ok valid) (exc : Exception) : Python.hashKey role ≠ .error exc := by
  intro herror
  have hraises : validRole role = .error exc := by
    rw [validRole.eq_def, herror]
    rfl
  rw [hraises] at h
  cases h

variable (py) in
/-- The body of the `try` raises just when the place fails. -/
theorem invoke_cases (drain : Drain) (n : ℕ) (role key : String) (issueId : Json)
    (progress : Progress) :
    (∃ exc, drain.answer n = .interrupts exc ∧ invoke py drain n role key issueId progress =
        .error (exc, { progress with log := progress.log ++ [.invoked key] })) ∨
      (drain.Delivers n ∧ ∃ rows, invoke py drain n role key issueId progress =
        .ok ({ forgetAttempts key (settle key { progress with
            rows := rows, log := progress.log ++ [.invoked key] }) with
          dispatched := progress.dispatched + 1
          dispatchedIds := progress.dispatchedIds ++
            if Python.truthy issueId then [Python.str py.repr issueId] else [] }, none)) ∨
      (drain.Fails n ∧ ∃ exc, invoke py drain n role key issueId progress =
        .ok ({ progress with log := progress.log ++ [.invoked key] }, some exc)) := by
  cases hanswer : drain.answer n with
  | interrupts exc => exact Or.inl ⟨exc, rfl, by simp only [invoke, hanswer]⟩
  | raises exc =>
      refine Or.inr (Or.inr ⟨⟨?_, ?_⟩, exc, by simp only [invoke, hanswer]⟩)
      · rintro ⟨other, hother⟩
        simp [hanswer] at hother
      · rintro ⟨⟨result, hresult⟩, -⟩
        simp [hanswer] at hresult
  | returns result =>
      have hinterrupts : ¬drain.Interrupts n := by
        rintro ⟨other, hother⟩
        simp [hanswer] at hother
      cases hdict : Python.asDict result with
      | error exc =>
          refine Or.inr (Or.inr ⟨⟨hinterrupts, ?_⟩, exc, by simp only [invoke, hanswer, hdict]⟩)
          rintro ⟨⟨members, hmembers⟩, -⟩
          rw [hanswer] at hmembers
          rw [Answer.returns.inj hmembers] at hdict
          cases hdict
      | ok members =>
          cases haudit : drain.allowAudit n with
          | some exc =>
              refine Or.inr (Or.inr ⟨⟨hinterrupts, fun h ↦ ?_⟩, exc, ?_⟩)
              · have hnone := h.2
                rw [haudit] at hnone
                cases hnone
              · simp only [invoke, hanswer, hdict, audit, haudit]
          | none =>
              have hdelivers : drain.Delivers n := by
                refine ⟨⟨members, ?_⟩, haudit⟩
                cases result <;> cases hdict
                exact hanswer
              simp only [invoke, hanswer, hdict, audit, haudit]
              exact Or.inr (Or.inl ⟨hdelivers, _, rfl⟩)

theorem newJob_countFailure {drain : Drain} {n : ℕ} {job : Job} {progress : Progress} {role : String}
    (hrole : validRole (Python.get job "agent_role") = .ok (some role)) (hfails : drain.Fails n)
    (exc : Exception) :
    NewJob py drain n job progress (countFailure drain n (jobKey py job)
      (Python.get job "issue_id") exc
      { progress with log := progress.log ++ [.invoked (jobKey py job)] }) := by
  cases haudit : drain.blockAudit n with
  | some failure =>
      simp only [countFailure, haudit, audit]
      split_ifs
      · exact .uncounted role hrole hfails failure haudit _
      · exact .uncounted role hrole hfails failure haudit _
  | none =>
      simp only [countFailure, haudit, audit]
      split_ifs with hmax
      · exact .quarantined role hrole hfails haudit hmax _
      · exact .retried role hrole hfails haudit (Nat.lt_of_not_le hmax) _

variable (py)

/-- A line is no object, or passed over, or a new job. -/
theorem processJob_cases (drain : Drain) (n : ℕ) (line : Json) (progress : Progress) :
    (∃ exc, (∀ job, line ≠ .obj job) ∧
        processJob py drain n line progress = .error (exc, progress)) ∨
      ((∃ job, line = .obj job) ∧ (∀ key, dispatchKey py line = some key → key ∈ progress.seen) ∧
        processJob py drain n line progress = .ok progress) ∨
      ∃ job, line = .obj job ∧ dispatchKey py line = some (jobKey py job) ∧
        jobKey py job ∉ progress.seen ∧
        NewJob py drain n job progress (processJob py drain n line progress) := by
  cases hline : Python.asDict line with
  | error exc =>
      refine Or.inl ⟨exc, fun job hjob ↦ ?_, by simp only [processJob, hline]⟩
      rw [hjob] at hline
      cases hline
  | ok job =>
      obtain rfl : line = .obj job := by
        cases line <;> cases hline
        rfl
      apply Or.inr
      simp only [processJob, Python.asDict]
      split_ifs with hkind hseen
      · refine Or.inl ⟨⟨job, rfl⟩, fun key hkey ↦ ?_, rfl⟩
        rw [dispatchKey, if_neg hkind] at hkey
        cases hkey
      · refine Or.inl ⟨⟨job, rfl⟩, fun key hkey ↦ ?_, rfl⟩
        rw [dispatchKey, if_pos (not_not.mp hkind)] at hkey
        rwa [← Option.some.inj hkey]
      · refine Or.inr ⟨job, rfl, if_pos (not_not.mp hkind), hseen, ?_⟩
        cases hrole : validRole (Python.get job "agent_role") with
        | error exc => exact .unhashable exc (hashKey_error_of_validRole hrole)
        | ok valid =>
            cases valid with
            | none =>
                cases haudit : drain.blockAudit n with
                | some exc => exact .unrecorded hrole exc haudit
                | none => exact .refused hrole haudit _
            | some role =>
                rcases invoke_cases py drain n role (jobKey py job)
                  (Python.get job "issue_id") progress with
                  ⟨exc, hanswer, hinvoke⟩ | ⟨hdelivers, rows, hinvoke⟩ | ⟨hfails, exc, hinvoke⟩
                · simp only [hinvoke]
                  exact .interrupted role hrole exc hanswer
                · simp only [hinvoke, Outcome.ok_bind]
                  exact .dispatched role hrole hdelivers rows
                · simp only [hinvoke, Outcome.ok_bind]
                  exact newJob_countFailure hrole hfails exc

/-! ## What is left of a key -/

variable {py}

@[simp] theorem mem_seen_settle (key other : String) (progress : Progress) :
    other ∈ (settle key progress).seen ↔ other ∈ progress.seen ∨ other = key := by
  rw [settle]
  split_ifs with hseen
  · exact ⟨Or.inl, fun hother ↦ hother.elim id fun hsame ↦ hsame ▸ hseen⟩
  · simp

theorem tries_forgetAttempts {key other : String} (h : other ≠ key) (progress : Progress) :
    tries other (forgetAttempts key progress) = tries other progress := by
  rw [tries, tries, forgetAttempts, Dict.lookup_filter_ne h]

/-- Two drains in the making that know the same of a key. -/
structure Progress.Agrees (key : String) (progress next : Progress) : Prop where
  seen : key ∈ next.seen ↔ key ∈ progress.seen
  tries : Dispatcher.tries key next = Dispatcher.tries key progress
  calls : next.log.count (.invoked key) = progress.log.count (.invoked key)

theorem Progress.Agrees.refl (key : String) (progress : Progress) : progress.Agrees key progress :=
  ⟨Iff.rfl, rfl, rfl⟩

theorem Progress.Agrees.trans {key : String} {first second third : Progress}
    (h : first.Agrees key second) (h' : second.Agrees key third) : first.Agrees key third :=
  ⟨h'.seen.trans h.seen, h'.tries.trans h.tries, h'.calls.trans h.calls⟩

theorem NewJob.agrees {drain : Drain} {n : ℕ} {job : Job} {progress next : Progress} {key : String}
    (h : NewJob py drain n job progress (.ok next)) (hkey : key ≠ jobKey py job) :
    progress.Agrees key next := by
  have hset : ((Dict.set (jobKey py job) (tries (jobKey py job) progress + 1)
      progress.attempts).lookup key).getD 0 = tries key progress := by
    rw [Dict.lookup_set, if_neg hkey, tries]
  have hlog : Event.invoked key ≠ .invoked (jobKey py job) := fun hsame ↦
    hkey (Event.invoked.inj hsame)
  cases h with
  | refused hrole haudit rows =>
      refine ⟨by simp [hkey], rfl, ?_⟩
      simp [settle]
  | dispatched role hrole hdelivers rows =>
      refine ⟨by simp [forgetAttempts, hkey], tries_forgetAttempts hkey _, ?_⟩
      simp [forgetAttempts, settle, Ne.symm hlog]
  | quarantined role hrole hfails haudit hmax rows =>
      refine ⟨by simp [forgetAttempts, hkey], ?_, ?_⟩
      · exact (tries_forgetAttempts hkey _).trans hset
      · simp [forgetAttempts, settle, Ne.symm hlog]
  | retried role hrole hfails haudit hmax rows =>
      refine ⟨Iff.rfl, hset, ?_⟩
      simp [Ne.symm hlog]

variable (py)

theorem processJob_of_seen {drain : Drain} {n : ℕ} {job : Job} {progress : Progress}
    (hseen : jobKey py job ∈ progress.seen) : processJob py drain n (.obj job) progress = .ok progress := by
  simp only [processJob, Python.asDict]
  split_ifs
  · rfl
  · rfl

/-- A new job whose agent delivers is settled by that. -/
theorem processJob_of_delivers {drain : Drain} {n : ℕ} {job : Job} {progress : Progress}
    {role : String} (hkind : dispatchKey py (.obj job) = some (jobKey py job))
    (hnew : jobKey py job ∉ progress.seen)
    (hrole : validRole (Python.get job "agent_role") = .ok (some role))
    (hdelivers : drain.Delivers n) :
    ∃ next, processJob py drain n (.obj job) progress = .ok next ∧
      next.seen = progress.seen ++ [jobKey py job] ∧
      next.log = progress.log ++ [.invoked (jobKey py job), .settled (jobKey py job)] ∧
      next.dispatchedIds = progress.dispatchedIds ++
        if Python.truthy (Python.get job "issue_id") then
          [Python.str py.repr (Python.get job "issue_id")] else [] := by
  have hdispatch : Python.get job "kind" = .str "agent_dispatch" := by
    by_contra hno
    rw [dispatchKey, if_neg hno] at hkind
    cases hkind
  simp only [processJob, Python.asDict, hdispatch, ne_eq, not_true_eq_false, if_false, if_neg hnew,
    hrole]
  rcases invoke_cases py drain n role (jobKey py job) (Python.get job "issue_id")
    progress with ⟨exc, hanswer, -⟩ | ⟨-, rows, hinvoke⟩ | ⟨hfails, -⟩
  · obtain ⟨⟨result, hresult⟩, -⟩ := hdelivers
    rw [hanswer] at hresult
    cases hresult
  · simp only [hinvoke, Outcome.ok_bind]
    refine ⟨_, rfl, ?_, ?_, rfl⟩
    · simp [forgetAttempts, settle, hnew]
    · simp [forgetAttempts, settle]
  · exact absurd hdelivers hfails.2

/-- A new job that is none to refuse is invoked once. -/
theorem NewJob.turn {drain : Drain} {n : ℕ} {job : Job} {progress next : Progress} {role : String}
    (h : NewJob py drain n job progress (.ok next)) (hnew : jobKey py job ∉ progress.seen)
    (hrole : validRole (Python.get job "agent_role") = .ok (some role)) :
    next.log.count (.invoked (jobKey py job)) =
        progress.log.count (.invoked (jobKey py job)) + 1 ∧
      ((jobKey py job ∈ next.seen ∧
          (drain.Delivers n ∨ drain.maxAttempts ≤ tries (jobKey py job) progress + 1)) ∨
        (jobKey py job ∉ next.seen ∧ drain.Fails n ∧
          tries (jobKey py job) progress + 1 < drain.maxAttempts ∧
          tries (jobKey py job) next = tries (jobKey py job) progress + 1)) := by
  cases h with
  | refused hnone haudit rows =>
      rw [hnone] at hrole
      cases hrole
  | dispatched role hrole hdelivers rows =>
      refine ⟨by simp [forgetAttempts, settle], Or.inl ⟨by simp [forgetAttempts], ?_⟩⟩
      exact Or.inl hdelivers
  | quarantined role hrole hfails haudit hmax rows =>
      refine ⟨by simp [forgetAttempts, settle], Or.inl ⟨by simp [forgetAttempts], ?_⟩⟩
      exact Or.inr hmax
  | retried role hrole hfails haudit hmax rows =>
      refine ⟨by simp, Or.inr ⟨hnew, hfails, hmax, ?_⟩⟩
      rw [tries, Dict.lookup_set, if_pos rfl, Option.getD_some]

/-- A line that is no job of the key leaves alone what is known of it. -/
theorem processJob_agrees {drain : Drain} {n : ℕ} {line : Json} {progress next : Progress}
    {key : String} (hkey : dispatchKey py line ≠ some key)
    (h : processJob py drain n line progress = .ok next) : progress.Agrees key next := by
  rcases processJob_cases py drain n line progress with
    ⟨exc, -, hstep⟩ | ⟨-, -, hstep⟩ | ⟨job, -, hdispatch, -, hnew⟩
  · rw [hstep] at h
    cases h
  · rw [hstep] at h
    cases h
    exact .refl key progress
  · rw [h] at hnew
    apply hnew.agrees
    rintro rfl
    exact hkey hdispatch

theorem processJobs_append (drain : Drain) (n : ℕ) (lines more : List Json) (progress : Progress) :
    processJobs py drain n (lines ++ more) progress =
      processJobs py drain n lines progress >>= processJobs py drain (n + lines.length) more := by
  induction lines generalizing n progress with
  | nil => rfl
  | cons line lines ih =>
      rw [List.cons_append, processJobs, processJobs, List.length_cons]
      cases processJob py drain n line progress with
      | error failure => rfl
      | ok next =>
          rw [Outcome.ok_bind, Outcome.ok_bind, ih, Nat.add_assoc, Nat.add_comm 1]

theorem processJobs_agrees {drain : Drain} {n : ℕ} {lines : List Json} {progress next : Progress}
    {key : String} (hkey : ∀ line ∈ lines, dispatchKey py line ≠ some key)
    (h : processJobs py drain n lines progress = .ok next) : progress.Agrees key next := by
  induction lines generalizing n progress with
  | nil =>
      cases h
      exact .refl key _
  | cons line lines ih =>
      obtain ⟨middle, hline, hrest⟩ := Outcome.bind_eq_ok_iff.mp h
      have hfirst := processJob_agrees py (hkey line List.mem_cons_self) hline
      exact hfirst.trans (ih (fun other hother ↦ hkey other (List.mem_cons_of_mem line hother)) hrest)

end Jobs

end AgenticSDLC.Dispatcher
