import AgenticSDLC.Bridge.SettledJobs
import AgenticSDLC.Foundations.RetryPolicy

/-!
# The retry law

A drain gives each job of the queue one turn, and the attempts that it saves make the
turns of all drains those of one policy of retries.  What it counts as a success is any
result that can be recorded, also one that reports a failed run of the agent.
-/

namespace AgenticSDLC.Dispatcher

open Python (Exception Stdlib)
open Runs RetryPolicy

/-- The agent did what it was invoked for; `exec_ok` is how its result tells otherwise. -/
def Answer.succeeds : Answer → Bool
  | .returns (.obj result) => Python.get result "exec_ok" ≠ .bool false
  | _ => false

section Drains

variable (py : Stdlib) (toFloat : String → Json)

/-- The place of the first job with the key. -/
def World.place (world : World) (key : String) : Option ℕ :=
  (readJobs toFloat world.queue).findIdx? fun line ↦ dispatchKey py line = some key

/-- What the turn of the job brings that the action gives it. -/
def World.turn (world : World) (key : String) : Action → List Bool
  | .append _ => []
  | .drain drain =>
      ((world.place py toFloat key).map fun n ↦ (drain.answer n).succeeds).toList

def outcomes (key : String) (actions : List Action) : List Bool :=
  (actions.foldl (fun now action ↦
    (now.1.step py toFloat action, now.2 ++ now.1.turn py toFloat key action))
      (World.start, [])).2

/-- The drain counts as a success what is one, unless it does not matter any more. -/
def World.Agrees (world : World) (key : String) (drain : Drain) : Prop :=
  ∀ n, world.place py toFloat key = some n → key ∉ (loadState world.state).seen →
    ((loadState world.state).attempts.lookup key).getD 0 + 1 < drain.maxAttempts →
      (drain.Delivers n ↔ (drain.answer n).succeeds = true)

/-- The conditions on a drain, as far as the job with the key is concerned. -/
structure World.Fair (bound : ℕ) (key : String) (world : World) (drain : Drain) : Prop where
  clean : world.Clean py toFloat drain
  bound : drain.maxAttempts = bound
  single : (readJobs toFloat world.queue).countP
    (fun line ↦ dispatchKey py line = some key) ≤ 1
  valid : ∀ job, .obj job ∈ readJobs toFloat world.queue →
    dispatchKey py (.obj job) = some key →
      ∃ role, validRole (Python.get job "agent_role") = .ok (some role)
  agrees : world.Agrees py toFloat key drain

def World.FairStep (bound : ℕ) (key : String) (world : World) : Action → Prop
  | .append _ => True
  | .drain drain => world.Fair py toFloat bound key drain

variable {py toFloat}

/-- The world knows of the job what its tally says. -/
structure World.Tracks (world : World) (key : String) (tally : Tally) : Prop where
  settled : tally.settled = true ↔ key ∈ (loadState world.state).seen
  failures : key ∉ (loadState world.state).seen →
    ((loadState world.state).attempts.lookup key).getD 0 = tally.failures
  calls : world.log.count (.invoked key) = tally.calls

variable (py toFloat) in
theorem outcomes_append_singleton (key : String) (actions : List Action) (action : Action) :
    outcomes py toFloat key (actions ++ [action]) =
      outcomes py toFloat key actions ++ (World.run py toFloat actions).turn py toFloat key action := by
  have hrun : (actions.foldl (fun now action ↦ (World.step py toFloat now.1 action,
      now.2 ++ now.1.turn py toFloat key action)) (World.start, [])).1 =
        World.run py toFloat actions := by
    induction actions using List.reverseRecOn with
    | nil => rfl
    | append_singleton actions last ih =>
        rw [run_append_singleton, ← ih, List.foldl_append]
        rfl
  rw [outcomes, outcomes, List.foldl_append, ← hrun]
  rfl

/-- Where a drain without a job of the key leaves it. -/
theorem tracks_of_agrees {world next : World} {key : String} {tally : Tally} {progress : Progress}
    (h : world.Tracks key tally) (hagrees : world.begin.Agrees key progress)
    (hlog : next.log = progress.log)
    (hseen : key ∈ (loadState next.state).seen ↔ key ∈ progress.seen)
    (hattempts : (loadState next.state).attempts = progress.attempts) : next.Tracks key tally := by
  have hsame := hseen.trans hagrees.seen
  constructor
  · exact h.settled.trans hsame.symm
  · intro hnot
    rw [hattempts]
    exact hagrees.tries.trans (h.failures fun hold ↦ hnot (hsame.mpr hold))
  · rw [hlog]
    exact hagrees.calls.trans h.calls

/-- The turn of a job, as its tally has it. -/
theorem tracks_of_turn {world : World} {key : String} {bound : ℕ} {drain : Drain} {tally : Tally}
    {line : Json} {n : ℕ} {before after : Progress} (h : world.Tracks key tally)
    (hfair : world.Fair py toFloat bound key drain)
    (hline : line ∈ readJobs toFloat world.queue) (hkey : dispatchKey py line = some key)
    (hplace : world.place py toFloat key = some n)
    (hbefore : world.begin.Agrees key before)
    (hstep : processJob py drain n line before = .ok after) :
    ((tally.next bound (drain.answer n).succeeds).settled = true ↔ key ∈ after.seen) ∧
      (key ∉ after.seen →
        tries key after = (tally.next bound (drain.answer n).succeeds).failures) ∧
      after.log.count (.invoked key) = (tally.next bound (drain.answer n).succeeds).calls := by
  have hseen : tally.settled = true ↔ key ∈ before.seen := h.settled.trans hbefore.seen.symm
  have hcalls : before.log.count (.invoked key) = tally.calls := hbefore.calls.trans h.calls
  rcases processJob_cases py drain n line before with
    ⟨exc, hno, -⟩ | ⟨-, hpassed, hsame⟩ | ⟨job, rfl, hdispatch, hnew, hjob⟩
  · obtain ⟨job, hjob⟩ := hfair.clean.objects line hline
    exact absurd hjob (hno job)
  · rw [hstep] at hsame
    obtain rfl := Except.ok.inj hsame
    have hsettled := hseen.mpr (hpassed key hkey)
    rw [Tally.next, if_pos hsettled]
    exact ⟨hseen, fun hnot ↦ absurd (hpassed key hkey) hnot, hcalls⟩
  · obtain rfl : jobKey py job = key := Option.some.inj (hdispatch.symm.trans hkey)
    have hunseen : jobKey py job ∉ (loadState world.state).seen := fun hold ↦
      hnew (hbefore.seen.mpr hold)
    have htries : tries (jobKey py job) before = tally.failures :=
      hbefore.tries.trans (h.failures hunseen)
    have hwaiting : tally.settled ≠ true := fun hsettled ↦ hnew (hseen.mp hsettled)
    obtain ⟨role, hrole⟩ := hfair.valid job hline hkey
    have hagrees := hfair.agrees n hplace hunseen
    rw [show ((loadState world.state).attempts.lookup (jobKey py job)).getD 0 = tally.failures from
      h.failures hunseen, hfair.bound] at hagrees
    rw [hstep] at hjob
    obtain ⟨hcount, hcase⟩ := hjob.turn py hnew hrole
    rw [htries, hfair.bound] at hcase
    rw [hcount, hcalls, Tally.next, if_neg hwaiting]
    rcases hcase with ⟨hafter, hwhy⟩ | ⟨hafter, hfails, hless, hmore⟩
    · have hsettles : (drain.answer n).succeeds = true ∨ bound ≤ tally.failures + 1 := by
        rcases hwhy with hdelivers | hmax
        · rcases Nat.lt_or_ge (tally.failures + 1) bound with hless | hmax
          · exact Or.inl ((hagrees hless).mp hdelivers)
          · exact Or.inr hmax
        · exact Or.inr hmax
      split_ifs with hsucceeds
      · exact ⟨⟨fun _ ↦ hafter, fun _ ↦ rfl⟩, fun hnot ↦ absurd hafter hnot, rfl⟩
      · have hmax := hsettles.resolve_left hsucceeds
        exact ⟨⟨fun _ ↦ hafter, fun _ ↦ decide_eq_true hmax⟩, fun hnot ↦ absurd hafter hnot, rfl⟩
    · have hsucceeds : ¬(drain.answer n).succeeds = true := fun hsucceeds ↦
        hfails.2 ((hagrees hless).mpr hsucceeds)
      rw [if_neg hsucceeds]
      refine ⟨⟨fun hmax ↦ ?_, fun hin ↦ absurd hin hafter⟩, fun _ ↦ hmore.trans rfl, rfl⟩
      exact absurd (of_decide_eq_true hmax) (Nat.not_le_of_lt hless)

theorem exists_of_place {world : World} {key : String} {n : ℕ}
    (h : world.place py toFloat key = some n) :
    ∃ earlier line later, readJobs toFloat world.queue = earlier ++ line :: later ∧
      earlier.length = n ∧ dispatchKey py line = some key := by
  obtain ⟨hlt, hkey, -⟩ := List.findIdx?_eq_some_iff_getElem.mp h
  refine ⟨(readJobs toFloat world.queue).take n, (readJobs toFloat world.queue)[n],
    (readJobs toFloat world.queue).drop (n + 1), ?_, ?_, of_decide_eq_true hkey⟩
  · rw [← List.drop_eq_getElem_cons hlt, List.take_append_drop]
  · exact List.length_take_of_le hlt.le

theorem World.Tracks.drain {world : World} {key : String} {bound : ℕ} {drain : Drain}
    {tally : Tally} (h : world.Tracks key tally) (hsound : world.Sound)
    (hfair : world.Fair py toFloat bound key drain) :
    (world.drain py toFloat drain).1.Tracks key
      ((world.turn py toFloat key (.drain drain)).foldl (Tally.next bound) tally) := by
  obtain ⟨progress, hjobs, -, hlog, hstate⟩ := hfair.clean.exists_drain hsound
  have hseen : key ∈ (loadState (world.drain py toFloat drain).1.state).seen ↔
      key ∈ progress.seen := by
    rw [hstate]
    exact (drain.listed_perm progress.seen).mem_iff
  have hattempts : (loadState (world.drain py toFloat drain).1.state).attempts =
      progress.attempts := by
    rw [hstate]
    rfl
  cases hplace : world.place py toFloat key with
  | none =>
      have hnone : ∀ line ∈ readJobs toFloat world.queue, dispatchKey py line ≠ some key :=
        fun line hline ↦ of_decide_eq_false (List.findIdx?_eq_none_iff.mp hplace line hline)
      rw [World.turn, hplace]
      exact tracks_of_agrees h (processJobs_agrees py hnone hjobs) hlog hseen hattempts
  | some n =>
      obtain ⟨earlier, line, later, hlines, rfl, hkey⟩ := exists_of_place hplace
      have hline : line ∈ readJobs toFloat world.queue := by
        rw [hlines]
        exact List.mem_append_right earlier List.mem_cons_self
      have hcount := hfair.single
      simp only [hlines, List.countP_append, List.countP_cons, hkey, decide_true, if_true] at hcount
      have hnone : ∀ lines : List Json, lines.countP (fun line ↦ dispatchKey py line = some key) = 0 →
          ∀ other ∈ lines, dispatchKey py other ≠ some key := fun lines hzero other hother hsame ↦
        List.countP_eq_zero.mp hzero other hother (decide_eq_true hsame)
      have hearlier := hnone earlier (by omega)
      have hlater := hnone later (by omega)
      rw [hlines, processJobs_append] at hjobs
      obtain ⟨before, hbefore, hrest⟩ := Outcome.bind_eq_ok_iff.mp hjobs
      obtain ⟨after, hstep, hafter⟩ := Outcome.bind_eq_ok_iff.mp hrest
      have hfirst := processJobs_agrees py hearlier hbefore
      have hlast := processJobs_agrees py hlater hafter
      rw [Nat.zero_add] at hstep
      obtain ⟨hsettled, hfailures, hcalls⟩ :=
        tracks_of_turn h hfair hline hkey hplace hfirst hstep
      rw [World.turn, hplace]
      have hsame := hseen.trans hlast.seen
      constructor
      · exact hsettled.trans hsame.symm
      · intro hnot
        rw [hattempts]
        exact hlast.tries.trans (hfailures fun hin ↦ hnot (hsame.mpr hin))
      · rw [hlog]
        exact hlast.calls.trans hcalls

/-- The turns of a job, over all drains, are a run of the policy. -/
theorem tracks_of_fair {bound : ℕ} {key : String} {actions : List Action}
    (h : EachStep (fun before action ↦
      (World.run py toFloat before).FairStep py toFloat bound key action) actions) :
    EachPoint (fun before ↦ (World.run py toFloat before).Sound ∧
      (World.run py toFloat before).Tracks key
        (Tally.after bound (outcomes py toFloat key before))) actions := by
  have hstart : World.start.Tracks key .start := by
    constructor
    · exact ⟨fun hsettled ↦ absurd hsettled Bool.false_ne_true, fun hin ↦ absurd hin List.not_mem_nil⟩
    · exact fun _ ↦ rfl
    · rfl
  refine eachPoint_of_eachStep ⟨⟨List.Pairwise.nil, by simp [World.run, World.start],
    List.nodup_nil⟩, hstart⟩ ?_ h
  rintro before action ⟨hsound, htracks⟩ hstep
  rw [run_append_singleton, outcomes_append_singleton, Tally.after, List.foldl_append,
    ← Tally.after]
  cases action with
  | append text =>
      refine ⟨⟨hsound.once, hsound.remembered, hsound.nodup⟩, ?_⟩
      exact ⟨htracks.settled, htracks.failures, htracks.calls⟩
  | drain drain => exact ⟨hsound.drain hstep.clean, htracks.drain hsound hstep⟩

end Drains

/-- A drain whose agent reports that its run failed. -/
def reportingDrain : Drain :=
  { sampleDrain with
    answer := fun _ ↦ .returns (.obj [("mode", .str "exec"), ("exec_ok", .bool false)]) }

theorem outcomes_sample (drain : Drain) :
    outcomes sampleStdlib Json.str sampleKey [.append (sampleQueue []), .drain drain] =
      [(drain.answer 0).succeeds] := by
  obtain ⟨start, hqueue, -, ⟨hrun, -⟩, -⟩ := exists_run_append sampleStdlib Json.str
    (sampleQueue []) drain
  have hplace : start.place sampleStdlib Json.str sampleKey = some 0 := by
    rw [World.place, hqueue, readJobs_job, List.findIdx?_cons, dispatchKey_sampleJob,
      if_pos (decide_eq_true rfl)]
  have hlist : [Action.append (sampleQueue []), .drain drain] =
      ([] ++ [.append (sampleQueue [])]) ++ [.drain drain] := rfl
  rw [hlist, outcomes_append_singleton, outcomes_append_singleton, List.nil_append, hrun,
    World.turn, World.turn, hplace]
  rfl

end AgenticSDLC.Dispatcher
