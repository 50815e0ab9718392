import AgenticSDLC.Bridge.JobOutcomes
import Mathlib.Data.List.Dedup

/-!
# Settled jobs

A job whose key is in the seen set is passed over, so a settled job is dispatched again
just when its key is lost from the state file.  That is what a drain does that ends
before the file is written, and the cut of a set that is listed in no order.
-/

namespace AgenticSDLC.Dispatcher

open Python (Exception Stdlib)
open Runs

/-- No key is invoked after it was settled. -/
def Once (log : List Event) : Prop :=
  log.Pairwise fun earlier later ↦ ∀ key, earlier = .settled key → later ≠ .invoked key

theorem once_append_singleton {log : List Event} {event : Event} :
    Once (log ++ [event]) ↔ Once log ∧ ∀ key, event = .invoked key → .settled key ∉ log := by
  rw [Once, List.pairwise_append]
  constructor
  · rintro ⟨honce, -, hlast⟩
    refine ⟨honce, ?_⟩
    rintro key rfl hsettled
    exact hlast _ hsettled _ List.mem_cons_self key rfl rfl
  · rintro ⟨honce, hlast⟩
    refine ⟨honce, List.pairwise_singleton _ _, ?_⟩
    rintro earlier hearlier later hlater key rfl hinvoked
    rw [List.mem_singleton.mp hlater] at hinvoked
    exact hlast key hinvoked hearlier

section Drains

variable (py : Stdlib) (toFloat : String → Json)

/-- The keys of the dispatch jobs among the lines. -/
def jobKeys (lines : List Json) : List String :=
  lines.filterMap fun line ↦
    match line with
    | .obj job => if Python.get job "kind" = .str "agent_dispatch" then some (jobKey py job) else none
    | _ => none

/-- Nothing ends the drain before the state file is written, and all keys fit into it. -/
structure World.Clean (world : World) (drain : Drain) : Prop where
  objects : ∀ line ∈ readJobs toFloat world.queue, ∃ job, line = .obj job
  hashable : ∀ job, .obj job ∈ readJobs toFloat world.queue →
    Python.get job "kind" = .str "agent_dispatch" → jobKey py job ∉ (loadState world.state).seen →
      ∃ key, Python.hashKey (Python.get job "agent_role") = .ok key
  uninterrupted : ∀ n exc, drain.answer n ≠ .interrupts exc
  audited : ∀ n, drain.blockAudit n = none
  saved : drain.save = .lands
  few : ((loadState world.state).seen ++
    jobKeys py (readJobs toFloat world.queue)).dedup.length ≤ seenCap

/-- The action is a clean drain, or none. -/
def World.CleanStep (world : World) : Action → Prop
  | .append _ => True
  | .drain drain => world.Clean py toFloat drain

variable {py toFloat}

/-! ## One drain -/

/-- What holds all through a drain that began with some keys and met the others. -/
structure Progress.Sound (begun met : List String) (progress : Progress) : Prop where
  once : Once progress.log
  remembered : ∀ key, .settled key ∈ progress.log → key ∈ progress.seen
  nodup : progress.seen.Nodup
  kept : ∀ key ∈ begun, key ∈ progress.seen
  known : ∀ key ∈ progress.seen, key ∈ begun ++ met

namespace Progress

variable {begun met : List String}

theorem Sound.congr {progress next : Progress} (h : progress.Sound begun met)
    (hseen : next.seen = progress.seen) (hlog : next.log = progress.log) : next.Sound begun met := by
  constructor
  · rw [hlog]
    exact h.once
  · rw [hlog, hseen]
    exact h.remembered
  · rw [hseen]
    exact h.nodup
  · rw [hseen]
    exact h.kept
  · rw [hseen]
    exact h.known

theorem Sound.invoked {progress : Progress} (h : progress.Sound begun met) {key : String}
    (hnew : key ∉ progress.seen) :
    ({ progress with log := progress.log ++ [.invoked key] } : Progress).Sound begun met := by
  refine ⟨?_, fun other hother ↦ ?_, h.nodup, h.kept, h.known⟩
  · refine once_append_singleton.mpr ⟨h.once, fun other hother hsettled ↦ ?_⟩
    obtain rfl := Event.invoked.inj hother
    exact hnew (h.remembered key hsettled)
  · rcases List.mem_append.mp hother with hold | hlast
    · exact h.remembered other hold
    · cases List.mem_singleton.mp hlast

theorem Sound.settle {progress : Progress} (h : progress.Sound begun met) {key : String}
    (hkey : key ∈ met) : (settle key progress).Sound begun met := by
  constructor
  · exact once_append_singleton.mpr ⟨h.once, fun other hother ↦ by cases hother⟩
  · intro other hother
    rw [mem_seen_settle]
    rcases List.mem_append.mp hother with hold | hlast
    · exact Or.inl (h.remembered other hold)
    · exact Or.inr (Event.settled.inj (List.mem_singleton.mp hlast))
  · rw [Dispatcher.settle]
    split_ifs with hseen
    · exact h.nodup
    · rw [List.nodup_append]
      exact ⟨h.nodup, List.nodup_singleton key, fun other hother last hlast hsame ↦
        hseen (List.mem_singleton.mp hlast ▸ hsame ▸ hother)⟩
  · exact fun other hother ↦ (mem_seen_settle key other progress).mpr (Or.inl (h.kept other hother))
  · intro other hother
    rcases (mem_seen_settle key other progress).mp hother with hold | rfl
    · exact h.known other hold
    · exact List.mem_append_right begun hkey

theorem Sound.newJob {progress next : Progress} (h : progress.Sound begun met) {drain : Drain}
    {n : ℕ} {job : Job} (hkey : jobKey py job ∈ met) (hnew : jobKey py job ∉ progress.seen)
    (hjob : NewJob py drain n job progress (.ok next)) : next.Sound begun met := by
  have hinvoked := h.invoked hnew
  cases hjob with
  | refused hrole haudit rows =>
      apply Sound.settle _ hkey
      exact h.congr rfl rfl
  | dispatched role hrole hdelivers rows =>
      have hrows : ({ progress with
          rows := rows
          log := progress.log ++ [.invoked (jobKey py job)] } : Progress).Sound begun met :=
        hinvoked.congr rfl rfl
      exact (hrows.settle hkey).congr rfl rfl
  | quarantined role hrole hfails haudit hmax rows =>
      have hcounted : ({ progress with
          attempts := Dict.set (jobKey py job) (tries (jobKey py job) progress + 1)
            progress.attempts
          rows := rows
          log := progress.log ++ [.invoked (jobKey py job)] } : Progress).Sound begun met :=
        hinvoked.congr rfl rfl
      exact (hcounted.settle hkey).congr rfl rfl
  | retried role hrole hfails haudit hmax rows => exact hinvoked.congr rfl rfl

end Progress

variable (py) in
theorem mem_jobKeys {lines : List Json} {line : Json} {key : String} (hline : line ∈ lines)
    (hkey : dispatchKey py line = some key) : key ∈ jobKeys py lines :=
  List.mem_filterMap.mpr ⟨line, hline, hkey⟩

variable (py) in
theorem Progress.Sound.processJob {begun : List String} {lines : List Json} {line : Json}
    {progress next : Progress} (h : progress.Sound begun (jobKeys py lines)) (hline : line ∈ lines)
    {drain : Drain} {n : ℕ} (hstep : Dispatcher.processJob py drain n line progress = .ok next) :
    next.Sound begun (jobKeys py lines) := by
  rcases processJob_cases py drain n line progress with
    ⟨exc, -, hcase⟩ | ⟨-, -, hcase⟩ | ⟨job, -, hdispatch, hnew, hjob⟩
  · rw [hcase] at hstep
    cases hstep
  · rw [hcase] at hstep
    cases hstep
    exact h
  · rw [hstep] at hjob
    exact h.newJob (mem_jobKeys py hline hdispatch) hnew hjob

/-- A job of a clean drain does not end it. -/
theorem World.Clean.processJob {world : World} {drain : Drain}
    (hclean : world.Clean py toFloat drain) {progress : Progress}
    (hkept : ∀ key ∈ (loadState world.state).seen, key ∈ progress.seen) {line : Json}
    (hline : line ∈ readJobs toFloat world.queue) (n : ℕ) :
    ∃ next, Dispatcher.processJob py drain n line progress = .ok next := by
  rcases processJob_cases py drain n line progress with
    ⟨exc, hno, -⟩ | ⟨-, -, hstep⟩ | ⟨job, rfl, hdispatch, hnew, hjob⟩
  · obtain ⟨job, hjob⟩ := hclean.objects line hline
    exact absurd hjob (hno job)
  · exact ⟨progress, hstep⟩
  · generalize Dispatcher.processJob py drain n (.obj job) progress = step at hjob
    cases hjob with
    | unhashable exc hrole =>
        have hkind : Python.get job "kind" = .str "agent_dispatch" := by
          by_contra hkind
          rw [dispatchKey, if_neg hkind] at hdispatch
          cases hdispatch
        obtain ⟨hash, hhash⟩ := hclean.hashable job hline hkind fun hseen ↦ hnew (hkept _ hseen)
        rw [hhash] at hrole
        cases hrole
    | unrecorded hrole exc haudit =>
        rw [hclean.audited n] at haudit
        cases haudit
    | interrupted role hrole exc hanswer => exact absurd hanswer (hclean.uninterrupted n exc)
    | uncounted role hrole hfails exc haudit attempts =>
        rw [hclean.audited n] at haudit
        cases haudit
    | _ => exact ⟨_, rfl⟩

theorem World.Clean.processJobs {world : World} {drain : Drain}
    (hclean : world.Clean py toFloat drain) {lines : List Json}
    (hlines : ∀ line ∈ lines, line ∈ readJobs toFloat world.queue) {progress : Progress}
    (h : progress.Sound (loadState world.state).seen
      (jobKeys py (readJobs toFloat world.queue))) (n : ℕ) :
    ∃ next, Dispatcher.processJobs py drain n lines progress = .ok next ∧
      next.Sound (loadState world.state).seen (jobKeys py (readJobs toFloat world.queue)) := by
  induction lines generalizing n progress with
  | nil => exact ⟨progress, rfl, h⟩
  | cons line lines ih =>
      have hline := hlines line List.mem_cons_self
      obtain ⟨next, hjob⟩ := hclean.processJob h.kept hline n
      have hnext := h.processJob py hline hjob
      rw [Dispatcher.processJobs, hjob, Outcome.ok_bind]
      exact ih (fun other hother ↦ hlines other (List.mem_cons_of_mem line hother)) hnext (n + 1)

/-! ## Runs of drains -/

/-- What the state file keeps between drains. -/
structure World.Sound (world : World) : Prop where
  once : Once world.log
  remembered : ∀ key, .settled key ∈ world.log → key ∈ (loadState world.state).seen
  nodup : (loadState world.state).seen.Nodup

/-- A clean drain gets through the queue and saves all that it knows. -/
theorem World.Clean.exists_drain {world : World} (h : world.Sound) {drain : Drain}
    (hclean : world.Clean py toFloat drain) :
    ∃ progress, Dispatcher.processJobs py drain 0 (readJobs toFloat world.queue) world.begin =
        .ok progress ∧
      progress.Sound (loadState world.state).seen (jobKeys py (readJobs toFloat world.queue)) ∧
      (world.drain py toFloat drain).1.log = progress.log ∧
      (world.drain py toFloat drain).1.state =
        some ⟨drain.listed progress.seen, progress.attempts⟩ := by
  have hbegin : world.begin.Sound (loadState world.state).seen
      (jobKeys py (readJobs toFloat world.queue)) :=
    ⟨h.once, h.remembered, h.nodup, fun _ hkey ↦ hkey, fun _ hkey ↦ List.mem_append_left _ hkey⟩
  obtain ⟨progress, hjobs, hprogress⟩ := hclean.processJobs (fun _ hline ↦ hline) hbegin 0
  have hperm := drain.listed_perm progress.seen
  have hlength : (drain.listed progress.seen).length ≤ seenCap := by
    have hsubset : progress.seen ⊆ ((loadState world.state).seen ++
        jobKeys py (readJobs toFloat world.queue)).dedup := fun key hkey ↦
      List.mem_dedup.mpr (hprogress.known key hkey)
    rw [hperm.length_eq]
    exact (List.subperm_of_subset hprogress.nodup hsubset).length_le.trans hclean.few
  have hsaved : saveState drain progress =
      some ⟨drain.listed progress.seen, progress.attempts⟩ := by
    rw [saveState, Python.lastItems_of_length_le hlength]
  refine ⟨progress, hjobs, hprogress, ?_⟩
  rw [World.drain, hjobs, ← hsaved]
  simp only [hclean.saved]
  split_ifs
  · exact ⟨rfl, rfl⟩
  · split
    · exact ⟨rfl, rfl⟩
    · exact ⟨rfl, rfl⟩
    · exact ⟨rfl, rfl⟩

theorem World.Sound.drain {world : World} (h : world.Sound) {drain : Drain}
    (hclean : world.Clean py toFloat drain) : (world.drain py toFloat drain).1.Sound := by
  obtain ⟨progress, -, hprogress, hlog, hstate⟩ := hclean.exists_drain h
  have hperm := drain.listed_perm progress.seen
  constructor
  · rw [hlog]
    exact hprogress.once
  · rw [hlog, hstate]
    exact fun key hkey ↦ hperm.mem_iff.mpr (hprogress.remembered key hkey)
  · rw [hstate]
    exact hperm.nodup_iff.mpr hprogress.nodup

theorem run_append_singleton (actions : List Action) (action : Action) :
    World.run py toFloat (actions ++ [action]) =
      (World.run py toFloat actions).step py toFloat action :=
  List.foldl_append

theorem sound_of_clean {actions : List Action}
    (h : EachStep (fun before action ↦ (World.run py toFloat before).CleanStep py toFloat action)
      actions) :
    EachPoint (fun before ↦ (World.run py toFloat before).Sound) actions := by
  refine eachPoint_of_eachStep ⟨List.Pairwise.nil, by simp [World.run, World.start],
    List.nodup_nil⟩ ?_ h
  intro before action hbefore hclean
  rw [run_append_singleton]
  cases action with
  | append text => exact ⟨hbefore.once, hbefore.remembered, hbefore.nodup⟩
  | drain drain => exact hbefore.drain hclean

end Drains

/-! ## A line that ends the drain -/

/-- A text is put into an empty queue and then drained. -/
theorem exists_run_append (py : Stdlib) (toFloat : String → Json) (text : String) (drain : Drain) :
    ∃ start : World, start.queue = text ∧ start.state = none ∧
      (World.run py toFloat [.append text] = start ∧
        World.run py toFloat [.append text, .drain drain] = (start.drain py toFloat drain).1) ∧
      World.run py toFloat [.append text, .drain drain, .drain drain] =
        ((start.drain py toFloat drain).1.drain py toFloat drain).1 := by
  refine ⟨⟨text, none, none, [], []⟩, rfl, rfl, ?_⟩
  simp only [World.run, List.foldl_cons, List.foldl_nil, World.step, World.start,
    String.empty_append, and_self]

/-- A queue whose first line is a plain object. -/
theorem readJobs_cons (repr : Json → String) (toFloat : String → Json) {job : Job}
    (h : (Json.obj job).Plain) (rest : List Char) :
    readJobs toFloat (String.ofList (Json.asciiText repr (.obj job) ++ '\n' :: rest)) =
      .obj job :: readJobs toFloat (String.ofList rest) := by
  have hne : String.ofList (Json.asciiText repr (.obj job)) ≠ "" := fun hempty ↦
    Json.asciiText_obj_ne_nil repr job (String.ofList_eq_empty_iff.mp hempty)
  rw [readJobs, String.toList_ofList,
    Text.splitlines_append_newline (Json.isLineBreak_asciiText repr h), List.filterMap_cons,
    Json.strip_asciiText_obj]
  simp only [if_neg hne, Json.loads_asciiText repr toFloat h]
  rw [readJobs, String.toList_ofList]

def sampleStdlib : Stdlib := ⟨fun _ ↦ "", fun _ ↦ "910c4384780a9f3af1265714685736b9a6f1649ef12430d1a56bd9de7572fd0e", fun _ ↦ none⟩

def sampleJob : Job :=
  [("agent_role", .str "verifier"), ("delivery", .str "d1"), ("issue_id", .str "7f1c2a9e"),
    ("kind", .str "agent_dispatch"), ("state", .str "Agent-Executing")]

def sampleKey : String := jobKey sampleStdlib sampleJob

/-- The job, and a line after it. -/
def sampleQueue (rest : List Char) : String :=
  String.ofList (Json.asciiText (fun _ ↦ "") (.obj sampleJob) ++ '\n' :: rest)

/-- A drain in which everything goes well. -/
def sampleDrain : Drain :=
  ⟨3, fun _ ↦ .returns (.obj [("mode", .str "stage")]), fun _ ↦ none, fun _ ↦ none, id,
    fun _ ↦ .refl _, .lands, .lands⟩

theorem plain_sampleJob : (Json.obj sampleJob).Plain := by
  simp [sampleJob, Json.Plain, Json.PlainMembers]

theorem readJobs_number : readJobs Json.str (sampleQueue ['5', '\n']) = [.obj sampleJob, .int 5] := by
  rw [sampleQueue, readJobs_cons _ _ plain_sampleJob]
  rfl

theorem dispatchKey_sampleJob : dispatchKey sampleStdlib (.obj sampleJob) = some sampleKey := by
  have hkind : Python.get sampleJob "kind" = .str "agent_dispatch" := rfl
  rw [dispatchKey, if_pos hkind, sampleKey]

theorem processJob_sample {world : World} (hstate : world.state = none) {drain : Drain}
    (hdelivers : drain.Delivers 0) :
    ∃ next, processJob sampleStdlib drain 0 (.obj sampleJob) world.begin = .ok next ∧
      next.seen = [sampleKey] ∧
      next.log = world.log ++ [.invoked sampleKey, .settled sampleKey] ∧
      next.dispatchedIds = ["7f1c2a9e"] := by
  have hrole : validRole (Python.get sampleJob "agent_role") = .ok (some "verifier") := rfl
  have hbegin : world.begin.seen = [] := by
    rw [World.begin, hstate]
    rfl
  have hnew : sampleKey ∉ world.begin.seen := by
    rw [hbegin]
    exact List.not_mem_nil
  obtain ⟨next, hnext, hseen, hlog, hids⟩ := processJob_of_delivers sampleStdlib
    dispatchKey_sampleJob hnew hrole hdelivers
  rw [hbegin] at hseen
  exact ⟨next, hnext, hseen, hlog, hids⟩

theorem delivers_sampleDrain : sampleDrain.Delivers 0 := ⟨⟨_, rfl⟩, rfl⟩

theorem drain_number {world : World} (hqueue : world.queue = sampleQueue ['5', '\n'])
    (hstate : world.state = none) :
    (world.drain sampleStdlib Json.str sampleDrain).1.log =
        world.log ++ [.invoked sampleKey, .settled sampleKey] ∧
      (world.drain sampleStdlib Json.str sampleDrain).1.state = none ∧
      (world.drain sampleStdlib Json.str sampleDrain).1.queue = sampleQueue ['5', '\n'] := by
  obtain ⟨next, hnext, -, hlog, -⟩ := processJob_sample hstate delivers_sampleDrain
  rw [World.drain, hqueue, readJobs_number, processJobs, hnext, Outcome.ok_bind]
  exact ⟨hlog, hstate, rfl⟩

theorem readJobs_job : readJobs Json.str (sampleQueue []) = [.obj sampleJob] := by
  rw [sampleQueue, readJobs_cons _ _ plain_sampleJob]
  rfl

theorem clean_sample {world : World} (hqueue : world.queue = sampleQueue [])
    (hseen : (loadState world.state).seen.length ≤ 1) {drain : Drain}
    (huninterrupted : ∀ n exc, drain.answer n ≠ .interrupts exc)
    (haudited : ∀ n, drain.blockAudit n = none) (hsaved : drain.save = .lands) :
    world.Clean sampleStdlib Json.str drain := by
  constructor
  · rw [hqueue, readJobs_job]
    exact fun line hline ↦ ⟨sampleJob, List.mem_singleton.mp hline⟩
  · rw [hqueue, readJobs_job]
    intro job hjob _ _
    obtain rfl := Json.obj.inj (List.mem_singleton.mp hjob)
    exact ⟨_, rfl⟩
  · exact huninterrupted
  · exact haudited
  · exact hsaved
  · have hkeys : (jobKeys sampleStdlib [.obj sampleJob]).length ≤ 1 := List.length_filterMap_le _ _
    have hlength := (List.dedup_sublist ((loadState world.state).seen ++
      jobKeys sampleStdlib [.obj sampleJob])).length_le
    rw [hqueue, readJobs_job]
    rw [List.length_append] at hlength
    rw [seenCap]
    omega

theorem clean_sampleDrain {world : World} (hqueue : world.queue = sampleQueue [])
    (hseen : (loadState world.state).seen.length ≤ 1) :
    world.Clean sampleStdlib Json.str sampleDrain :=
  clean_sample hqueue hseen (fun _ _ hanswer ↦ by cases hanswer) (fun _ ↦ rfl) rfl

theorem drain_job {world : World} (hqueue : world.queue = sampleQueue [])
    (hstate : world.state = none) :
    (loadState (world.drain sampleStdlib Json.str sampleDrain).1.state).seen.length ≤ 1 ∧
      (world.drain sampleStdlib Json.str sampleDrain).1.queue = sampleQueue [] := by
  obtain ⟨next, hnext, hseen, -⟩ := processJob_sample hstate delivers_sampleDrain
  have hjobs : processJobs sampleStdlib sampleDrain 0
      (readJobs Json.str world.queue) world.begin = .ok next := by
    rw [hqueue, readJobs_job, processJobs, hnext, Outcome.ok_bind, processJobs]
  have hsave : sampleDrain.save = .lands := rfl
  have hbaseline : sampleDrain.baseline = .lands := rfl
  have hlisted : sampleDrain.listed next.seen = [sampleKey] := hseen
  have hlength : (loadState (saveState sampleDrain next)).seen.length ≤ 1 := by
    have hone : [sampleKey].length ≤ seenCap := by
      rw [seenCap, List.length_singleton]
      omega
    rw [saveState, hlisted, Python.lastItems_of_length_le hone, loadState, List.length_singleton]
  rw [World.drain, hjobs]
  simp only [hsave, hbaseline]
  split_ifs
  · exact ⟨hlength, hqueue⟩
  · exact ⟨hlength, hqueue⟩

end AgenticSDLC.Dispatcher
