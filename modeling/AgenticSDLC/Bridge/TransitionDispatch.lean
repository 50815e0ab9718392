import AgenticSDLC.Bridge.WebhookHandler
import AgenticSDLC.Foundations.Runs

/-!
# Which state transitions get a job

The receiver keeps the state that it last dispatched for an item, and not the state
that the item is in.  So an item that leaves for a state without a role and comes
back gets no job: a job comes with every transition that calls for one just as long
as the item's last job was for another state.
-/

namespace AgenticSDLC.Webhook

open Python (Key)
open Runs

/-- An item enters a state. -/
structure Change where
  issue : String
  state : String
  action : Json
  name : Json

/-- The change calls for a job. -/
def Change.due (change : Change) : Bool :=
  (dispatchOnState.lookup change.state).isSome &&
    !(change.action = .str "created" && change.state ∈ noDispatchOnCreate)

/-- A request, the time of its handling, and the change that it tells of. -/
structure Arrival where
  request : Request
  now : String
  change : Change

def Arrival.job (arrival : Arrival) : Job :=
  [("kind", .str "agent_dispatch"),
    ("agent_role", .str ((dispatchOnState.lookup arrival.change.state).getD "")),
    ("issue_id", .str arrival.change.issue), ("state", .str arrival.change.state),
    ("action", arrival.change.action), ("delivery", .str arrival.request.delivery),
    ("name", arrival.change.name)]

/-- The jobs that are to come of the arrival. -/
def Arrival.jobs (arrival : Arrival) : List Job :=
  if arrival.change.due then [enqueued arrival.job arrival.now] else []

section Arrivals

variable (env : Env)

/-- A signed issue event with the activity of a state change. -/
structure Arrival.Genuine (arrival : Arrival) : Prop where
  signed : verify env arrival.request.signature arrival.request.raw = .ok true
  event : arrival.request.event = "issue"
  named : arrival.change.issue ≠ ""
  payload : ∃ payload data activity, body env arrival.request = some (.obj payload) ∧
    Python.get payload "action" = arrival.change.action ∧
    Python.get payload "activity" = .obj activity ∧
    Python.get activity "field" = .str "state" ∧
    Python.get payload "data" = .obj data ∧
    Python.get data "id" = .str arrival.change.issue ∧
    (Python.get data "state" = .str arrival.change.state ∨
      ∃ sv, Python.get data "state" = .obj sv ∧
        Python.get sv "name" = .str arrival.change.state) ∧
    Python.get data "name" = arrival.change.name

def World.run (arrivals : List Arrival) : World :=
  arrivals.foldl (fun world arrival ↦ world.handle env .fine arrival.request arrival.now)
    (.load ⟨[], [], []⟩)

variable {env}

theorem World.run_append_singleton (arrivals : List Arrival) (arrival : Arrival) :
    World.run env (arrivals ++ [arrival]) =
      (World.run env arrivals).handle env .fine arrival.request arrival.now :=
  List.foldl_append

theorem member_eq {members value : List (String × Json)} {key name : String} {text : Json}
    (h : Python.get members key = .obj value) (hname : Python.get value name = text)
    (htext : text ≠ .null) : member members key = .obj value := by
  have hne : value ≠ [] := by
    rintro rfl
    exact htext hname.symm
  have htruthy : Python.truthy (.obj value) = true := by simpa [Python.truthy] using hne
  rw [member, h]
  exact if_pos htruthy

/-- What the receiver makes of a genuine arrival. -/
theorem Arrival.Genuine.routing_eq {arrival : Arrival} (h : arrival.Genuine env) :
    ∃ payload, body env arrival.request = some payload ∧
      routing arrival.request.event payload arrival.request.delivery =
        .ok (if arrival.change.due then
          .dispatch (.str arrival.change.issue) arrival.change.state arrival.job else .nothing) := by
  obtain ⟨payload, data, activity, hbody, haction, hactivity, hfield, hdata, hid, hstate, hname⟩ :=
    h.payload
  refine ⟨_, hbody, ?_⟩
  have hdata' : member payload "data" = .obj data := member_eq hdata hid (by simp)
  have htransition : isStateTransition payload = .ok (some true) := by
    rw [isStateTransition, member_eq hactivity hfield (by simp)]
    simp only [Python.asDict, Outcome.ok_bind, hfield]
    simp
    rfl
  have hstateName : stateNameOf data = .str arrival.change.state := by
    rcases hstate with hplain | ⟨sv, hsv, hsvname⟩
    · rw [stateNameOf, hplain]
    · rw [stateNameOf, hsv]
      exact hsvname
  have htruthy : Python.truthy (.str arrival.change.issue) = true := by
    simpa [Python.truthy] using h.named
  have hrole : roleOf (.str arrival.change.state) =
      .ok ((dispatchOnState.lookup arrival.change.state).map fun role ↦
        (arrival.change.state, role)) := rfl
  rw [routing]
  simp only [Python.asDict, Outcome.ok_bind, h.event, if_pos, hdata', hid, hstateName, hrole]
  cases hlookup : dispatchOnState.lookup arrival.change.state with
  | none => simp [Change.due, hlookup]; rfl
  | some role =>
      simp only [Option.map_some, htransition, Outcome.ok_bind, haction, htruthy]
      have hdue : arrival.change.due = true ↔
          ¬(arrival.change.action = .str "created" ∧
            arrival.change.state ∈ noDispatchOnCreate) := by
        simp [Change.due, hlookup, imp_iff_not_or]
      rw [if_neg (not_not.mpr trivial), if_neg (by simp)]
      by_cases hcreated : arrival.change.action = .str "created" ∧
          arrival.change.state ∈ noDispatchOnCreate
      · rw [if_pos hcreated, if_neg fun h ↦ hdue.mp h hcreated]
        rfl
      · rw [if_neg hcreated, if_pos (hdue.mpr hcreated), Arrival.job, hlookup, ← hname]
        rfl

/-! ## Runs -/

/-- The state of the item's last change that called for a job. -/
def lastDispatched (before : List Arrival) (issue : String) : Option String :=
  (before.filter fun arrival ↦ arrival.change.issue = issue && arrival.change.due).getLast?.map
    fun arrival ↦ arrival.change.state

theorem lastDispatched_append_singleton (before : List Arrival) (arrival : Arrival)
    (issue : String) :
    lastDispatched (before ++ [arrival]) issue =
      if arrival.change.issue = issue ∧ arrival.change.due = true then some arrival.change.state
      else lastDispatched before issue := by
  by_cases h : arrival.change.issue = issue ∧ arrival.change.due = true
  · simp [lastDispatched, List.filter_append, h]
  · have hskip : (decide (arrival.change.issue = issue) && arrival.change.due) = false := by
      simpa using h
    simp [lastDispatched, List.filter_append, hskip, h]

/-- The receiver has remembered the arrivals, and the last dispatched states with them. -/
structure World.Follows (world : World) (before : List Arrival) : Prop where
  seen : ∀ id ∈ world.seen, id ∈ before.map fun arrival ↦ arrival.request.delivery
  dispatched : ∀ issue, world.dispatched.lookup (.str issue) = lastDispatched before issue

/-- The item comes back to the state that it was last dispatched in. -/
def Returns (before : List Arrival) (arrival : Arrival) : Prop :=
  arrival.change.due = true ∧
    lastDispatched before arrival.change.issue = some arrival.change.state

instance (before : List Arrival) (arrival : Arrival) : Decidable (Returns before arrival) :=
  inferInstanceAs (Decidable (_ ∧ _))

theorem World.Follows.accepted {world : World} {before : List Arrival} (h : world.Follows before)
    (arrival : Arrival) :
    ∀ id ∈ (world.accepted arrival.request.delivery).seen,
      id ∈ (before ++ [arrival]).map fun earlier ↦ earlier.request.delivery := by
  intro id hid
  rw [List.map_append, List.mem_append]
  rcases World.mem_seen_accepted hid with hold | rfl
  · exact Or.inl (h.seen id hold)
  · exact Or.inr List.mem_cons_self

theorem World.Follows.handle {world : World} {before : List Arrival} (h : world.Follows before)
    {arrival : Arrival} (hgenuine : arrival.Genuine env)
    (hnew : arrival.request.delivery ∉ before.map fun earlier ↦ earlier.request.delivery) :
    let next := world.handle env .fine arrival.request arrival.now
    next.Follows (before ++ [arrival]) ∧
      next.files.queue = world.files.queue ++
        if Returns before arrival then [] else arrival.jobs := by
  obtain ⟨payload, hbody, hrouting⟩ := hgenuine.routing_eq
  have hunseen : ¬(arrival.request.delivery ≠ "" ∧ arrival.request.delivery ∈ world.seen) :=
    fun hseen ↦ hnew (h.seen _ hseen.2)
  have hseen := h.accepted arrival
  have hlast := lastDispatched_append_singleton before arrival
  rw [handle_fine hgenuine.signed hbody hrouting hunseen]
  by_cases hdue : arrival.change.due = true
  · rw [if_pos hdue]
    by_cases hreturns : Returns before arrival
    · have hsame : (world.accepted arrival.request.delivery).dispatched.lookup
          (.str arrival.change.issue) = some arrival.change.state :=
        (h.dispatched _).trans hreturns.2
      rw [Routing.perform, if_pos hsame, if_pos hreturns]
      refine ⟨⟨hseen, fun issue ↦ ?_⟩, by simp⟩
      rw [World.dispatched_accepted, h.dispatched, hlast]
      split_ifs with hissue
      · rw [← hissue.1, hreturns.2]
      · rfl
    · have hother : ¬(world.accepted arrival.request.delivery).dispatched.lookup
          (.str arrival.change.issue) = some arrival.change.state :=
        fun hsame ↦ hreturns ⟨hdue, (h.dispatched _).symm.trans hsame⟩
      rw [Routing.perform, if_neg hother, if_neg hreturns]
      refine ⟨⟨hseen, fun issue ↦ ?_⟩, ?_⟩
      · simp only [World.dispatched_accepted, Dict.lookup_set, h.dispatched, hlast, Key.str.injEq,
          hdue, and_true, eq_comm]
      · simp [Arrival.jobs, hdue]
  · rw [if_neg hdue, if_neg fun hreturns ↦ hdue hreturns.1]
    refine ⟨⟨hseen, fun issue ↦ ?_⟩, by simp [Routing.perform, Arrival.jobs, hdue]⟩
    rw [hlast, if_neg fun hissue ↦ hdue hissue.2]
    exact h.dispatched issue

/-- The arrivals are genuine, and no delivery comes twice. -/
structure Genuine (env : Env) (arrivals : List Arrival) : Prop where
  each : ∀ arrival ∈ arrivals, arrival.Genuine env
  distinct : (arrivals.map fun arrival ↦ arrival.request.delivery).Nodup

theorem Genuine.of_append {before after : List Arrival} (h : Genuine env (before ++ after)) :
    Genuine env before := by
  refine ⟨fun arrival harrival ↦ h.each arrival (List.mem_append_left _ harrival), ?_⟩
  have hdistinct := h.distinct
  rw [List.map_append] at hdistinct
  exact hdistinct.of_append_left

theorem Genuine.notMem {before after : List Arrival} {arrival : Arrival}
    (h : Genuine env (before ++ arrival :: after)) :
    arrival.request.delivery ∉ before.map fun earlier ↦ earlier.request.delivery := by
  have hdistinct := h.distinct
  rw [List.map_append, List.map_cons, List.nodup_append] at hdistinct
  exact fun hmem ↦ hdistinct.2.2 _ hmem _ List.mem_cons_self rfl

theorem follows_run {arrivals : List Arrival} (h : Genuine env arrivals) :
    (World.run env arrivals).Follows arrivals := by
  induction arrivals using List.reverseRecOn with
  | nil => exact ⟨by simp [World.run, World.load], fun _ ↦ rfl⟩
  | append_singleton before arrival ih =>
      rw [World.run_append_singleton]
      exact ((ih h.of_append).handle (h.each arrival (by simp)) h.notMem).1

theorem Genuine.queue_iff {before after : List Arrival} {arrival : Arrival}
    (h : Genuine env (before ++ arrival :: after)) :
    (World.run env (before ++ [arrival])).files.queue =
        (World.run env before).files.queue ++ arrival.jobs ↔ ¬Returns before arrival := by
  have hqueue := ((follows_run h.of_append).handle (h.each arrival (by simp)) h.notMem).2
  rw [World.run_append_singleton, hqueue, List.append_cancel_left_eq]
  by_cases hreturns : Returns before arrival
  · simp [hreturns, Arrival.jobs, hreturns.1]
  · simp [hreturns]

/-- Every change gets the jobs that it calls for, if and only if no item comes back to
the state that it was last dispatched in. -/
theorem dispatched_once_iff {arrivals : List Arrival} (h : Genuine env arrivals) :
    EachStep (fun before arrival ↦ (World.run env (before ++ [arrival])).files.queue =
        (World.run env before).files.queue ++ arrival.jobs) arrivals ↔
      EachStep (fun before arrival ↦ ¬Returns before arrival) arrivals := by
  constructor
  · rintro hjobs before arrival after rfl
    exact h.queue_iff.mp (hjobs before arrival after rfl)
  · rintro hfresh before arrival after rfl
    exact h.queue_iff.mpr (hfresh before arrival after rfl)

end Arrivals

/-! ## The retry of a blocked item -/

/-- The payload of an item's change of state. -/
def changePayload (state : String) : Json :=
  .obj [("action", .str "updated"), ("activity", .obj [("field", .str "state")]),
    ("data", .obj [("id", .str "7f1c2a9e"), ("name", .str "Export report"),
      ("state", .obj [("name", .str state)])])]

def changeRaw (state : String) : String := Json.asciiDumps (fun _ ↦ "") (changePayload state)

/-- The digests of the two bodies under the secret. -/
def sampleHmac (_ raw : String) : String :=
  if raw = changeRaw "Blocked" then
    "6ee49070e1d4fa388e07cf607d028dfa5fe7875a109103e005f38b3a3ba9cce0"
  else "ffe4bae3bdf9884e828a6c72e843ce98989e5b7db19152fb60155c7e1a86c558"

def sampleEnv : Env := ⟨"topsecret", false, sampleHmac, Json.str, fun _ ↦ ""⟩

/-- The item enters the state, in a delivery of its own. -/
def enters (state delivery : String) : Arrival :=
  ⟨⟨sampleHmac "topsecret" (changeRaw state), delivery, "issue", changeRaw state⟩,
    "2026-01-05T09:00:00Z", ⟨"7f1c2a9e", state, .str "updated", .str "Export report"⟩⟩

theorem loads_changeRaw (state : String) :
    Json.loads Json.str (changeRaw state) = some (changePayload state) := by
  have hsorted : (changePayload state).sortKeys = changePayload state := by
    simp [changePayload, Python.sortedBy, List.insertionSort]
  have hplain : (changePayload state).sortKeys.Plain := by
    rw [hsorted]
    simp [changePayload, Json.Plain, Json.PlainMembers]
  rw [changeRaw, Json.loads_asciiDumps _ _ hplain, hsorted]

theorem verify_enters (state delivery : String) :
    verify sampleEnv (enters state delivery).request.signature (enters state delivery).request.raw =
      .ok true := by
  simp only [enters]
  by_cases h : changeRaw state = changeRaw "Blocked"
  · simp [verify, sampleEnv, sampleHmac, h, Text.isAscii]
  · simp [verify, sampleEnv, sampleHmac, h, Text.isAscii]

theorem genuine_enters (state delivery : String) : (enters state delivery).Genuine sampleEnv := by
  refine ⟨verify_enters state delivery, rfl, by simp [enters], ?_⟩
  have hraw : changeRaw state ≠ "" := by
    intro h
    have hloads := loads_changeRaw state
    have hempty : Json.loads Json.str "" = none := rfl
    rw [h, hempty] at hloads
    cases hloads
  have hbody : body sampleEnv (enters state delivery).request = some (changePayload state) := by
    rw [body, enters, if_neg hraw]
    exact loads_changeRaw state
  refine ⟨_, _, _, hbody, rfl, rfl, rfl, rfl, rfl, Or.inr ⟨_, rfl, rfl⟩, rfl⟩

theorem genuine_sample : Genuine sampleEnv [enters "Agent-Executing" "d1", enters "Blocked" "d2",
    enters "Agent-Executing" "d3"] := by
  refine ⟨fun arrival harrival ↦ ?_, by simp [enters]⟩
  simp only [List.mem_cons, List.not_mem_nil, or_false] at harrival
  rcases harrival with rfl | rfl | rfl
  all_goals exact genuine_enters _ _

/-- The recovery of a blocked item gets no job. -/
theorem recovery_not_dispatched :
    Genuine sampleEnv [enters "Agent-Executing" "d1", enters "Blocked" "d2",
        enters "Agent-Executing" "d3"] ∧
      ¬EachStep (fun before arrival ↦ (World.run sampleEnv (before ++ [arrival])).files.queue =
          (World.run sampleEnv before).files.queue ++ arrival.jobs)
        [enters "Agent-Executing" "d1", enters "Blocked" "d2", enters "Agent-Executing" "d3"] := by
  refine ⟨genuine_sample, fun hjobs ↦ ?_⟩
  have hlast := hjobs [enters "Agent-Executing" "d1", enters "Blocked" "d2"]
    (enters "Agent-Executing" "d3") [] rfl
  have hgenuine : Genuine sampleEnv ([enters "Agent-Executing" "d1", enters "Blocked" "d2"] ++
      enters "Agent-Executing" "d3" :: []) := genuine_sample
  apply hgenuine.queue_iff.mp hlast
  simp [Returns, Change.due, lastDispatched, enters, dispatchOnState, noDispatchOnCreate]

theorem dispatched_once_sample :
    EachStep (fun before arrival ↦ (World.run sampleEnv (before ++ [arrival])).files.queue =
        (World.run sampleEnv before).files.queue ++ arrival.jobs)
      [enters "Agent-Executing" "d1", enters "Blocked" "d2"] := by
  have hgenuine : Genuine sampleEnv ([enters "Agent-Executing" "d1", enters "Blocked" "d2"] ++
      [enters "Agent-Executing" "d3"]) := genuine_sample
  apply (dispatched_once_iff hgenuine.of_append).mpr
  refine eachStep_cons.mpr ⟨?_, eachStep_cons.mpr ⟨?_, eachStep_nil _⟩⟩
  · simp [Returns, lastDispatched]
  · simp [Returns, Change.due, enters, dispatchOnState]

end AgenticSDLC.Webhook
