import AgenticSDLC.Bus.Delivery

/-!
# Every handler handles every event once

In a run whose handlers return, a registered handler is called once on each event
emitted after its registration, as long as no two deliveries share a delivery id,
no two clients are at one event, and a known id comes with its known name.  The
delivery id is made of the qualified name, which two functions can share.
-/

namespace AgenticSDLC.EventBus

open Python (Exception)
open Runs

/-- No handler raises, no registration ends, and no process ends. -/
def Action.isPlain {Client : Type} : Action Client → Bool
  | .unsubscribe .. | .resume | .answer _ (.error _) _ => false
  | _ => true

namespace World

variable {Client : Type} {repr : Json → String}

/-! ## At least once -/

/-- An emit of an id that is in the log carries the name of the logged event. -/
def KeepsName (world : World Client) (action : Action Client) : Prop :=
  ∀ event now members found, action = .emit event now → Bus.checkEvent event = .ok members →
    found ∈ world.bus.log →
      Python.eq (eventId found) (eventId (Bus.stamped members (world.seq + 1) now)) = true →
        eventName found = eventName members

/-- The id under which `emit` stores the event, or finds it stored. -/
def storedId (world : World Client) (members : Event) (now : String) : Json :=
  eventId (world.bus.emit members (world.seq + 1) now).1

/-- Every handler that is registered for the event when it is emitted has been called
once on it in the world `after`. -/
def HandledOnce (before after : World Client) : Action Client → Prop
  | .emit event now => ∀ members, Bus.checkEvent event = .ok members →
      ∀ handler ∈ before.bus.handlersFor members,
        after.invoked.count (handler, before.storedId members now) = 1
  | _ => True

theorem eventName_stamped (members : Event) (n : ℕ) (now : String) :
    eventName (Bus.stamped members n now) = eventName members := by
  simp [eventName, Bus.stamped, Python.getD, Dict.lookup_setDefault]

/-- An emitted event is in the log and the queue, under the handlers of its name. -/
theorem queued_emit {world : World Client} {event : Json} {members : Event} {now : String}
    (hcheck : Bus.checkEvent event = .ok members)
    (hname : world.KeepsName (.emit event now)) :
    ∃ stored ∈ (world.emit event now).bus.log, eventId stored = world.storedId members now ∧
      eventName stored = eventName members ∧ (world.emit event now).Queued stored := by
  simp only [emit, hcheck, storedId, Bus.emit]
  cases hindex : world.bus.indexOf (eventId (Bus.stamped members (world.seq + 1) now)) with
  | none =>
      refine ⟨_, List.mem_append_right _ (List.mem_singleton_self _), rfl,
        eventName_stamped members _ now, world.bus.log.length, by simp, by simp⟩
  | some index =>
      obtain ⟨hlt, hid, -⟩ := List.findIdx?_eq_some_iff_getElem.mp hindex
      have hlog : world.bus.log[index]? = some world.bus.log[index] :=
        List.getElem?_eq_getElem hlt
      refine ⟨world.bus.log[index], List.getElem_mem hlt, by simp [hlog], ?_, index, by simp, hlog⟩
      exact hname event now members _ rfl hcheck (List.getElem_mem hlt) hid

theorem handlers_emit (world : World Client) (event : Json) (now : String) :
    (world.emit event now).bus.handlers = world.bus.handlers := by
  have hemits := emits world event now
  generalize world.emit event now = next at hemits ⊢
  cases hemits <;> rfl

/-- A call that returned is the only thing that can have set the mark of a delivery. -/
theorem Watched.of_queued {world : World Client} (hsound : world.Sound repr)
    (hwitnessed : world.Witnessed) (hapart : world.Apart repr) {event : Event} {handler : Handler}
    (hlogged : event ∈ world.bus.log) (hregistered : handler ∈ world.bus.handlersFor event)
    (hqueued : world.Queued event) : Watched repr world 0 event handler where
  length := Nat.zero_le _
  logged := hlogged
  registered := hregistered
  marked hmark := by
    obtain ⟨⟨other, id⟩, hcall, htext⟩ := hsound.bus.marks _ hmark
    obtain ⟨rfl, rfl⟩ := hapart other handler id (eventId event) (.handled hcall)
      (.registered event hlogged rfl hregistered) htext
    exact hwitnessed.handled hcall
  running client other hcurrent hid := by
    have hcall := hwitnessed.running client (handler, other) hcurrent
    rw [observed, hid] at hcall
    exact hcall
  due := Or.inr (Or.inl hqueued)

theorem not_disturbs_of_isPlain (world : World Client) {event : Event} {handler : Handler}
    {action : Action Client} (h : action.isPlain = true) :
    ¬world.Disturbs event handler action := by
  cases action with
  | answer client result now =>
      cases result with
      | ok value => exact id
      | error exc => cases h
  | unsubscribe | resume => cases h
  | _ => exact id

/-! ## At most once -/

/-- No call is made twice, and each is in progress or marked. -/
structure Once (repr : Json → String) (world : World Client) : Prop where
  nodup : world.invoked.Nodup
  settled : ∀ call ∈ world.invoked,
    (world.bus.delivered.lookup (deliveryId repr call.2 call.1)).isSome = true ∨
      ∃ client event, (world.deliveries client).current = some (call.1, event) ∧
        eventId event = call.2

theorem once_initial (heap : Heap) : Once repr (initial heap : World Client) :=
  ⟨List.nodup_nil, by simp [initial]⟩

variable [DecidableEq Client]

theorem Once.enter {world : World Client} (h : Once repr world) {client : Client}
    {next : Delivery} (hcurrent : (world.deliveries client).current = none) :
    Once repr (world.enter client next) := by
  refine ⟨h.nodup, fun call hcall ↦ (h.settled call hcall).imp id ?_⟩
  rintro ⟨other, event, hrunning, hid⟩
  have hclient : other ≠ client := by
    rintro rfl
    rw [hcurrent] at hrunning
    cases hrunning
  exact ⟨other, event, by rwa [deliveries_enter_ne _ hclient], hid⟩

theorem Once.deliver {world : World Client} (hexclusive : Exclusive repr world)
    (h : Once repr world) (client : Client) : Once repr (world.deliver repr client) := by
  have hdelivers := delivers repr world client
  generalize world.deliver repr client = next at hdelivers ⊢
  cases hdelivers with
  | turns next hnext hremaining hcurrent => exact h.enter hcurrent
  | skips next index queue hnext hevent =>
      have hpopped : Once repr (world.withQueue queue) := ⟨h.nodup, h.settled⟩
      exact hpopped.enter (current_eq_none hevent)
  | takes receipts index queue event hlooping =>
      have hpopped : Once repr (world.withQueue queue) := ⟨h.nodup, h.settled⟩
      exact hpopped.enter (current_eq_none (by simp [withQueue, hlooping, Delivery.event]))
  | passes receipts more event handler remaining hhandling =>
      exact h.enter (by rw [hhandling]; rfl)
  | calls receipts event handler remaining hhandling hdelivered =>
      have hcurrent : (world.deliveries client).current = none := by rw [hhandling]; rfl
      have hfresh : (handler, eventId event) ∉ world.invoked := by
        intro hmem
        rcases h.settled _ hmem with hmarked | ⟨other, taken, hrunning, hid⟩
        · rw [Bus.isDelivered] at hdelivered
          rw [hmarked] at hdelivered
          cases hdelivered
        · have hsame := hexclusive.alone other client taken event (event_of_current hrunning)
            (by rw [hhandling]; rfl) hid
          rw [hsame, hcurrent] at hrunning
          cases hrunning
      have hentered : Once repr (world.enter client (.invoking receipts event handler remaining)) :=
        h.enter hcurrent
      refine ⟨h.nodup.append (List.nodup_singleton _) (by simpa using hfresh), fun call hcall ↦ ?_⟩
      rcases List.mem_append.mp hcall with hold | hnew
      · exact hentered.settled call hold
      · rw [List.mem_singleton.mp hnew]
        refine Or.inr ⟨client, event, ?_, rfl⟩
        simp [World.enter, Delivery.current]
  | waits => exact h

theorem Once.answer {world : World Client} (h : Once repr world) (client : Client)
    {result : Except Exception Unit} {now : String}
    (hplain : (Action.answer client result now).isPlain = true) :
    Once repr (world.answer repr client result now) := by
  have hanswers := answers repr world client result now
  generalize world.answer repr client result now = next at hanswers ⊢
  cases hanswers with
  | returns receipts more event handler remaining hinvoking =>
      refine ⟨h.nodup, fun call hcall ↦ ?_⟩
      rcases h.settled call hcall with hmarked | ⟨other, taken, hrunning, hid⟩
      · left
        simp only [Dict.lookup_set]
        split_ifs
        · rfl
        · exact hmarked
      · by_cases hclient : other = client
        · left
          subst hclient
          rw [hinvoking] at hrunning
          obtain ⟨hhandler, rfl⟩ := Prod.mk.inj (Option.some.inj hrunning)
          simp [Dict.lookup_set, hhandler, hid]
        · right
          exact ⟨other, taken, by simpa [World.enter, Function.update_of_ne hclient] using hrunning,
            hid⟩
  | raises receipts event handler remaining exc hinvoking hresult =>
      rw [hresult] at hplain
      cases hplain
  | idles => exact h

theorem Once.step {world : World Client} (hexclusive : Exclusive repr world)
    (h : Once repr world) {action : Action Client} (hplain : action.isPlain = true) :
    Once repr (world.step repr action) := by
  have haside : action.isAside = true → Once repr (world.step repr action) := by
    intro hactionAside
    obtain ⟨-, hdelivered, -, hdeliveries, hinvoked, -⟩ :=
      sameDeliveries_step repr world hactionAside
    refine ⟨hinvoked ▸ h.nodup, ?_⟩
    simpa only [hinvoked, hdelivered, hdeliveries] using h.settled
  cases action with
  | emit event now =>
      have hemits := emits world event now
      simp only [World.step]
      generalize world.emit event now = next at hemits ⊢
      cases hemits <;> exact ⟨h.nodup, h.settled⟩
  | deliver client => exact h.deliver hexclusive client
  | answer client result now => exact h.answer client hplain
  | resume => cases hplain
  | _ => exact haside rfl

theorem Once.run {world : World Client} (h : Once repr world) {actions : List (Action Client)}
    (hplain : EachStep (fun _ action ↦ Action.isPlain action = true) actions)
    (hexclusive : EachPoint (fun before ↦ Exclusive repr (world.run repr before)) actions) :
    Once repr (world.run repr actions) := by
  refine eachPoint_of_eachStep (I := fun before ↦ Once repr (world.run repr before))
    (P := fun before action ↦ Exclusive repr (world.run repr before) ∧ action.isPlain = true)
    h ?_ ?_ actions List.prefix_rfl
  · intro before action honce hconditions
    rw [run_append_singleton]
    exact honce.step hconditions.1 hconditions.2
  · intro before action after hactions
    exact ⟨hexclusive before ⟨action :: after, hactions.symm⟩, hplain before action after hactions⟩

/-! ## Exactly once -/

/-- In a run in which no handler raises and no registration ends, a handler is called
exactly once on every event that is emitted after its registration. -/
theorem handled_exactly_once (heap : Heap) (actions : List (Action Client))
    (hplain : EachStep (fun _ action ↦ Action.isPlain action = true) actions)
    (hdrained : ((initial heap).run repr actions).Drained)
    (hapart : EachPoint (fun before ↦ ((initial heap).run repr before).Apart repr) actions)
    (halone : EachStep (fun before action ↦ ((initial heap).run repr before).TakesAlone action)
      actions)
    (hname : EachStep (fun before action ↦ ((initial heap).run repr before).KeepsName action)
      actions) :
    EachStep (fun before action ↦ ((initial heap).run repr before).HandledOnce
      ((initial heap).run repr actions) action) actions := by
  have honce : Once repr ((initial heap).run repr actions) :=
    (once_initial heap).run hplain ((exclusive_initial heap).run hapart halone)
  intro before action after hactions
  cases action with
  | emit event now =>
      intro members hcheck handler hhandler
      have hstep : (initial heap).run repr (before ++ [.emit event now]) =
          ((initial heap).run repr before).emit event now := run_append_singleton ..
      have hwhole : ((initial heap).run repr (before ++ [.emit event now])).run repr after =
          (initial heap).run repr actions := by
        rw [← run_append, hactions, List.append_assoc, List.singleton_append]
      obtain ⟨stored, hlogged, hid, hstored, hqueued⟩ :=
        queued_emit hcheck (hname before _ after hactions)
      have hregistered : handler ∈
          (((initial heap).run repr before).emit event now).bus.handlersFor stored := by
        rw [Bus.handlersFor, hstored]
        simpa only [Bus.handlersFor, Bus.handlersNamed, handlers_emit] using hhandler
      have hwatched : Watched repr ((initial heap).run repr (before ++ [.emit event now])) 0 stored
          handler := by
        have hhere : ((initial heap).run repr (before ++ [.emit event now])).Apart repr :=
          hapart _ ⟨after, by simp [hactions]⟩
        have hsound : ((initial heap).run repr (before ++ [.emit event now])).Sound repr :=
          (sound_initial heap).run _
        have hwitnessed : ((initial heap).run repr (before ++ [.emit event now])).Witnessed :=
          (witnessed_initial heap).run _
        rw [hstep] at hhere hsound hwitnessed ⊢
        exact .of_queued hsound hwitnessed hhere hlogged hregistered hqueued
      have hcalled : Watched repr ((initial heap).run repr actions) 0 stored handler := by
        rw [← hwhole]
        apply hwatched.run
        · intro more hmore
          rw [← run_append]
          exact hapart _ (by
            obtain ⟨rest, rfl⟩ := hmore
            exact ⟨rest, by simp [hactions]⟩)
        · intro more call rest hafter
          refine not_disturbs_of_isPlain _ (hplain (before ++ .emit event now :: more) call rest ?_)
          rw [hactions, hafter]
          simp
      have hmem := hcalled.calledSince hdrained
      rw [CalledSince, List.drop_zero, hid] at hmem
      exact List.count_eq_one_of_mem honce.nodup hmem
  | _ => trivial

end World

section Sample

/-- A function defined inside another, whose code reads the same for each of its closures. -/
def closure (identity : ℕ) : Handler := ⟨identity, "watch.<locals>.note", "note", "app", ""⟩

/-- Two closures of one function are registered, and one event is emitted and delivered. -/
def shadowingRun : List (Action Unit) :=
  [.on "task.created" (closure 1), .on "task.created" (closure 2), .emit created "now",
    .deliver (), .deliver (), .deliver (), .answer () (.ok ()) "now", .deliver (), .deliver (),
    .deliver ()]

theorem closure_shadowed :
    EachStep (fun _ action ↦ Action.isPlain action = true) shadowingRun ∧
      ((World.initial noHeap).run (fun _ ↦ "") shadowingRun).Drained ∧
      ¬EachStep (fun before action ↦ ((World.initial noHeap).run (fun _ ↦ "") before).HandledOnce
        ((World.initial noHeap).run (fun _ ↦ "") shadowingRun) action) shadowingRun := by
  refine ⟨?_, ⟨by decide, fun _ ↦ rfl⟩, fun honce ↦ ?_⟩
  · simp [shadowingRun, eachStep_cons, Action.isPlain]
  · have hcount := honce [.on "task.created" (closure 1), .on "task.created" (closure 2)]
      (.emit created "now") _ rfl _ rfl (closure 2) (by decide)
    revert hcount
    decide

/-- Two functions of different names are registered, and one event is emitted twice. -/
def watchingRun : List (Action Unit) :=
  [.on "task.created" (named "bill"), .on "task.created" (named "notify"), .emit created "now",
    .emit created "now", .deliver (), .deliver (), .deliver (), .answer () (.ok ()) "now",
    .deliver (), .answer () (.ok ()) "now", .deliver (), .deliver (), .deliver (), .deliver (),
    .deliver (), .deliver ()]

theorem handled_exactly_once_sample :
    EachStep (fun before action ↦ ((World.initial noHeap).run (fun _ ↦ "") before).HandledOnce
      ((World.initial noHeap).run (fun _ ↦ "") watchingRun) action) watchingRun := by
  refine World.handled_exactly_once noHeap watchingRun ?_ ⟨by decide, fun _ ↦ rfl⟩ ?_ ?_ ?_
  · simp [watchingRun, eachStep_cons, Action.isPlain]
  · exact World.eachPoint_apart noHeap _ [(named "bill", .str "t-1"), (named "notify", .str "t-1")]
      (by decide) (by decide)
  · exact fun before action _ _ ↦ World.takesAlone_of_subsingleton _ action
  · have hnames : ∀ before ∈ watchingRun.inits,
        ∀ found ∈ ((World.initial noHeap).run (fun _ ↦ "") before).bus.log,
          eventName found = .str "task.created" := by
      decide
    have hemitted : ∀ event now, .emit event now ∈ watchingRun → event = created := by
      simp [watchingRun]
    rintro before _ after hactions event now members found rfl hcheck hfound -
    obtain rfl := hemitted event now (by simp [hactions])
    obtain rfl := Except.ok.inj hcheck
    exact hnames before ((List.mem_inits before _).mpr ⟨_, hactions.symm⟩) found hfound

end Sample

end AgenticSDLC.EventBus
