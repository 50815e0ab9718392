import AgenticSDLC.Bus.Delivery

/-!
# Retries

A handler that raises keeps its delivery unmarked, but its entry has left the queue
before the handler was called.  So the delivery is tried again exactly when another
entry of the same event is still queued.
-/

namespace AgenticSDLC.EventBus

open Python (Exception)
open Runs

namespace World

variable {Client : Type} {repr : Json → String}

/-- Nothing is left to do for the event, and nobody was called on it since the
first `k` calls. -/
structure Dropped (world : World Client) (k : ℕ) (event : Event) : Prop where
  length : k ≤ world.invoked.length
  logged : event ∈ world.bus.log
  unqueued : ¬world.Queued event
  free : ∀ client, (world.deliveries client).event ≠ some event
  uncalled : ∀ handler, ¬world.CalledSince k handler (eventId event)

/-- The action emits the event once more. -/
def Reemits (world : World Client) (event : Event) : Action Client → Prop
  | .emit emitted now => ∃ members, Bus.checkEvent emitted = .ok members ∧
      Python.eq (eventId event) (eventId (Bus.stamped members (world.seq + 1) now)) = true
  | _ => False

theorem Dropped.emit {world : World Client} {k : ℕ} {event : Event}
    (h : world.Dropped k event) {emitted : Json} {now : String}
    (hother : ¬world.Reemits event (.emit emitted now)) :
    (world.emit emitted now).Dropped k event := by
  have hemits := emits world emitted now
  generalize world.emit emitted now = next at hemits ⊢
  cases hemits with
  | refuses => exact h
  | stores members hcheck hnew =>
      refine ⟨h.length, List.mem_append_left _ h.logged, ?_, h.free, h.uncalled⟩
      rintro ⟨index, hindex, hlog⟩
      rcases List.mem_append.mp hindex with hold | hlast
      · by_cases hlt : index < world.bus.log.length
        · rw [List.getElem?_append_left hlt] at hlog
          exact h.unqueued ⟨index, hold, hlog⟩
        · rw [List.getElem?_append_right (Nat.le_of_not_lt hlt)] at hlog
          have hstored := List.mem_singleton.mp (List.mem_of_getElem? hlog)
          have hdistinct := hnew event h.logged
          rw [hstored, Python.eq_self] at hdistinct
          cases hdistinct
      · rw [List.mem_singleton.mp hlast, List.getElem?_concat_length] at hlog
        have hdistinct := hnew event h.logged
        rw [Option.some.inj hlog, Python.eq_self] at hdistinct
        cases hdistinct
  | finds members index found hcheck hlog hid =>
      refine ⟨h.length, h.logged, ?_, h.free, h.uncalled⟩
      rintro ⟨other, hindex, hfound⟩
      rcases List.mem_append.mp hindex with hold | hlast
      · exact h.unqueued ⟨other, hold, hfound⟩
      · rw [List.mem_singleton.mp hlast] at hfound
        obtain rfl := Option.some.inj (hlog.symm.trans hfound)
        exact hother ⟨members, hcheck, hid⟩

theorem Dropped.pop {world : World Client} {k : ℕ} {event : Event} (h : world.Dropped k event)
    {index : ℕ} {queue : List ℕ} (hqueue : world.bus.queue = index :: queue) :
    (world.withQueue queue).Dropped k event :=
  ⟨h.length, h.logged, fun ⟨other, hother, hlog⟩ ↦
    h.unqueued ⟨other, hqueue ▸ List.mem_cons_of_mem _ hother, hlog⟩, h.free, h.uncalled⟩

variable [DecidableEq Client]

theorem Dropped.enter {world : World Client} {k : ℕ} {event : Event} (h : world.Dropped k event)
    {client : Client} {next : Delivery} (hnext : next.event ≠ some event) :
    (world.enter client next).Dropped k event :=
  ⟨h.length, h.logged, h.unqueued, fun other hother ↦
    (event_enter hother).elim (fun hfound ↦ hnext hfound.2) (h.free other), h.uncalled⟩

theorem Dropped.deliver {world : World Client} (hsound : world.Sound repr) {k : ℕ} {event : Event}
    (h : world.Dropped k event) (client : Client) :
    (world.deliver repr client).Dropped k event := by
  have hdelivers := delivers repr world client
  generalize world.deliver repr client = next at hdelivers ⊢
  cases hdelivers with
  | turns next hnext => exact h.enter (by simp [hnext])
  | skips next index queue hnext hevent hqueue => exact (h.pop hqueue).enter (by simp [hnext])
  | takes receipts index queue taken hlooping hqueue hlog =>
      refine (h.pop hqueue).enter fun htaken ↦ ?_
      obtain rfl := Option.some.inj htaken
      exact h.unqueued ⟨index, hqueue ▸ List.mem_cons_self, hlog⟩
  | passes receipts more taken handler remaining hhandling =>
      refine h.enter fun htaken ↦ h.free client ?_
      rw [hhandling]
      exact htaken
  | calls receipts taken handler remaining hhandling =>
      have htaken : (world.deliveries client).event = some taken := by rw [hhandling]; rfl
      have hentered : (world.enter client (.invoking receipts taken handler remaining)).Dropped k
          event := h.enter fun hsame ↦ h.free client (htaken.trans hsame)
      have hid : eventId taken ≠ eventId event := by
        intro hid
        have hsame := hsound.bus.eq_of_eventId (hsound.taken client taken htaken) h.logged hid
        exact h.free client (hsame ▸ htaken)
      refine ⟨h.length.trans (by simp), h.logged, h.unqueued, hentered.free, fun other hcall ↦ ?_⟩
      rw [CalledSince, List.drop_append_of_le_length h.length] at hcall
      rcases List.mem_append.mp hcall with hold | hnew
      · exact h.uncalled other hold
      · exact hid (Prod.mk.inj (List.mem_singleton.mp hnew)).2.symm
  | waits => exact h

theorem Dropped.answer {world : World Client} {k : ℕ} {event : Event} (h : world.Dropped k event)
    (client : Client) (result : Except Exception Unit) (now : String) :
    (world.answer repr client result now).Dropped k event := by
  have hanswers := answers repr world client result now
  generalize world.answer repr client result now = next at hanswers ⊢
  cases hanswers with
  | returns receipts more taken handler remaining hinvoking =>
      have hentered : (world.enter client (.handling more taken remaining)).Dropped k event := by
        refine h.enter fun htaken ↦ h.free client ?_
        rw [hinvoking]
        exact htaken
      exact ⟨hentered.length, hentered.logged, hentered.unqueued, hentered.free, hentered.uncalled⟩
  | raises receipts taken handler remaining exc => exact h.enter (by rintro ⟨⟩)
  | idles => exact h

theorem Dropped.step {world : World Client} (hsound : world.Sound repr) {k : ℕ} {event : Event}
    (h : world.Dropped k event) {action : Action Client} (hresume : action ≠ .resume)
    (hother : ¬world.Reemits event action) : (world.step repr action).Dropped k event := by
  have haside : action.isAside = true → (world.step repr action).Dropped k event := by
    intro hactionAside
    obtain ⟨hlog, -, hqueue, hdeliveries, hinvoked, -⟩ := sameDeliveries_step repr world hactionAside
    constructor
    · exact hinvoked ▸ h.length
    · exact hlog ▸ h.logged
    · simpa only [Queued, hqueue, hlog] using h.unqueued
    · simpa only [hdeliveries] using h.free
    · simpa only [CalledSince, hinvoked] using h.uncalled
  cases action with
  | emit emitted now => exact h.emit hother
  | deliver client => exact h.deliver hsound client
  | answer client result now => exact h.answer client result now
  | resume => exact absurd rfl hresume
  | _ => exact haside rfl

theorem Dropped.run {world : World Client} (hsound : world.Sound repr) {k : ℕ} {event : Event}
    (h : world.Dropped k event) {actions : List (Action Client)}
    (hresume : Action.resume ∉ actions)
    (hother : EachStep (fun before action ↦ ¬(world.run repr before).Reemits event action)
      actions) : (world.run repr actions).Dropped k event := by
  induction actions using List.reverseRecOn with
  | nil => exact h
  | append_singleton actions action ih =>
      obtain ⟨hactions, hlast⟩ := eachStep_append_singleton.mp hother
      rw [run_append_singleton]
      refine (ih (fun hmem ↦ hresume (List.mem_append_left _ hmem)) hactions).step
        (hsound.run actions) ?_ hlast
      rintro rfl
      exact hresume (by simp)

/-! ## A handler that raises -/

/-- Every registered handler that was due for the event in `world`, the one that raises
among them, is called on it in `actions`, unless its registration ends there. -/
def Retried (world after : World Client) (event : Event) (handler : Handler)
    (actions : List (Action Client)) : Prop :=
  ∀ other ∈ world.bus.handlersFor event, (∀ name, .unsubscribe name other ∉ actions) →
    other = handler ∨ (other, eventId event) ∉ world.handled →
      after.CalledSince world.invoked.length other (eventId event)

theorem answer_error {world : World Client} {client : Client} {receipts : List Receipt}
    {event : Event} {handler : Handler} {remaining : List Handler} (exc : Exception) (now : String)
    (hinvoking : world.deliveries client = .invoking receipts event handler remaining) :
    world.answer repr client (.error exc) now = world.enter client (.raised exc) := by
  simp [answer, Bus.answer, hinvoking, enter, Except.isOk, Except.toBool]

section Raise

variable {world : World Client} {client : Client} {receipts : List Receipt} {event : Event}
    {handler : Handler} {remaining : List Handler}

/-- After the raise, no client is at the event. -/
theorem free_of_raise (hexclusive : Exclusive repr world)
    (hinvoking : world.deliveries client = .invoking receipts event handler remaining)
    (exc : Exception) (other : Client) (taken : Event)
    (htaken : ((world.enter client (.raised exc)).deliveries other).event = some taken) :
    eventId taken ≠ eventId event := by
  intro hid
  by_cases hclient : other = client
  · rw [hclient, deliveries_enter_self] at htaken
    cases htaken
  · rw [deliveries_enter_ne _ hclient] at htaken
    exact hclient (hexclusive.alone other client taken event htaken (by rw [hinvoking]; rfl) hid)

theorem watched_of_raise (hsound : world.Sound repr) (hapart : world.Apart repr)
    (hexclusive : Exclusive repr world)
    (hinvoking : world.deliveries client = .invoking receipts event handler remaining)
    (hqueued : world.Queued event) {other : Handler}
    (hregistered : other ∈ world.bus.handlersFor event)
    (hdue : other = handler ∨ (other, eventId event) ∉ world.handled) (exc : Exception) :
    Watched repr (world.enter client (.raised exc)) world.invoked.length event other := by
  have hlogged : event ∈ world.bus.log := hsound.taken client event (by rw [hinvoking]; rfl)
  refine ⟨le_rfl, hlogged, hregistered, fun hmark ↦ ?_, fun running taken hrunning hid ↦ ?_,
    Or.inr (Or.inl hqueued)⟩
  · rcases hdue with rfl | hunhandled
    · have hunmarked := hexclusive.unmarked client other event (by rw [hinvoking]; rfl)
      exact absurd (hmark.symm.trans hunmarked) (by decide)
    · obtain ⟨⟨called, id⟩, hcall, htext⟩ := hsound.bus.marks _ hmark
      obtain ⟨rfl, rfl⟩ := hapart called other id (eventId event) (.handled hcall)
        (.registered event hlogged rfl hregistered) htext
      exact absurd hcall hunhandled
  · exact absurd hid
      (free_of_raise hexclusive hinvoking exc running taken (event_of_current hrunning))

theorem dropped_of_raise (hsound : world.Sound repr) (hexclusive : Exclusive repr world)
    (hinvoking : world.deliveries client = .invoking receipts event handler remaining)
    (hunqueued : ¬world.Queued event) (exc : Exception) :
    (world.enter client (.raised exc)).Dropped world.invoked.length event where
  length := le_rfl
  logged := hsound.taken client event (by rw [hinvoking]; rfl)
  unqueued := hunqueued
  free other htaken := free_of_raise hexclusive hinvoking exc other event htaken rfl
  uncalled other hcall := by
    rw [CalledSince, enter, List.drop_length] at hcall
    cases hcall

end Raise

/-- When a handler raises, it and the other handlers that are due are called again in
the rest of the run exactly when another entry of the event is queued. -/
theorem retried_iff_queued {heap : Heap} {before after : List (Action Client)}
    {world raised : World Client} {client : Client} {receipts : List Receipt} {event : Event}
    {handler : Handler} {remaining : List Handler} {exc : Exception} {now : String}
    (hworld : world = (initial heap).run repr before)
    (hinvoking : world.deliveries client = .invoking receipts event handler remaining)
    (hraised : raised = world.answer repr client (.error exc) now)
    (hregistered : handler ∈ world.bus.handlersFor event)
    (hsubscribed : ∀ name, .unsubscribe name handler ∉ after)
    (hprocess : .resume ∉ after)
    (hother : EachStep (fun more action ↦ ¬(raised.run repr more).Reemits event action) after)
    (hdrained : (raised.run repr after).Drained)
    (hapart : EachPoint (fun actions ↦ ((initial heap).run repr actions).Apart repr)
      (before ++ .answer client (.error exc) now :: after))
    (halone : EachStep (fun actions action ↦ ((initial heap).run repr actions).TakesAlone action)
      before)
    (hkept : EachStep (fun more action ↦ ¬(raised.run repr more).Drops event action) after) :
    world.Retried (raised.run repr after) event handler after ↔ world.Queued event := by
  have hsound : world.Sound repr := hworld ▸ (sound_initial heap).run before
  have happly : world.Apart repr := hworld ▸ hapart before (List.prefix_append _ _)
  have hexclusive : Exclusive repr world := by
    have hpoints : EachPoint (fun actions ↦ Exclusive repr ((initial heap).run repr actions))
        before :=
      (exclusive_initial heap).run
        (fun point hpoint ↦ hapart point (hpoint.trans (List.prefix_append _ _))) halone
    exact hworld ▸ hpoints before List.prefix_rfl
  have hentered : raised = world.enter client (.raised exc) :=
    hraised.trans (answer_error exc now hinvoking)
  constructor
  · intro hretried
    by_contra hunqueued
    have hdropped : raised.Dropped world.invoked.length event :=
      hentered ▸ dropped_of_raise hsound hexclusive hinvoking hunqueued exc
    have hraisedSound : raised.Sound repr := hentered ▸ hsound.enter (by rintro _ ⟨⟩)
    exact (hdropped.run hraisedSound hprocess hother).uncalled handler
      (hretried handler hregistered hsubscribed (Or.inl rfl))
  · intro hqueued other hmem hkeeps hdue
    have hwatched : Watched repr raised world.invoked.length event other :=
      hentered ▸ watched_of_raise hsound happly hexclusive hinvoking hqueued hmem hdue exc
    refine (hwatched.run ?_ ?_).calledSince hdrained
    · intro more hmore
      have hrun : (initial heap).run repr (before ++ .answer client (.error exc) now :: more) =
          raised.run repr more := by
        rw [run_append, ← hworld, hraised]
        rfl
      rw [← hrun]
      obtain ⟨rest, rfl⟩ := hmore
      exact hapart _ ⟨rest, by simp⟩
    · intro more action rest hafter hdisturbs
      have haction : action ∈ after := by simp [hafter]
      cases action with
      | unsubscribe name old =>
          obtain rfl : old = other := hdisturbs
          exact hkeeps name haction
      | resume => exact hprocess haction
      | answer => exact hkept more _ rest hafter hdisturbs
      | _ => cases hdisturbs

end World

section Sample

def failingRun : List (Action Unit) :=
  [.on "task.created" (named "bill"), .on "task.created" (named "notify"), .emit created "now",
    .deliver (), .deliver (), .deliver ()]

def createdEvent : Event := Bus.stamped [("name", .str "task.created"), ("id", .str "t-1")] 1 "now"

def billingFailed : World Unit :=
  ((World.initial noHeap).run (fun _ ↦ "") failingRun).answer (fun _ ↦ "") ()
    (.error ⟨"RuntimeError", "billing is down"⟩) "now"

/-- The next call of `deliver` finds the queue empty and returns. -/
theorem raise_drops_event :
    ((World.initial noHeap).run (fun _ ↦ "") failingRun).deliveries () =
        .invoking [] createdEvent (named "bill") [named "notify"] ∧
      (billingFailed.run (fun _ ↦ "") [.deliver (), .deliver ()]).deliveries () = .returned [] ∧
      (billingFailed.run (fun _ ↦ "") [.deliver (), .deliver ()]).Drained ∧
      ¬((World.initial noHeap).run (fun _ ↦ "") failingRun).Retried
        (billingFailed.run (fun _ ↦ "") [.deliver (), .deliver ()]) createdEvent (named "bill")
        [.deliver (), .deliver ()] := by
  refine ⟨rfl, rfl, ⟨by decide, fun _ ↦ rfl⟩, fun hretried ↦ ?_⟩
  have hcalled := hretried (named "bill") (by decide) (by simp) (Or.inl rfl)
  rw [World.CalledSince] at hcalled
  revert hcalled
  decide

/-- The event was emitted twice, so an entry of it is left when the first handler raises. -/
def queuedRun : List (Action Unit) :=
  [.on "task.created" (named "bill"), .on "task.created" (named "notify"), .emit created "now",
    .emit created "now", .deliver (), .deliver (), .deliver ()]

def retryingRun : List (Action Unit) :=
  [.deliver (), .deliver (), .deliver (), .answer () (.ok ()) "now", .deliver (),
    .answer () (.ok ()) "now", .deliver (), .deliver ()]

def billingFailedOnce : World Unit :=
  ((World.initial noHeap).run (fun _ ↦ "") queuedRun).answer (fun _ ↦ "") ()
    (.error ⟨"RuntimeError", "billing is down"⟩) "now"

theorem retried_iff_queued_sample :
    ((World.initial noHeap).run (fun _ ↦ "") queuedRun).Retried
        (billingFailedOnce.run (fun _ ↦ "") retryingRun) createdEvent (named "bill")
        retryingRun ↔
      ((World.initial noHeap).run (fun _ ↦ "") queuedRun).Queued createdEvent := by
  have hinvoking : ((World.initial noHeap).run (fun _ ↦ "") queuedRun).deliveries () =
      .invoking [] createdEvent (named "bill") [named "notify"] := rfl
  have hworld : (World.initial noHeap).run (fun _ ↦ "") queuedRun =
      (World.initial noHeap).run (fun _ ↦ "") queuedRun := rfl
  refine World.retried_iff_queued hworld hinvoking (rfl : billingFailedOnce = _) (by decide)
    (by simp [retryingRun]) (by simp [retryingRun]) ?_ ⟨by decide, fun _ ↦ rfl⟩ ?_ ?_ ?_
  · simp [retryingRun, eachStep_cons, World.Reemits]
  · exact World.eachPoint_apart noHeap _ [(named "bill", .str "t-1"), (named "notify", .str "t-1")]
      (by decide) (by decide)
  · exact fun before action _ _ ↦ World.takesAlone_of_subsingleton _ action
  · simp [retryingRun, eachStep_cons, World.Drops]

end Sample

end AgenticSDLC.EventBus
