import AgenticSDLC.Bus.BusRuns
import Mathlib.Data.List.Pairwise

/-!
# Deliveries

What holds of the marks and the log in every world, and how a handler that is due
for an event comes to be called.  A mark is only a text, so both speak of worlds
whose delivery ids keep different deliveries apart.
-/

namespace AgenticSDLC.EventBus

open Python (Exception)
open Runs

/-! ## Marks and log -/

/-- The log has no two events of one id, and each mark comes from a call that returned. -/
structure Bus.Sound (repr : Json → String) (handled : List (Handler × Json)) (bus : Bus) :
    Prop where
  ids : bus.log.Pairwise fun event other ↦ Python.eq (eventId event) (eventId other) = false
  marks : ∀ mark, (bus.delivered.lookup mark).isSome →
    ∃ call ∈ handled, deliveryId repr call.2 call.1 = mark

theorem Bus.Sound.mono {repr : Json → String} {handled more : List (Handler × Json)} {bus : Bus}
    (h : bus.Sound repr handled) (hsub : handled ⊆ more) : bus.Sound repr more :=
  ⟨h.ids, fun mark hmark ↦
    let ⟨call, hcall, htext⟩ := h.marks mark hmark
    ⟨call, hsub hcall, htext⟩⟩

theorem Bus.Sound.of_eq {repr : Json → String} {handled : List (Handler × Json)} {bus other : Bus}
    (h : bus.Sound repr handled) (hlog : other.log = bus.log)
    (hdelivered : other.delivered = bus.delivered) : other.Sound repr handled :=
  ⟨hlog ▸ h.ids, hdelivered ▸ h.marks⟩

/-- Two events of the log with one id are one event. -/
theorem Bus.Sound.eq_of_eq {repr : Json → String} {handled : List (Handler × Json)} {bus : Bus}
    (h : bus.Sound repr handled) {event other : Event} (hevent : event ∈ bus.log)
    (hother : other ∈ bus.log) (hid : Python.eq (eventId event) (eventId other) = true) :
    event = other := by
  by_contra hne
  have : Std.Symm fun a b : Event ↦ Python.eq (eventId a) (eventId b) = false :=
    ⟨fun a b hab ↦ by rw [Python.eq_comm, hab]⟩
  have hdistinct := h.ids.forall hevent hother hne
  rw [hid] at hdistinct
  cases hdistinct

theorem Bus.Sound.eq_of_eventId {repr : Json → String} {handled : List (Handler × Json)} {bus : Bus}
    (h : bus.Sound repr handled) {event other : Event} (hevent : event ∈ bus.log)
    (hother : other ∈ bus.log) (hid : eventId event = eventId other) : event = other := by
  apply h.eq_of_eq hevent hother
  rw [hid, Python.eq_self]

namespace World

variable {Client : Type} {repr : Json → String}

/-- The pair of a handler and an event id stands for a delivery of this world. -/
inductive InUse (world : World Client) (handler : Handler) (id : Json) : Prop where
  | handled (hcall : (handler, id) ∈ world.handled)
  | running (client : Client) (event : Event)
      (hcurrent : (world.deliveries client).current = some (handler, event))
      (hid : eventId event = id)
  | registered (event : Event) (hlog : event ∈ world.bus.log) (hid : eventId event = id)
      (hhandler : handler ∈ world.bus.handlersFor event)

/-- Different deliveries have different delivery ids. -/
def Apart (repr : Json → String) (world : World Client) : Prop :=
  ∀ handler other id otherId, world.InUse handler id → world.InUse other otherId →
    deliveryId repr id handler = deliveryId repr otherId other →
      handler = other ∧ id = otherId

structure Sound (repr : Json → String) (world : World Client) : Prop where
  bus : world.bus.Sound repr world.handled
  restored : (world.restored repr).Sound repr world.handled
  taken : ∀ client event, (world.deliveries client).event = some event → event ∈ world.bus.log

theorem sound_initial (heap : Heap) : (initial heap : World Client).Sound repr where
  bus := ⟨List.Pairwise.nil, by simp [initial, Bus.empty]⟩
  restored := ⟨List.Pairwise.nil, by simp [restored, initial, Bus.empty]⟩
  taken client event hevent := by cases hevent

theorem Sound.of_same {world next : World Client} (h : world.Sound repr)
    (hsame : SameDeliveries world next) (hstored : next.stored = world.stored) :
    next.Sound repr where
  bus := hsame.handled ▸ h.bus.of_eq hsame.log hsame.delivered
  restored := by
    have hrestored : next.restored repr = world.restored repr := by
      simp only [World.restored, hstored]
    rw [hrestored, hsame.handled]
    exact h.restored
  taken client event hevent := by
    rw [hsame.log]
    exact h.taken client event (hsame.deliveries ▸ hevent)

theorem Sound.withQueue {world : World Client} (h : world.Sound repr) (queue : List ℕ) :
    (world.withQueue queue).Sound repr :=
  ⟨h.bus.of_eq rfl rfl, h.restored, h.taken⟩

theorem Sound.emit {world : World Client} (h : world.Sound repr) (event : Json) (now : String) :
    (world.emit event now).Sound repr := by
  have hemits := emits world event now
  generalize world.emit event now = next at hemits ⊢
  cases hemits with
  | refuses => exact h
  | stores members hcheck hnew =>
      refine ⟨⟨?_, h.bus.marks⟩, h.restored, fun client taken htaken ↦ ?_⟩
      · refine List.pairwise_append.mpr ⟨h.bus.ids, by simp, ?_⟩
        intro other hother stored hstored
        rw [List.mem_singleton.mp hstored]
        exact hnew other hother
      · exact List.mem_append_left _ (h.taken client taken htaken)
  | finds => exact ⟨⟨h.bus.ids, h.bus.marks⟩, h.restored, h.taken⟩

theorem Sound.snapshot {world : World Client} (h : world.Sound repr) {state : Json}
    (hstate : world.bus.snapshot world.heap = .ok state) :
    ({ world with stored := some state }).Sound repr := by
  refine ⟨h.bus, ?_, h.taken⟩
  have hrestore := Bus.snapshot_restore world.bus world.heap repr
  rw [hstate, Outcome.ok_bind] at hrestore
  simp only [World.restored, Option.map_some, hrestore]
  split
  · next bus hbus =>
      obtain ⟨steps, -, hdetached⟩ := Outcome.bind_eq_ok_iff.mp (Option.some.inj hbus)
      obtain rfl := Except.ok.inj hdetached
      exact h.bus.of_eq rfl rfl
  · exact ⟨List.Pairwise.nil, by simp [Bus.empty]⟩

theorem Sound.resume {world : World Client} (h : world.Sound repr) :
    (world.resume repr).Sound repr :=
  ⟨h.restored, h.restored, fun _ _ hevent ↦ by cases hevent⟩

variable [DecidableEq Client]

theorem event_enter {world : World Client} {client other : Client} {next : Delivery} {event : Event}
    (h : ((world.enter client next).deliveries other).event = some event) :
    (other = client ∧ next.event = some event) ∨ (world.deliveries other).event = some event := by
  by_cases hclient : other = client
  · subst hclient
    exact Or.inl ⟨rfl, by simpa [enter] using h⟩
  · exact Or.inr (by simpa [enter, Function.update_of_ne hclient] using h)

theorem Sound.enter {world : World Client} (h : world.Sound repr) {client : Client}
    {next : Delivery} (hnext : ∀ event, next.event = some event → event ∈ world.bus.log) :
    (world.enter client next).Sound repr where
  bus := h.bus
  restored := h.restored
  taken other event hevent := by
    rcases event_enter hevent with ⟨-, hfound⟩ | hold
    · exact hnext event hfound
    · exact h.taken other event hold

/-- A client goes on with the event it has taken. -/
theorem Sound.enter_event {world : World Client} (h : world.Sound repr) {client : Client}
    {next : Delivery} (hnext : next.event = (world.deliveries client).event) :
    (world.enter client next).Sound repr :=
  h.enter fun event hevent ↦ h.taken client event (hnext ▸ hevent)

theorem Sound.deliver {world : World Client} (h : world.Sound repr) (client : Client) :
    (world.deliver repr client).Sound repr := by
  have hdelivers := delivers repr world client
  generalize world.deliver repr client = next at hdelivers ⊢
  cases hdelivers with
  | turns next hnext => exact h.enter (by simp [hnext])
  | skips next index queue hnext => exact (h.withQueue queue).enter (by simp [hnext])
  | takes receipts index queue event hlooping hqueue hlog =>
      apply (h.withQueue queue).enter
      rintro _ ⟨⟩
      exact List.mem_of_getElem? hlog
  | passes receipts more event handler remaining hhandling =>
      exact h.enter_event (by rw [hhandling]; rfl)
  | calls receipts event handler remaining hhandling =>
      have hentered : (world.enter client (.invoking receipts event handler remaining)).Sound repr :=
        h.enter_event (by rw [hhandling]; rfl)
      exact ⟨hentered.bus, hentered.restored, hentered.taken⟩
  | waits => exact h

theorem Sound.answer {world : World Client} (h : world.Sound repr) (client : Client)
    (result : Except Exception Unit) (now : String) :
    (world.answer repr client result now).Sound repr := by
  have hanswers := answers repr world client result now
  generalize world.answer repr client result now = next at hanswers ⊢
  cases hanswers with
  | returns receipts more event handler remaining hinvoking =>
      have hentered : (world.enter client (.handling more event remaining)).Sound repr :=
        h.enter_event (by rw [hinvoking]; rfl)
      have hsub : world.handled ⊆ world.handled ++ [(handler, eventId event)] :=
        List.subset_append_left _ _
      refine ⟨⟨h.bus.ids, fun mark hmark ↦ ?_⟩, h.restored.mono hsub, hentered.taken⟩
      rw [Dict.lookup_set] at hmark
      split_ifs at hmark with hnew
      · exact ⟨(handler, eventId event), by simp, hnew.symm⟩
      · obtain ⟨call, hcall, htext⟩ := h.bus.marks mark hmark
        exact ⟨call, hsub hcall, htext⟩
  | raises receipts event handler remaining exc => exact h.enter (by rintro _ ⟨⟩)
  | idles => exact h

theorem Sound.step {world : World Client} (h : world.Sound repr) (action : Action Client) :
    (world.step repr action).Sound repr := by
  cases action with
  | emit event now => exact h.emit event now
  | deliver client => exact h.deliver client
  | answer client result now => exact h.answer client result now
  | resume => exact h.resume
  | snapshot =>
      simp only [World.step]
      split
      · next state hstate => exact h.snapshot hstate
      · exact h
  | _ => exact h.of_same (sameDeliveries_step repr world rfl) (stored_step repr world (by simp))

theorem Sound.run {world : World Client} (h : world.Sound repr) (actions : List (Action Client)) :
    (world.run repr actions).Sound repr := by
  induction actions using List.reverseRecOn with
  | nil => exact h
  | append_singleton actions action ih =>
      rw [run_append_singleton]
      exact ih.step action

/-! ## Handlers that are due -/

/-- The handler was called on the event id after the first `k` calls. -/
def CalledSince (world : World Client) (k : ℕ) (handler : Handler) (id : Json) : Prop :=
  (handler, id) ∈ world.invoked.drop k

def Queued (world : World Client) (event : Event) : Prop :=
  ∃ index ∈ world.bus.queue, world.bus.log[index]? = some event

/-- The client has taken the event and still comes to the handler. -/
def Owes (world : World Client) (client : Client) (event : Event) (handler : Handler) : Prop :=
  (world.deliveries client).event = some event ∧ handler ∈ (world.deliveries client).remaining

/-- The handler is called on the event sooner or later, if it was not since the
first `k` calls: neither a mark nor a call in progress stands in its way. -/
structure Watched (repr : Json → String) (world : World Client) (k : ℕ) (event : Event)
    (handler : Handler) : Prop where
  length : k ≤ world.invoked.length
  logged : event ∈ world.bus.log
  registered : handler ∈ world.bus.handlersFor event
  marked : world.bus.isDelivered repr event handler = true →
    world.CalledSince k handler (eventId event)
  running : ∀ client other, (world.deliveries client).current = some (handler, other) →
    eventId other = eventId event → world.CalledSince k handler (eventId event)
  due : world.CalledSince k handler (eventId event) ∨ world.Queued event ∨
    ∃ client, world.Owes client event handler

/-- The action raises out of the event, and no entry of it is queued. -/
def Drops (world : World Client) (event : Event) : Action Client → Prop
  | .answer client (.error _) _ =>
      (world.deliveries client).event = some event ∧ ¬world.Queued event
  | _ => False

/-- The action ends the process or the handler's registration, or drops the event. -/
def Disturbs (world : World Client) (event : Event) (handler : Handler) : Action Client → Prop
  | .unsubscribe _ other => other = handler
  | .resume => True
  | action => world.Drops event action

theorem current_eq_none {delivery : Delivery} (h : delivery.event = none) :
    delivery.current = none := by
  cases delivery <;> first | rfl | cases h

theorem deliveries_enter_self (world : World Client) (client : Client) (next : Delivery) :
    (world.enter client next).deliveries client = next := by simp [enter]

theorem deliveries_enter_ne (world : World Client) {client other : Client} (h : other ≠ client)
    (next : Delivery) : (world.enter client next).deliveries other = world.deliveries other := by
  simp [enter, Function.update_of_ne h]

/-- A client calls a handler, and every other one goes on with its own. -/
theorem current_enter_invoking {world : World Client} {client other : Client}
    {receipts : List Receipt} {event : Event} {handler : Handler} {remaining : List Handler}
    {call : Handler × Event}
    (h : ((world.enter client (.invoking receipts event handler remaining)).deliveries
      other).current = some call) :
    (other = client ∧ call = (handler, event)) ∨ (world.deliveries other).current = some call := by
  by_cases hclient : other = client
  · subst hclient
    rw [deliveries_enter_self] at h
    exact Or.inl ⟨rfl, (Option.some.inj h).symm⟩
  · exact Or.inr (by rwa [deliveries_enter_ne world hclient] at h)

theorem current_enter {world : World Client} {client other : Client} {next : Delivery}
    {call : Handler × Event} (hnext : next.current = none)
    (h : ((world.enter client next).deliveries other).current = some call) :
    other ≠ client ∧ (world.deliveries other).current = some call := by
  by_cases hclient : other = client
  · subst hclient
    rw [deliveries_enter_self, hnext] at h
    cases h
  · exact ⟨hclient, by rwa [deliveries_enter_ne _ hclient] at h⟩

/-- A client that owes nothing new moves to `next`, where it runs no handler. -/
theorem Watched.enter {world : World Client} {k : ℕ} {event : Event} {handler : Handler}
    (h : Watched repr world k event handler) {client : Client} {next : Delivery}
    (hcurrent : next.current = none)
    (howes : world.Owes client event handler →
      world.CalledSince k handler (eventId event) ∨ world.Queued event ∨
        (next.event = some event ∧ handler ∈ next.remaining)) :
    Watched repr (world.enter client next) k event handler where
  length := h.length
  logged := h.logged
  registered := h.registered
  marked := h.marked
  running other taken hrunning hid := h.running other taken (current_enter hcurrent hrunning).2 hid
  due := by
    rcases h.due with hcalled | hqueued | ⟨other, hother⟩
    · exact Or.inl hcalled
    · exact Or.inr (Or.inl hqueued)
    · by_cases hclient : other = client
      · subst hclient
        rcases howes hother with hcalled | hqueued | hnext
        · exact Or.inl hcalled
        · exact Or.inr (Or.inl hqueued)
        · refine Or.inr (Or.inr ⟨other, ?_⟩)
          rwa [Owes, deliveries_enter_self]
      · refine Or.inr (Or.inr ⟨other, ?_⟩)
        rwa [Owes, deliveries_enter_ne world hclient]

/-- A client takes the first entry off the queue and comes to `next`, where it runs
no handler. -/
theorem Watched.pop {world : World Client} {k : ℕ} {event : Event} {handler : Handler}
    (h : Watched repr world k event handler) {client : Client} {next : Delivery} {index : ℕ}
    {queue : List ℕ} (hfree : (world.deliveries client).event = none)
    (hcurrent : next.current = none) (hqueue : world.bus.queue = index :: queue)
    (htaken : world.bus.log[index]? = some event →
      next.event = some event ∧ handler ∈ next.remaining) :
    Watched repr ((world.withQueue queue).enter client next) k event handler where
  length := h.length
  logged := h.logged
  registered := h.registered
  marked := h.marked
  running other taken hrunning hid := h.running other taken (current_enter hcurrent hrunning).2 hid
  due := by
    rcases h.due with hcalled | ⟨found, hfound, hlog⟩ | ⟨other, hother⟩
    · exact Or.inl hcalled
    · rw [hqueue] at hfound
      rcases List.mem_cons.mp hfound with rfl | htail
      · refine Or.inr (Or.inr ⟨client, ?_⟩)
        rw [Owes, deliveries_enter_self]
        exact htaken hlog
      · exact Or.inr (Or.inl ⟨found, htail, hlog⟩)
    · have hclient : other ≠ client := by
        rintro rfl
        rw [Owes, hfree] at hother
        cases hother.1
      refine Or.inr (Or.inr ⟨other, ?_⟩)
      rwa [Owes, deliveries_enter_ne _ hclient]

theorem Watched.deliver {world : World Client} {k : ℕ} {event : Event} {handler : Handler}
    (h : Watched repr world k event handler) (client : Client) :
    Watched repr (world.deliver repr client) k event handler := by
  have hdelivers := delivers repr world client
  generalize world.deliver repr client = next at hdelivers ⊢
  cases hdelivers with
  | turns next hnext hremaining =>
      refine h.enter (current_eq_none hnext) fun howes ↦ ?_
      rw [Owes, hremaining] at howes
      cases howes.2
  | skips next index queue hnext hevent hqueue hnone =>
      refine h.pop hevent (current_eq_none hnext) hqueue fun hlog ↦ ?_
      have hregistered := h.registered
      rw [hnone event hlog] at hregistered
      cases hregistered
  | takes receipts index queue taken hlooping hqueue hlog =>
      refine h.pop (by rw [hlooping]; rfl) rfl hqueue fun htaken ↦ ?_
      obtain rfl := Option.some.inj (hlog.symm.trans htaken)
      exact ⟨rfl, h.registered⟩
  | passes receipts more taken other remaining hhandling hdelivered =>
      refine h.enter rfl fun howes ↦ ?_
      rw [Owes, hhandling] at howes
      obtain ⟨htaken, hmem⟩ := howes
      obtain rfl := Option.some.inj htaken
      rcases List.mem_cons.mp hmem with rfl | htail
      · exact Or.inl (h.marked hdelivered)
      · exact Or.inr (Or.inr ⟨rfl, htail⟩)
  | calls receipts taken other remaining hhandling hdelivered =>
      have hdrop : ∀ call : Handler × Json,
          call ∈ (world.invoked ++ [(other, eventId taken)]).drop k ↔
            call ∈ world.invoked.drop k ∨ call = (other, eventId taken) := by
        intro call
        rw [List.drop_append_of_le_length h.length]
        simp
      refine ⟨?_, h.logged, h.registered, ?_, ?_, ?_⟩
      · exact h.length.trans (by simp)
      · exact fun hmark ↦ (hdrop _).mpr (Or.inl (h.marked hmark))
      · intro client' event' hrunning hid
        apply (hdrop _).mpr
        rcases current_enter_invoking hrunning with ⟨-, hcall⟩ | hcurrent
        · obtain ⟨rfl, rfl⟩ := Prod.mk.inj hcall
          exact Or.inr (by rw [hid])
        · exact Or.inl (h.running client' event' hcurrent hid)
      · rcases h.due with hcalled | hqueued | ⟨client', howes⟩
        · exact Or.inl ((hdrop _).mpr (Or.inl hcalled))
        · exact Or.inr (Or.inl hqueued)
        · by_cases hclient : client' = client
          · subst hclient
            rw [Owes, hhandling] at howes
            obtain ⟨htaken, hmem⟩ := howes
            obtain rfl := Option.some.inj htaken
            rcases List.mem_cons.mp hmem with rfl | htail
            · exact Or.inl ((hdrop _).mpr (Or.inr rfl))
            · refine Or.inr (Or.inr ⟨client', ?_⟩)
              simpa [Owes, World.enter, Delivery.event, Delivery.remaining] using htail
          · refine Or.inr (Or.inr ⟨client', ?_⟩)
            simpa [Owes, World.enter, Function.update_of_ne hclient] using howes
  | waits => exact h

theorem Watched.answer {world : World Client} {k : ℕ} {event : Event} {handler : Handler}
    (hapart : world.Apart repr) (h : Watched repr world k event handler) {client : Client}
    {result : Except Exception Unit} {now : String}
    (hquiet : ¬world.Disturbs event handler (.answer client result now)) :
    Watched repr (world.answer repr client result now) k event handler := by
  have hanswers := answers repr world client result now
  generalize world.answer repr client result now = next at hanswers ⊢
  cases hanswers with
  | returns receipts more taken other remaining hinvoking =>
      have hentered : Watched repr (world.enter client (.handling more taken remaining)) k event
          handler := by
        refine h.enter rfl fun howes ↦ Or.inr (Or.inr ?_)
        rwa [Owes, hinvoking] at howes
      refine ⟨hentered.length, hentered.logged, hentered.registered, fun hmark ↦ ?_,
        hentered.running, hentered.due⟩
      simp only [Bus.isDelivered, Dict.lookup_set] at hmark
      split_ifs at hmark with hnew
      · have hsame := hapart handler other (eventId event) (eventId taken)
          (.registered event h.logged rfl h.registered)
          (.running client taken (by rw [hinvoking]; rfl) rfl) hnew
        exact h.running client taken (by rw [hinvoking, hsame.1]; rfl) hsame.2.symm
      · exact h.marked hmark
  | raises receipts taken other remaining exc hinvoking hresult =>
      refine h.enter rfl fun howes ↦ Or.inr (Or.inl ?_)
      by_contra hunqueued
      rw [hresult] at hquiet
      exact hquiet ⟨howes.1, hunqueued⟩
  | idles => exact h

omit [DecidableEq Client] in
theorem Watched.emit {world : World Client} {k : ℕ} {event : Event} {handler : Handler}
    (h : Watched repr world k event handler) (emitted : Json) (now : String) :
    Watched repr (world.emit emitted now) k event handler := by
  have hemits := emits world emitted now
  generalize world.emit emitted now = next at hemits ⊢
  cases hemits with
  | refuses => exact h
  | stores members hcheck hnew =>
      refine ⟨h.length, List.mem_append_left _ h.logged, h.registered, h.marked, h.running, ?_⟩
      refine h.due.imp id (Or.imp ?_ id)
      rintro ⟨index, hindex, hlog⟩
      refine ⟨index, List.mem_append_left _ hindex, ?_⟩
      rwa [List.getElem?_append_left (List.getElem?_eq_some_iff.mp hlog).1]
  | finds members index found hcheck hlog hid =>
      refine ⟨h.length, h.logged, h.registered, h.marked, h.running, ?_⟩
      refine h.due.imp id (Or.imp ?_ id)
      rintro ⟨other, hother, hlog⟩
      exact ⟨other, List.mem_append_left _ hother, hlog⟩

theorem Watched.step {world : World Client} {k : ℕ} {event : Event} {handler : Handler}
    (hapart : world.Apart repr) (h : Watched repr world k event handler)
    {action : Action Client} (hquiet : ¬world.Disturbs event handler action) :
    Watched repr (world.step repr action) k event handler := by
  have hregistered : handler ∈ (world.step repr action).bus.handlersFor event := by
    refine mem_handlersNamed_step repr ?_ ?_ h.registered
    · rintro name rfl
      exact hquiet rfl
    · rintro rfl
      exact hquiet trivial
  have haside : action.isAside = true → Watched repr (world.step repr action) k event handler := by
    intro hactionAside
    have hsame := sameDeliveries_step repr world hactionAside
    obtain ⟨hlog, hdelivered, hqueue, hdeliveries, hinvoked, -⟩ := hsame
    constructor
    · exact hinvoked ▸ h.length
    · exact hlog ▸ h.logged
    · exact hregistered
    · simpa only [Bus.isDelivered, hdelivered, CalledSince, hinvoked] using h.marked
    · simpa only [hdeliveries, CalledSince, hinvoked] using h.running
    · simpa only [CalledSince, Queued, Owes, hinvoked, hqueue, hlog, hdeliveries] using h.due
  cases action with
  | emit emitted now => exact h.emit emitted now
  | deliver client => exact h.deliver client
  | answer client result now => exact h.answer hapart hquiet
  | resume => exact absurd trivial hquiet
  | _ => exact haside rfl

/-- Every entry has left the queue, and no client is at an event. -/
def Drained (world : World Client) : Prop :=
  world.bus.queue = [] ∧ ∀ client, (world.deliveries client).event = none

omit [DecidableEq Client] in
theorem Watched.calledSince {world : World Client} {k : ℕ} {event : Event} {handler : Handler}
    (h : Watched repr world k event handler) (hdrained : world.Drained) :
    world.CalledSince k handler (eventId event) := by
  obtain ⟨hqueue, hfree⟩ := hdrained
  rcases h.due with hcalled | ⟨index, hindex, -⟩ | ⟨client, howes⟩
  · exact hcalled
  · rw [hqueue] at hindex
    cases hindex
  · rw [Owes, hfree client] at howes
    cases howes.1

/-! ## Calls of handlers -/

/-- Every call in progress and every call that returned was made. -/
structure Witnessed (world : World Client) : Prop where
  running : ∀ client call, (world.deliveries client).current = some call →
    observed call ∈ world.invoked
  handled : world.handled ⊆ world.invoked

omit [DecidableEq Client] in
theorem witnessed_initial (heap : Heap) : (initial heap : World Client).Witnessed :=
  ⟨fun _ _ hcall ↦ (by cases hcall), fun _ hcall ↦ (by cases hcall)⟩

theorem Witnessed.step {world : World Client} (h : world.Witnessed) (action : Action Client) :
    (world.step repr action).Witnessed := by
  have haside : action.isAside = true → (world.step repr action).Witnessed := by
    intro hactionAside
    obtain ⟨-, -, -, hdeliveries, hinvoked, hhandled⟩ := sameDeliveries_step repr world hactionAside
    constructor
    · simpa only [hdeliveries, hinvoked] using h.running
    · simpa only [hhandled, hinvoked] using h.handled
  cases action with
  | emit event now =>
      have hemits := emits world event now
      simp only [World.step]
      generalize world.emit event now = next at hemits ⊢
      cases hemits <;> exact ⟨h.running, h.handled⟩
  | deliver client =>
      have hdelivers := delivers repr world client
      simp only [World.step]
      generalize world.deliver repr client = next at hdelivers ⊢
      cases hdelivers with
      | turns next hnext =>
          exact ⟨fun other call hcall ↦ h.running other call
            (current_enter (current_eq_none hnext) hcall).2, h.handled⟩
      | skips next index queue hnext =>
          exact ⟨fun other call hcall ↦ h.running other call
            (current_enter (current_eq_none hnext) hcall).2, h.handled⟩
      | takes | passes =>
          exact ⟨fun other call hcall ↦ h.running other call (current_enter rfl hcall).2, h.handled⟩
      | calls receipts event handler remaining =>
          refine ⟨fun other call hcall ↦ ?_, fun call hcall ↦ List.mem_append_left _ (h.handled hcall)⟩
          rcases current_enter_invoking hcall with ⟨-, rfl⟩ | hcurrent
          · exact List.mem_append_right _ (List.mem_singleton_self _)
          · exact List.mem_append_left _ (h.running other call hcurrent)
      | waits => exact h
  | answer client result now =>
      have hanswers := answers repr world client result now
      simp only [World.step]
      generalize world.answer repr client result now = next at hanswers ⊢
      cases hanswers with
      | returns receipts more event handler remaining hinvoking =>
          refine ⟨fun other call hcall ↦ h.running other call (current_enter rfl hcall).2, ?_⟩
          intro call hcall
          rcases List.mem_append.mp hcall with hold | hnew
          · exact h.handled hold
          · rw [List.mem_singleton.mp hnew]
            exact h.running client (handler, event) (by rw [hinvoking]; rfl)
      | raises =>
          exact ⟨fun other call hcall ↦ h.running other call (current_enter rfl hcall).2, h.handled⟩
      | idles => exact h
  | resume => exact ⟨fun _ _ hcall ↦ (by cases hcall), h.handled⟩
  | _ => exact haside rfl

theorem Witnessed.run {world : World Client} (h : world.Witnessed)
    (actions : List (Action Client)) : (world.run repr actions).Witnessed := by
  induction actions using List.reverseRecOn with
  | nil => exact h
  | append_singleton actions action ih =>
      rw [run_append_singleton]
      exact ih.step action

/-! ## One client to an event -/

/-- No client takes up an event that another one is still at. -/
def TakesAlone (world : World Client) (action : Action Client) : Prop :=
  ∀ client receipts index queue event, action = .deliver client →
    world.deliveries client = .looping receipts → world.bus.queue = index :: queue →
      world.bus.log[index]? = some event →
        ∀ other taken, (world.deliveries other).event = some taken →
          eventId taken ≠ eventId event

structure Exclusive (repr : Json → String) (world : World Client) : Prop where
  alone : ∀ client other event taken, (world.deliveries client).event = some event →
    (world.deliveries other).event = some taken → eventId event = eventId taken → client = other
  unmarked : ∀ client handler event, (world.deliveries client).current = some (handler, event) →
    world.bus.isDelivered repr event handler = false

theorem Exclusive.enter {world : World Client} (h : Exclusive repr world) {client : Client}
    {next : Delivery} (hcurrent : next.current = none)
    (hevent : ∀ event, next.event = some event → (world.deliveries client).event = some event) :
    Exclusive repr (world.enter client next) where
  alone first second event taken hfirst hsecond hid := by
    have hold : ∀ (other : Client) (found : Event),
        ((world.enter client next).deliveries other).event = some found →
          (world.deliveries other).event = some found := by
      intro other found hfound
      rcases event_enter hfound with ⟨rfl, hnext⟩ | hbefore
      · exact hevent found hnext
      · exact hbefore
    exact h.alone first second event taken (hold _ _ hfirst) (hold _ _ hsecond) hid
  unmarked other handler event hrunning :=
    h.unmarked other handler event (current_enter hcurrent hrunning).2

theorem event_of_current {delivery : Delivery} {handler : Handler} {event : Event}
    (h : delivery.current = some (handler, event)) : delivery.event = some event := by
  cases delivery with
  | invoking =>
      obtain ⟨-, rfl⟩ := Prod.mk.inj (Option.some.inj h)
      rfl
  | _ => cases h

theorem Exclusive.deliver {world : World Client} (h : Exclusive repr world) {client : Client}
    (halone : world.TakesAlone (.deliver client)) :
    Exclusive repr (world.deliver repr client) := by
  have hdelivers := delivers repr world client
  generalize world.deliver repr client = next at hdelivers ⊢
  cases hdelivers with
  | turns next hnext => exact h.enter (current_eq_none hnext) (by simp [hnext])
  | skips next index queue hnext =>
      have hpopped : Exclusive repr (world.withQueue queue) := ⟨h.alone, h.unmarked⟩
      exact hpopped.enter (current_eq_none hnext) (by simp [hnext])
  | takes receipts index queue event hlooping hqueue hlog =>
      have hothers := halone client receipts index queue event rfl hlooping hqueue hlog
      refine ⟨fun first second one two hfirst hsecond hid ↦ ?_, fun other handler taken hrunning ↦ ?_⟩
      · rcases event_enter hfirst with ⟨rfl, hone⟩ | hone <;>
          rcases event_enter hsecond with ⟨rfl, htwo⟩ | htwo
        · rfl
        · obtain rfl := Option.some.inj hone
          exact absurd hid.symm (hothers second two htwo)
        · obtain rfl := Option.some.inj htwo
          exact absurd hid (hothers first one hone)
        · exact h.alone first second one two hone htwo hid
      · exact h.unmarked other handler taken (current_enter rfl hrunning).2
  | passes receipts more event handler remaining hhandling =>
      apply h.enter rfl
      rintro _ ⟨⟩
      rw [hhandling]
      rfl
  | calls receipts event handler remaining hhandling hdelivered =>
      have hevent : (world.deliveries client).event = some event := by rw [hhandling]; rfl
      have hold : ∀ (other : Client) (found : Event),
          ((world.enter client (.invoking receipts event handler remaining)).deliveries
            other).event = some found → (world.deliveries other).event = some found := by
        intro other found hfound
        rcases event_enter hfound with ⟨rfl, hnext⟩ | hbefore
        · rw [hevent, ← hnext]
          rfl
        · exact hbefore
      refine ⟨fun first second one two hfirst hsecond hid ↦
        h.alone first second one two (hold _ _ hfirst) (hold _ _ hsecond) hid, ?_⟩
      intro other called taken hrunning
      rcases current_enter_invoking hrunning with ⟨-, hcall⟩ | hcurrent
      · obtain ⟨rfl, rfl⟩ := Prod.mk.inj hcall
        exact hdelivered
      · exact h.unmarked other called taken hcurrent
  | waits => exact h

theorem Exclusive.answer {world : World Client} (hapart : world.Apart repr)
    (h : Exclusive repr world) (client : Client) (result : Except Exception Unit) (now : String) :
    Exclusive repr (world.answer repr client result now) := by
  have hanswers := answers repr world client result now
  generalize world.answer repr client result now = next at hanswers ⊢
  cases hanswers with
  | returns receipts more event handler remaining hinvoking =>
      have hevent : (world.deliveries client).event = some event := by rw [hinvoking]; rfl
      have hentered : Exclusive repr (world.enter client (.handling more event remaining)) := by
        apply h.enter rfl
        rintro _ ⟨⟩
        exact hevent
      refine ⟨hentered.alone, fun other called taken hrunning ↦ ?_⟩
      obtain ⟨hclient, hcurrent⟩ := current_enter rfl hrunning
      have hunmarked := h.unmarked other called taken hcurrent
      simp only [Bus.isDelivered, Dict.lookup_set] at hunmarked ⊢
      split_ifs with hsame
      · have hpair := hapart called handler (eventId taken) (eventId event)
          (.running other taken hcurrent rfl) (.running client event (by rw [hinvoking]; rfl) rfl)
          hsame
        exact absurd (h.alone other client taken event (event_of_current hcurrent) hevent hpair.2)
          hclient
      · exact hunmarked
  | raises receipts event handler remaining exc => exact h.enter rfl (by rintro _ ⟨⟩)
  | idles => exact h

theorem Exclusive.step {world : World Client} (hapart : world.Apart repr)
    (h : Exclusive repr world) {action : Action Client} (halone : world.TakesAlone action) :
    Exclusive repr (world.step repr action) := by
  have haside : action.isAside = true → Exclusive repr (world.step repr action) := by
    intro hactionAside
    obtain ⟨-, hdelivered, -, hdeliveries, -, -⟩ := sameDeliveries_step repr world hactionAside
    constructor
    · simpa only [hdeliveries] using h.alone
    · simpa only [hdeliveries, Bus.isDelivered, hdelivered] using h.unmarked
  cases action with
  | emit event now =>
      have hemits := emits world event now
      simp only [World.step]
      generalize world.emit event now = next at hemits ⊢
      cases hemits <;> exact ⟨h.alone, h.unmarked⟩
  | deliver client => exact h.deliver halone
  | answer client result now => exact h.answer hapart client result now
  | resume => exact ⟨fun _ _ _ _ hevent ↦ (by cases hevent), fun _ _ _ hrunning ↦ (by cases hrunning)⟩
  | _ => exact haside rfl

omit [DecidableEq Client] in
theorem exclusive_initial (heap : Heap) : Exclusive repr (initial heap : World Client) :=
  ⟨fun _ _ _ _ hevent ↦ (by cases hevent), fun _ _ _ hrunning ↦ (by cases hrunning)⟩

theorem Exclusive.run {world : World Client} (h : Exclusive repr world)
    {actions : List (Action Client)}
    (hapart : EachPoint (fun before ↦ (world.run repr before).Apart repr) actions)
    (halone : EachStep (fun before action ↦ (world.run repr before).TakesAlone action) actions) :
    EachPoint (fun before ↦ Exclusive repr (world.run repr before)) actions := by
  refine eachPoint_of_eachStep
    (P := fun before action ↦
      (world.run repr before).Apart repr ∧ (world.run repr before).TakesAlone action) h ?_ ?_
  · intro before action hexclusive hconditions
    rw [run_append_singleton]
    exact hexclusive.step hconditions.1 hconditions.2
  · intro before action after hactions
    exact ⟨hapart before ⟨action :: after, hactions.symm⟩, halone before action after hactions⟩

theorem Watched.run {world : World Client} {k : ℕ} {event : Event} {handler : Handler}
    (h : Watched repr world k event handler) {actions : List (Action Client)}
    (hapart : EachPoint (fun before ↦ (world.run repr before).Apart repr) actions)
    (hquiet : EachStep (fun before action ↦ ¬(world.run repr before).Disturbs event handler action)
      actions) :
    Watched repr (world.run repr actions) k event handler := by
  refine eachPoint_of_eachStep (I := fun before ↦ Watched repr (world.run repr before) k event
    handler) (P := fun before action ↦
      (world.run repr before).Apart repr ∧ ¬(world.run repr before).Disturbs event handler action) h ?_ ?_
    actions List.prefix_rfl
  · intro before action hwatched hconditions
    rw [run_append_singleton]
    exact hwatched.step hconditions.1 hconditions.2
  · intro before action after hactions
    exact ⟨hapart before ⟨action :: after, hactions.symm⟩, hquiet before action after hactions⟩

/-! ## One client -/

omit [DecidableEq Client] in
theorem takesAlone_of_subsingleton [Subsingleton Client] (world : World Client)
    (action : Action Client) : world.TakesAlone action := by
  intro client receipts index queue event _ hlooping _ _ other taken htaken
  rw [Subsingleton.elim other client, hlooping] at htaken
  cases htaken

omit [DecidableEq Client] in
/-- The deliveries of a world are apart when the calls it can stand for are. -/
theorem apart_of_calls {world : World Client} {calls : List (Handler × Json)}
    (hhandled : world.handled ⊆ calls)
    (hrunning : ∀ client call, (world.deliveries client).current = some call →
      observed call ∈ calls)
    (hregistered : ∀ event ∈ world.bus.log, ∀ handler ∈ world.bus.handlersFor event,
      (handler, eventId event) ∈ calls)
    (hcalls : ∀ call ∈ calls, ∀ other ∈ calls,
      deliveryId repr call.2 call.1 = deliveryId repr other.2 other.1 → call = other) :
    world.Apart repr := by
  have hmem : ∀ handler id, world.InUse handler id → (handler, id) ∈ calls := by
    rintro handler id (hcall | ⟨client, event, hcurrent, rfl⟩ | ⟨event, hlog, rfl, hhandler⟩)
    · exact hhandled hcall
    · exact hrunning client _ hcurrent
    · exact hregistered event hlog handler hhandler
  intro handler other id otherId hin hout htext
  exact Prod.mk.inj (hcalls _ (hmem _ _ hin) _ (hmem _ _ hout) htext)

/-- The world's deliveries are among the calls. -/
def usesOnly (world : World Unit) (calls : List (Handler × Json)) : Bool :=
  world.handled.all (· ∈ calls) &&
    (world.deliveries ()).current.toList.all (observed · ∈ calls) &&
    world.bus.log.all fun event ↦
      (world.bus.handlersFor event).all fun handler ↦ (handler, eventId event) ∈ calls

theorem eachPoint_apart (heap : Heap) (actions : List (Action Unit))
    (calls : List (Handler × Json))
    (hcalls : ∀ call ∈ calls, ∀ other ∈ calls,
      deliveryId repr call.2 call.1 = deliveryId repr other.2 other.1 → call = other)
    (h : ∀ before ∈ actions.inits, ((initial heap).run repr before).usesOnly calls = true) :
    EachPoint (fun before ↦ ((initial heap).run repr before).Apart repr) actions := by
  refine eachPoint_iff_forall_mem_inits.mpr fun before hbefore ↦ ?_
  have huses := h before hbefore
  simp only [usesOnly, Bool.and_eq_true, List.all_eq_true, decide_eq_true_eq] at huses
  obtain ⟨⟨hhandled, hrunning⟩, hregistered⟩ := huses
  exact apart_of_calls hhandled
    (fun _ call hcall ↦ hrunning call (Option.mem_toList.mpr hcall)) hregistered hcalls

end World

section Sample

def noHeap : Heap := fun _ ↦ ⟨"object", .ok .null⟩

def named (qualname : String) : Handler := ⟨0, qualname, qualname, "app", ""⟩

def created : Json := .obj [("name", .str "task.created"), ("id", .str "t-1")]

end Sample

end AgenticSDLC.EventBus
