import AgenticSDLC.Bus.Delivery
import AgenticSDLC.Bus.StepMemo

/-!
# One client in `deliver` at a time

When the calls of `deliver` do not overlap and a process ends only for one that is started
on its snapshot, no delivery succeeds twice: the mark is set by the only client that can
have looked for it, and the event it stands for never leaves the log.
-/

namespace AgenticSDLC.EventBus

open Python (Exception)
open Runs

/-- The client has called `deliver`, which has neither returned nor raised. -/
def Delivery.inCall : Delivery → Bool
  | .looping _ | .handling .. | .invoking .. => true
  | _ => false

/-- A call of a handler that returned is marked by this text. -/
def deliveryMark (repr : Json → String) (call : Handler × Json) : String :=
  deliveryId repr call.2 call.1

namespace World

variable {Client : Type} {repr : Json → String}

/-- `deliver` is called by one client at a time, and a process ends only for one that is
started on its snapshot. -/
def OneAtATime (world : World Client) : Action Client → Prop
  | .deliver client => ∀ other, (world.deliveries other).inCall = true → other = client
  | .resume => ∃ state, world.bus.snapshot world.heap = .ok state ∧ world.stored = some state
  | _ => True

/-- The bus is in order, and for an event id and a handler key at most one call of a
handler has returned, and is marked. -/
structure DeliveredOnce (repr : Json → String) (world : World Client) : Prop where
  ids : world.bus.log.Pairwise fun event other ↦
    Python.eq (eventId event) (eventId other) = false
  queue : ∀ index ∈ world.bus.queue, index < world.bus.log.length
  once : world.handled.Pairwise fun call other ↦
    handlerKey call.1 = handlerKey other.1 → Python.eq call.2 other.2 = false
  marked : ∀ call ∈ world.handled,
    (world.bus.delivered.lookup (deliveryMark repr call)).isSome = true

/-- The log only grows at its end, and so does what is known of the calls that returned. -/
structure Grows (world next : World Client) : Prop where
  log : world.bus.log <+: next.bus.log
  handled : world.handled <+: next.handled

/-- What makes the next mark a new one. -/
structure Orderly (repr : Json → String) (world : World Client) : Prop where
  sound : world.Sound repr
  queue : ∀ index ∈ world.bus.queue, index < world.bus.log.length
  logged : ∀ call ∈ world.handled, ∃ event ∈ world.bus.log, eventId event = call.2
  marked : ∀ call ∈ world.handled,
    (world.bus.delivered.lookup (deliveryMark repr call)).isSome = true
  marks : (world.handled.map (deliveryMark repr)).Nodup
  alone : ∀ client other, (world.deliveries client).inCall = true →
    (world.deliveries other).inCall = true → client = other
  unmarked : ∀ client handler event, (world.deliveries client).current = some (handler, event) →
    world.bus.isDelivered repr event handler = false

theorem Orderly.deliveredOnce {world : World Client} (h : Orderly repr world) :
    DeliveredOnce repr world where
  ids := h.sound.bus.ids
  queue := h.queue
  once := by
    refine (List.pairwise_map.mp h.marks).imp_of_mem fun {call other} hcall hother hne hkey ↦ ?_
    rw [Bool.eq_false_iff]
    intro hid
    obtain ⟨event, hevent, hcallId⟩ := h.logged call hcall
    obtain ⟨found, hfound, hotherId⟩ := h.logged other hother
    rw [← hcallId, ← hotherId] at hid
    have hsame := h.sound.bus.eq_of_eq hevent hfound hid
    apply hne
    rw [deliveryMark, deliveryMark, deliveryId, deliveryId, hkey, ← hcallId, ← hotherId, hsame]
  marked := h.marked

theorem orderly_initial (heap : Heap) : Orderly repr (initial heap : World Client) where
  sound := sound_initial heap
  queue index hindex := absurd hindex List.not_mem_nil
  logged call hcall := absurd hcall List.not_mem_nil
  marked call hcall := absurd hcall List.not_mem_nil
  marks := List.nodup_nil
  alone client other hclient := by cases hclient
  unmarked client handler event hcurrent := by cases hcurrent

/-! ## One action -/

theorem inCall_of_current {delivery : Delivery} {call : Handler × Event}
    (h : delivery.current = some call) : delivery.inCall = true := by
  cases delivery with
  | invoking => rfl
  | _ => cases h

theorem Orderly.of_same {world next : World Client} (h : Orderly repr world)
    (hsame : SameDeliveries world next) (hstored : next.stored = world.stored) :
    Orderly repr next := by
  have hsound := h.sound.of_same hsame hstored
  obtain ⟨hlog, hdelivered, hqueue, hdeliveries, -, hhandled⟩ := hsame
  refine ⟨hsound, ?_, ?_, ?_, ?_, ?_, ?_⟩
  · simpa only [hlog, hqueue] using h.queue
  · simpa only [hlog, hhandled] using h.logged
  · simpa only [hdelivered, hhandled] using h.marked
  · simpa only [hhandled] using h.marks
  · simpa only [hdeliveries] using h.alone
  · simpa only [hdeliveries, Bus.isDelivered, hdelivered] using h.unmarked

theorem Orderly.emit {world : World Client} (h : Orderly repr world) (event : Json) (now : String) :
    Orderly repr (world.emit event now) := by
  have hsound := h.sound.emit event now
  have hemits := emits world event now
  generalize world.emit event now = next at hsound hemits ⊢
  cases hemits with
  | refuses => exact h
  | stores members hcheck hnew =>
      refine ⟨hsound, fun index hindex ↦ ?_, fun call hcall ↦ ?_, h.marked, h.marks, h.alone,
        h.unmarked⟩
      · rw [List.length_append, List.length_singleton]
        rcases List.mem_append.mp hindex with hold | hlast
        · have hlt := h.queue index hold
          omega
        · rw [List.mem_singleton.mp hlast]
          omega
      · obtain ⟨logged, hlogged, hid⟩ := h.logged call hcall
        exact ⟨logged, List.mem_append_left _ hlogged, hid⟩
  | finds members index found hcheck hlog =>
      refine ⟨hsound, fun other hother ↦ ?_, h.logged, h.marked, h.marks, h.alone, h.unmarked⟩
      rcases List.mem_append.mp hother with hold | hlast
      · exact h.queue other hold
      · rw [List.mem_singleton.mp hlast]
        exact (List.getElem?_eq_some_iff.mp hlog).1

theorem Orderly.withQueue {world : World Client} (h : Orderly repr world) {index : ℕ}
    {queue : List ℕ} (hqueue : world.bus.queue = index :: queue) :
    Orderly repr (world.withQueue queue) := by
  refine ⟨h.sound.withQueue queue, fun other hother ↦ ?_, h.logged, h.marked, h.marks, h.alone,
    h.unmarked⟩
  exact h.queue other (hqueue ▸ List.mem_cons_of_mem index hother)

section Resume

variable {world : World Client} {state : Json}

/-- The new process has the log, the queue and the marks of the one before it. -/
theorem bus_resume (repr : Json → String) (hstate : world.bus.snapshot world.heap = .ok state)
    (hstored : world.stored = some state) :
    (world.resume repr).bus.log = world.bus.log ∧ (world.resume repr).bus.queue = world.bus.queue ∧
      (world.resume repr).bus.delivered = world.bus.delivered := by
  have hdetached : world.bus.detached world.heap = .ok (world.restored repr) :=
    detached_restored hstate hstored
  obtain ⟨steps, -, hbus⟩ := Outcome.bind_eq_ok_iff.mp hdetached
  rw [World.resume, ← Except.ok.inj hbus]
  exact ⟨rfl, rfl, rfl⟩

theorem Orderly.resume (h : Orderly repr world) (hone : world.OneAtATime .resume) :
    Orderly repr (world.resume repr) := by
  obtain ⟨state, hstate, hstored⟩ := hone
  obtain ⟨hlog, hqueue, hdelivered⟩ := bus_resume repr hstate hstored
  refine ⟨h.sound.resume, ?_, ?_, ?_, h.marks, fun _ _ hcall ↦ (by cases hcall),
    fun _ _ _ hcurrent ↦ (by cases hcurrent)⟩
  · simpa only [hlog, hqueue] using h.queue
  · simp only [hlog]
    exact h.logged
  · simp only [hdelivered]
    exact h.marked

end Resume

theorem SameDeliveries.grows {world next : World Client} (h : SameDeliveries world next) :
    Grows world next :=
  ⟨h.log ▸ List.prefix_rfl, h.handled ▸ List.prefix_rfl⟩

variable [DecidableEq Client]

theorem alone_enter {world : World Client} {client : Client} {next : Delivery}
    (halone : ∀ other, (world.deliveries other).inCall = true → other = client) :
    ∀ first second, ((world.enter client next).deliveries first).inCall = true →
      ((world.enter client next).deliveries second).inCall = true → first = second := by
  have hclient : ∀ other, ((world.enter client next).deliveries other).inCall = true →
      other = client := by
    intro other hother
    by_contra hne
    rw [deliveries_enter_ne world hne] at hother
    exact hne (halone other hother)
  intro first second hfirst hsecond
  rw [hclient first hfirst, hclient second hsecond]

/-- The only client that can be in a call moves to `next`, where it runs no handler. -/
theorem Orderly.enter {world : World Client} (h : Orderly repr world) {client : Client}
    {next : Delivery} (hsound : (world.enter client next).Sound repr)
    (hcurrent : next.current = none)
    (halone : ∀ other, (world.deliveries other).inCall = true → other = client) :
    Orderly repr (world.enter client next) where
  sound := hsound
  queue := h.queue
  logged := h.logged
  marked := h.marked
  marks := h.marks
  alone := alone_enter halone
  unmarked other handler event hrunning :=
    h.unmarked other handler event (current_enter hcurrent hrunning).2

theorem Orderly.deliver {world : World Client} (h : Orderly repr world) {client : Client}
    (hone : world.OneAtATime (.deliver client)) : Orderly repr (world.deliver repr client) := by
  have hsound := h.sound.deliver client
  have hdelivers := delivers repr world client
  generalize world.deliver repr client = next at hsound hdelivers ⊢
  cases hdelivers with
  | turns next hnext => exact h.enter hsound (current_eq_none hnext) hone
  | skips next index queue hnext hevent hqueue =>
      exact (h.withQueue hqueue).enter hsound (current_eq_none hnext) hone
  | takes receipts index queue event hlooping hqueue =>
      exact (h.withQueue hqueue).enter hsound rfl hone
  | passes => exact h.enter hsound rfl hone
  | calls receipts event handler remaining hhandling hdelivered =>
      refine ⟨hsound, h.queue, h.logged, h.marked, h.marks, alone_enter hone,
        fun other called taken hrunning ↦ ?_⟩
      rcases current_enter_invoking hrunning with ⟨-, hcall⟩ | hcurrent
      · obtain ⟨rfl, rfl⟩ := Prod.mk.inj hcall
        exact hdelivered
      · exact h.unmarked other called taken hcurrent
  | waits => exact h

theorem Orderly.answer {world : World Client} (h : Orderly repr world) (client : Client)
    (result : Except Exception Unit) (now : String) :
    Orderly repr (world.answer repr client result now) := by
  have hsound := h.sound.answer client result now
  have hanswers := answers repr world client result now
  generalize world.answer repr client result now = next at hsound hanswers ⊢
  cases hanswers with
  | returns receipts more event handler remaining hinvoking =>
      have hcurrent : (world.deliveries client).current = some (handler, event) := by
        rw [hinvoking]
        rfl
      have hone : ∀ other, (world.deliveries other).inCall = true → other = client :=
        fun other hother ↦ h.alone other client hother (inCall_of_current hcurrent)
      have hunmarked : (world.bus.delivered.lookup
          (deliveryMark repr (handler, eventId event))).isSome = false :=
        h.unmarked client handler event hcurrent
      have hentered : Orderly repr (world.enter client (.handling more event remaining)) :=
        h.enter (h.sound.enter_event (by rw [hinvoking]; rfl)) rfl hone
      refine ⟨hsound, h.queue, fun call hcall ↦ ?_, fun call hcall ↦ ?_, ?_, hentered.alone,
        fun other called taken hrunning ↦ ?_⟩
      · rcases List.mem_append.mp hcall with hold | hlast
        · exact h.logged call hold
        · rw [List.mem_singleton.mp hlast]
          exact ⟨event, h.sound.taken client event (event_of_current hcurrent), rfl⟩
      · rw [Dict.lookup_set]
        split_ifs with hnew
        · rfl
        · rcases List.mem_append.mp hcall with hold | hlast
          · exact h.marked call hold
          · rw [List.mem_singleton.mp hlast] at hnew
            exact absurd rfl hnew
      · rw [List.map_append, List.map_singleton]
        apply h.marks.append (List.nodup_singleton _)
        rw [List.disjoint_singleton]
        intro hmem
        obtain ⟨call, hcall, hmark⟩ := List.mem_map.mp hmem
        rw [← hmark, h.marked call hcall] at hunmarked
        cases hunmarked
      · -- Whoever runs another handler would be in a second call of `deliver`.
        obtain ⟨hclient, hother⟩ := current_enter rfl hrunning
        exact absurd (hone other (inCall_of_current hother)) hclient
  | raises receipts event handler remaining exc hinvoking =>
      refine h.enter hsound rfl fun other hother ↦ h.alone other client hother ?_
      rw [hinvoking]
      rfl
  | idles => exact h

theorem Orderly.step {world : World Client} (h : Orderly repr world) {action : Action Client}
    (hone : world.OneAtATime action) : Orderly repr (world.step repr action) := by
  cases action with
  | emit event now => exact h.emit event now
  | deliver client => exact h.deliver hone
  | answer client result now => exact h.answer client result now
  | resume => exact h.resume hone
  | snapshot =>
      have hsound := h.sound.step .snapshot
      simp only [World.step] at hsound ⊢
      split at hsound
      · exact ⟨hsound, h.queue, h.logged, h.marked, h.marks, h.alone, h.unmarked⟩
      · exact h
  | _ => exact h.of_same (sameDeliveries_step repr world rfl) (stored_step repr world (by simp))

theorem grows_step {world : World Client} {action : Action Client} (hone : world.OneAtATime action) :
    Grows world (world.step repr action) := by
  cases action with
  | emit event now =>
      have hemits := emits world event now
      simp only [World.step]
      generalize world.emit event now = next at hemits ⊢
      cases hemits with
      | stores => exact ⟨List.prefix_append _ _, List.prefix_rfl⟩
      | _ => exact ⟨List.prefix_rfl, List.prefix_rfl⟩
  | deliver client =>
      have hdelivers := delivers repr world client
      simp only [World.step]
      generalize world.deliver repr client = next at hdelivers ⊢
      cases hdelivers <;> exact ⟨List.prefix_rfl, List.prefix_rfl⟩
  | answer client result now =>
      have hanswers := answers repr world client result now
      simp only [World.step]
      generalize world.answer repr client result now = next at hanswers ⊢
      cases hanswers with
      | returns => exact ⟨List.prefix_rfl, List.prefix_append _ _⟩
      | _ => exact ⟨List.prefix_rfl, List.prefix_rfl⟩
  | resume =>
      obtain ⟨state, hstate, hstored⟩ := hone
      have hlog := (bus_resume repr hstate hstored).1
      exact ⟨hlog ▸ List.prefix_rfl, List.prefix_rfl⟩
  | _ => exact (sameDeliveries_step repr world rfl).grows

/-! ## Every run -/

/-- As long as calls of `deliver` do not overlap and a process starts where the last one
ended, the bus stays in order and no delivery succeeds twice. -/
theorem delivered_at_most_once (heap : Heap) (actions : List (Action Client))
    (hone : EachStep (fun before action ↦ ((initial heap).run repr before).OneAtATime action)
      actions) :
    EachPoint (fun before ↦ DeliveredOnce repr ((initial heap).run repr before)) actions ∧
      EachStep (fun before action ↦ Grows ((initial heap).run repr before)
        ((initial heap).run repr (before ++ [action]))) actions := by
  constructor
  · have horderly : EachPoint (fun before ↦ Orderly repr ((initial heap).run repr before))
        actions := by
      refine eachPoint_of_eachStep (orderly_initial heap) (fun before action h hstep ↦ ?_) hone
      rw [run_append_singleton]
      exact h.step hstep
    exact fun before hbefore ↦ (horderly before hbefore).deliveredOnce
  · intro before action after hactions
    rw [run_append_singleton]
    exact grows_step (hone before action after hactions)

end World

section Sample

theorem oneAtATime_deliver (world : World Unit) : world.OneAtATime (.deliver ()) :=
  fun _ _ ↦ rfl

/-- A handler emits an event and raises, its process ends, and the next one delivers. -/
def restartedRun : List (Action Unit) :=
  [.on "task.created" (named "bill"), .emit created "now", .emit created "now", .deliver (),
    .deliver (), .deliver (), .emit (.obj [("name", .str "task.billed")]) "now",
    .answer () (.error ⟨"RuntimeError", "billing is down"⟩) "now", .snapshot, .resume,
    .on "task.created" (named "bill"), .deliver (), .deliver (), .deliver (),
    .answer () (.ok ()) "now", .emit created "now", .deliver (), .deliver ()]

theorem delivered_at_most_once_sample :
    EachPoint (fun before ↦ World.DeliveredOnce (fun _ ↦ "")
        ((World.initial noHeap).run (fun _ ↦ "") before)) restartedRun ∧
      EachStep (fun before action ↦ World.Grows ((World.initial noHeap).run (fun _ ↦ "") before)
        ((World.initial noHeap).run (fun _ ↦ "") (before ++ [action]))) restartedRun := by
  apply World.delivered_at_most_once noHeap restartedRun
  simp only [restartedRun, eachStep_cons, eachStep_nil, and_true]
  exact ⟨trivial, trivial, trivial, oneAtATime_deliver _, oneAtATime_deliver _,
    oneAtATime_deliver _, trivial, trivial, trivial, ⟨_, rfl, rfl⟩, trivial, oneAtATime_deliver _,
    oneAtATime_deliver _, oneAtATime_deliver _, trivial, trivial, oneAtATime_deliver _,
    oneAtATime_deliver _⟩

end Sample

end AgenticSDLC.EventBus
