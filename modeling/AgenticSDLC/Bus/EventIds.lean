import AgenticSDLC.Bus.Delivery

/-!
# Ids of emitted events

An event without an id gets the next one of a counter that belongs to the process,
while the log it is looked up in travels with the snapshot.  Such an emit is stored
exactly when the log has no event of that id, which one process alone sees to.
-/

namespace AgenticSDLC.EventBus

open Runs

/-! ## The counter -/

theorem ofDigitChars_zeroPadded (width n : ℕ) :
    Nat.ofDigitChars 10 (zeroPadded width n).toList 0 = n := by
  have htext : (toString n).toList = Nat.toDigits 10 n := Nat.toList_repr
  simp only [zeroPadded, String.toList_append, String.toList_ofList, htext]
  rw [Nat.ofDigitChars_append, Nat.ofDigitChars_replicate_zero, Nat.mul_zero,
    Nat.ofDigitChars_ten_toDigits]

theorem newEventId_injective : Function.Injective newEventId := by
  intro m n h
  have hpadded : (zeroPadded 12 m).toList = (zeroPadded 12 n).toList := by
    have hlists := congrArg String.toList h
    simpa only [newEventId, String.toList_append, List.append_cancel_left_eq] using hlists
  rw [← ofDigitChars_zeroPadded 12 m, hpadded, ofDigitChars_zeroPadded]

theorem eventId_stamped {members : Event} (h : members.lookup "id" = none) (n : ℕ) (now : String) :
    eventId (Bus.stamped members n now) = .str (newEventId n) := by
  simp [eventId, Bus.stamped, Python.get, Dict.lookup_setDefault, h]

theorem eventId_stamped_of_some {members : Event} {id : Json} (h : members.lookup "id" = some id)
    (n : ℕ) (now : String) : eventId (Bus.stamped members n now) = id := by
  simp [eventId, Bus.stamped, Python.get, Dict.lookup_setDefault, h]

/-- The action ends no process, and supplies no id of the counter's form. -/
def Action.KeepsCount {Client : Type} : Action Client → Prop
  | .resume => False
  | .emit event _ => ∀ members n, Bus.checkEvent event = .ok members →
      members.lookup "id" ≠ some (.str (newEventId n))
  | _ => True

namespace World

variable {Client : Type} {repr : Json → String}

/-! ## One emit -/

/-- An event that is emitted without an id becomes the last entry of the log, with
an id of its own, and the last one of the queue. -/
def Appends (world after : World Client) : Action Client → Prop
  | .emit event _ => ∀ members, Bus.checkEvent event = .ok members → members.lookup "id" = none →
      ∃ stored, after.bus.log = world.bus.log ++ [stored] ∧
        (∀ other ∈ world.bus.log, Python.eq (eventId other) (eventId stored) = false) ∧
        after.bus.queue = world.bus.queue ++ [world.bus.log.length]
  | _ => True

/-- The counter has not come to an id of the log. -/
def CountsOn (world : World Client) : Action Client → Prop
  | .emit event _ => ∀ members, Bus.checkEvent event = .ok members → members.lookup "id" = none →
      ∀ other ∈ world.bus.log, eventId other ≠ .str (newEventId (world.seq + 1))
  | _ => True

theorem appends_emit_iff (world : World Client) (event : Json) (now : String) :
    world.Appends (world.emit event now) (.emit event now) ↔
      world.CountsOn (.emit event now) := by
  refine forall₃_congr fun members hcheck hid ↦ ?_
  have hstored := eventId_stamped hid (world.seq + 1) now
  have hemits := emits world event now
  generalize world.emit event now = next at hemits ⊢
  cases hemits with
  | refuses exc hrefused =>
      rw [hcheck] at hrefused
      cases hrefused
  | stores found hfound hnew =>
      obtain rfl := Except.ok.inj (hcheck.symm.trans hfound)
      constructor
      · intro _ other hother hsame
        have hdistinct := hnew other hother
        rw [hstored, Python.eq_str_iff.mpr hsame] at hdistinct
        cases hdistinct
      · intro _
        exact ⟨_, rfl, hnew, rfl⟩
  | finds found index entry hfound hlog hsame =>
      obtain rfl := Except.ok.inj (hcheck.symm.trans hfound)
      rw [hstored] at hsame
      constructor
      · rintro ⟨stored, hshort, -⟩
        have hlength := congrArg List.length hshort
        simp at hlength
      · intro hcounts
        exact absurd (Python.eq_str_iff.mp hsame) (hcounts entry (List.mem_of_getElem? hlog))

variable [DecidableEq Client]

/-- Over any number of processes, no emit without an id is lost exactly when the
counter of the process never comes to an id of the log. -/
theorem emits_appended_iff (heap : Heap) (actions : List (Action Client)) :
    EachStep (fun before action ↦ ((initial heap).run repr before).Appends
        ((initial heap).run repr (before ++ [action])) action) actions ↔
      EachStep (fun before action ↦ ((initial heap).run repr before).CountsOn action) actions := by
  refine eachStep_congr (fun before action ↦ ?_) actions
  cases action with
  | emit event now =>
      rw [run_append_singleton]
      exact appends_emit_iff _ event now
  | _ => exact Iff.rfl

/-! ## One process -/

/-- The ids of the counter that the log has are of the past. -/
def Numbered (world : World Client) : Prop :=
  ∀ event ∈ world.bus.log, ∀ n, eventId event = .str (newEventId n) → n ≤ world.seq

theorem seq_step (world : World Client) {action : Action Client} (h : action.isAside = true) :
    (world.step repr action).seq = world.seq := by
  cases action with
  | emit | deliver | answer | resume => cases h
  | on name handler =>
      simp only [step]
      split <;> rfl
  | runStep client stepId =>
      simp only [step, runStep]
      split
      · split <;> rfl
      · rfl
  | fnEnds client result now =>
      simp only [step, fnEnds]
      split <;> rfl
  | snapshot =>
      simp only [step]
      split <;> rfl
  | _ => rfl

theorem Numbered.step {world : World Client} (h : world.Numbered) {action : Action Client}
    (hkeeps : action.KeepsCount) : (world.step repr action).Numbered := by
  have haside : action.isAside = true → (world.step repr action).Numbered := by
    intro hactionAside
    rw [Numbered, seq_step world hactionAside, (sameDeliveries_step repr world hactionAside).log]
    exact h
  cases action with
  | emit event now =>
      have hemits := emits world event now
      simp only [World.step]
      generalize world.emit event now = next at hemits ⊢
      cases hemits with
      | refuses => exact h
      | stores members hcheck =>
          intro other hother n hid
          rcases List.mem_append.mp hother with hold | hnew
          · exact (h other hold n hid).trans (Nat.le_succ _)
          · rw [List.mem_singleton.mp hnew] at hid
            cases hlookup : members.lookup "id" with
            | none =>
                rw [eventId_stamped hlookup] at hid
                exact (newEventId_injective (Json.str.inj hid)).symm.le
            | some id =>
                rw [eventId_stamped_of_some hlookup] at hid
                exact absurd (hlookup.trans (congrArg some hid)) (hkeeps members n hcheck)
      | finds => exact fun other hother n hid ↦ (h other hother n hid).trans (Nat.le_succ _)
  | deliver client =>
      have hdelivers := delivers repr world client
      simp only [World.step]
      generalize world.deliver repr client = next at hdelivers ⊢
      cases hdelivers <;> exact h
  | answer client result now =>
      have hanswers := answers repr world client result now
      simp only [World.step]
      generalize world.answer repr client result now = next at hanswers ⊢
      cases hanswers <;> exact h
  | resume => cases hkeeps
  | _ => exact haside rfl

omit [DecidableEq Client] in
theorem Numbered.countsOn {world : World Client} (h : world.Numbered) (action : Action Client) :
    world.CountsOn action := by
  cases action with
  | emit event now =>
      intro members _ _ other hother hid
      have hle := h other hother _ hid
      omega
  | _ => trivial

/-- In one process no emit is lost, unless a caller makes up an id of the counter. -/
theorem emits_appended_of_oneProcess (heap : Heap) {actions : List (Action Client)}
    (hkeeps : EachStep (fun _ action ↦ Action.KeepsCount action) actions) :
    EachStep (fun before action ↦ ((initial heap).run repr before).Appends
      ((initial heap).run repr (before ++ [action])) action) actions := by
  refine (emits_appended_iff heap actions).mpr fun before action after hactions ↦ ?_
  have hnumbered : EachPoint (fun before ↦ ((initial heap).run repr before).Numbered) actions := by
    refine eachPoint_of_eachStep (fun _ hevent ↦ (by cases hevent)) ?_ hkeeps
    intro before action hbefore haction
    rw [run_append_singleton]
    exact hbefore.step haction
  exact (hnumbered before ⟨action :: after, hactions.symm⟩).countsOn action

end World

section Sample

def ping : Json := .obj [("name", .str "ping")]

/-- One event is emitted, the process ends and is resumed, and another one is emitted. -/
def twoLives : List (Action Unit) := [.emit ping "day 1", .snapshot, .resume, .emit ping "day 2"]

/-- The second event finds the id of the first one in the log and is not stored. -/
theorem emit_lost_after_restart :
    ((World.initial noHeap).run (fun _ ↦ "") twoLives).bus.log =
        [Bus.stamped [("name", .str "ping")] 1 "day 1"] ∧
      ¬EachStep (fun before action ↦ ((World.initial noHeap).run (fun _ ↦ "") before).Appends
        ((World.initial noHeap).run (fun _ ↦ "") (before ++ [action])) action) twoLives := by
  refine ⟨by decide, fun happends ↦ ?_⟩
  obtain ⟨stored, hlog, -⟩ := happends [.emit ping "day 1", .snapshot, .resume]
    (.emit ping "day 2") [] rfl _ rfl rfl
  have hlength := congrArg List.length hlog
  rw [List.length_append, List.length_singleton] at hlength
  revert hlength
  decide

end Sample

end AgenticSDLC.EventBus
