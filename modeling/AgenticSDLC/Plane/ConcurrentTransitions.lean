import AgenticSDLC.Plane.PlanGate

/-!
# Transitions that overlap

A call of `transition` exchanges two messages with the board: it reads the
current state, and later writes the new one.  Here the messages of any number of
calls interleave.  The edge a call checks starts at the state it read, so the
board moves along legal edges as long as each write finds the board in that
state.
-/

namespace AgenticSDLC.PlaneClient

open Runs

/-- Where a call stands between its messages. -/
inductive Phase where
  | ready
  | read (cur : Option State)
  | finished
  deriving DecidableEq

inductive Message (Client : Type) where
  | read (client : Client)
  | write (client : Client)

/-- The item on the board and the phase of each client's call. -/
structure Exchange (Client : Type) where
  item : Item
  phase : Client → Phase

section Interleaving

variable {Client : Type} [DecidableEq Client] (board : Board) (call : Client → TransitionCall)

def Exchange.enter (world : Exchange Client) (client : Client) (phase : Phase) :
    Exchange Client :=
  { world with phase := Function.update world.phase client phase }

/-- `check_actor` comes before the read, `legal_edge` before the write. -/
def deliver (world : Exchange Client) : Message Client → Exchange Client
  | .read client =>
      match world.phase client with
      | .ready =>
          match checkActor (call client).role (call client).toState (call client).env with
          | .ok _ => world.enter client (.read (board.stateOf world.item))
          | .error _ => world.enter client .finished
      | _ => world
  | .write client =>
      match world.phase client with
      | .read cur =>
          match writeState board world.item cur (call client).toState with
          | .ok item => { world.enter client .finished with item := item }
          | .error _ => world.enter client .finished
      | _ => world

def deliverAll (item : Item) (messages : List (Message Client)) : Exchange Client :=
  messages.foldl (deliver board call) ⟨item, fun _ ↦ .ready⟩

theorem deliverAll_append_singleton (item : Item) (messages : List (Message Client))
    (message : Message Client) :
    deliverAll board call item (messages ++ [message]) =
      deliver board call (deliverAll board call item messages) message := by
  simp [deliverAll]

/-- A call whose two messages are delivered back to back is one `transition`. -/
theorem item_deliver_read_write (world : Exchange Client) (client : Client)
    (hready : world.phase client = .ready) :
    (deliver board call (deliver board call world (.read client)) (.write client)).item =
      transitionStep board world.item (call client) := by
  simp only [deliver, hready, transitionStep, transition]
  cases checkActor (call client).role (call client).toState (call client).env with
  | error exc => simp [Exchange.enter, Bind.bind, Except.bind]
  | ok _ =>
      simp only [Exchange.enter, Function.update_self, Bind.bind, Except.bind]
      cases writeState board world.item (board.stateOf world.item) (call client).toState <;> rfl

/-! ## Messages -/

/-- The next write of the client passes its edge check, made from `cur`. -/
def Writes (world : Exchange Client) (client : Client) (cur : State) : Prop :=
  world.phase client = .read (some cur) ∧
    ∃ item, writeState board world.item (some cur) (call client).toState = .ok item

theorem deliver_item_cases (world : Exchange Client) (message : Message Client) :
    (deliver board call world message).item = world.item ∨
      ∃ client cur, message = .write client ∧ Writes board call world client cur ∧
        legalEdge cur (call client).toState = true ∧
          board.stateOf (deliver board call world message).item =
            some (call client).toState := by
  cases message with
  | read client =>
      left
      simp only [deliver]
      split
      · split <;> rfl
      · rfl
  | write client =>
      simp only [deliver]
      split
      · next read hphase =>
          split
          · next item hwrite =>
              right
              obtain ⟨cur, sid, rfl, hedge, hsid, rfl⟩ := writeState_eq_ok_iff.mp hwrite
              exact ⟨client, cur, rfl, ⟨hphase, _, hwrite⟩, hedge, id2state_of_stateId hsid⟩
          · exact Or.inl rfl
      · exact Or.inl rfl

/-- A call holds a state only from its own read. -/
theorem deliver_phase_cases {world : Exchange Client} {message : Message Client}
    {client : Client} {cur : Option State}
    (h : (deliver board call world message).phase client = .read cur) :
    world.phase client = .read cur ∨
      (message = .read client ∧ world.phase client = .ready ∧
        board.stateOf world.item = cur) := by
  have hother : ∀ (other : Client) (phase : Phase),
      Function.update world.phase other phase client = .read cur →
        world.phase client = .read cur ∨ (other = client ∧ phase = .read cur) := by
    intro other phase hphase
    by_cases hclient : client = other
    · subst hclient
      exact Or.inr ⟨rfl, by simpa using hphase⟩
    · exact Or.inl (by simpa [Function.update_of_ne hclient] using hphase)
  cases message with
  | read other =>
      simp only [deliver] at h
      split at h
      · next hready =>
          split at h
          · rcases hother _ _ h with hold | ⟨rfl, hread⟩
            · exact Or.inl hold
            · exact Or.inr ⟨rfl, hready, Phase.read.inj hread⟩
          · rcases hother _ _ h with hold | ⟨-, hread⟩
            · exact Or.inl hold
            · cases hread
      · exact Or.inl h
  | write other =>
      left
      simp only [deliver] at h
      split at h
      · split at h <;> rcases hother _ _ h with hold | ⟨-, hread⟩
        · exact hold
        · cases hread
        · exact hold
        · cases hread
      · exact h

/-! ## Fresh writes -/

variable (item : Item)

/-- What a call holds is the state of the board at its read. -/
theorem read_remembered {messages : List (Message Client)} {client : Client}
    {cur : Option State} (h : (deliverAll board call item messages).phase client = .read cur) :
    ∃ earlier between, messages = earlier ++ .read client :: between ∧
      (deliverAll board call item earlier).phase client = .ready ∧
        board.stateOf (deliverAll board call item earlier).item = cur := by
  induction messages using List.reverseRecOn with
  | nil => cases h
  | append_singleton messages message ih =>
      rw [deliverAll_append_singleton] at h
      rcases deliver_phase_cases board call h with hold | ⟨rfl, hready, hcur⟩
      · obtain ⟨earlier, between, rfl, hready, hcur⟩ := ih hold
        exact ⟨earlier, between ++ [message], by simp, hready, hcur⟩
      · exact ⟨messages, [], rfl, hready, hcur⟩

/-- A write that passes its check finds the board in the state it had when the
same call read it. -/
def Fresh (before : List (Message Client)) (message : Message Client) : Prop :=
  ∀ client earlier between, message = .write client →
    before = earlier ++ .read client :: between →
      (deliverAll board call item earlier).phase client = .ready →
        (∃ cur, Writes board call (deliverAll board call item before) client cur) →
          board.stateOf (deliverAll board call item before).item =
            board.stateOf (deliverAll board call item earlier).item

/-- A message that changes the board state moves it along a legal edge, and out
of no terminal state. -/
def MovesLegally (before : List (Message Client)) (message : Message Client) : Prop :=
  ∀ cur next, board.stateOf (deliverAll board call item before).item = some cur →
    board.stateOf (deliverAll board call item (before ++ [message])).item = some next →
      cur ≠ next → legalEdge cur next = true ∧ cur ∉ terminal

theorem movesLegally_of_fresh {before : List (Message Client)} {message : Message Client}
    (hfresh : Fresh board call item before message) :
    MovesLegally board call item before message := by
  intro cur next hcur hnext hne
  rw [deliverAll_append_singleton] at hnext
  rcases deliver_item_cases board call (deliverAll board call item before) message with
    hsame | ⟨client, read, hmessage, hwrites, hedge, hmoved⟩
  · rw [hsame, hcur] at hnext
    exact absurd (Option.some.inj hnext) hne
  · obtain ⟨earlier, between, hbefore, hready, hread⟩ :=
      read_remembered board call item hwrites.1
    have hnow := hfresh client earlier between hmessage hbefore hready ⟨read, hwrites⟩
    obtain rfl : read = cur := Option.some.inj (hread.symm.trans (hnow.symm.trans hcur))
    obtain rfl : (call client).toState = next := Option.some.inj (hmoved.symm.trans hnext)
    exact ⟨hedge, not_terminal_of_legalEdge hedge⟩

/-- Any interleaving in which no write is stale keeps the board legal. -/
theorem fresh_interleaving_legal (messages : List (Message Client))
    (hfresh : EachStep (Fresh board call item) messages) :
    EachStep (MovesLegally board call item) messages :=
  fun before message after hmessages ↦
    movesLegally_of_fresh board call item (hfresh before message after hmessages)

end Interleaving

/-- The verifier proves the item while an implementer blocks it. -/
def racingCalls : Bool → TransitionCall
  | true => ⟨.done, .verifier, fun name ↦
      if name = "ASCP_VERIFIER_SECRET" then some "secret" else none⟩
  | false => ⟨.blocked, .implementer, fun _ ↦ none⟩

/-- Both calls read In-Verification, the verifier writes Done, and the late
write takes the item out of it. -/
theorem race_leaves_done :
    ¬EachStep (MovesLegally sampleBoard racingCalls (sampleItem "id-07"))
      [.read true, .read false, .write true, .write false] := by
  intro hlegal
  have hlast := hlegal [.read true, .read false, .write true] (.write false) [] rfl
    .done .blocked rfl rfl (by simp)
  simp [terminal] at hlast

theorem fresh_interleaving_sample :
    EachStep (MovesLegally sampleBoard racingCalls (sampleItem "id-07"))
      ([] ++ [.read true] ++ [.write true]) := by
  apply fresh_interleaving_legal sampleBoard racingCalls (sampleItem "id-07") _
  rw [eachStep_append_singleton, eachStep_append_singleton]
  refine ⟨⟨eachStep_nil _, fun client _ _ hwrite ↦ by cases hwrite⟩, ?_⟩
  intro client earlier between _ hbefore _ _
  cases earlier with
  | nil => rfl
  | cons first rest => simp at hbefore

end AgenticSDLC.PlaneClient
