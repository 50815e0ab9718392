import AgenticSDLC.Control.ReasoningLoop
import AgenticSDLC.Foundations.JsonColons
import AgenticSDLC.Foundations.JsonFloats

/-!
# Loops of tool calls

`reasoning_loop_signature` of `tools/observability.py`: the tool and the canonical text of its
arguments, with two colons in between.  Names of tools and strings in the arguments may have
colons as well, and still no two different calls have one signature, so that the detector on
signatures detects loops of calls.
-/

namespace AgenticSDLC.ReasoningLoop

/-! ## Signatures -/

/-- A tool call; `None` for the arguments is the same as none of them. -/
structure Call where
  tool : String
  args : Option (List (String × Json))

def Call.arguments (call : Call) : Json := .obj (call.args.getD [])

/-- `reasoning_loop_signature`. -/
def Call.signature (repr : Json → String) (call : Call) : String :=
  call.tool ++ "::" ++ Json.dumps repr call.arguments

/-- One tool with the same arguments, up to the order of their keys. -/
def Call.Same (call other : Call) : Prop :=
  call.tool = other.tool ∧ call.arguments.sortKeys = other.arguments.sortKeys

section Signatures

variable {repr : Json → String} {toFloat : String → Json}

theorem toList_signature (repr : Json → String) (call : Call) :
    ∃ members, call.arguments.sortKeys = .obj members ∧
      (call.signature repr).toList = call.tool.toList ++ ([':', ':'] ++
        Json.written Json.canonicalQuoting repr (.obj members)) := by
  refine ⟨_, rfl, ?_⟩
  rw [Call.signature, Json.dumps, String.toList_append, String.toList_append, Json.toList_text,
    List.append_assoc]
  rfl

theorem signature_eq_iff (hfloats : Json.FloatTexts repr toFloat) {call other : Call}
    (hcall : call.arguments.Native fun _ ↦ True) (hother : other.arguments.Native fun _ ↦ True) :
    call.signature repr = other.signature repr ↔ call.Same other := by
  obtain ⟨members, hmembers, htext⟩ := toList_signature repr call
  obtain ⟨members', hmembers', htext'⟩ := toList_signature repr other
  constructor
  · intro h
    have hlist := congrArg String.toList h
    rw [htext, htext'] at hlist
    obtain ⟨htool, hargs⟩ := Json.append_colons_inj hfloats hlist
    refine ⟨String.toList_injective htool, ?_⟩
    rw [← hmembers, ← hmembers', Json.written_eq_laidOut, Json.written_eq_laidOut] at hargs
    exact Json.laidOut_inj _ repr .none toFloat
      (Json.native_sortKeys (fun x _ ↦ hfloats.readsFloat x) _ hcall)
      (Json.native_sortKeys (fun x _ ↦ hfloats.readsFloat x) _ hother) hargs
  · rintro ⟨htool, hargs⟩
    rw [Call.signature, Call.signature, Json.dumps, Json.dumps, htool, hargs]

/-- The calls of a stretch of one signature are the same call. -/
theorem same_of_signatures (hfloats : Json.FloatTexts repr toFloat) {calls : List Call}
    (hnative : ∀ call ∈ calls, call.arguments.Native fun _ ↦ True) {size : ℕ} {signature : String}
    (h : calls.map (Call.signature repr) = List.replicate size signature) :
    ∀ call ∈ calls, ∀ other ∈ calls, call.Same other := by
  intro call hcall other hother
  have hmem : ∀ call ∈ calls, call.signature repr = signature := fun call hcall ↦
    List.eq_of_mem_replicate (h ▸ List.mem_map_of_mem hcall)
  rw [← signature_eq_iff hfloats (hnative call hcall) (hnative other hother), hmem call hcall,
    hmem other hother]

/-- The stretch of the calls that a block of their signatures covers. -/
theorem exists_stretch {calls : List Call} (b : Block (calls.map (Call.signature repr))) :
    ∃ front stretch back, calls = front ++ stretch ++ back ∧ front.length = b.start ∧
      stretch.map (Call.signature repr) = List.replicate b.size b.value := by
  have hstop := b.start_lt_length
  have happend := b.eq_append
  obtain ⟨firsts, back, rfl, hfirsts, hback⟩ := List.map_eq_append_iff.mp happend
  obtain ⟨front, stretch, rfl, hfront, hstretch⟩ := List.map_eq_append_iff.mp hfirsts
  refine ⟨front, stretch, back, rfl, ?_, hstretch⟩
  have hlength := congrArg List.length hfront
  rw [List.length_map, List.length_take] at hlength
  omega

/-- The calls are one call, made over and over. -/
def Repeats (calls : List Call) : Prop := ∀ call ∈ calls, ∀ other ∈ calls, call.Same other

/-- The calls that a block of signatures stands for. -/
theorem exists_call (hfloats : Json.FloatTexts repr toFloat) {calls : List Call}
    (hnative : ∀ call ∈ calls, call.arguments.Native fun _ ↦ True)
    (b : Block (calls.map (Call.signature repr))) :
    ∃ front call stretch back, calls = front ++ (call :: stretch) ++ back ∧
      front.length = b.start ∧ call.signature repr = b.value ∧ b.size = stretch.length + 1 ∧
        Repeats (call :: stretch) := by
  obtain ⟨front, stretch, back, rfl, hfront, hstretch⟩ := exists_stretch b
  have hlength := congrArg List.length hstretch
  have hpos := b.size_pos
  rw [List.length_map, List.length_replicate] at hlength
  obtain ⟨call, rest, rfl⟩ : ∃ call rest, stretch = call :: rest :=
    List.exists_cons_of_length_pos (by omega)
  refine ⟨front, call, rest, back, rfl, hfront, ?_, hlength.symm, ?_⟩
  · exact List.eq_of_mem_replicate (hstretch ▸ List.mem_map_of_mem List.mem_cons_self)
  · exact same_of_signatures hfloats (fun other hother ↦ hnative other
      (List.mem_append_left _ (List.mem_append_right _ hother))) hstretch

theorem exists_block_iff (hfloats : Json.FloatTexts repr toFloat) {calls : List Call}
    (hnative : ∀ call ∈ calls, call.arguments.Native fun _ ↦ True) {threshold : ℤ}
    (hpos : 1 ≤ threshold) (n : ℕ) :
    (∃ b : Block (calls.map (Call.signature repr)), threshold ≤ b.size ∧ b.start = n) ↔
      ∃ front stretch back, calls = front ++ stretch ++ back ∧ threshold ≤ stretch.length ∧
        front.length = n ∧ Repeats stretch := by
  constructor
  · rintro ⟨b, hsize, hstart⟩
    obtain ⟨front, call, stretch, back, hcalls, hfront, -, hcount, hsame⟩ :=
      exists_call hfloats hnative b
    refine ⟨front, call :: stretch, back, hcalls, ?_, hfront.trans hstart, hsame⟩
    rw [List.length_cons, ← hcount]
    exact hsize
  · rintro ⟨front, stretch, back, rfl, hsize, hfront, hsame⟩
    obtain ⟨call, rest, rfl⟩ : ∃ call rest, stretch = call :: rest :=
      List.exists_cons_of_length_pos (by omega)
    have hstretch : (call :: rest).map (Call.signature repr) =
        List.replicate (call :: rest).length (call.signature repr) := by
      rw [← List.map_const']
      refine List.map_congr_left fun other hother ↦ ?_
      have hmem : ∀ call' ∈ call :: rest, call'.arguments.Native fun _ ↦ True := fun call' hcall' ↦
        hnative call' (List.mem_append_left _ (List.mem_append_right _ hcall'))
      exact (signature_eq_iff hfloats (hmem other hother) (hmem call List.mem_cons_self)).mpr
        (hsame other hother call List.mem_cons_self)
    have hcalls : (front ++ (call :: rest) ++ back).map (Call.signature repr) =
        front.map (Call.signature repr) ++
          List.replicate (call :: rest).length (call.signature repr) ++
            back.map (Call.signature repr) := by
      rw [List.map_append, List.map_append, hstretch]
    rw [hcalls]
    refine ⟨.ofAppend _ _ _ _ (Nat.succ_pos _), hsize, ?_⟩
    rw [← hfront]
    exact List.length_map _

end Signatures

/-! ## A sample -/

/-- One call, with its arguments in either order, and a text in them that looks like a call. -/
def sampleCalls : List Call :=
  [⟨"Bash", some [("a", .str "ls::\x7b\x7d"), ("b", .int 1)]⟩,
    ⟨"Bash", some [("b", .int 1), ("a", .str "ls::\x7b\x7d")]⟩,
    ⟨"Bash", some [("a", .str "ls::\x7b\x7d"), ("b", .int 1)]⟩]

end AgenticSDLC.ReasoningLoop
