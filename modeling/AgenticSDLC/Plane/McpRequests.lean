import AgenticSDLC.Plane.McpServer

/-!
# What the MCP server sends

The tools of `plane-integration/plane_mcp_server.py` that are not marked as writing only read the
board, and each of the others writes at most once, however often the write is tried again.
-/

namespace AgenticSDLC.PlaneMcpServer

open Python (Exception)
open Effects (Contract Silent after after_bind_of_error after_bind_of_ok
  after_bind_silent after_throw lift_eq_ok_iff after_tryCatch_silent silent_pure silent_lift)
open Effects.Contract (kept_get kept_lift kept_pure kept_throw obeyed_lift obeyed_modify)

section Reading

variable {env : Env} {board : Board}

/-- The computation only reads the board, and keeps the cache as it should be. -/
def reading (valid : Option (List (Json × Json)) → Prop) : Contract Session :=
  .logging (fun s ↦ valid s.states) Session.sent fun request ↦
    request.method = "GET" ∧ request.data = none

def ReadsOnly {α : Type} (m : Effect α) : Prop := (reading fun _ ↦ True).Kept m

variable {valid : Option (List (Json × Json)) → Prop}

theorem kept_attempts (path : String) (retries : ℕ) (lastErr : Option String) :
    (reading valid).Kept (attempts env board "GET" path .null retries lastErr) := by
  induction retries generalizing lastErr with
  | zero => exact kept_throw _
  | succ retries ih =>
      rw [attempts]
      refine Contract.Kept.bind ?_ fun response ↦ ?_
      · intro s hs
        refine ⟨hs, ⟨[_], rfl, List.forall_mem_singleton.mpr ⟨rfl, by simp⟩⟩, trivial⟩
      · cases response with
        | body status raw =>
            simp only
            split_ifs
            · exact kept_pure _
            · split
              · exact kept_pure _
              · exact kept_throw _
        | httpError code text =>
            simp only
            split_ifs
            · exact ih _
            · exact ih _
            · exact kept_throw _
        | urlError text => exact ih _
        | raises exc => exact kept_throw _

theorem kept_api (path : String) : (reading valid).Kept (api env board "GET" path .null) :=
  kept_attempts path 6 none

theorem readsOnly_statesMap : ReadsOnly (statesMap env board) := by
  refine kept_get.bind fun s ↦ ?_
  split
  · exact kept_pure _
  · refine (kept_api _).bind fun answer ↦ (kept_lift _).bind fun rows ↦
      (kept_lift _).bind fun m ↦ Contract.Kept.bind ?_ fun _ ↦ kept_pure m
    exact obeyed_modify fun s _ ↦ ⟨trivial, ⟨[], by simp, by simp⟩⟩

theorem readsOnly_resolveState (nameOrId : Json) : ReadsOnly (resolveState env board nameOrId) := by
  rw [resolveState]
  split_ifs
  · exact kept_pure _
  · refine readsOnly_statesMap.bind fun m ↦ (kept_lift _).bind fun _ ↦ ?_
    split
    · exact kept_pure _
    · exact kept_pure _

theorem readsOnly_stateField (fields : List (String × Json)) :
    ReadsOnly (stateField env board fields) := by
  rw [stateField]
  split_ifs
  · exact kept_pure _
  · exact (readsOnly_resolveState _).bind fun sid ↦ kept_pure _

/-! ## One write -/

/-- The requests that only read, and after them one that does `action`, sent up to six times. -/
def Wrote (action : HttpRequest → Prop) (s t : Session) : Prop :=
  ∃ reads k write, t.sent = s.sent ++ (reads ++ List.replicate k write) ∧ k ≤ 6 ∧
    (k = 0 ∨ action write) ∧ ∀ request ∈ reads, request.method = "GET" ∧ request.data = none

/-- The computation keeps the cache as it should be, and its only write does `action`. -/
def Writes (valid : Option (List (Json × Json)) → Prop) (action : HttpRequest → Prop) {α : Type}
    (m : Effect α) : Prop :=
  ∀ s, valid s.states → valid (after m s).states ∧ Wrote action s (after m s)

def WritesOnce {α : Type} (m : Effect α) : Prop := Writes (fun _ ↦ True) (fun _ ↦ True) m

variable {action : HttpRequest → Prop} {α β : Type}

theorem reads_after {m : Effect α} {p : α → Prop} (h : (reading valid).Obeyed m p) {s : Session}
    (hs : valid s.states) : ∃ reads, (after m s).sent = s.sent ++ reads ∧
      ∀ request ∈ reads, request.method = "GET" ∧ request.data = none :=
  h.rel_after hs

theorem writes_of_reads {m : Effect α} {p : α → Prop} (h : (reading valid).Obeyed m p) :
    Writes valid action m := by
  intro s hs
  obtain ⟨reads, hsent, hreads⟩ := reads_after h hs
  exact ⟨h.inv_after hs, reads, 0, ⟨"", "", none⟩, by simpa using hsent, Nat.zero_le _, Or.inl rfl,
    hreads⟩

theorem bind_writes {m : Effect α} {f : α → Effect β} {p : α → Prop}
    (hm : (reading valid).Obeyed m p) (hf : ∀ a, p a → Writes valid action (f a)) :
    Writes valid action (m >>= f) := by
  intro s hs
  have hfirst := hm s hs
  cases hrun : m s with
  | error e t =>
      rw [after_bind_of_error hrun]
      rw [hrun] at hfirst
      obtain ⟨ht, reads, hsent, hreads⟩ := hfirst
      exact ⟨ht, reads, 0, ⟨"", "", none⟩, by simpa using hsent, Nat.zero_le _, Or.inl rfl, hreads⟩
  | ok a t =>
      rw [after_bind_of_ok hrun]
      rw [hrun] at hfirst
      obtain ⟨ht, ⟨first, hfirst, hfirsts⟩, ha⟩ := hfirst
      obtain ⟨hvalid, reads, k, write, hsent, hk, haction, hreads⟩ := hf a ha t ht
      refine ⟨hvalid, first ++ reads, k, write, ?_, hk, haction,
        List.forall_mem_append.mpr ⟨hfirsts, hreads⟩⟩
      rw [hsent, hfirst]
      simp

theorem kept_bind_writes {m : Effect α} {f : α → Effect β} (hm : (reading valid).Kept m)
    (hf : ∀ a, Writes valid action (f a)) : Writes valid action (m >>= f) :=
  bind_writes hm fun a _ ↦ hf a

theorem lift_writes {x : Except Exception α} {f : α → Effect β}
    (hf : ∀ a, x = .ok a → Writes valid action (f a)) : Writes valid action (liftM x >>= f) :=
  bind_writes (p := fun a ↦ x = .ok a) (obeyed_lift fun _ ha ↦ ha) hf

/-- All attempts send one request. -/
theorem after_attempts (env : Env) (board : Board) (method path : String) (body : Json)
    (retries : ℕ) (lastErr : Option String) (s : Session) : ∃ k ≤ retries,
      after (attempts env board method path body retries lastErr) s =
        { s with
          sent := s.sent ++ List.replicate k
            ⟨method, env.apiBase ++ path, if body = .null then none else some body⟩ } := by
  induction retries generalizing lastErr s with
  | zero => exact ⟨0, Nat.le_refl 0, by simp [attempts, after_throw]⟩
  | succ retries ih =>
      set request : HttpRequest :=
        ⟨method, env.apiBase ++ path, if body = .null then none else some body⟩ with hrequest
      set s' : Session := { s with sent := s.sent ++ [request] } with hs'
      have hstop : ∃ k ≤ retries + 1, s' = { s with sent := s.sent ++ List.replicate k request } :=
        ⟨1, Nat.succ_le_succ (Nat.zero_le _), rfl⟩
      have hagain : ∀ lastErr, ∃ k ≤ retries + 1,
          after (attempts env board method path body retries lastErr) s' =
            { s with sent := s.sent ++ List.replicate k request } := by
        intro lastErr
        obtain ⟨k, hk, hsent⟩ := ih lastErr s'
        refine ⟨k + 1, Nat.succ_le_succ hk, ?_⟩
        rw [hsent, List.replicate_succ, hs']
        simp
      have hrun : ∀ f : Response → Effect Json,
          after (send board request >>= f) s = after (f (board s'.sent)) s' := fun f ↦ rfl
      rw [attempts, hrun]
      cases board s'.sent with
      | body status raw =>
          simp only
          split_ifs
          · exact hstop
          · cases Json.loads env.toFloat raw <;> exact hstop
      | httpError code text =>
          simp only
          split_ifs
          · exact hagain _
          · exact hagain _
          · exact hstop
      | urlError text => exact hagain _
      | raises exc => exact hstop

theorem writes_api {method path : String} {body : Json}
    (h : action ⟨method, env.apiBase ++ path, if body = .null then none else some body⟩) :
    Writes valid action (api env board method path body) := by
  intro s hs
  obtain ⟨k, hk, hafter⟩ := after_attempts env board method path body 6 none s
  rw [api, hafter]
  exact ⟨hs, [], k, _, rfl, hk, Or.inr h, by simp⟩

theorem writesOnce_api (method path : String) (body : Json) :
    WritesOnce (api env board method path body) :=
  writes_api trivial

/-! ## The tools -/

theorem kept_tListIssues (hresolve : ∀ nameOrId, (reading valid).Kept (resolveState env board nameOrId))
    (a : Json) : (reading valid).Kept (tListIssues env board a) := by
  refine (kept_lift _).bind fun fields ↦ (kept_lift _).bind fun qs ↦ (kept_api _).bind fun answer ↦
    (kept_lift _).bind fun search ↦ (hresolve _).bind fun sid ↦ ?_
  exact (kept_lift _).bind fun items ↦ (kept_lift _).bind fun listed ↦
    (kept_lift _).bind fun n ↦ kept_pure _

theorem writesOnce_tUpdateIssue (a : Json) : WritesOnce (tUpdateIssue env board a) := by
  refine lift_writes fun fields _ ↦ kept_bind_writes (readsOnly_stateField fields) fun state ↦ ?_
  dsimp only
  split_ifs
  · exact writes_of_reads (kept_throw _)
  · exact lift_writes fun issueId _ ↦ writesOnce_api _ _ _

theorem writesOnce_tTransition (a : Json) : WritesOnce (tTransition env board a) := by
  refine lift_writes fun toState _ ↦ lift_writes fun role _ ↦ lift_writes fun _ _ ↦
    kept_bind_writes (readsOnly_resolveState _) fun sid ↦ ?_
  split_ifs
  · exact writes_of_reads (kept_throw _)
  · exact lift_writes fun issueId _ ↦ writesOnce_api _ _ _

theorem writesOnce_tPostEvidence (a : Json) : WritesOnce (tPostEvidence env board a) := by
  refine lift_writes fun fields _ ↦ lift_writes fun testFile _ ↦ lift_writes fun testName _ ↦ ?_
  exact lift_writes fun outputHash _ ↦ lift_writes fun collectedAt _ ↦
    lift_writes fun issueId _ ↦ writesOnce_api _ _ _

theorem writesOnce_tRequest (a : Json) : WritesOnce (tRequest env board a) := by
  refine lift_writes fun path _ ↦ lift_writes fun path _ ↦ lift_writes fun method _ ↦ ?_
  exact lift_writes fun method _ ↦ lift_writes fun fields _ ↦ writesOnce_api _ _ _

/-- A tool that is not marked as writing only reads, and every other one writes once. -/
def KeepsItsMark (entry : ToolEntry) : Prop :=
  ∀ env board a, if entry.isWrite = true then WritesOnce (entry.handler env board a)
    else ReadsOnly (entry.handler env board a)

theorem tools_keep_their_marks : ∀ tool ∈ tools, KeepsItsMark tool.2 := by
  simp only [tools, List.forall_mem_cons]
  refine ⟨?_, ?_, ?_, ?_, ?_, ?_, ?_, ?_, ?_, ?_, ?_, ?_, ?_, ?_, List.forall_mem_nil _⟩ <;>
    intro env board a
  · exact readsOnly_statesMap.bind fun m ↦ kept_pure _
  · exact (kept_api _).bind fun answer ↦ kept_pure _
  · exact kept_tListIssues readsOnly_resolveState a
  · exact (kept_lift _).bind fun issueId ↦ kept_api _
  · exact lift_writes fun name _ ↦ lift_writes fun fields _ ↦
      kept_bind_writes (readsOnly_stateField fields) fun state ↦ writesOnce_api _ _ _
  · exact writesOnce_tUpdateIssue a
  · exact writesOnce_tTransition a
  · exact lift_writes fun issueId _ ↦ lift_writes fun comment _ ↦ writesOnce_api _ _ _
  · exact writesOnce_tPostEvidence a
  · exact (kept_api _).bind fun answer ↦ kept_pure _
  · exact (kept_api _).bind fun answer ↦ kept_pure _
  · exact lift_writes fun target _ ↦ lift_writes fun issues _ ↦ writesOnce_api _ _ _
  · exact lift_writes fun target _ ↦ lift_writes fun issues _ ↦ writesOnce_api _ _ _
  · exact writesOnce_tRequest a

end Reading

section Lines

variable {env : Env} {board : Board}

/-- The message calls a tool that is marked as writing. -/
def callsWrite : Json → Bool
  | .obj fields =>
      match Python.asDict (orEmpty (Python.get fields "params")) with
      | .ok params => Python.get fields "method" = .str "tools/call" &&
          ((tools.find? fun tool ↦ Json.str tool.1 = Python.get params "name").map
            fun tool ↦ tool.2.isWrite).getD false
      | .error _ => false
  | _ => false

/-- The tool that a message calls, and the arguments. -/
def calledBy : Json → Option ((String × ToolEntry) × Json)
  | .obj fields =>
      match Python.asDict (orEmpty (Python.get fields "params")) with
      | .ok params =>
          if Python.get fields "method" = .str "tools/call" then
            (tools.find? fun tool ↦ Json.str tool.1 = Python.get params "name").map
              fun tool ↦ (tool, Python.get params "arguments")
          else none
      | .error _ => none
  | _ => none

theorem callsWrite_eq (msg : Json) :
    callsWrite msg = ((calledBy msg).map fun called ↦ called.1.2.isWrite).getD false := by
  cases msg with
  | obj fields =>
      simp only [callsWrite, calledBy]
      cases Python.asDict (orEmpty (Python.get fields "params")) with
      | error e => rfl
      | ok params =>
          simp only
          split_ifs with hcall
          · simp [hcall, Option.map_map, Function.comp_def]
          · simp [hcall]
  | _ => rfl

/-- All that a message does to the session, the tool that it calls does. -/
def CallsOnly (called : Option ((String × ToolEntry) × Json)) (env : Env) (board : Board)
    (s t : Session) : Prop :=
  t = s ∨ ∃ tool ∈ tools, ∃ a, called = some (tool, a) ∧
    t = after (tool.2.handler env board (orEmpty a)) s

theorem callsOnly_silent {α : Type} {m : Effect α} (h : Silent m)
    (called : Option ((String × ToolEntry) × Json)) (s : Session) :
    CallsOnly called env board s (after m s) :=
  Or.inl (h s)

theorem after_callTool (entry : ToolEntry) (args : Json) (s : Session) :
    after (callTool env board entry args) s = after (entry.handler env board args) s := by
  rw [callTool, after_tryCatch_silent _ fun e ↦ silent_pure _,
    after_bind_silent _ fun out ↦ silent_pure _]

theorem after_toolsCall (mid : Json) (params : List (String × Json)) (s : Session) :
    CallsOnly ((tools.find? fun tool ↦ Json.str tool.1 = Python.get params "name").map
      fun tool ↦ (tool, Python.get params "arguments")) env board s
        (after (toolsCall env board mid params) s) := by
  refine (silent_lift _).after_bind (Or.inl rfl) fun _ ↦ ?_
  cases htool : tools.find? fun tool ↦ Json.str tool.1 = Python.get params "name" with
  | none => exact callsOnly_silent (silent_pure _) _ s
  | some tool =>
      refine Or.inr ⟨tool, List.mem_of_find?_eq_some htool, _, rfl, ?_⟩
      exact (after_bind_silent _ (fun result ↦ silent_pure _) s).trans (after_callTool _ _ s)

theorem after_handleFields (fields : List (String × Json)) (s : Session) :
    CallsOnly (calledBy (.obj fields)) env board s (after (handleFields env board fields) s) := by
  simp only [handleFields]
  split_ifs with hinit hnote hping hlist hcall hid
  · exact callsOnly_silent ((silent_lift _).bind fun params ↦ silent_pure _) _ s
  · exact callsOnly_silent (silent_pure _) _ s
  · exact callsOnly_silent (silent_pure _) _ s
  · exact callsOnly_silent (silent_pure _) _ s
  · cases hparams : Python.asDict (orEmpty (Python.get fields "params")) with
    | error e => exact Or.inl rfl
    | ok params =>
        simp only [calledBy, hparams, if_pos hcall]
        exact after_toolsCall (Python.get fields "id") params s
  · exact callsOnly_silent (silent_pure _) _ s
  · exact callsOnly_silent (silent_pure _) _ s

/-- The reply to an exception sends nothing. -/
theorem after_respond_eq (msg : Json) (s : Session) :
    after (respond env board msg) s = after (handle env board msg) s := by
  apply after_tryCatch_silent
  refine fun exc ↦ (silent_lift _).bind fun present ↦ ?_
  cases present with
  | false => exact silent_pure _
  | true => exact (silent_lift _).bind fun mid ↦ silent_pure _

theorem after_respond (msg : Json) (s : Session) :
    CallsOnly (calledBy msg) env board s (after (respond env board msg) s) := by
  rw [after_respond_eq]
  cases msg with
  | obj fields => exact after_handleFields fields s
  | _ => exact Or.inl rfl

/-- The tool that a line calls, and the arguments. -/
def calledOn (env : Env) (line : String) : Option ((String × ToolEntry) × Json) :=
  (messageOn env line).bind calledBy

theorem after_onLine (env : Env) (board : Board) (line : String) (s : Session) :
    CallsOnly (calledOn env line) env board s (after (onLine env board line) s) := by
  rw [onLine, calledOn]
  cases messageOn env line with
  | none => exact Or.inl rfl
  | some msg => exact after_respond msg s

/-- A line that calls a tool does what the tool does. -/
theorem after_onLine_of_called {line : String} {tool : String × ToolEntry} {a : Json}
    (h : calledOn env line = some (tool, a)) (s : Session) :
    after (onLine env board line) s = after (tool.2.handler env board (orEmpty a)) s := by
  obtain ⟨msg, hmsg, hcalled⟩ := Option.bind_eq_some_iff.mp h
  rw [onLine, hmsg]
  cases msg with
  | obj fields =>
      rw [after_respond_eq]
      have hhandle : handle env board (.obj fields) = handleFields env board fields := rfl
      rw [hhandle]
      simp only [calledBy] at hcalled
      cases hparams : Python.asDict (orEmpty (Python.get fields "params")) with
      | error e => simp [hparams] at hcalled
      | ok params =>
          simp only [hparams] at hcalled
          split_ifs at hcalled with hmethod
          obtain ⟨called, hfind, hpair⟩ := Option.map_eq_some_iff.mp hcalled
          obtain ⟨rfl, rfl⟩ := Prod.mk.inj hpair
          have hname : Json.str called.1 = Python.get params "name" := by
            simpa using List.find?_some hfind
          have hkey : Python.hashKey (Python.get params "name") = .ok (.str called.1) :=
            Python.hashKey_eq_str_iff.mpr hname.symm
          have hcall : after (toolsCall env board (Python.get fields "id") params) s =
              after (called.2.handler env board (orEmpty (Python.get params "arguments"))) s := by
            rw [toolsCall, after_bind_of_ok (lift_eq_ok_iff.mpr ⟨hkey, rfl⟩), hfind]
            exact (after_bind_silent _ (fun result ↦ silent_pure _) s).trans (after_callTool _ _ s)
          rw [← hcall]
          simp only [handleFields, hmethod, hparams]
          rfl
  | _ => cases hcalled

/-! ## What one line sends -/

/-- What one line sends: reads, and then a write, up to six times, if it calls for one. -/
def SentBy (writes : Bool) (requests : List HttpRequest) : Prop :=
  ∃ reads k write, requests = reads ++ List.replicate k write ∧ k ≤ 6 ∧
    (writes = false → k = 0) ∧ ∀ request ∈ reads, request.method = "GET" ∧ request.data = none

def Sends (writes : Bool) (s t : Session) : Prop :=
  ∃ requests, t.sent = s.sent ++ requests ∧ SentBy writes requests

theorem sends_refl (writes : Bool) (s : Session) : Sends writes s s :=
  ⟨[], (List.append_nil _).symm, [], 0, ⟨"", "", none⟩, rfl, Nat.zero_le _, fun _ ↦ rfl, by simp⟩

theorem sends_handler {entry : ToolEntry} (h : KeepsItsMark entry) (a : Json) (s : Session) :
    Sends entry.isWrite s (after (entry.handler env board a) s) := by
  have hmark := h env board a
  cases hwrite : entry.isWrite with
  | true =>
      rw [if_pos hwrite] at hmark
      obtain ⟨-, reads, k, write, hsent, hk, -, hreads⟩ := hmark s trivial
      exact ⟨_, hsent, reads, k, write, rfl, hk, by simp, hreads⟩
  | false =>
      rw [if_neg (by simp [hwrite])] at hmark
      obtain ⟨reads, hsent, hreads⟩ := reads_after hmark (s := s) trivial
      exact ⟨reads, hsent, reads, 0, ⟨"", "", none⟩, (List.append_nil _).symm, Nat.zero_le _,
        fun _ ↦ rfl, hreads⟩

/-- The line calls a tool that is marked as writing. -/
def writesOn (env : Env) (line : String) : Bool := ((messageOn env line).map callsWrite).getD false

theorem writesOn_eq (env : Env) (line : String) :
    writesOn env line = ((calledOn env line).map fun called ↦ called.1.2.isWrite).getD false := by
  rw [writesOn, calledOn]
  cases messageOn env line with
  | none => rfl
  | some msg => exact callsWrite_eq msg

theorem sends_onLine (env : Env) (board : Board) (line : String) (s : Session) :
    Sends (writesOn env line) s (after (onLine env board line) s) := by
  rcases after_onLine env board line s with hsame | ⟨tool, htool, a, hcalled, hafter⟩
  · rw [hsame]
    exact sends_refl _ s
  · rw [hafter, writesOn_eq, hcalled]
    exact sends_handler (tools_keep_their_marks tool htool) _ s

/-- Line by line, only a call of a tool that is marked as writing sends anything but a read, and
it sends one write, at most six times. -/
theorem serve_sends (env : Env) (board : Board) (lines : List String) (s : Session) :
    ∃ chunks, (serve env board lines s).session.sent = s.sent ++ chunks.flatten ∧
      List.Forall₂ (fun line chunk ↦ SentBy (writesOn env line) chunk)
        (lines.take chunks.length) chunks := by
  induction lines generalizing s with
  | nil => exact ⟨[], (List.append_nil _).symm, .nil⟩
  | cons line lines ih =>
      obtain ⟨chunk, hchunk, hsent⟩ := sends_onLine env board line s
      rw [serve]
      cases hrun : onLine env board line s with
      | error exc t =>
          rw [after, hrun] at hchunk
          exact ⟨[chunk], by simpa using hchunk, .cons hsent .nil⟩
      | ok reply t =>
          rw [after, hrun] at hchunk
          obtain ⟨chunks, hrest, hchunks⟩ := ih t
          exact ⟨chunk :: chunks, by simp [hrest, hchunk], .cons hsent hchunks⟩

end Lines

end AgenticSDLC.PlaneMcpServer
