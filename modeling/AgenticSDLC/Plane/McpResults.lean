import AgenticSDLC.Plane.McpRefinement
import Mathlib.Data.List.ReduceOption

/-!
# What the results of the MCP server read as

`plane-integration/plane_mcp_server.py` puts what a tool returns into a reply as indented JSON
in a text.  Whoever reads the text of a result gets what the tool returned.
-/

namespace AgenticSDLC.PlaneMcpServer

open Effects (Contract after bind_eq_ok_iff lift_eq_ok_iff pure_eq_ok_iff tryCatch_eq_ok_iff)
open Effects.Contract (kept_lift kept_pure kept_throw obeyed_bind obeyed_get obeyed_lift
  obeyed_modify obeyed_pure obeyed_throw obeyed_tryCatch)
open Python (Exception)

/-! ## Values of an interpreter -/

/-- A value as an interpreter can hold it: no object has a key twice. -/
abbrev Held (value : Json) : Prop := value.Native fun _ ↦ True

theorem held_results {value : Json} (h : Held value) : Held (results value) := by
  cases value with
  | obj members =>
      rw [results]
      cases hlookup : members.lookup "results" with
      | none => exact h
      | some rows =>
          have hget := Json.native_get h "results"
          rwa [Python.get, hlookup] at hget
  | _ => exact h

theorem held_of_iterate {value : Json} (h : Held value) {items : List Json}
    (hitems : Python.iterate value = .ok items) : ∀ item ∈ items, Held item := by
  cases value with
  | arr others =>
      obtain rfl := Except.ok.inj hitems
      exact Json.native_arr_iff.mp h
  | obj members =>
      obtain rfl := Except.ok.inj hitems
      exact List.forall_mem_map.mpr fun _ _ ↦ trivial
  | str s =>
      obtain rfl := Except.ok.inj hitems
      exact List.forall_mem_map.mpr fun _ _ ↦ trivial
  | _ => cases hitems

theorem held_of_subscript {value member : Json} (h : Held value) {key : String}
    (hmember : Python.subscript value key = .ok member) : Held member := by
  obtain ⟨members, rfl, hlookup⟩ := Python.subscript_eq_ok_iff.mp hmember
  have hget := Json.native_get h key
  rwa [Python.get, hlookup] at hget

section Tools

variable {env : Env} {board : Board}

/-- The names in the cache are values of the interpreter. -/
def namesHeld : Contract Session :=
  (Contract.any Session).on fun s ↦ ∀ m, s.states = some m → ∀ entry ∈ m, Held entry.1

theorem obeyed_api (hfloats : Json.FloatTexts env.repr env.toFloat) (method path : String)
    (body : Json) : namesHeld.Obeyed (api env board method path body) Held := by
  have hattempts : ∀ retries lastErr,
      namesHeld.Obeyed (attempts env board method path body retries lastErr) Held := by
    intro retries
    induction retries with
    | zero => exact fun _ ↦ obeyed_throw _
    | succ retries ih =>
        intro lastErr
        rw [attempts]
        refine obeyed_bind (p := fun _ ↦ True) (fun s hs ↦ ⟨hs, trivial, trivial⟩)
          fun response _ ↦ ?_
        cases response with
        | body status raw =>
            simp only
            split_ifs
            · exact obeyed_pure ⟨by simp, trivial, trivial, trivial⟩
            · split
              next value hvalue => exact obeyed_pure (Json.native_of_loads hfloats.native hvalue)
              next => exact obeyed_throw _
        | httpError code text =>
            simp only
            split_ifs
            · exact ih _
            · exact ih _
            · exact obeyed_throw _
        | urlError text => exact ih _
        | raises exc => exact obeyed_throw _
  exact hattempts 6 none

theorem held_addState {m m' : List (Json × Json)} {row : Json} (hm : ∀ entry ∈ m, Held entry.1)
    (hrow : Held row) (h : addState m row = .ok m') : ∀ entry ∈ m', Held entry.1 := by
  obtain ⟨name, hname, h⟩ := Outcome.bind_eq_ok_iff.mp h
  obtain ⟨id, -, h⟩ := Outcome.bind_eq_ok_iff.mp h
  obtain ⟨_, -, h⟩ := Outcome.bind_eq_ok_iff.mp h
  obtain rfl := Except.ok.inj h
  rw [setState]
  split_ifs
  · refine List.forall_mem_map.mpr fun entry hentry ↦ ?_
    split_ifs
    · exact hm entry hentry
    · exact hm entry hentry
  · refine List.forall_mem_append.mpr ⟨hm, List.forall_mem_singleton.mpr ?_⟩
    exact held_of_subscript hrow hname

theorem held_foldlM_addState {rows : List Json} {m m' : List (Json × Json)}
    (hrows : ∀ row ∈ rows, Held row) (hm : ∀ entry ∈ m, Held entry.1)
    (h : rows.foldlM addState m = .ok m') : ∀ entry ∈ m', Held entry.1 := by
  induction rows generalizing m with
  | nil =>
      obtain rfl := Except.ok.inj h
      exact hm
  | cons row rows ih =>
      obtain ⟨hrow, hrows⟩ := List.forall_mem_cons.mp hrows
      rw [List.foldlM_cons] at h
      obtain ⟨next, hnext, h⟩ := Outcome.bind_eq_ok_iff.mp h
      exact ih hrows (held_addState hm hrow hnext) h

theorem obeyed_namesHeld_statesMap (hfloats : Json.FloatTexts env.repr env.toFloat) :
    namesHeld.Obeyed (statesMap env board) fun m ↦ ∀ entry ∈ m, Held entry.1 := by
  refine obeyed_bind (obeyed_get fun s hs ↦ hs) fun s hs ↦ ?_
  split
  next m hm => exact obeyed_pure (hs m hm)
  next =>
    refine obeyed_bind (obeyed_api hfloats _ _ _) fun answer hanswer ↦
      obeyed_bind (obeyed_lift fun rows hrows ↦ held_of_iterate (held_results hanswer) hrows)
        fun rows hrows ↦ obeyed_bind
          (obeyed_lift fun m hm ↦ held_foldlM_addState hrows (List.forall_mem_nil _) hm)
          fun m hm ↦ obeyed_bind (obeyed_modify fun s _ ↦ ⟨fun other hother ↦ ?_, trivial⟩)
            fun _ _ ↦ obeyed_pure hm
    obtain rfl := Option.some.inj hother
    exact hm

/-! ## What the tools return -/

theorem kept_resolveState (hfloats : Json.FloatTexts env.repr env.toFloat) (nameOrId : Json) :
    namesHeld.Kept (resolveState env board nameOrId) := by
  rw [resolveState]
  split_ifs
  · exact kept_pure _
  · refine (obeyed_namesHeld_statesMap hfloats).kept.bind fun m ↦ (kept_lift _).bind fun _ ↦ ?_
    split <;> exact kept_pure _

theorem kept_stateField (hfloats : Json.FloatTexts env.repr env.toFloat)
    (fields : List (String × Json)) : namesHeld.Kept (stateField env board fields) := by
  rw [stateField]
  split_ifs
  · exact kept_pure _
  · exact (kept_resolveState hfloats _).bind fun sid ↦ kept_pure _

theorem held_listedIssue {sid row entry : Json} {search : String} (hrow : Held row)
    (h : listedIssue env sid search row = .ok (some entry)) : Held entry := by
  obtain ⟨fields, hfields, h⟩ := Outcome.bind_eq_ok_iff.mp h
  have hrow' : Held (.obj fields) := by
    cases row <;> cases hfields
    exact hrow
  split_ifs at h
  · cases h
  · obtain ⟨found, -, h⟩ := Outcome.bind_eq_ok_iff.mp h
    split_ifs at h
    · obtain rfl := Option.some.inj (Except.ok.inj h)
      refine Json.native_obj_iff.mpr ⟨by simp, ?_⟩
      exact List.forall_mem_map.mpr fun field _ ↦ Json.native_get hrow' field
    · cases h

theorem held_mapM_listedIssue {sid : Json} {search : String} {rows : List Json}
    {listed : List (Option Json)} (hrows : ∀ row ∈ rows, Held row)
    (h : rows.mapM (listedIssue env sid search) = .ok listed) :
    ∀ entry ∈ listed.reduceOption, Held entry := by
  induction rows generalizing listed with
  | nil =>
      obtain rfl := Except.ok.inj h
      exact List.forall_mem_nil _
  | cons row rows ih =>
      obtain ⟨hrow, hrows⟩ := List.forall_mem_cons.mp hrows
      rw [List.mapM_cons] at h
      obtain ⟨first, hfirst, h⟩ := Outcome.bind_eq_ok_iff.mp h
      obtain ⟨rest, hrest, h⟩ := Outcome.bind_eq_ok_iff.mp h
      obtain rfl := Except.ok.inj h
      cases first with
      | none =>
          rw [List.reduceOption_cons_of_none]
          exact ih hrows hrest
      | some entry =>
          rw [List.reduceOption_cons_of_some]
          exact List.forall_mem_cons.mpr ⟨held_listedIssue hrow hfirst, ih hrows hrest⟩

theorem sliceTo_subset {α : Type} (n : ℤ) (values : List α) : sliceTo n values ⊆ values := by
  rw [sliceTo]
  split_ifs <;> exact List.take_subset _ _

theorem obeyed_tContext (hfloats : Json.FloatTexts env.repr env.toFloat) (a : Json) :
    namesHeld.Obeyed (tContext env board a) Held := by
  refine obeyed_bind (obeyed_namesHeld_statesMap hfloats) fun m hm ↦ obeyed_pure ?_
  refine Json.native_obj_iff.mpr ⟨by simp, ?_⟩
  have hproject : Held (optional env.project) := by
    cases env.project <;> trivial
  have hstates : Held (.arr (m.map Prod.fst)) :=
    Json.native_arr_iff.mpr (List.forall_mem_map.mpr hm)
  simp only [List.forall_mem_cons]
  refine ⟨trivial, trivial, hproject, ?_, trivial, hstates, trivial, List.forall_mem_nil _⟩
  split_ifs <;> trivial

theorem obeyed_tListIssues (hfloats : Json.FloatTexts env.repr env.toFloat) (a : Json) :
    namesHeld.Obeyed (tListIssues env board a) Held := by
  refine (kept_lift _).bind_obeyed fun fields ↦ (kept_lift _).bind_obeyed fun qs ↦
    obeyed_bind (obeyed_api hfloats _ _ _) fun answer hanswer ↦
      (kept_lift _).bind_obeyed fun search ↦ (kept_resolveState hfloats _).bind_obeyed fun sid ↦
        obeyed_bind (obeyed_lift fun rows hrows ↦ held_of_iterate (held_results hanswer) hrows)
          fun rows hrows ↦ obeyed_bind
            (obeyed_lift fun listed hlisted ↦ held_mapM_listedIssue hrows hlisted)
            fun listed hlisted ↦ (kept_lift _).bind_obeyed fun n ↦ obeyed_pure ?_
  refine ⟨by simp, trivial, Json.native_arr_iff.mpr fun entry hentry ↦ ?_, trivial⟩
  exact hlisted entry (sliceTo_subset _ _ hentry)

/-- Whatever the board answers, a tool returns values of an interpreter. -/
theorem tools_return_held (hfloats : Json.FloatTexts env.repr env.toFloat) :
    ∀ tool ∈ tools, ∀ a, namesHeld.Obeyed (tool.2.handler env board a) Held := by
  have hapi : ∀ method path body, namesHeld.Obeyed (api env board method path body) Held :=
    obeyed_api hfloats
  have hlist : ∀ path, namesHeld.Obeyed
      (do return results (← api env board "GET" path .null) : Effect Json) Held := fun path ↦
    obeyed_bind (hapi _ _ _) fun answer hanswer ↦ obeyed_pure (held_results hanswer)
  simp only [tools, List.forall_mem_cons]
  refine ⟨?_, ?_, ?_, ?_, ?_, ?_, ?_, ?_, ?_, ?_, ?_, ?_, ?_, ?_, List.forall_mem_nil _⟩ <;>
    intro a
  · exact obeyed_tContext hfloats a
  · exact hlist _
  · exact obeyed_tListIssues hfloats a
  · exact (kept_lift _).bind_obeyed fun issueId ↦ hapi _ _ _
  · exact (kept_lift _).bind_obeyed fun name ↦ (kept_lift _).bind_obeyed fun fields ↦
      (kept_stateField hfloats _).bind_obeyed fun state ↦ hapi _ _ _
  · refine (kept_lift _).bind_obeyed fun fields ↦
      (kept_stateField hfloats _).bind_obeyed fun state ↦ ?_
    dsimp only
    split_ifs
    · exact obeyed_throw _
    · exact (kept_lift _).bind_obeyed fun issueId ↦ hapi _ _ _
  · refine (kept_lift _).bind_obeyed fun toState ↦ (kept_lift _).bind_obeyed fun role ↦
      (kept_lift _).bind_obeyed fun _ ↦ (kept_resolveState hfloats _).bind_obeyed fun sid ↦ ?_
    split_ifs
    · exact obeyed_throw _
    · exact (kept_lift _).bind_obeyed fun issueId ↦ hapi _ _ _
  · exact (kept_lift _).bind_obeyed fun issueId ↦ (kept_lift _).bind_obeyed fun comment ↦ hapi _ _ _
  · exact (kept_lift _).bind_obeyed fun fields ↦ (kept_lift _).bind_obeyed fun testFile ↦
      (kept_lift _).bind_obeyed fun testName ↦ (kept_lift _).bind_obeyed fun outputHash ↦
        (kept_lift _).bind_obeyed fun collectedAt ↦ (kept_lift _).bind_obeyed fun issueId ↦
          hapi _ _ _
  · exact hlist _
  · exact hlist _
  · exact (kept_lift _).bind_obeyed fun target ↦ (kept_lift _).bind_obeyed fun issues ↦ hapi _ _ _
  · exact (kept_lift _).bind_obeyed fun target ↦ (kept_lift _).bind_obeyed fun issues ↦ hapi _ _ _
  · exact (kept_lift _).bind_obeyed fun path ↦ (kept_lift _).bind_obeyed fun text ↦
      (kept_lift _).bind_obeyed fun method ↦ (kept_lift _).bind_obeyed fun name ↦
        (kept_lift _).bind_obeyed fun fields ↦ hapi _ _ _

end Tools

section Replies

variable {env : Env} {board : Board}

/-! ## One result -/

theorem loads_resultText (hfloats : Json.FloatTexts env.repr env.toFloat) {out : Json}
    (h : Held out) : Json.loads env.toFloat (resultText env out) = some out := by
  have hreads : out.Native (Json.ReadsFloat env.repr env.toFloat) :=
    h.imp (fun x _ ↦ hfloats.readsFloat x) out
  have hloads := Json.loads_arranged Json.asciiQuoting (.indented 2) hreads 0 .none
  rwa [Json.Gap.none, List.append_nil] at hloads

/-- The reply with this text as the result of a tool. -/
def textReply (mid : Json) (text : String) : Json :=
  resultReply mid (.obj [("content", textContent text)])

theorem errorReply_ne_textReply (mid other : Json) (code : ℤ) (message text : String) :
    errorReply other code message ≠ textReply mid text := by
  simp [errorReply, textReply, resultReply]

theorem resultReply_eq_textReply_iff {mid other result : Json} {text : String} :
    resultReply other result = textReply mid text ↔
      other = mid ∧ result = .obj [("content", textContent text)] := by
  simp [textReply, resultReply]

theorem callTool_eq_ok_iff {entry : ToolEntry} {args : Json} {s t : Session} {text : String} :
    callTool env board entry args s = .ok (.obj [("content", textContent text)]) t ↔
      ∃ out, entry.handler env board args s = .ok out t ∧ resultText env out = text := by
  rw [callTool, tryCatch_eq_ok_iff]
  constructor
  · rintro (hbody | ⟨e, u, -, hhandler⟩)
    · obtain ⟨out, u, hrun, hreply⟩ := bind_eq_ok_iff.mp hbody
      obtain ⟨htext, rfl⟩ := pure_eq_ok_iff.mp hreply
      exact ⟨out, hrun, by simpa [textContent] using htext⟩
    · simpa using (pure_eq_ok_iff.mp hhandler).1
  · rintro ⟨out, hrun, rfl⟩
    exact Or.inl (bind_eq_ok_iff.mpr ⟨out, t, hrun, rfl⟩)

/-- The branch of `tools/call` has a text for the tool that is called, if it returns. -/
theorem toolsCall_eq_ok_iff {mid : Json} {params : List (String × Json)} {s t : Session}
    {text : String} :
    (∃ other, toolsCall env board mid params s = .ok (some (textReply other text)) t) ↔
      ∃ tool, (tools.find? fun tool ↦ Json.str tool.1 = Python.get params "name") = some tool ∧
        ∃ out, tool.2.handler env board (orEmpty (Python.get params "arguments")) s = .ok out t ∧
          resultText env out = text := by
  rw [toolsCall]
  constructor
  · rintro ⟨other, h⟩
    obtain ⟨_, s', hkey, h⟩ := bind_eq_ok_iff.mp h
    obtain ⟨-, rfl⟩ := lift_eq_ok_iff.mp hkey
    cases hfind : tools.find? fun tool ↦ Json.str tool.1 = Python.get params "name" with
    | none =>
        rw [hfind] at h
        exact absurd (Option.some.inj (pure_eq_ok_iff.mp h).1) (errorReply_ne_textReply _ _ _ _ _)
    | some tool =>
        rw [hfind] at h
        obtain ⟨result, u, hcall, hreply⟩ := bind_eq_ok_iff.mp h
        obtain ⟨hresult, rfl⟩ := pure_eq_ok_iff.mp hreply
        obtain ⟨-, rfl⟩ := resultReply_eq_textReply_iff.mp (Option.some.inj hresult)
        exact ⟨tool, rfl, callTool_eq_ok_iff.mp hcall⟩
  · rintro ⟨tool, hfind, hout⟩
    have hname : Json.str tool.1 = Python.get params "name" := by
      simpa using List.find?_some hfind
    have hkey : Python.hashKey (Python.get params "name") = .ok (.str tool.1) :=
      Python.hashKey_eq_str_iff.mpr hname.symm
    refine ⟨mid, bind_eq_ok_iff.mpr ⟨_, s, lift_eq_ok_iff.mpr ⟨hkey, rfl⟩, ?_⟩⟩
    rw [hfind]
    exact bind_eq_ok_iff.mpr ⟨_, t, callTool_eq_ok_iff.mpr hout, rfl⟩

/-- No other branch has one. -/
theorem handleFields_ne_textReply {fields : List (String × Json)}
    (hmethod : Python.get fields "method" ≠ .str "tools/call") {s t : Session} {mid : Json}
    {text : String} :
    handleFields env board fields s ≠ .ok (some (textReply mid text)) t := by
  have hpure : ∀ reply : Option Json, reply ≠ some (textReply mid text) →
      (pure reply : Effect (Option Json)) s ≠ .ok (some (textReply mid text)) t :=
    fun reply hreply h ↦ hreply (pure_eq_ok_iff.mp h).1
  -- the results of the other branches have other members than `content`
  have hresult : ∀ other members, members ≠ [("content", textContent text)] →
      some (resultReply other (.obj members)) ≠ some (textReply mid text) := by
    intro other members hmembers h
    have hresult := (resultReply_eq_textReply_iff.mp (Option.some.inj h)).2
    exact hmembers (Json.obj.inj hresult)
  simp only [handleFields, if_neg hmethod]
  split_ifs with hinit hnote hping hlist hid
  · intro h
    obtain ⟨params, u, hparams, h⟩ := bind_eq_ok_iff.mp h
    obtain ⟨-, rfl⟩ := lift_eq_ok_iff.mp hparams
    exact hpure _ (hresult _ _ (by simp)) h
  · exact hpure _ (by simp)
  · exact hpure _ (hresult _ _ (by simp))
  · exact hpure _ (hresult _ _ (by simp))
  · exact hpure _ fun h ↦ errorReply_ne_textReply _ _ _ _ _ (Option.some.inj h)
  · exact hpure _ (by simp)

theorem handleFields_eq_ok_iff {fields : List (String × Json)} {s t : Session} {text : String} :
    (∃ mid, handleFields env board fields s = .ok (some (textReply mid text)) t) ↔
      ∃ tool a, calledBy (.obj fields) = some (tool, a) ∧ ∃ out,
        tool.2.handler env board (orEmpty a) s = .ok out t ∧ resultText env out = text := by
  by_cases hmethod : Python.get fields "method" = .str "tools/call"
  · cases hparams : Python.asDict (orEmpty (Python.get fields "params")) with
    | error e =>
        have hraises : handleFields env board fields s = .error e s := by
          simp only [handleFields, hmethod, hparams]
          rfl
        simp [hraises, calledBy, hparams]
    | ok params =>
        have hcall : handleFields env board fields s =
            toolsCall env board (Python.get fields "id") params s := by
          simp only [handleFields, hmethod, hparams]
          rfl
        simp only [hcall, toolsCall_eq_ok_iff, calledBy, hparams, if_pos hmethod,
          Option.map_eq_some_iff, Prod.mk.injEq]
        constructor
        · rintro ⟨tool, hfind, hout⟩
          exact ⟨tool, _, ⟨tool, hfind, rfl, rfl⟩, hout⟩
        · rintro ⟨tool, _, ⟨_, hfind, rfl, rfl⟩, hout⟩
          exact ⟨_, hfind, hout⟩
  · have hnone : calledBy (.obj fields) = none := by
      simp only [calledBy, if_neg hmethod]
      cases Python.asDict (orEmpty (Python.get fields "params")) <;> rfl
    simp [hnone, handleFields_ne_textReply hmethod]

/-- The reply of `main` to an exception is an error. -/
theorem respond_eq_ok_iff {msg : Json} {s t : Session} {mid : Json} {text : String} :
    respond env board msg s = .ok (some (textReply mid text)) t ↔
      handle env board msg s = .ok (some (textReply mid text)) t := by
  rw [respond, tryCatch_eq_ok_iff]
  apply or_iff_left
  rintro ⟨exc, u, -, hhandler⟩
  obtain ⟨present, v, -, hhandler⟩ := bind_eq_ok_iff.mp hhandler
  cases present with
  | false => simpa using (pure_eq_ok_iff.mp hhandler).1
  | true =>
      obtain ⟨other, w, -, hhandler⟩ := bind_eq_ok_iff.mp hhandler
      exact errorReply_ne_textReply _ _ _ _ _ (Option.some.inj (pure_eq_ok_iff.mp hhandler).1)

theorem handle_eq_error {msg : Json} (h : ∀ fields, msg ≠ .obj fields) (s : Session) :
    ∃ e, handle env board msg s = .error e s := by
  cases msg with
  | obj fields => exact absurd rfl (h fields)
  | _ => exact ⟨_, rfl⟩

/-- A line is answered with a text if and only if the tool that it calls returns. -/
theorem onLine_eq_ok_iff {line : String} {s t : Session} {text : String} :
    (∃ mid, onLine env board line s = .ok (some (textReply mid text)) t) ↔
      ∃ tool a, calledOn env line = some (tool, a) ∧ ∃ out,
        tool.2.handler env board (orEmpty a) s = .ok out t ∧ resultText env out = text := by
  rw [onLine, calledOn]
  cases messageOn env line with
  | none => simp [pure_eq_ok_iff]
  | some msg =>
      simp only [Option.bind_some, respond_eq_ok_iff]
      by_cases hobj : ∃ fields, msg = .obj fields
      · obtain ⟨fields, rfl⟩ := hobj
        exact handleFields_eq_ok_iff
      · have hfields : ∀ fields, msg ≠ .obj fields := not_exists.mp hobj
        obtain ⟨e, hraises⟩ : ∃ e, handle env board msg s = .error e s := handle_eq_error hfields s
        have hnone : calledBy msg = none := by
          cases msg with
          | obj fields => exact absurd rfl (hfields fields)
          | _ => rfl
        simp [hraises, hnone]

/-! ## A whole session -/

theorem mem_tools_of_calledOn {line : String} {tool : String × ToolEntry} {a : Json}
    (h : calledOn env line = some (tool, a)) : tool ∈ tools := by
  rw [calledOn, Option.bind_eq_some_iff] at h
  obtain ⟨msg, -, h⟩ := h
  cases msg with
  | obj fields =>
      rw [calledBy] at h
      split at h
      · split_ifs at h
        obtain ⟨other, hfind, hother⟩ := Option.map_eq_some_iff.mp h
        obtain ⟨rfl, -⟩ := Prod.mk.inj hother
        exact List.mem_of_find?_eq_some hfind
      · cases h
  | _ => cases h

/-- The one reply to a line is the server's answer to it. -/
theorem onLine_of_replies {line : String} {s : Session} {reply : Json}
    (h : (serve env board [line] s).replies = [reply]) :
    ∃ t, onLine env board line s = .ok (some reply) t := by
  rw [serve] at h
  cases hrun : onLine env board line s with
  | error exc t => simp [hrun] at h
  | ok other t =>
      cases other with
      | none => simp [hrun, serve] at h
      | some answer =>
          obtain rfl : answer = reply := by simpa [hrun, serve] using h
          exact ⟨t, rfl⟩

theorem serve_append {before lines : List String} {s : Session}
    (hended : (serve env board before s).ended = none) :
    serve env board (before ++ lines) s =
      ⟨(serve env board before s).replies ++
          (serve env board lines (serve env board before s).session).replies,
        (serve env board lines (serve env board before s).session).ended,
        (serve env board lines (serve env board before s).session).session⟩ := by
  induction before generalizing s with
  | nil => rfl
  | cons line before ih =>
      rw [List.cons_append, serve, serve]
      rw [serve] at hended
      cases hrun : onLine env board line s with
      | error exc t =>
          rw [hrun] at hended
          cases hended
      | ok reply t =>
          rw [hrun] at hended
          simp only
          rw [ih hended, List.append_assoc]

theorem namesHeld_serve (hfloats : Json.FloatTexts env.repr env.toFloat) (lines : List String)
    {s : Session} (hs : namesHeld.inv s) : namesHeld.inv (serve env board lines s).session := by
  induction lines generalizing s with
  | nil => exact hs
  | cons line lines ih =>
      have hline : namesHeld.inv (after (onLine env board line) s) := by
        rcases after_onLine env board line s with hsame | ⟨tool, htool, a, -, hafter⟩
        · rwa [hsame]
        · rw [hafter]
          exact (tools_return_held hfloats tool htool _).inv_after hs
      rw [after] at hline
      rw [serve]
      cases hrun : onLine env board line s with
      | error exc t =>
          rw [hrun] at hline
          exact hline
      | ok reply t =>
          rw [hrun] at hline
          exact ih hline

/-- In a session that is still open, a line is answered with a text that reads as `out` if and
only if it calls a tool that returns `out`. -/
theorem serve_result_iff (hfloats : Json.FloatTexts env.repr env.toFloat) {before : List String}
    (hended : (serve env board before .start).ended = none) (line : String) (out : Json) :
    (∃ mid text, Json.loads env.toFloat text = some out ∧
        (serve env board (before ++ [line]) .start).replies =
          (serve env board before .start).replies ++ [textReply mid text]) ↔
      ∃ tool a t, calledOn env line = some (tool, a) ∧
        tool.2.handler env board (orEmpty a) (serve env board before .start).session =
          .ok out t := by
  -- the cache that the line finds was filled by the lines before it
  have hinv : namesHeld.inv (serve env board before .start).session :=
    namesHeld_serve hfloats before (by simp [namesHeld, Contract.on, Session.start])
  have hholds : ∀ {tool a other t}, calledOn env line = some (tool, a) →
      tool.2.handler env board (orEmpty a) (serve env board before .start).session = .ok other t →
        Json.loads env.toFloat (resultText env other) = some other := by
    intro tool a other t hcalled hrun
    have hreturns : namesHeld.Obeyed (tool.2.handler env board (orEmpty a)) Held :=
      tools_return_held hfloats tool (mem_tools_of_calledOn hcalled) (orEmpty a)
    have hheld := hreturns _ hinv
    rw [hrun] at hheld
    exact loads_resultText hfloats hheld.2.2
  simp only [serve_append hended, List.append_cancel_left_eq]
  constructor
  · rintro ⟨mid, text, hloads, hreplies⟩
    obtain ⟨t, hrun⟩ := onLine_of_replies hreplies
    obtain ⟨tool, a, hcalled, other, hhandler, rfl⟩ := onLine_eq_ok_iff.mp ⟨mid, hrun⟩
    rw [hholds hcalled hhandler] at hloads
    obtain rfl := Option.some.inj hloads
    exact ⟨tool, a, t, hcalled, hhandler⟩
  · rintro ⟨tool, a, t, hcalled, hhandler⟩
    obtain ⟨mid, hrun⟩ := onLine_eq_ok_iff.mpr ⟨tool, a, hcalled, out, hhandler, rfl⟩
    refine ⟨mid, resultText env out, hholds hcalled hhandler, ?_⟩
    rw [serve, hrun]
    rfl

/-- The reply to the verifier's transition reads as what the board answered. -/
theorem serve_result_sample :
    ∃ mid text, Json.loads sampleEnv.toFloat text = some (listing PlaneMcp.sampleProject) ∧
      (serve sampleEnv listingBoard ([] ++ [transitionLine]) .start).replies =
        (serve sampleEnv listingBoard [] .start).replies ++ [textReply mid text] := by
  obtain ⟨tool, hcalled, -, hhandler⟩ := calledOn_transitionLine
  apply (serve_result_iff Json.floatTexts_scientific rfl transitionLine _).mpr
  refine ⟨tool, sampleArguments, ⟨[statesRead, doneWrite], some sampleStates⟩, hcalled, ?_⟩
  rw [hhandler]
  exact tTransition_listingBoard

end Replies

end AgenticSDLC.PlaneMcpServer
