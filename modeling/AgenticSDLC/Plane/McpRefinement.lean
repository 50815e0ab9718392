import AgenticSDLC.Plane.McpGate
import AgenticSDLC.Plane.McpRequests

/-!
# The server as the tools on a project

A session of the MCP server, with its attempts and its cache of the states, does to the items of
a project what some calls of the tools do, one request each: the calls are those on its lines,
each as often as the service acts on the attempts for it.
-/

namespace AgenticSDLC.PlaneMcpServer

open Effects (Contract after after_of_error after_of_ok bind_of_ok lift_eq_ok_iff)
open Effects.Contract (kept_lift kept_pure kept_throw obeyed_bind obeyed_get obeyed_lift
  obeyed_modify obeyed_pure obeyed_throw)
open PlaneClient (State)
open PlaneMcp (Project Request Items ToolCall handleCall)

/-! ## The service behind the requests -/

/-- What stands between two texts. -/
def between (front back text : List Char) : Option String :=
  let rest := text.drop front.length
  if front <+: text ∧ back <:+ rest then
    some (String.ofList (rest.take (rest.length - back.length)))
  else none

theorem between_append (front back : List Char) (inner : String) :
    between front back (front ++ (inner.toList ++ back)) = some inner := by
  have hrest : (front ++ (inner.toList ++ back)).drop front.length = inner.toList ++ back :=
    List.drop_left
  rw [between]
  simp only [hrest]
  rw [if_pos ⟨List.prefix_append _ _, List.suffix_append _ _⟩, List.length_append,
    Nat.add_sub_cancel, List.take_left, String.ofList_toList]

def itemsUrl (env : Env) : String := env.apiBase ++ (pbase env ++ "/work-items/")

/-- The change that a request asks for at the work items. -/
def decode (env : Env) (request : HttpRequest) : Option Request :=
  let url := request.url.toList
  let front := (itemsUrl env).toList
  match request.method, request.data with
  | "PATCH", some (.obj body) => (between front ['/'] url).map fun id ↦ .patchItem id body
  | "POST", some (.obj body) =>
      if url = front then some (.createItem body)
      else
        match between front "/comments/".toList url, body.lookup "comment_html" with
        | some id, some comment => some (.commentItem id comment)
        | _, _ => none
  | _, _ => none

/-- Which requests the service acts on, and the ids that it gives to new items; both may depend
on everything it was asked before. -/
structure Reaction where
  took : List HttpRequest → Bool
  assigned : List HttpRequest → String

section Service

variable (env : Env) (project : Project) (reaction : Reaction)

/-- What the last one of the requests does to the items. -/
def react (sent : List HttpRequest) (items : Items) : Items :=
  match (sent.getLast?.bind (decode env)), reaction.took sent with
  | some request, true =>
      PlaneMcp.serve env.repr project items (reaction.assigned sent) request
  | _, _ => items

/-- The items after more requests. -/
def itemsAfter (sent : List HttpRequest) : List HttpRequest → Items → Items
  | [], items => items
  | request :: more, items =>
      itemsAfter (sent ++ [request]) more (react env project reaction (sent ++ [request]) items)

theorem itemsAfter_append (sent first more : List HttpRequest) (items : Items) :
    itemsAfter env project reaction sent (first ++ more) items =
      itemsAfter env project reaction (sent ++ first) more
        (itemsAfter env project reaction sent first items) := by
  induction first generalizing sent items with
  | nil => rw [List.append_nil, itemsAfter, List.nil_append]
  | cons request first ih => rw [List.cons_append, itemsAfter, ih, itemsAfter, List.append_assoc,
      List.singleton_append]

/-- The answer has the states of the project as its rows. -/
def ListsStates (value : Json) : Prop :=
  ∃ rows, results value = .arr rows ∧
    List.Forall₂ (fun state row ↦ Python.subscript row "name" = .ok (.str state.1.name) ∧
      Python.subscript row "id" = .ok (.str state.2)) project.rows rows

/-- The service lists the states of the project, whenever it answers at all. -/
def StatesListed (board : Board) : Prop :=
  ∀ sent status raw value,
    board (sent ++ [⟨"GET", env.apiBase ++ (pbase env ++ "/states/"), none⟩]) = .body status raw →
      Json.loads env.toFloat raw = some value → ListsStates project value

end Service

section States

variable {env : Env} {project : Project} {board : Board}

/-- A body that can be read is the answer to the first attempt. -/
theorem api_of_body {method path : String} {body value : Json} {s : Session} {status : ℤ}
    {raw : String} (hboard : board (s.sent ++ [⟨method, env.apiBase ++ path,
      if body = .null then none else some body⟩]) = .body status raw) (hraw : raw ≠ "")
    (hloads : Json.loads env.toFloat raw = some value) :
    api env board method path body s = .ok value { s with sent := s.sent ++
      [⟨method, env.apiBase ++ path, if body = .null then none else some body⟩] } := by
  rw [api, attempts]
  refine (bind_of_ok rfl).trans ?_
  simp only [hboard, if_neg hraw, hloads]
  rfl

/-! ## The cache of the states -/

/-- The cache has the states of the project. -/
def Cached (project : Project) (m : List (Json × Json)) : Prop :=
  ∀ value, (m.find? fun entry ↦ sameKey value entry.1).map Prod.snd =
    match value with
    | .str name => (project.idNamed name).map Json.str
    | _ => none

def CacheValid (project : Project) (states : Option (List (Json × Json))) : Prop :=
  ∀ m, states = some m → Cached project m

def stateEntry (row : State × String) : Json × Json := (.str row.1.name, .str row.2)

theorem sameKey_str (value : Json) (name : String) :
    sameKey value (.str name) = decide (value = .str name) := by
  cases value <;> simp [sameKey, Python.hashKey, Except.toOption]

theorem cached_entries (project : Project) : Cached project (project.rows.map stateEntry) := by
  intro value
  simp only [List.find?_map, Option.map_map, Function.comp_def, stateEntry, sameKey_str]
  cases value with
  | str name => simp [Project.idNamed, Option.map_map, Function.comp_def, eq_comm]
  | _ => simp

theorem state_cases (state : State) : state ∈ State.all ∨ ∃ name unlisted, state = .other name unlisted := by
  cases state with
  | other name unlisted => exact Or.inr ⟨name, unlisted, rfl⟩
  | _ => exact Or.inl (by decide)

theorem state_name_injective : Function.Injective State.name := by
  have hname : ∀ state ∈ State.all, state.name ∈ PlaneClient.listedStates := by decide
  intro state other h
  rcases state_cases state with hstate | ⟨name, unlisted, rfl⟩ <;>
    rcases state_cases other with hother | ⟨name', unlisted', rfl⟩
  · exact List.inj_on_of_nodup_map (f := State.name) (by decide) hstate hother h
  · exact absurd (Eq.subst (motive := (· ∈ PlaneClient.listedStates)) h (hname state hstate)) unlisted'
  · exact absurd (Eq.subst (motive := (· ∈ PlaneClient.listedStates)) h.symm (hname other hother)) unlisted
  · obtain rfl : name = name' := h
    rfl

theorem addState_entries {rows : List (State × String)} {state : State × String} {row : Json}
    (hname : Python.subscript row "name" = .ok (.str state.1.name))
    (hid : Python.subscript row "id" = .ok (.str state.2))
    (hfresh : state.1 ∉ rows.map Prod.fst) :
    addState (rows.map stateEntry) row = .ok ((rows ++ [state]).map stateEntry) := by
  have habsent : ((rows.map stateEntry).any fun entry ↦
      sameKey (.str state.1.name) entry.1) = false := by
    simp only [List.any_map, List.any_eq_false, Function.comp_apply, stateEntry, sameKey_str,
      decide_eq_true_eq, Json.str.injEq]
    intro earlier hmem hsame
    exact hfresh (state_name_injective hsame ▸ List.mem_map_of_mem hmem)
  rw [addState, hname, Outcome.ok_bind, hid, Outcome.ok_bind]
  show Except.ok (setState (rows.map stateEntry) (.str state.1.name) (.str state.2)) = _
  rw [setState, habsent, List.map_append]
  rfl

theorem foldlM_addState {states : List (State × String)} {rows : List Json}
    (hrows : List.Forall₂ (fun state row ↦ Python.subscript row "name" = .ok (.str state.1.name) ∧
      Python.subscript row "id" = .ok (.str state.2)) states rows)
    (before : List (State × String)) (hnodup : ((before ++ states).map Prod.fst).Nodup) :
    rows.foldlM addState (before.map stateEntry) = .ok ((before ++ states).map stateEntry) := by
  induction hrows generalizing before with
  | nil =>
      rw [List.append_nil]
      rfl
  | @cons state row states rows hrow _ ih =>
      have hfresh : state.1 ∉ before.map Prod.fst := by
        rw [List.map_append, List.nodup_append] at hnodup
        exact fun hmem ↦ hnodup.2.2 _ hmem _ List.mem_cons_self rfl
      rw [List.foldlM_cons, addState_entries hrow.1 hrow.2 hfresh, Outcome.ok_bind, ih]
      · simp
      · simpa using hnodup

/-- What `_states_map` makes of an answer. -/
def Builds (project : Project) (answer : Json) : Prop :=
  ∀ rows m, Python.iterate (results answer) = .ok rows → rows.foldlM addState [] = .ok m →
    Cached project m

theorem builds_of_listsStates {value : Json} (h : ListsStates project value) :
    Builds project value := by
  obtain ⟨rows, hrows, hstates⟩ := h
  intro _ m hiterate hfold
  rw [hrows] at hiterate
  obtain rfl := Except.ok.inj hiterate
  have hbuilt := foldlM_addState hstates [] project.nodup_names
  rw [List.map_nil, List.nil_append] at hbuilt
  obtain rfl := Except.ok.inj (hfold.symm.trans hbuilt)
  exact cached_entries project

/-- The answer that stands for an empty body is no list of states. -/
theorem builds_empty (status : ℤ) :
    Builds project (.obj [("ok", .bool true), ("status", .int status)]) := by
  intro rows m hrows hfold
  obtain rfl : rows = [.str "ok", .str "status"] := (Except.ok.inj hrows).symm
  cases hfold

/-- What the tools read goes on from a valid cache to a valid one. -/
def stateReading (project : Project) : Contract Session := reading (CacheValid project)

theorem obeyed_attempts_states (hlisted : StatesListed env project board) (retries : ℕ)
    (lastErr : Option String) :
    (stateReading project).Obeyed
      (attempts env board "GET" (pbase env ++ "/states/") .null retries lastErr)
      (Builds project) := by
  induction retries generalizing lastErr with
  | zero => exact obeyed_throw _
  | succ retries ih =>
      rw [attempts]
      refine obeyed_bind (p := fun response ↦ ∀ status raw value, response = .body status raw →
        Json.loads env.toFloat raw = some value → ListsStates project value) ?_ fun response hlists ↦ ?_
      · intro s hs
        exact ⟨hs, ⟨[_], rfl, List.forall_mem_singleton.mpr ⟨rfl, by simp⟩⟩, hlisted s.sent⟩
      · cases response with
        | body status raw =>
            simp only
            split_ifs
            · exact obeyed_pure (builds_empty status)
            · cases hvalue : Json.loads env.toFloat raw with
              | some value => exact obeyed_pure (builds_of_listsStates (hlists _ _ _ rfl hvalue))
              | none => exact obeyed_throw _
        | httpError code text =>
            simp only
            split_ifs
            · exact ih _
            · exact ih _
            · exact obeyed_throw _
        | urlError text => exact ih _
        | raises exc => exact obeyed_throw _

theorem obeyed_statesMap (hlisted : StatesListed env project board) :
    (stateReading project).Obeyed (statesMap env board) (Cached project) := by
  refine obeyed_bind (p := fun s : Session ↦ CacheValid project s.states) (obeyed_get fun s hs ↦ hs)
    fun s hs ↦ ?_
  split
  · rename_i m hm
    exact obeyed_pure (hs m hm)
  · refine obeyed_bind (obeyed_attempts_states hlisted 6 none) fun answer hbuilds ↦ ?_
    refine obeyed_bind (obeyed_lift fun _ h ↦ h) fun rows hrows ↦
      obeyed_bind (obeyed_lift fun _ h ↦ h) fun m hm ↦ ?_
    have hcached : Cached project m := hbuilds rows m hrows hm
    refine obeyed_bind (p := fun _ ↦ True) (obeyed_modify fun s _ ↦ ⟨?_, [], by simp, by simp⟩)
      fun _ _ ↦ obeyed_pure hcached
    exact fun m' hm' ↦ Option.some.inj hm' ▸ hcached

/-- The states are resolved as on the project. -/
theorem obeyed_resolveState (hlisted : StatesListed env project board) (nameOrId : Json) :
    (stateReading project).Obeyed (resolveState env board nameOrId) fun sid ↦
      PlaneMcp.resolveState project nameOrId = .ok sid := by
  rw [resolveState]
  unfold PlaneMcp.resolveState
  split_ifs with htruthy
  · exact obeyed_pure rfl
  · refine obeyed_bind (obeyed_statesMap hlisted) fun m hm ↦
      obeyed_bind (obeyed_lift fun _ h ↦ h) fun key hkey ↦ ?_
    have hfind := hm nameOrId
    rw [hkey, Outcome.ok_bind]
    split
    · rename_i entry hentry
      rw [hentry] at hfind
      apply obeyed_pure
      cases nameOrId with
      | str name =>
          obtain ⟨id, hid, hvalue⟩ := Option.map_eq_some_iff.mp hfind.symm
          simp only [hid, Option.getD_some, ← hvalue]
          rfl
      | _ => simp at hfind
    · rename_i hentry
      rw [hentry] at hfind
      apply obeyed_pure
      cases nameOrId with
      | str name =>
          have hid : project.idNamed name = none := Option.map_eq_none_iff.mp hfind.symm
          simp only [hid, Option.getD_none]
          rfl
      | _ => rfl

theorem obeyed_stateField (hlisted : StatesListed env project board)
    (fields : List (String × Json)) :
    (stateReading project).Obeyed (stateField env board fields) fun state ↦
      PlaneMcp.stateField project fields = .ok state := by
  rw [stateField, PlaneMcp.stateField]
  split_ifs with htruthy
  · exact obeyed_pure rfl
  · refine obeyed_bind (obeyed_resolveState hlisted _) fun sid hsid ↦ obeyed_pure ?_
    rw [hsid]
    rfl

end States

section Requests

variable (env : Env)

/-! ## What the service reads in the requests -/

theorem toList_itemsUrl : (itemsUrl env).toList = env.apiBase.toList ++ ((pbase env).toList ++
    "/work-items/".toList) := by
  simp [itemsUrl]

theorem decode_patch (issueId : Json) (body : List (String × Json)) :
    decode env ⟨"PATCH", env.apiBase ++ itemPath env issueId, some (.obj body)⟩ =
      some (.patchItem (Python.str env.repr issueId) body) := by
  have hurl : (env.apiBase ++ itemPath env issueId).toList =
      (itemsUrl env).toList ++ ((Python.str env.repr issueId).toList ++ ['/']) := by
    simp [itemPath, toList_itemsUrl]
  rw [decode]
  simp only [hurl, between_append, Option.map_some]

theorem decode_create (body : List (String × Json)) :
    decode env ⟨"POST", env.apiBase ++ (pbase env ++ "/work-items/"), some (.obj body)⟩ =
      some (.createItem body) := by
  rw [decode]
  exact if_pos rfl

theorem decode_comment (issueId comment : Json) :
    decode env ⟨"POST", env.apiBase ++ (itemPath env issueId ++ "comments/"),
        some (.obj [("comment_html", comment)])⟩ =
      some (.commentItem (Python.str env.repr issueId) comment) := by
  have hurl : (env.apiBase ++ (itemPath env issueId ++ "comments/")).toList =
      (itemsUrl env).toList ++ ((Python.str env.repr issueId).toList ++ "/comments/".toList) := by
    simp [itemPath, toList_itemsUrl]
  have hne : (itemsUrl env).toList ++ ((Python.str env.repr issueId).toList ++
      "/comments/".toList) ≠ (itemsUrl env).toList := by
    simp
  rw [decode]
  simp only [hurl, if_neg hne, between_append, List.lookup_cons_self]

theorem between_eq_none {front : List Char} (back : List Char) {text : List Char}
    (h : ¬front <+: text) : between front back text = none := by
  rw [between]
  exact if_neg fun hboth ↦ h hboth.1

/-- The service keeps nothing of the items at the other collections. -/
theorem decode_assign {collection : String} {c : Char} {more : List Char}
    (hcollection : collection.toList = c :: more) (hc : c ≠ 'w') (target members : String)
    (body : Json) :
    decode env ⟨"POST", env.apiBase ++ (pbase env ++ "/" ++ collection ++ "/" ++ target ++ "/" ++
      members ++ "/"), some body⟩ = none := by
  have hfront : ¬(itemsUrl env).toList <+: (env.apiBase ++ (pbase env ++ "/" ++ collection ++ "/" ++
      target ++ "/" ++ members ++ "/")).toList := by
    rw [toList_itemsUrl]
    have hwork : "/work-items/".toList = '/' :: 'w' :: "ork-items/".toList := rfl
    simp only [String.toList_append, List.append_assoc, List.prefix_append_right_inj, hwork,
      hcollection, List.cons_append, show "/".toList = ['/'] from rfl, List.nil_append,
      List.cons_prefix_cons, true_and]
    exact fun h ↦ hc h.1.symm
  cases body with
  | obj members =>
      rw [decode]
      simp only [between_eq_none _ hfront]
      apply if_neg
      intro heq
      exact hfront (heq ▸ List.prefix_refl _)
  | _ => rfl

theorem decode_get (url : String) (data : Option Json) : decode env ⟨"GET", url, data⟩ = none := rfl

end Requests

section Tools

variable {env : Env} {project : Project} {board : Board}

/-! ## The tools -/

/-- What the service reads in the request is what the tool asks for on the project. -/
def Asks (env : Env) (project : Project) (name : String) (a : Json) (request : HttpRequest) : Prop :=
  ∀ asked, decode env request = some asked →
    PlaneMcp.callTool env.repr project name a = .ok asked

/-- The tool reads the board, and writes what it asks for on the project. -/
def AsksOnly (env : Env) (project : Project) (board : Board) (name : String)
    (handler : Env → Board → Json → Effect Json) : Prop :=
  ∀ a, Writes (CacheValid project) (Asks env project name a) (handler env board a)

theorem asks_of_decode {name : String} {a : Json} {request : HttpRequest} {asked : Request}
    (hdecode : decode env request = some asked)
    (hcall : PlaneMcp.callTool env.repr project name a = .ok asked) :
    Asks env project name a request := by
  intro other hother
  obtain rfl := Option.some.inj (hdecode.symm.trans hother)
  exact hcall

theorem asksOnly_tCreateIssue (hlisted : StatesListed env project board) :
    AsksOnly env project board "plane_create_issue" tCreateIssue := by
  refine fun a ↦ lift_writes fun name hname ↦ lift_writes fun fields hfields ↦
    bind_writes (obeyed_stateField hlisted fields) fun state hstate ↦ writes_api ?_
  rw [if_neg (by simp)]
  apply asks_of_decode (decode_create env _)
  exact Outcome.bind_eq_ok_iff.mpr ⟨name, hname, Outcome.bind_eq_ok_iff.mpr ⟨fields, hfields,
    Outcome.bind_eq_ok_iff.mpr ⟨state, hstate, rfl⟩⟩⟩

theorem asksOnly_tUpdateIssue (hlisted : StatesListed env project board) :
    AsksOnly env project board "plane_update_issue" tUpdateIssue := by
  refine fun a ↦ lift_writes fun fields hfields ↦
    bind_writes (obeyed_stateField hlisted fields) fun state hstate ↦ ?_
  dsimp only
  split_ifs with hbody
  · exact writes_of_reads (kept_throw _)
  · refine lift_writes fun issueId hissue ↦ writes_api ?_
    rw [if_neg (by simp)]
    apply asks_of_decode (decode_patch env _ _)
    refine Outcome.bind_eq_ok_iff.mpr ⟨fields, hfields, Outcome.bind_eq_ok_iff.mpr
      ⟨state, hstate, ?_⟩⟩
    rw [if_neg hbody]
    exact Outcome.bind_eq_ok_iff.mpr ⟨issueId, hissue, rfl⟩

theorem asksOnly_tTransition (hlisted : StatesListed env project board) :
    AsksOnly env project board "plane_transition" tTransition := by
  refine fun a ↦ lift_writes fun toState htarget ↦ lift_writes fun role hrole ↦
    lift_writes fun _ hauthority ↦ bind_writes (obeyed_resolveState hlisted _) fun sid hsid ↦ ?_
  split_ifs with htruthy
  · exact writes_of_reads (kept_throw _)
  · refine lift_writes fun issueId hissue ↦ writes_api ?_
    rw [if_neg (by simp)]
    apply asks_of_decode (decode_patch env _ _)
    refine Outcome.bind_eq_ok_iff.mpr ⟨toState, htarget, Outcome.bind_eq_ok_iff.mpr ⟨role, hrole,
      Outcome.bind_eq_ok_iff.mpr ⟨_, hauthority, Outcome.bind_eq_ok_iff.mpr ⟨sid, hsid, ?_⟩⟩⟩⟩
    rw [if_neg htruthy]
    exact Outcome.bind_eq_ok_iff.mpr ⟨issueId, hissue, rfl⟩

theorem asks_postComment {name : String} {a issueId comment : Json}
    (hcall : PlaneMcp.callTool env.repr project name a =
      .ok (.commentItem (Python.str env.repr issueId) comment)) :
    Writes (CacheValid project) (Asks env project name a)
      (postComment env board issueId comment) := by
  apply writes_api
  rw [if_neg (by simp)]
  exact asks_of_decode (decode_comment env issueId comment) hcall

theorem asksOnly_tAddComment : AsksOnly env project board "plane_add_comment" tAddComment := by
  refine fun a ↦ lift_writes fun issueId hissue ↦ lift_writes fun comment hcomment ↦
    asks_postComment ?_
  exact Outcome.bind_eq_ok_iff.mpr ⟨issueId, hissue, Outcome.bind_eq_ok_iff.mpr
    ⟨comment, hcomment, rfl⟩⟩

theorem asksOnly_tPostEvidence :
    AsksOnly env project board "plane_post_evidence" tPostEvidence := by
  refine fun a ↦ lift_writes fun fields hfields ↦ lift_writes fun testFile htestFile ↦
    lift_writes fun testName htestName ↦ lift_writes fun outputHash houtputHash ↦
      lift_writes fun collectedAt hcollectedAt ↦ lift_writes fun issueId hissue ↦
        asks_postComment ?_
  refine Outcome.bind_eq_ok_iff.mpr ⟨fields, hfields, Outcome.bind_eq_ok_iff.mpr
    ⟨testFile, htestFile, Outcome.bind_eq_ok_iff.mpr ⟨testName, htestName, ?_⟩⟩⟩
  exact Outcome.bind_eq_ok_iff.mpr ⟨outputHash, houtputHash, Outcome.bind_eq_ok_iff.mpr
    ⟨collectedAt, hcollectedAt, Outcome.bind_eq_ok_iff.mpr ⟨issueId, hissue, rfl⟩⟩⟩

/-- The service reads no change of the items in an assignment. -/
theorem asksOnly_assignTo {name collection : String} {c : Char} {more : List Char}
    (hcollection : collection.toList = c :: more) (hc : c ≠ 'w') (key members : String) :
    AsksOnly env project board name fun env board ↦ assignTo env board collection key members := by
  refine fun a ↦ lift_writes fun target _ ↦ lift_writes fun issues _ ↦ writes_api ?_
  intro asked hasked
  rw [if_neg (by simp), decode_assign env hcollection hc] at hasked
  cases hasked

theorem tools_ask_only (hlisted : StatesListed env project board) :
    ∀ tool ∈ tools, tool.1 ≠ "plane_request" → AsksOnly env project board tool.1 tool.2.handler := by
  have hresolve : ∀ nameOrId, (stateReading project).Kept (resolveState env board nameOrId) :=
    fun nameOrId ↦ (obeyed_resolveState hlisted nameOrId).kept
  simp only [tools, List.forall_mem_cons]
  refine ⟨?_, ?_, ?_, ?_, ?_, ?_, ?_, ?_, ?_, ?_, ?_, ?_, ?_, ?_, List.forall_mem_nil _⟩ <;>
    intro hraw
  · exact fun a ↦ writes_of_reads ((obeyed_statesMap hlisted).kept.bind fun m ↦ kept_pure _)
  · exact fun a ↦ writes_of_reads ((kept_api _).bind fun answer ↦ kept_pure _)
  · exact fun a ↦ writes_of_reads (kept_tListIssues hresolve a)
  · exact fun a ↦ writes_of_reads ((kept_lift _).bind fun issueId ↦ kept_api _)
  · exact asksOnly_tCreateIssue hlisted
  · exact asksOnly_tUpdateIssue hlisted
  · exact asksOnly_tTransition hlisted
  · exact asksOnly_tAddComment
  · exact asksOnly_tPostEvidence
  · exact fun a ↦ writes_of_reads ((kept_api _).bind fun answer ↦ kept_pure _)
  · exact fun a ↦ writes_of_reads ((kept_api _).bind fun answer ↦ kept_pure _)
  · exact asksOnly_assignTo (c := 'c') rfl (by decide) "cycle_id" "cycle-issues"
  · exact asksOnly_assignTo (c := 'm') rfl (by decide) "module_id" "module-issues"
  · exact absurd rfl hraw

/-! ## Lines -/

/-- The requests ask for what the tool that is called asks for on the project. -/
def AsksFor (env : Env) (project : Project) (called : Option ((String × ToolEntry) × Json))
    (request : HttpRequest) : Prop :=
  ∃ tool a, called = some (tool, a) ∧ Asks env project tool.1 (orEmpty a) request

theorem wrote_refl (action : HttpRequest → Prop) (s : Session) : Wrote action s s :=
  ⟨[], 0, ⟨"", "", none⟩, by simp, Nat.zero_le _, Or.inl rfl, by simp⟩

/-- A line keeps the cache valid, and writes what it asks for. -/
theorem wrote_onLine (hlisted : StatesListed env project board) {line : String}
    (hraw : (calledOn env line).map (fun called ↦ called.1.1) ≠ some "plane_request")
    {s : Session} (hs : CacheValid project s.states) :
    CacheValid project (after (onLine env board line) s).states ∧
      Wrote (AsksFor env project (calledOn env line)) s (after (onLine env board line) s) := by
  rcases after_onLine env board line s with hsame | ⟨tool, htool, a, hcalled, hafter⟩
  · rw [hsame]
    exact ⟨hs, wrote_refl _ s⟩
  · have hname : tool.1 ≠ "plane_request" := fun hname ↦ hraw (by rw [hcalled, ← hname]; rfl)
    obtain ⟨hvalid, reads, k, write, hsent, hk, haction, hreads⟩ :=
      tools_ask_only hlisted tool htool hname (orEmpty a) s hs
    rw [hafter]
    exact ⟨hvalid, reads, k, write, hsent, hk,
      haction.imp_right fun hasks ↦ ⟨tool, a, hcalled, hasks⟩, hreads⟩

end Tools

section Runs

variable {env : Env} {project : Project} {board : Board}

/-! ## Sessions -/

/-- The call is the one on the line. -/
def CallOn (env : Env) (line : String) (call : ToolCall) : Prop :=
  ∃ tool, calledOn env line = some (tool, call.arguments) ∧ tool.1 = call.name

/-- No line calls the raw tool. -/
def NoRawCalls (env : Env) (lines : List String) : Prop :=
  ∀ line ∈ lines, (calledOn env line).map (fun called ↦ called.1.1) ≠ some "plane_request"

variable (reaction : Reaction)

theorem itemsAfter_reads {requests : List HttpRequest}
    (hreads : ∀ request ∈ requests, request.method = "GET" ∧ request.data = none)
    (sent : List HttpRequest) (items : Items) :
    itemsAfter env project reaction sent requests items = items := by
  induction requests generalizing sent with
  | nil => rfl
  | cons request requests ih =>
      have hdecode : decode env request = none := by
        obtain ⟨method, url, data⟩ := request
        obtain rfl : method = "GET" := (hreads _ List.mem_cons_self).1
        exact decode_get env url data
      have hreact : react env project reaction (sent ++ [request]) items = items := by
        simp [react, hdecode]
      rw [itemsAfter, hreact]
      exact ih (fun later hlater ↦ hreads later (List.mem_cons_of_mem request hlater)) _

/-- One request does what a call of its tool does. -/
theorem react_asked {called : Option ((String × ToolEntry) × Json)} {request : HttpRequest}
    (hasks : AsksFor env project called request)
    (hraw : called.map (fun called ↦ called.1.1) ≠ some "plane_request") (sent : List HttpRequest) :
    (∀ items, react env project reaction (sent ++ [request]) items = items) ∨
      ∃ call : ToolCall, (∃ tool, called = some (tool, call.arguments) ∧ tool.1 = call.name) ∧
        ∀ items, react env project reaction (sent ++ [request]) items =
          handleCall env.repr project items call := by
  obtain ⟨tool, a, hcalled, hasked⟩ := hasks
  cases hdecode : decode env request with
  | none => exact Or.inl fun items ↦ by simp [react, hdecode]
  | some asked =>
      have hname : tool.1 ≠ "plane_request" := fun hname ↦ hraw (by rw [hcalled, ← hname]; rfl)
      refine Or.inr ⟨⟨tool.1, a, reaction.took (sent ++ [request]),
        reaction.assigned (sent ++ [request]), hname⟩, ⟨tool, hcalled, rfl⟩, fun items ↦ ?_⟩
      have hcall : PlaneMcp.callTool env.repr project tool.1 (orEmpty a) = .ok asked :=
        hasked asked hdecode
      rw [orEmpty] at hcall
      simp only [react, List.getLast?_append, List.getLast?_singleton, Option.some_or,
        Option.bind_some, hdecode, handleCall, ToolCall.args, hcall]
      cases reaction.took (sent ++ [request]) <;> rfl

theorem itemsAfter_replicate {line : String} {request : HttpRequest}
    (hasks : AsksFor env project (calledOn env line) request)
    (hraw : (calledOn env line).map (fun called ↦ called.1.1) ≠ some "plane_request") (k : ℕ)
    (sent : List HttpRequest) :
    ∃ calls : List ToolCall, calls.length ≤ k ∧ (∀ call ∈ calls, CallOn env line call) ∧
      ∀ items, itemsAfter env project reaction sent (List.replicate k request) items =
        calls.foldl (handleCall env.repr project) items := by
  induction k generalizing sent with
  | zero => exact ⟨[], Nat.le_refl 0, by simp, fun _ ↦ rfl⟩
  | succ k ih =>
      obtain ⟨calls, hlength, hcalls, hitems⟩ := ih (sent ++ [request])
      rcases react_asked reaction hasks hraw sent with hsame | ⟨call, hcall, hdoes⟩
      · refine ⟨calls, Nat.le_succ_of_le hlength, hcalls, fun items ↦ ?_⟩
        rw [List.replicate_succ, itemsAfter, hsame, hitems]
      · refine ⟨call :: calls, Nat.succ_le_succ hlength, ?_, fun items ↦ ?_⟩
        · exact List.forall_mem_cons.mpr ⟨hcall, hcalls⟩
        · rw [List.replicate_succ, itemsAfter, hdoes, hitems, List.foldl_cons]

/-- What one line does to the items. -/
theorem itemsAfter_wrote {line : String} {s t : Session}
    (hwrote : Wrote (AsksFor env project (calledOn env line)) s t)
    (hraw : (calledOn env line).map (fun called ↦ called.1.1) ≠ some "plane_request") :
    ∃ requests, t.sent = s.sent ++ requests ∧
      ∃ calls : List ToolCall, (calls.length ≤ 6 ∧ ∀ call ∈ calls, CallOn env line call) ∧
        ∀ items, itemsAfter env project reaction s.sent requests items =
          calls.foldl (handleCall env.repr project) items := by
  obtain ⟨reads, k, write, hsent, hk, haction, hreads⟩ := hwrote
  refine ⟨reads ++ List.replicate k write, hsent, ?_⟩
  rcases haction with rfl | hasks
  · refine ⟨[], by simp, fun items ↦ ?_⟩
    rw [itemsAfter_append, itemsAfter_reads reaction hreads]
    rfl
  · obtain ⟨calls, hlength, hcalls, hitems⟩ :=
      itemsAfter_replicate reaction hasks hraw k (s.sent ++ reads)
    refine ⟨calls, ⟨hlength.trans hk, hcalls⟩, fun items ↦ ?_⟩
    rw [itemsAfter_append, itemsAfter_reads reaction hreads, hitems]

theorem serve_chunks (hlisted : StatesListed env project board) {lines : List String}
    (hraw : NoRawCalls env lines) {s : Session} (hs : CacheValid project s.states) :
    ∃ requests chunks, (serve env board lines s).session.sent = s.sent ++ requests ∧
      List.Forall₂ (fun line (chunk : List ToolCall) ↦
        chunk.length ≤ 6 ∧ ∀ call ∈ chunk, CallOn env line call) (lines.take chunks.length) chunks ∧
      ∀ items, itemsAfter env project reaction s.sent requests items =
        chunks.flatten.foldl (handleCall env.repr project) items := by
  induction lines generalizing s with
  | nil => exact ⟨[], [], (List.append_nil _).symm, .nil, fun _ ↦ rfl⟩
  | cons line lines ih =>
      have hline := hraw line List.mem_cons_self
      have hstep := wrote_onLine hlisted hline hs
      rw [serve]
      cases hrun : onLine env board line s with
      | error exc t =>
          rw [Effects.after_of_error hrun] at hstep
          obtain ⟨requests, hsent, calls, hcalls, hitems⟩ :=
            itemsAfter_wrote reaction hstep.2 hline
          exact ⟨requests, [calls], hsent, .cons hcalls .nil, by simpa using hitems⟩
      | ok reply t =>
          rw [Effects.after_of_ok hrun] at hstep
          obtain ⟨requests, hsent, calls, hcalls, hitems⟩ :=
            itemsAfter_wrote reaction hstep.2 hline
          obtain ⟨more, chunks, hmore, hchunks, hrest⟩ :=
            ih (fun later hlater ↦ hraw later (List.mem_cons_of_mem line hlater)) hstep.1
          refine ⟨requests ++ more, calls :: chunks, ?_, .cons hcalls hchunks, fun items ↦ ?_⟩
          · rw [hmore, hsent, List.append_assoc]
          · rw [itemsAfter_append, hitems, ← hsent, hrest, List.flatten_cons, List.foldl_append]

theorem cacheValid_start : CacheValid project Session.start.states := by
  intro m hm
  cases hm

/-- The call asks for Done: as a new item, as an update of this one, or as the verifier's
transition of it. -/
def AsksDone (env : Env) (project : Project) (id : String) (call : ToolCall) : Prop :=
  (call.name = "plane_create_issue" ∧ PlaneMcp.AsksForDone project call) ∨
    (call.name = "plane_update_issue" ∧ PlaneMcp.AsksForDone project call ∧
      PlaneMcp.Targets env.repr call id) ∨
    (PlaneMcp.VerifierToDone call ∧ PlaneMcp.Targets env.repr call id)

/-- A call that asks for Done is among those that bring an item there. -/
theorem exists_asksDone {calls : List ToolCall} {items : Items} {id : String}
    (hbefore : PlaneMcp.stateAt project items id ≠ some .done)
    (hafter : PlaneMcp.stateAt project (calls.foldl (handleCall env.repr project) items) id =
      some .done) : ∃ call ∈ calls, AsksDone env project id call := by
  induction calls generalizing items with
  | nil => exact absurd hafter hbefore
  | cons call calls ih =>
      by_cases hdone : PlaneMcp.stateAt project (handleCall env.repr project items call) id =
        some .done
      · refine ⟨call, List.mem_cons_self, ?_⟩
        rcases PlaneMcp.comesToDone_cases env.repr project hbefore hdone with
          hcreate | ⟨hname, hasks, htargets, -⟩ | ⟨hverifier, htargets, -⟩
        · exact Or.inl hcreate
        · exact Or.inr (Or.inl ⟨hname, hasks, htargets⟩)
        · exact Or.inr (Or.inr ⟨hverifier, htargets⟩)
      · obtain ⟨later, hlater, hasks⟩ := ih hdone hafter
        exact ⟨later, List.mem_cons_of_mem call hlater, hasks⟩

/-- The states as the service lists them. -/
def listing (project : Project) : Json :=
  .obj [("results", .arr (project.rows.map fun row ↦
    .obj [("id", .str row.2), ("name", .str row.1.name)]))]

def listingBoard : Board := fun _ ↦
  .body 200 (String.ofList (Json.asciiText sampleEnv.repr (listing PlaneMcp.sampleProject)))

theorem loads_listing : Json.loads sampleEnv.toFloat
    (String.ofList (Json.asciiText sampleEnv.repr (listing PlaneMcp.sampleProject))) =
      some (listing PlaneMcp.sampleProject) := by
  apply Json.loads_asciiText
  simp [listing, Json.Plain, Json.PlainMembers, Json.PlainItems, PlaneMcp.sampleProject,
    PlaneClient.sampleBoard]

theorem statesListed_listingBoard :
    StatesListed sampleEnv PlaneMcp.sampleProject listingBoard := by
  rintro sent status raw value hboard hvalue
  obtain ⟨-, rfl⟩ := Response.body.inj hboard
  rw [loads_listing] at hvalue
  obtain rfl := Option.some.inj hvalue
  refine ⟨_, rfl, ?_⟩
  simp [List.forall₂_map_right_iff, List.forall₂_same, Python.subscript, Dict.lookup_cons]

def transitionLine : String :=
  "\x7b\"id\": 1, \"method\": \"tools/call\", \"params\": \x7b\"name\": \"plane_transition\"," ++
  " \"arguments\": \x7b\"issue_id\": \"W-1\", \"to_state\": \"Done\"," ++
  " \"actor_role\": \"verifier\"\x7d\x7d\x7d"

def sampleArguments : Json :=
  .obj [("issue_id", .str "W-1"), ("to_state", .str "Done"), ("actor_role", .str "verifier")]

/-- The texts of the line are read one by one, and never as one text. -/
theorem toList_transitionLine : transitionLine.toList =
    "\x7b\"id\": 1, \"method\": \"tools/call\", \"params\": \x7b\"name\": \"plane_transition\",".toList ++
    " \"arguments\": \x7b\"issue_id\": \"W-1\", \"to_state\": \"Done\",".toList ++
    " \"actor_role\": \"verifier\"\x7d\x7d\x7d".toList := by
  have happend : ∀ a b c : String, (a ++ b ++ c).toList = a.toList ++ b.toList ++ c.toList := by
    intro a b c
    simp only [String.toList_append]
  exact happend _ _ _

theorem messageOn_transitionLine : messageOn sampleEnv transitionLine =
    some (.obj [("id", .int 1), ("method", .str "tools/call"),
      ("params", .obj [("name", .str "plane_transition"), ("arguments", sampleArguments)])]) := by
  have htrim : Text.trimEnds Python.isspace transitionLine.toList = transitionLine.toList := by
    rw [toList_transitionLine]
    decide +kernel
  have hstrip : Python.strip transitionLine = transitionLine := by
    rw [Python.strip, Text.trim, htrim, String.ofList_toList]
  have hloads : Json.loads sampleEnv.toFloat transitionLine =
      some (.obj [("id", .int 1), ("method", .str "tools/call"),
        ("params", .obj [("name", .str "plane_transition"), ("arguments", sampleArguments)])]) := by
    rw [Json.loads, toList_transitionLine]
    decide +kernel
  have hne : transitionLine ≠ "" := by
    intro hempty
    rw [hempty] at hloads
    cases hloads
  rw [messageOn, hstrip, if_neg hne, hloads]

theorem calledOn_transitionLine : ∃ tool,
    calledOn sampleEnv transitionLine = some (tool, sampleArguments) ∧
      tool.1 = "plane_transition" ∧ tool.2.handler = tTransition := by
  refine ⟨tools.get ⟨6, by decide⟩, ?_, rfl, rfl⟩
  rw [calledOn, messageOn_transitionLine]
  rfl

/-- The service acts on every request. -/
def acting : Reaction := ⟨fun _ ↦ true, fun _ ↦ ""⟩

theorem noRawCalls_transitionLine : NoRawCalls sampleEnv [transitionLine] := by
  intro line hline
  obtain rfl := List.mem_singleton.mp hline
  obtain ⟨tool, hcalled, hname, -⟩ := calledOn_transitionLine
  simp [hcalled, hname]

theorem api_listingBoard (method path : String) (body : Json) (s : Session) :
    api sampleEnv listingBoard method path body s = .ok (listing PlaneMcp.sampleProject)
      { s with sent := s.sent ++ [⟨method, sampleEnv.apiBase ++ path,
        if body = .null then none else some body⟩] } := by
  apply api_of_body rfl _ loads_listing
  intro hempty
  have hloads := loads_listing
  rw [hempty] at hloads
  cases hloads

def statesRead : HttpRequest :=
  ⟨"GET", sampleEnv.apiBase ++ (pbase sampleEnv ++ "/states/"), none⟩

def doneWrite : HttpRequest :=
  ⟨"PATCH", sampleEnv.apiBase ++ itemPath sampleEnv (.str "W-1"),
    some (.obj [("state", .str "id-09")])⟩

def sampleStates : List (Json × Json) := PlaneMcp.sampleProject.rows.map stateEntry

theorem statesMap_listingBoard :
    statesMap sampleEnv listingBoard .start = .ok sampleStates ⟨[statesRead], some sampleStates⟩ := by
  rw [statesMap]
  refine (bind_of_ok rfl).trans ?_
  refine (bind_of_ok (api_listingBoard _ _ _ _)).trans ?_
  rfl

theorem resolveState_listingBoard : resolveState sampleEnv listingBoard (.str "Done") .start =
    .ok (.str "id-09") ⟨[statesRead], some sampleStates⟩ := by
  rw [resolveState, if_neg (by decide)]
  exact (bind_of_ok statesMap_listingBoard).trans rfl

theorem tTransition_listingBoard : tTransition sampleEnv listingBoard sampleArguments .start =
    .ok (listing PlaneMcp.sampleProject) ⟨[statesRead, doneWrite], some sampleStates⟩ := by
  have hsubscript : ∀ key value, Python.subscript sampleArguments key = .ok value →
      ∀ s : Session, (liftM (Python.subscript sampleArguments key) : Effect Json) s = .ok value s :=
    fun _ _ h _ ↦ lift_eq_ok_iff.mpr ⟨h, rfl⟩
  have htarget := hsubscript "to_state" (.str "Done") rfl
  have hrole := hsubscript "actor_role" (.str "verifier") rfl
  have hissue := hsubscript "issue_id" (.str "W-1") rfl
  have hauthority : PlaneMcp.checkAuthority sampleEnv.repr (.str "Done") (.str "verifier") =
      .ok () := by decide
  rw [tTransition, bind_of_ok (htarget _), bind_of_ok (hrole _),
    bind_of_ok (lift_eq_ok_iff.mpr ⟨hauthority, rfl⟩), bind_of_ok resolveState_listingBoard,
    if_neg (by decide), bind_of_ok (hissue _), api_listingBoard]
  rfl

/-- The session reads the states, and writes the one. -/
theorem sent_transitionLine :
    (serve sampleEnv listingBoard [transitionLine] .start).session.sent =
      [statesRead, doneWrite] := by
  have hline : (after (onLine sampleEnv listingBoard transitionLine) .start).sent =
      [statesRead, doneWrite] := by
    obtain ⟨tool, hcalled, -, hhandler⟩ := calledOn_transitionLine
    rw [after_onLine_of_called hcalled, hhandler]
    exact congrArg Session.sent (after_of_ok tTransition_listingBoard)
  rw [serve]
  cases hrun : onLine sampleEnv listingBoard transitionLine .start with
  | error exc t => exact (congrArg Session.sent (after_of_error hrun)).symm.trans hline
  | ok reply t => exact (congrArg Session.sent (after_of_ok hrun)).symm.trans hline

end Runs

end AgenticSDLC.PlaneMcpServer
