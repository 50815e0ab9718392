import AgenticSDLC.Plane.PlaneMcp

/-!
# Ways into Done through the tools

A tool call changes the state of at most one item, by a created or a patched
`state`.  `plane_transition` asks for the verifier but for no edge, and the create
and update tools ask for nothing, so the gate is kept by the runs that use
neither gap.
-/

namespace AgenticSDLC.PlaneMcp

open Python (Exception)
open PlaneClient Runs

variable (repr : Json → String) (project : Project)

/-! ## What a request writes -/

/-- The request writes the state id `sid` to the item `id`. -/
inductive WritesState (items : Items) (assignedId : String) : Request → String → String → Prop
  | create {body : List (String × Json)} {sid : String} (hfree : items assignedId = none)
      (hsid : acceptedState project body project.defaultId = some sid) :
      WritesState items assignedId (.createItem body) assignedId sid
  | patch {issueId : String} {body : List (String × Json)} {sid : String} {item : Item}
      (hitem : items issueId = some item)
      (hsid : acceptedState project body item.stateId = some sid) :
      WritesState items assignedId (.patchItem issueId body) issueId sid

theorem stateAt_update (items : Items) (id other : String) (item : Item) :
    stateAt project (Function.update items id (some item)) other =
      if other = id then project.stateOf item else stateAt project items other := by
  unfold stateAt
  by_cases h : other = id
  · simp [h]
  · simp [h, Function.update_of_ne]

theorem stateAt_serve_cases (items : Items) (assignedId : String) (request : Request)
    (id : String) :
    stateAt project (serve repr project items assignedId request) id =
        stateAt project items id ∨
      ∃ sid, WritesState project items assignedId request id sid ∧
        stateAt project (serve repr project items assignedId request) id =
          project.id2state sid := by
  cases request with
  | get path => exact Or.inl rfl
  | post path body => exact Or.inl rfl
  | createItem body =>
      simp only [serve]
      split
      · next sid hfree hsid =>
          rw [stateAt_update]
          split_ifs with hid
          · subst hid
            exact Or.inr ⟨sid, .create hfree hsid, rfl⟩
          · exact Or.inl rfl
      · exact Or.inl rfl
  | patchItem issueId body =>
      simp only [serve]
      split
      · exact Or.inl rfl
      · next item hitem =>
          split
          · next sid hsid =>
              rw [stateAt_update]
              split_ifs with hid
              · subst hid
                exact Or.inr ⟨sid, .patch hitem hsid, rfl⟩
              · exact Or.inl rfl
          · exact Or.inl rfl
  | commentItem issueId body =>
      left
      simp only [serve]
      split
      · next item hitem =>
          rw [stateAt_update]
          split_ifs with hid
          · simp [stateAt, hid, hitem]
          · rfl
      · rfl

/-- Only a body with a `state` brings a new or an old item to Done. -/
theorem state_of_writes_done {items : Items} {assignedId id sid : String} {request : Request}
    (hwrites : WritesState project items assignedId request id sid)
    (hdone : project.id2state sid = some .done) (hbefore : stateAt project items id ≠ some .done) :
    (∃ body, request = .createItem body ∧ body.lookup "state" = some (.str sid)) ∨
      (∃ body, request = .patchItem id body ∧ body.lookup "state" = some (.str sid)) := by
  have haccepted : ∀ {body : List (String × Json)} {current : String},
      acceptedState project body current = some sid →
        project.id2state current ≠ some .done → body.lookup "state" = some (.str sid) := by
    intro body current hsid hcurrent
    unfold acceptedState at hsid
    split at hsid
    · obtain rfl := Option.some.inj hsid
      exact absurd hdone hcurrent
    · next other hlookup =>
        split_ifs at hsid
        rw [hlookup, Option.some.inj hsid]
    · cases hsid
  cases hwrites with
  | create hfree hsid =>
      exact Or.inl ⟨_, rfl, haccepted hsid project.default_ne_done⟩
  | patch hitem hsid =>
      refine Or.inr ⟨_, rfl, haccepted hsid ?_⟩
      rwa [stateAt, hitem] at hbefore

/-! ## What a tool asks for -/

theorem lookup_optionalField (fields : List (String × Json)) {key target : String}
    (htarget : target ≠ "state") :
    (optionalField fields key target).lookup "state" = none := by
  unfold optionalField
  dsimp only
  have hbeq : ("state" == target) = false := by simpa using htarget.symm
  split_ifs
  · simp [List.lookup_cons, hbeq]
  · rfl

theorem lookup_stateField {fields state : List (String × Json)}
    (h : stateField project fields = .ok state) {value : Json}
    (hlookup : state.lookup "state" = some value) :
    resolveState project (Python.get fields "state") = .ok value := by
  unfold stateField at h
  dsimp only at h
  split_ifs at h
  · obtain rfl := Except.ok.inj h
    cases hlookup
  · obtain ⟨sid, hsid, hstate⟩ := Outcome.bind_eq_ok_iff.mp h
    obtain rfl := Except.ok.inj hstate
    have hvalue : sid = value := by simpa [List.lookup_cons] using hlookup
    rw [hsid, hvalue]

/-- The `state` of a body comes from the `state` the caller gave. -/
def StateFrom (fields body : List (String × Json)) : Prop :=
  ∀ value, body.lookup "state" = some value →
    resolveState project (Python.get fields "state") = .ok value

theorem tCreateIssue_spec {a : Json} {request : Request}
    (h : tCreateIssue project a = .ok request) :
    ∃ fields body, a = .obj fields ∧ request = .createItem body ∧
      StateFrom project fields body := by
  obtain ⟨name, hname, hrest⟩ := Outcome.bind_eq_ok_iff.mp h
  obtain ⟨fields, hfields, hrest⟩ := Outcome.bind_eq_ok_iff.mp hrest
  obtain ⟨state, hstate, hreturn⟩ := Outcome.bind_eq_ok_iff.mp hrest
  obtain ⟨members, rfl, -⟩ := Python.subscript_eq_ok_iff.mp hname
  obtain rfl := Except.ok.inj hfields
  refine ⟨members, _, rfl, (Except.ok.inj hreturn).symm, fun value hlookup ↦ ?_⟩
  apply lookup_stateField project hstate
  simpa [List.lookup_append, lookup_optionalField, List.lookup_cons] using hlookup

theorem lookup_updatedFields (fields : List (String × Json)) :
    (updatedFields fields).lookup "state" = none := by
  unfold updatedFields
  simp only [List.flatMap_cons, List.flatMap_nil, List.lookup_append, Option.or_eq_none_iff]
  refine ⟨?_, ?_, ?_, rfl⟩ <;> split_ifs <;> simp [List.lookup_cons]

def Targets (call : ToolCall) (id : String) : Prop :=
  ∃ fields issueId, call.args = .obj fields ∧ fields.lookup "issue_id" = some issueId ∧
    Python.str repr issueId = id

theorem tUpdateIssue_spec {a : Json} {request : Request}
    (h : tUpdateIssue repr project a = .ok request) :
    ∃ fields issueId body, a = .obj fields ∧ fields.lookup "issue_id" = some issueId ∧
      request = .patchItem (Python.str repr issueId) body ∧ StateFrom project fields body := by
  obtain ⟨fields, hfields, hrest⟩ := Outcome.bind_eq_ok_iff.mp h
  obtain ⟨state, hstate, hchecked⟩ := Outcome.bind_eq_ok_iff.mp hrest
  dsimp only at hchecked
  split_ifs at hchecked with hbody
  obtain ⟨issueId, hissue, hreturn⟩ := Outcome.bind_eq_ok_iff.mp hchecked
  obtain ⟨members, rfl, hid⟩ := Python.subscript_eq_ok_iff.mp hissue
  obtain rfl := Except.ok.inj hfields
  refine ⟨members, issueId, _, rfl, hid, (Except.ok.inj hreturn).symm, fun value hlookup ↦ ?_⟩
  apply lookup_stateField project hstate
  simpa [List.lookup_append, lookup_updatedFields] using hlookup

theorem checkAuthority_ok {toState role : Json}
    (h : checkAuthority repr toState role = .ok ()) :
    ∃ name allowed r, toState = .str name ∧ authority name = some allowed ∧ r ∈ allowed ∧
      role = .str r.name := by
  obtain ⟨_, -, htable⟩ := Outcome.bind_eq_ok_iff.mp h
  cases toState with
  | str name =>
      dsimp only at htable
      cases hallowed : authority name with
      | none =>
          rw [hallowed] at htable
          cases htable
      | some allowed =>
          rw [hallowed] at htable
          obtain ⟨_, -, hchecked⟩ := Outcome.bind_eq_ok_iff.mp htable
          split_ifs at hchecked with hrole
          simp only [List.all_eq_true, decide_eq_true_eq, not_forall, not_not] at hrole
          obtain ⟨r, hr, hname⟩ := hrole
          exact ⟨name, allowed, r, rfl, hallowed, hr, hname⟩
  | _ => cases htable

theorem tTransition_spec {a : Json} {request : Request}
    (h : tTransition repr project a = .ok request) :
    ∃ fields issueId toState role sid, a = .obj fields ∧
      fields.lookup "issue_id" = some issueId ∧ fields.lookup "to_state" = some toState ∧
        fields.lookup "actor_role" = some role ∧ checkAuthority repr toState role = .ok () ∧
          resolveState project toState = .ok sid ∧
            request = .patchItem (Python.str repr issueId) [("state", sid)] := by
  obtain ⟨toState, htarget, hrest⟩ := Outcome.bind_eq_ok_iff.mp h
  obtain ⟨role, hactor, hrest⟩ := Outcome.bind_eq_ok_iff.mp hrest
  obtain ⟨_, hauthority, hrest⟩ := Outcome.bind_eq_ok_iff.mp hrest
  obtain ⟨sid, hsid, hchecked⟩ := Outcome.bind_eq_ok_iff.mp hrest
  split_ifs at hchecked
  obtain ⟨issueId, hissue, hreturn⟩ := Outcome.bind_eq_ok_iff.mp hchecked
  obtain ⟨fields, rfl, hto⟩ := Python.subscript_eq_ok_iff.mp htarget
  obtain ⟨members, hmembers, hrole⟩ := Python.subscript_eq_ok_iff.mp hactor
  obtain rfl := Json.obj.inj hmembers
  obtain ⟨members', hmembers', hid⟩ := Python.subscript_eq_ok_iff.mp hissue
  obtain rfl := Json.obj.inj hmembers'
  exact ⟨fields, issueId, toState, role, sid, rfl, hid, hto, hrole, hauthority, hsid,
    (Except.ok.inj hreturn).symm⟩

theorem resolveState_str {name : String} {value : Json}
    (h : resolveState project (.str name) = .ok value) :
    value = .null ∨ value = .str ((project.idNamed name).getD name) := by
  unfold resolveState at h
  split_ifs at h
  · exact Or.inl (Except.ok.inj h).symm
  · obtain ⟨_, -, hreturn⟩ := Outcome.bind_eq_ok_iff.mp h
    exact Or.inr (Except.ok.inj hreturn).symm

theorem authority_eq_some {name : String} {allowed : List Role}
    (h : authority name = some allowed) :
    ∃ state ∈ State.all, state.name = name ∧ allowed = transitionAuth state := by
  obtain ⟨hmap, -⟩ := (Option.filter_eq_some_iff (p := (fun roles ↦ decide (roles ≠ [])))).mp h
  obtain ⟨state, hfind, hallowed⟩ := Option.map_eq_some_iff.mp hmap
  exact ⟨state, List.mem_of_find?_eq_some hfind, by simpa using List.find?_some hfind,
    hallowed.symm⟩

/-- An authorised target that resolves to the id of Done is the name `Done`. -/
theorem done_of_resolveState {name sid : String} {allowed : List Role}
    (hallowed : authority name = some allowed)
    (hresolve : resolveState project (.str name) = .ok (.str sid))
    (hdone : project.id2state sid = some .done) : name = "Done" := by
  obtain ⟨row, hfind, hstate⟩ := Option.map_eq_some_iff.mp hdone
  have hmem : row ∈ project.rows := List.mem_of_find?_eq_some hfind
  have hrow : row.2 = sid := by simpa using List.find?_some hfind
  have hsid : sid = (project.idNamed name).getD name := by
    rcases resolveState_str project hresolve with hnull | hstr
    · cases hnull
    · exact Json.str.inj hstr
  cases hnamed : project.idNamed name with
  | some id =>
      obtain ⟨named, hnamedFind, hid⟩ := Option.map_eq_some_iff.mp hnamed
      have hsame : named = row := by
        refine List.inj_on_of_nodup_map project.nodup_ids
          (List.mem_of_find?_eq_some hnamedFind) hmem ?_
        rw [hid, hrow, hsid, hnamed, Option.getD_some]
      have hname : named.1.name = name := by simpa using List.find?_some hnamedFind
      rw [← hname, hsame, hstate]
      rfl
  | none =>
      -- The name would be an id itself, and listed names are no ids.
      obtain ⟨state, hlisted, hname, -⟩ := authority_eq_some hallowed
      have hidName : row.2 = state.name := by
        rw [hrow, hsid, hnamed, Option.getD_none, hname]
      have hin : state.name ∈ listedStates := by
        rw [listedStates_eq]
        exact List.mem_map_of_mem hlisted
      exact absurd (hidName ▸ hin) (project.ids_unlisted row hmem)

/-- A tool that writes a state is one of the three. -/
theorem callTool_cases {name : String} {a : Json} {request : Request}
    (h : callTool repr project name a = .ok request) :
    (name = "plane_create_issue" ∧ tCreateIssue project a = .ok request) ∨
      (name = "plane_update_issue" ∧ tUpdateIssue repr project a = .ok request) ∨
        (name = "plane_transition" ∧ tTransition repr project a = .ok request) ∨
          (∀ body, request ≠ .createItem body) ∧ ∀ id body, request ≠ .patchItem id body := by
  unfold callTool at h
  split at h
  case h_5 => exact Or.inl ⟨rfl, h⟩
  case h_6 => exact Or.inr (Or.inl ⟨rfl, h⟩)
  case h_7 => exact Or.inr (Or.inr (Or.inl ⟨rfl, h⟩))
  all_goals
    refine Or.inr (Or.inr (Or.inr ⟨fun body heq ↦ ?_, fun id body heq ↦ ?_⟩)) <;> subst heq <;>
      simp [tGetIssue, tAddComment, tPostEvidence, assignTo, Outcome.bind_eq_ok_iff, pure,
        Except.pure] at h

/-! ## Runs -/

section Run

variable (start : Items)

def runCalls (calls : List ToolCall) : Items :=
  calls.foldl (handleCall repr project) start

theorem runCalls_append_singleton (calls : List ToolCall) (call : ToolCall) :
    runCalls repr project start (calls ++ [call]) =
      handleCall repr project (runCalls repr project start calls) call := by
  simp [runCalls]

def AsksForDone (call : ToolCall) : Prop :=
  ∃ fields sid, call.args = .obj fields ∧
    resolveState project (Python.get fields "state") = .ok (.str sid) ∧
      project.id2state sid = some .done

def VerifierToDone (call : ToolCall) : Prop :=
  call.name = "plane_transition" ∧ ∃ fields, call.args = .obj fields ∧
    fields.lookup "to_state" = some (.str "Done") ∧
      fields.lookup "actor_role" = some (.str "verifier")

/-- Whatever item the call brings to Done, it does so as the verifier's
transition along an edge the client allows. -/
def DoneByVerifier (before : List ToolCall) (call : ToolCall) : Prop :=
  ∀ id, stateAt project (runCalls repr project start before) id ≠ some .done →
    stateAt project (runCalls repr project start (before ++ [call])) id = some .done →
      VerifierToDone call ∧ Targets repr call id ∧
        ∃ cur, stateAt project (runCalls repr project start before) id = some cur ∧
          legalEdge cur .done = true

/-- The call uses neither gap of the tools: it creates no item in Done, updates
none into it, and as a transition to Done starts at a legal predecessor. -/
def KeepsGate (before : List ToolCall) (call : ToolCall) : Prop :=
  let items := runCalls repr project start before
  (call.name = "plane_create_issue" → ¬AsksForDone project call) ∧
    (call.name = "plane_update_issue" → AsksForDone project call →
      ∀ id, Targets repr call id →
        items id = none ∨ stateAt project items id = some .done) ∧
      (VerifierToDone call → ∀ id, Targets repr call id →
        items id = none ∨ ∃ cur, stateAt project items id = some cur ∧
          (cur = .done ∨ legalEdge cur .done = true))

/-- What a call that brings an item to Done was. -/
theorem comesToDone_cases {items : Items} {call : ToolCall} {id : String}
    (hbefore : stateAt project items id ≠ some .done)
    (hafter : stateAt project (handleCall repr project items call) id = some .done) :
    (call.name = "plane_create_issue" ∧ AsksForDone project call) ∨
      (call.name = "plane_update_issue" ∧ AsksForDone project call ∧ Targets repr call id ∧
        items id ≠ none) ∨
        (VerifierToDone call ∧ Targets repr call id ∧ items id ≠ none) := by
  unfold handleCall at hafter
  cases hcall : callTool repr project call.name call.args with
  | error exc =>
      rw [hcall] at hafter
      exact absurd hafter hbefore
  | ok request =>
      rw [hcall] at hafter
      dsimp only at hafter
      split_ifs at hafter
      · rcases stateAt_serve_cases repr project items call.assignedId request id with
          hsame | ⟨sid, hwrites, hstate⟩
        · exact absurd (hsame ▸ hafter) hbefore
        · rw [hstate] at hafter
          have hpatched : ∀ body, request = .patchItem id body → items id ≠ none := by
            rintro body rfl
            cases hwrites with
            | patch hitem _ => simp [hitem]
          have hbody := state_of_writes_done project hwrites hafter hbefore
          rcases callTool_cases repr project hcall with
            ⟨hname, htool⟩ | ⟨hname, htool⟩ | ⟨hname, htool⟩ | ⟨hnocreate, hnopatch⟩
          · obtain ⟨fields, body, hargs, rfl, hfrom⟩ := tCreateIssue_spec project htool
            rcases hbody with ⟨body, heq, hlookup⟩ | ⟨body, heq, -⟩
            · obtain rfl := Request.createItem.inj heq
              exact Or.inl ⟨hname, fields, sid, hargs, hfrom _ hlookup, hafter⟩
            · cases heq
          · obtain ⟨fields, issueId, body, hargs, hissue, rfl, hfrom⟩ :=
              tUpdateIssue_spec repr project htool
            rcases hbody with ⟨body, heq, -⟩ | ⟨body, heq, hlookup⟩
            · cases heq
            · obtain ⟨hid, rfl⟩ := Request.patchItem.inj heq
              exact Or.inr (Or.inl ⟨hname, ⟨fields, sid, hargs, hfrom _ hlookup, hafter⟩,
                ⟨fields, issueId, hargs, hissue, hid⟩, hpatched _ heq⟩)
          · obtain ⟨fields, issueId, toState, role, resolved, hargs, hissue, hto, hrole,
              hauthority, hresolved, rfl⟩ := tTransition_spec repr project htool
            rcases hbody with ⟨body, heq, -⟩ | ⟨body, heq, hlookup⟩
            · cases heq
            · obtain ⟨hid, rfl⟩ := Request.patchItem.inj heq
              obtain rfl : resolved = .str sid := by simpa [List.lookup_cons] using hlookup
              obtain ⟨name, allowed, r, rfl, hallowed, hr, rfl⟩ :=
                checkAuthority_ok repr hauthority
              obtain rfl := done_of_resolveState project hallowed hresolved hafter
              obtain rfl : r = .verifier := by
                obtain ⟨state, -, hname, rfl⟩ := authority_eq_some hallowed
                rw [State.eq_done_of_name hname] at hr
                simpa [transitionAuth] using hr
              exact Or.inr (Or.inr ⟨⟨hname, fields, hargs, hto, hrole⟩,
                ⟨fields, issueId, hargs, hissue, hid⟩, hpatched _ heq⟩)
          · rcases hbody with ⟨body, heq, -⟩ | ⟨body, heq, -⟩
            · exact absurd heq (hnocreate body)
            · exact absurd heq (hnopatch id body)
      · exact absurd hafter hbefore

theorem doneByVerifier_of_keepsGate {before : List ToolCall} {call : ToolCall}
    (hkeeps : KeepsGate repr project start before call) :
    DoneByVerifier repr project start before call := by
  intro id hbefore hafter
  rw [runCalls_append_singleton] at hafter
  obtain ⟨hcreate, hupdate, htransition⟩ := hkeeps
  rcases comesToDone_cases repr project hbefore hafter with
    ⟨hname, hasks⟩ | ⟨hname, hasks, htargets, hpresent⟩ | ⟨hverifier, htargets, hpresent⟩
  · exact absurd hasks (hcreate hname)
  · rcases hupdate hname hasks id htargets with habsent | hdone
    · exact absurd habsent hpresent
    · exact absurd hdone hbefore
  · rcases htransition hverifier id htargets with habsent | ⟨cur, hcur, hdone | hedge⟩
    · exact absurd habsent hpresent
    · exact absurd (hdone ▸ hcur) hbefore
    · exact ⟨hverifier, htargets, cur, hcur, hedge⟩

end Run

def sampleProject : Project where
  toBoard := sampleBoard
  defaultId := "id-01"
  ids_unlisted := by decide
  default_ne_done := by decide

def sampleItems (stateId : String) : Items :=
  Function.update (fun _ ↦ none) "W-1" (some (sampleItem stateId))

def updateToDone : ToolCall where
  name := "plane_update_issue"
  arguments := .obj [("issue_id", .str "W-1"), ("state", .str "Done")]
  served := true
  assignedId := ""
  not_raw := by decide

def transitionToDone : ToolCall where
  name := "plane_transition"
  arguments := .obj [("issue_id", .str "W-1"), ("to_state", .str "Done"),
    ("actor_role", .str "verifier")]
  served := true
  assignedId := ""
  not_raw := by decide

end AgenticSDLC.PlaneMcp
