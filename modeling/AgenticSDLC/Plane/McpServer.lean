import AgenticSDLC.Coverage.ModelFingerprint
import AgenticSDLC.Plane.McpTools

/-!
# The MCP server

`plane-integration/plane_mcp_server.py`: JSON-RPC over lines of text.  One message stands on each
line of the input, and one on each line of the output.
-/

namespace AgenticSDLC.PlaneMcpServer

open Python (Exception)
open Effects (Contract Returns Raises returns_pure returns_lift raises_lift returns_tryCatch)

/-! ## The table of the tools -/

structure ToolEntry where
  handler : Env → Board → Json → Effect Json
  schema : Json
  description : String
  isWrite : Bool

def typed (type : String) : Json := .obj [("type", .str type)]

def described (type description : String) : Json :=
  .obj [("type", .str type), ("description", .str description)]

def oneOf (values : List String) : Json :=
  .obj [("type", .str "string"), ("enum", .arr (values.map Json.str))]

def strings : Json := .obj [("type", .str "array"), ("items", typed "string")]

def objectOf (required : List String) (properties : List (String × Json)) : Json :=
  .obj ([("type", .str "object")] ++
    (if required = [] then [] else [("required", .arr (required.map Json.str))]) ++
    [("properties", .obj properties)])

def priorities : Json := oneOf ["urgent", "high", "medium", "low", "none"]

def tools : List (String × ToolEntry) :=
  [("plane_context",
      ⟨tContext, objectOf [] [],
        "Show the connected workspace/project, redacted token, and the 12 state names.", false⟩),
    ("plane_list_states",
      ⟨tListStates, objectOf [] [], "List the project's workflow states (name + id).", false⟩),
    ("plane_list_issues",
      ⟨tListIssues, objectOf []
        [("state", described "string" "filter by state name or id"),
          ("search", described "string" "case-insensitive substring of the title"),
          ("limit", .obj [("type", .str "integer"), ("default", .int 50)]),
          ("cursor", described "string" "pagination cursor")],
        "List work-items (optionally filtered by state/search).", false⟩),
    ("plane_get_issue",
      ⟨tGetIssue, objectOf ["issue_id"] [("issue_id", typed "string")],
        "Get one work-item by id.", false⟩),
    ("plane_create_issue",
      ⟨tCreateIssue, objectOf ["name"]
        [("name", typed "string"), ("description_html", typed "string"), ("priority", priorities),
          ("state", described "string" "state name or id"), ("assignee_ids", strings)],
        "Create a new work-item.", true⟩),
    ("plane_update_issue",
      ⟨tUpdateIssue, objectOf ["issue_id"]
        [("issue_id", typed "string"), ("name", typed "string"),
          ("description_html", typed "string"), ("priority", priorities),
          ("state", described "string" "state name or id")],
        "Update fields on a work-item (name/description/priority/state).", true⟩),
    ("plane_transition",
      ⟨tTransition, objectOf ["issue_id", "to_state", "actor_role"]
        [("issue_id", typed "string"), ("to_state", described "string" "target state name"),
          ("actor_role", oneOf ["initializer", "implementer", "verifier", "human"])],
        "Move a work-item through the 12-state agent workflow. ENFORCES actor authority " ++
        "(only verifier->Done; loops->HANDOFF).", true⟩),
    ("plane_add_comment",
      ⟨tAddComment, objectOf ["issue_id", "comment_html"]
        [("issue_id", typed "string"), ("comment_html", typed "string")],
        "Add an HTML comment to a work-item.", true⟩),
    ("plane_post_evidence",
      ⟨tPostEvidence,
        objectOf ["issue_id", "test_file", "test_name", "output_hash", "collected_at"]
          [("issue_id", typed "string"), ("test_file", typed "string"),
            ("test_name", typed "string"), ("output_hash", typed "string"),
            ("collected_at", typed "string"),
            ("actor_role", .obj [("type", .str "string"), ("default", .str "verifier")])],
        "Attach a 4-field Evidence_Record (the proof trail) as a comment.", true⟩),
    ("plane_list_cycles",
      ⟨fun env board ↦ listAll env board "cycles", objectOf [] [],
        "List cycles (sprints/phases).", false⟩),
    ("plane_list_modules",
      ⟨fun env board ↦ listAll env board "modules", objectOf [] [],
        "List modules (epics/feature groups).", false⟩),
    ("plane_assign_cycle",
      ⟨fun env board ↦ assignTo env board "cycles" "cycle_id" "cycle-issues",
        objectOf ["cycle_id", "issue_ids"] [("cycle_id", typed "string"), ("issue_ids", strings)],
        "Assign work-items to a cycle.", true⟩),
    ("plane_assign_module",
      ⟨fun env board ↦ assignTo env board "modules" "module_id" "module-issues",
        objectOf ["module_id", "issue_ids"] [("module_id", typed "string"), ("issue_ids", strings)],
        "Assign work-items to a module.", true⟩),
    ("plane_request",
      ⟨tRequest, objectOf ["method", "path"]
        [("method", oneOf ["GET", "POST", "PATCH", "PUT", "DELETE"]),
          ("path", described "string" ("API path relative to base, e.g. " ++
            "'/workspaces/\x7bworkspace\x7d/projects/\x7bproject\x7d/members/'. " ++
            "Supports \x7bproject\x7d/\x7bworkspace\x7d.")),
          ("body", typed "object")],
        "Escape hatch: call ANY Plane REST endpoint (settings, members, views, pages). " ++
        "Full read/write coverage. Use deliberately.", true⟩)]

/-! ## Messages -/

def defaultProtocol : String := "2024-11-05"

/-- The message of `reply`. -/
def resultReply (mid result : Json) : Json :=
  .obj [("jsonrpc", .str "2.0"), ("id", mid), ("result", result)]

def errorReply (mid : Json) (code : ℤ) (message : String) : Json :=
  .obj [("jsonrpc", .str "2.0"), ("id", mid),
    ("error", .obj [("code", .int code), ("message", .str message)])]

def textContent (text : String) : Json :=
  .arr [.obj [("type", .str "text"), ("text", .str text)]]

/-- `value or {}`. -/
def orEmpty (value : Json) : Json := if Python.truthy value then value else .obj []

section Server

variable (env : Env) (board : Board)

/-- `json.dumps(out, indent=2)`. -/
def resultText (out : Json) : String :=
  String.ofList (Json.arranged Json.asciiQuoting env.repr (.indented 2) 0 out)

/-- The result of a tool; an exception is one too. -/
def callTool (entry : ToolEntry) (args : Json) : Effect Json :=
  tryCatch (do
    let out ← entry.handler env board args
    return .obj [("content", textContent (resultText env out))]) fun exc ↦
      return .obj [("content", textContent ("ERROR: " ++ exc.text)), ("isError", .bool true)]

/-- The tools as `tools/list` shows them. -/
def toolList : Json :=
  .arr (tools.map fun tool ↦ .obj [("name", .str tool.1), ("description", .str tool.2.description),
    ("inputSchema", tool.2.schema)])

def initialized (params : List (String × Json)) : Json :=
  let requested := Python.get params "protocolVersion"
  .obj [("protocolVersion",
      if Python.truthy requested then requested else .str defaultProtocol),
    ("capabilities", .obj [("tools", .obj [])]),
    ("serverInfo", .obj [("name", .str "plane-ascp"), ("version", .str "1.0.0")])]

/-- The branch of `tools/call`. -/
def toolsCall (mid : Json) (params : List (String × Json)) : Effect (Option Json) := do
  let name := Python.get params "name"
  let args := orEmpty (Python.get params "arguments")
  let _ ← Python.hashKey name
  match tools.find? fun tool ↦ Json.str tool.1 = name with
  | none => return some (errorReply mid (-32602)
      ("unknown tool '" ++ Python.str env.repr name ++ "'"))
  | some tool =>
      let result ← callTool env board tool.2 args
      return some (resultReply mid result)

def handleFields (fields : List (String × Json)) : Effect (Option Json) :=
  let method := Python.get fields "method"
  let mid := Python.get fields "id"
  if method = .str "initialize" then do
    let params ← Python.asDict (orEmpty (Python.get fields "params"))
    return some (resultReply mid (initialized params))
  else if method = .str "notifications/initialized" ∨ method = .str "initialized" then return none
  else if method = .str "ping" then return some (resultReply mid (.obj []))
  else if method = .str "tools/list" then
    return some (resultReply mid (.obj [("tools", toolList)]))
  else if method = .str "tools/call" then do
    let params ← Python.asDict (orEmpty (Python.get fields "params"))
    toolsCall env board mid params
  else if (fields.lookup "id").isSome then
    return some (errorReply mid (-32601) ("method not found: " ++ Python.str env.repr method))
  else return none

/-- `handle`: the reply to a message, if there is one. -/
def handle (msg : Json) : Effect (Option Json) := do
  let fields ← Python.asDict msg
  handleFields env board fields

/-- What the loop does with a message: the reply to an exception is that of `main`, whose own
exceptions end the program. -/
def respond (msg : Json) : Effect (Option Json) :=
  tryCatch (handle env board msg) fun exc ↦ do
    if ← ModelFingerprint.contains msg "id" then
      let mid ← Python.subscript msg "id"
      return some (errorReply mid (-32603) ("internal error: " ++ exc.detail))
    else return none

/-- The message on a line; blank lines and bad JSON are passed over. -/
def messageOn (line : String) : Option Json :=
  let line := Python.strip line
  if line = "" then none else Json.loads env.toFloat line

def onLine (line : String) : Effect (Option Json) :=
  match messageOn env line with
  | none => return none
  | some msg => respond env board msg

/-- The messages that the server writes, and the exception that ends it if one does. -/
structure Transcript where
  replies : List Json
  ended : Option Exception
  session : Session

/-- The loop over the lines. -/
def serve : List String → Session → Transcript
  | [], s => ⟨[], none, s⟩
  | line :: lines, s =>
      match onLine env board line s with
      | .error exc s => ⟨[], some exc, s⟩
      | .ok reply s =>
          let rest := serve lines s
          ⟨reply.toList ++ rest.replies, rest.ended, rest.session⟩

/-- What is written to the standard output. -/
def output (transcript : Transcript) : List Char :=
  Text.unlines (transcript.replies.map (Json.laidOut Json.asciiQuoting env.repr .space))

end Server

/-! ## Responses -/

/-- The id that a message is answered with, if it is answered: neither the board nor the tools
have a say in it. -/
def answeredId (fields : List (String × Json)) : Option Json :=
  let method := Python.get fields "method"
  let mid := Python.get fields "id"
  let params := Python.asDict (orEmpty (Python.get fields "params"))
  if method = .str "initialize" then
    match params with
    | .ok _ => some mid
    | .error _ => fields.lookup "id"
  else if method = .str "notifications/initialized" ∨ method = .str "initialized" then none
  else if method = .str "ping" then some mid
  else if method = .str "tools/list" then some mid
  else if method = .str "tools/call" then
    match params >>= fun params ↦ Python.hashKey (Python.get params "name") with
    | .ok _ => some mid
    | .error _ => fields.lookup "id"
  else fields.lookup "id"

/-- A response of the protocol: a result or an error, under the id of its request. -/
inductive IsResponse (mid : Json) : Json → Prop
  | result (result : Json) : IsResponse mid (resultReply mid result)
  | error (code : ℤ) (message : String) : IsResponse mid (errorReply mid code message)

/-- There is a response when an id is to be answered, and it can be written. -/
def Answers (P : Decimal → Prop) (reply id : Option Json) : Prop :=
  Option.Rel (fun response mid ↦ IsResponse mid response ∧ response.Native P) reply id

section Native

variable {P : Decimal → Prop}

theorem native_resultReply {mid result : Json} (hmid : mid.Native P) (hresult : result.Native P) :
    (resultReply mid result).Native P :=
  ⟨by simp, trivial, hmid, hresult, trivial⟩

theorem native_errorReply {mid : Json} (hmid : mid.Native P) (code : ℤ) (message : String) :
    (errorReply mid code message).Native P :=
  ⟨by simp, trivial, hmid, ⟨by simp, trivial, trivial, trivial⟩, trivial⟩

theorem answers_result {mid result : Json} (hmid : mid.Native P) (hresult : result.Native P) :
    Answers P (some (resultReply mid result)) (some mid) :=
  .some ⟨.result result, native_resultReply hmid hresult⟩

theorem answers_error {mid : Json} (hmid : mid.Native P) (code : ℤ) (message : String) :
    Answers P (some (errorReply mid code message)) (some mid) :=
  .some ⟨.error code message, native_errorReply hmid code message⟩

theorem native_textContent (text : String) : (textContent text).Native P :=
  ⟨⟨by simp, trivial, trivial, trivial⟩, trivial⟩

theorem plain_toolList : toolList.Plain := by
  simp [toolList, tools, objectOf, typed, described, oneOf, strings, priorities, Json.Plain,
    Json.PlainItems, Json.PlainMembers]

theorem native_initialized {params : List (String × Json)} (h : (Json.obj params).Native P) :
    (initialized params).Native P := by
  refine ⟨by simp, ?_, ⟨by simp, ⟨by simp, trivial⟩, trivial⟩, ⟨by simp, trivial, trivial, trivial⟩,
    trivial⟩
  split_ifs
  · exact Json.native_get h "protocolVersion"
  · trivial

theorem native_orEmpty {value : Json} (h : value.Native P) : (orEmpty value).Native P := by
  rw [orEmpty]
  split_ifs
  · exact h
  · exact ⟨List.nodup_nil, trivial⟩

end Native

section Respond

variable {env : Env} {board : Board} {P : Decimal → Prop}

theorem returns_callTool (entry : ToolEntry) (args : Json) :
    Returns (callTool env board entry args) (Json.Native P) := by
  refine returns_tryCatch (Contract.obeyed_bind (p := fun _ ↦ True) ?_ fun out _ ↦
    Contract.obeyed_pure ?_) fun exc ↦ returns_pure ?_
  · intro s _
    cases entry.handler env board args s <;> simp [Contract.any]
  · exact ⟨by simp, native_textContent _, trivial⟩
  · exact ⟨by simp, native_textContent _, trivial, trivial⟩

theorem returns_toolsCall {mid : Json} (hmid : mid.Native P) {params : List (String × Json)}
    {key : Python.Key} (hkey : Python.hashKey (Python.get params "name") = .ok key) :
    Returns (toolsCall env board mid params) fun reply ↦ Answers P reply (some mid) := by
  refine Returns.bind (p := fun _ ↦ True) (returns_lift hkey trivial) fun _ _ ↦ ?_
  split
  · exact returns_pure (answers_error hmid _ _)
  · exact (returns_callTool _ _).bind fun result hresult ↦
      returns_pure (answers_result hmid hresult)

/-- The id that a member of the message gives. -/
theorem get_eq_of_isSome {fields : List (String × Json)} {key : String}
    (h : (fields.lookup key).isSome = true) :
    fields.lookup key = some (Python.get fields key) := by
  obtain ⟨value, hvalue⟩ := Option.isSome_iff_exists.mp h
  rw [Python.get, hvalue]
  rfl

/-- The parameters of a message, or what their reading raises. -/
theorem native_params {fields params : List (String × Json)} (h : (Json.obj fields).Native P)
    (hparams : Python.asDict (orEmpty (Python.get fields "params")) = .ok params) :
    (Json.obj params).Native P := by
  have hnative := native_orEmpty (Json.native_get h "params")
  cases hvalue : orEmpty (Python.get fields "params") with
  | obj members =>
      rw [hvalue] at hparams hnative
      obtain rfl := Except.ok.inj hparams
      exact hnative
  | _ => simp [hvalue, Python.asDict] at hparams

/-- A message is handled as it calls for, or handling it raises, and it is answered by its own
id alone. -/
theorem handleFields_spec (env : Env) (board : Board) {fields : List (String × Json)} (h : (Json.obj fields).Native P) :
    Returns (handleFields env board fields) (fun reply ↦ Answers P reply (answeredId fields)) ∨
      Raises (handleFields env board fields) (fun _ ↦ True) ∧
        answeredId fields = fields.lookup "id" := by
  have hmid := Json.native_get h "id"
  simp only [handleFields, answeredId]
  split_ifs with hinit hnote hping hlist hcall hid
  · cases hparams : Python.asDict (orEmpty (Python.get fields "params")) with
    | error e => exact Or.inr ⟨(raises_lift rfl trivial).bind _, rfl⟩
    | ok params =>
        refine Or.inl (Returns.bind (p := (· = params)) (returns_lift rfl rfl) ?_)
        rintro _ rfl
        exact returns_pure (answers_result hmid (native_initialized (native_params h hparams)))
  · exact Or.inl (returns_pure .none)
  · exact Or.inl (returns_pure (answers_result hmid ⟨List.nodup_nil, trivial⟩))
  · exact Or.inl (returns_pure (answers_result hmid
      ⟨by simp, plain_toolList.native P, trivial⟩))
  · cases hparams : Python.asDict (orEmpty (Python.get fields "params")) with
    | error e => exact Or.inr ⟨(raises_lift rfl trivial).bind _, rfl⟩
    | ok params =>
        cases hkey : Python.hashKey (Python.get params "name") with
        | error e =>
            refine Or.inr ⟨Returns.bind_raises (p := (· = params)) (returns_lift rfl rfl) ?_, ?_⟩
            · rintro _ rfl
              exact (raises_lift hkey trivial).bind _
            · rw [Outcome.ok_bind, hkey]
        | ok key =>
            refine Or.inl (Returns.bind (p := (· = params)) (returns_lift rfl rfl) ?_)
            rintro _ rfl
            rw [Outcome.ok_bind, hkey]
            exact returns_toolsCall hmid hkey
  · refine Or.inl (returns_pure ?_)
    rw [get_eq_of_isSome hid]
    exact answers_error hmid _ _
  · rw [Option.not_isSome_iff_eq_none.mp hid]
    exact Or.inl (returns_pure .none)

/-- An object is answered as it calls for, whatever the tools do. -/
theorem respond_obj {fields : List (String × Json)} (h : (Json.obj fields).Native P) :
    Returns (respond env board (.obj fields)) fun reply ↦ Answers P reply (answeredId fields) := by
  have hhandle : handle env board (.obj fields) = handleFields env board fields := rfl
  rw [respond, hhandle]
  rcases handleFields_spec env board h with hreturns | ⟨hraises, hid⟩
  · exact hreturns.uncaught _
  · refine hraises.caught fun exc _ ↦ ?_
    refine Returns.bind (p := (· = (fields.lookup "id").isSome)) (returns_lift rfl rfl) ?_
    rintro _ rfl
    rw [hid]
    split_ifs with hsome
    · refine Returns.bind (p := (· = Python.get fields "id")) (returns_lift ?_ rfl) ?_
      · exact Python.subscript_obj_eq_ok_iff.mpr (get_eq_of_isSome hsome)
      · rintro _ rfl
        rw [get_eq_of_isSome hsome]
        exact returns_pure (answers_error (Json.native_get h "id") _ _)
    · rw [Option.not_isSome_iff_eq_none.mp hsome]
      exact returns_pure .none

/-- A message that is no object ends the server, unless it is a string without the text `id` or
a list without the item `id`. -/
def endsServer : Json → Bool
  | .obj _ => false
  | .str s => "id".toList <:+: s.toList
  | .arr items => items.any fun item ↦ Python.eq item (.str "id")
  | _ => true

theorem handle_raises {msg : Json} (h : ∀ fields, msg ≠ .obj fields) :
    Raises (handle env board msg) fun _ ↦ True := by
  cases msg with
  | obj fields => exact absurd rfl (h fields)
  | _ => exact (raises_lift rfl trivial).bind _

theorem respond_ends {msg : Json} (h : endsServer msg = true) :
    Raises (respond env board msg) fun _ ↦ True := by
  have hfields : ∀ fields, msg ≠ .obj fields := by
    rintro fields rfl
    cases h
  refine (handle_raises hfields).caught_raises fun exc _ ↦ ?_
  cases msg with
  | obj fields => exact absurd rfl (hfields fields)
  | str s =>
      refine Returns.bind_raises (p := (· = true)) (returns_lift (congrArg Except.ok h) rfl) ?_
      rintro _ rfl
      exact (raises_lift rfl trivial).bind _
  | arr items =>
      refine Returns.bind_raises (p := (· = true)) (returns_lift (congrArg Except.ok h) rfl) ?_
      rintro _ rfl
      exact (raises_lift rfl trivial).bind _
  | _ => exact (raises_lift rfl trivial).bind _

theorem respond_passes {msg : Json} (hfields : ∀ fields, msg ≠ .obj fields)
    (h : endsServer msg = false) : Returns (respond env board msg) (· = none) := by
  refine (handle_raises hfields).caught fun exc _ ↦ ?_
  cases msg with
  | obj fields => exact absurd rfl (hfields fields)
  | str s =>
      refine Returns.bind (p := (· = false)) (returns_lift (congrArg Except.ok h) rfl) ?_
      rintro _ rfl
      exact returns_pure rfl
  | arr items =>
      refine Returns.bind (p := (· = false)) (returns_lift (congrArg Except.ok h) rfl) ?_
      rintro _ rfl
      exact returns_pure rfl
  | _ => cases h

end Respond

/-! ## A whole session -/

section Session

variable (env : Env)

/-- The line holds a message that ends the server. -/
def isFatal (line : String) : Bool := ((messageOn env line).map endsServer).getD false

/-- The id that a line is answered with. -/
def answeredOn (line : String) : Option Json :=
  match messageOn env line with
  | some (.obj fields) => answeredId fields
  | _ => none

variable {env} {board : Board}

theorem onLine_fatal (board : Board) {line : String} (h : isFatal env line = true) :
    Raises (onLine env board line) fun _ ↦ True := by
  rw [onLine]
  cases hmessage : messageOn env line with
  | none => simp [isFatal, hmessage] at h
  | some msg =>
      simp only [isFatal, hmessage, Option.map_some, Option.getD_some] at h
      exact respond_ends h

theorem onLine_returns (hfloats : Json.FloatTexts env.repr env.toFloat) (board : Board) {line : String}
    (h : isFatal env line = false) :
    Returns (onLine env board line) fun reply ↦ Answers (fun _ ↦ True) reply (answeredOn env line) := by
  rw [onLine, answeredOn]
  cases hmessage : messageOn env line with
  | none => exact returns_pure .none
  | some msg =>
      simp only [isFatal, hmessage, Option.map_some, Option.getD_some] at h
      cases msg with
      | obj fields =>
          rw [messageOn] at hmessage
          split_ifs at hmessage
          exact respond_obj (Json.native_of_loads hfloats.native hmessage)
      | _ =>
          refine (respond_passes (by simp) h).mono fun reply hreply ↦ ?_
          subst hreply
          exact .none

/-- The lines that the server reads before the one that ends it are answered in their order. -/
theorem serve_spec (hfloats : Json.FloatTexts env.repr env.toFloat) (board : Board) (lines : List String)
    (s : Session) :
    List.Forall₂ (fun response mid ↦ IsResponse mid response ∧ response.Native fun _ ↦ True)
        (serve env board lines s).replies
        ((lines.takeWhile fun line ↦ !isFatal env line).filterMap (answeredOn env)) ∧
      ((serve env board lines s).ended.isSome = true ↔ ∃ line ∈ lines, isFatal env line = true) := by
  induction lines generalizing s with
  | nil => exact ⟨.nil, by simp [serve]⟩
  | cons line lines ih =>
      rw [serve]
      cases hfatal : isFatal env line with
      | true =>
          obtain ⟨exc, t, hrun, -⟩ := onLine_fatal board hfatal s
          rw [hrun]
          simp [hfatal]
      | false =>
          obtain ⟨reply, t, hrun, hanswers⟩ := onLine_returns hfloats board hfatal s
          obtain ⟨hreplies, hended⟩ := ih t
          rw [hrun]
          simp only
          refine ⟨?_, by simp [hended, hfatal]⟩
          rw [List.takeWhile_cons, if_pos (by simp [hfatal])]
          cases hanswered : answeredOn env line with
          | none =>
              rw [hanswered] at hanswers
              cases hanswers
              rw [List.filterMap_cons_none hanswered]
              exact hreplies
          | some mid =>
              rw [hanswered] at hanswers
              cases hanswers with
              | some hresponse =>
                  rw [List.filterMap_cons_some hanswered]
                  exact .cons hresponse hreplies

end Session

/-! ## A sample -/

def sampleEnv : Env where
  repr := Json.scientificRepr
  lower := Text.asciiLower
  upper := id
  int _ := .ok 0
  toFloat text := Json.readScientific text.toList
  decodeError _ := "Expecting value: line 1 column 1 (char 0)"
  apiBase := "http://localhost:8090/api/v1"
  workspace := "ascp"
  project := some "p"
  key := none
  credsPath := "credentials.env"

def unreachableBoard : Board := fun _ ↦ .urlError "Connection refused"

def sampleLines : List String :=
  ["\x7b\"id\": 1, \"method\": \"ping\"\x7d", "", "\x7b\"method\": \"ping\"\x7d",
    "\x7b\"id\": 2, \"method\": \"tools/call\", \"params\": \x7b\"name\": \"plane_get_issue\"\x7d\x7d",
    "3", "\x7b\"id\": 4, \"method\": \"ping\"\x7d"]

end AgenticSDLC.PlaneMcpServer
