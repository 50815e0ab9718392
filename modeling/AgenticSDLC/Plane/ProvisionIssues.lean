import AgenticSDLC.Plane.Provision

/-!
# Items that are created once

An item is created where the service has none of its external id, and is adopted where it has one;
either way the id that is recorded is the one of the item.  All other steps create nothing.
-/

namespace AgenticSDLC.Provision

open Effects
open PlaneMcpServer (HttpRequest start)
open Python (Exception)

/-! ## The service -/

/-- The body of a request that creates a work item. -/
def creation (env : Env) (request : HttpRequest) : Option (List (String × Json)) :=
  match request.data with
  | some (.obj body) =>
      if request.method = "POST" ∧ request.url = env.apiBase ++ (env.pbase ++ "/work-items/") then
        some body
      else none
  | _ => none

/-- The number of items with an external id. -/
def itemsOf (key : String) (items : List Item) : ℕ := (items.map Item.externalId).count (.str key)

/-- The item of a key has the id. -/
def HasId (items : List Item) (key : String) (id : Json) : Prop :=
  ∃ item ∈ items, item.id = id ∧ item.externalId = .str key

section Contents

variable {W : Type} (env : Env) (service : Service W)

/-- The service has ids for its items, and creates none under an external id that one has; the id
that an answer gives is the one of the item, also where it refuses to create another one. -/
structure Service.Documented : Prop where
  keeps (request : HttpRequest) (board : W) : creation env request = none →
    service.items (service.answer request board).2 = service.items board
  creates (request : HttpRequest) (board : W) (body : List (String × Json)) :
    creation env request = some body →
      service.items (service.answer request board).2 = service.items board ∨
      (∀ item ∈ service.items board, item.externalId ≠ Python.get body "external_id") ∧
        ∃ id, (service.items (service.answer request board).2).Perm
          (⟨id, Python.get body "external_id", Python.get body "parent"⟩ :: service.items board)
  answers (request : HttpRequest) (board : W) (body : List (String × Json)) (key : String)
    (status : ℤ) (raw : String) (value id : Json) : creation env request = some body →
    Python.get body "external_id" = .str key →
    (service.answer request board).1 = .body status raw →
    Json.loads env.toFloat raw = some value → Python.subscript value "id" = .ok id →
      HasId (service.items (service.answer request board).2) key id
  conflicts (request : HttpRequest) (board : W) (body : List (String × Json)) (key text : String) :
    creation env request = some body → Python.get body "external_id" = .str key →
    (service.answer request board).1 = .httpError 409 text → text ≠ "" ∧
      ∀ refusal id, adopted env refusal (start 400 text) = .ok id →
        HasId (service.items (service.answer request board).2) key id
  ids (board : W) (item : Item) : item ∈ service.items board → Python.truthy item.id = true
  saves (board : W) : service.items (service.save board).2 = service.items board

end Contents

/-! ## Requests -/

section Requests

variable {W : Type} {env : Env} {service : Service W}

/-- How a call ends that has sent the request: with an answer that the board has given last. -/
inductive Answered (env : Env) (service : Service W) (request : HttpRequest) :
    EStateM.Result Failure (Session W) Json → Prop
  | value {board : W} {t : Session W} {status : ℤ} {raw : String} {value : Json}
      (hanswer : (service.answer request board).1 = .body status raw)
      (hboard : t.board = (service.answer request board).2)
      (hvalue : raw = "" ∧ value = .null ∨ Json.loads env.toFloat raw = some value) :
      Answered env service request (.ok value t)
  | refused {board : W} {t : Session W} {code : ℕ} {text message : String}
      (hanswer : (service.answer request board).1 = .httpError code text)
      (hboard : t.board = (service.answer request board).2) :
      Answered env service request (.error (.api code message (some (start 400 text))) t)
  | unreached {t : Session W} {message : String} :
      Answered env service request (.error (.api 0 message none) t)
  | raised {t : Session W} {exc : Exception} :
      Answered env service request (.error (.raised exc) t)

theorem send_eq (request : HttpRequest) (s : Session W) :
    send service request s = .ok (service.answer request s.board).1 (s.asked service request) := rfl

/-- What sending a request keeps the attempts keep, and they end with an answer to it. -/
theorem attempts_spec {contract : Contract (Session W)} {method path : String} {body : Option Json}
    (hsend : contract.Kept (send service ⟨method, env.apiBase ++ path, body⟩))
    (retries waits : ℕ) {last : Failure} {s : Session W} (hs : contract.inv s)
    (hlast : Answered env service ⟨method, env.apiBase ++ path, body⟩ (.error last s)) :
    Answered env service ⟨method, env.apiBase ++ path, body⟩
        (attempts env service method path body retries waits last s) ∧
      contract.inv (after (attempts env service method path body retries waits last) s) ∧
        contract.rel s (after (attempts env service method path body retries waits last) s) := by
  induction retries generalizing waits last s with
  | zero =>
      have hthrow : attempts env service method path body 0 waits last s = .error last s := by
        rw [attempts]
        rfl
      rw [after_of_error hthrow, hthrow]
      exact ⟨hlast, hs, contract.refl s⟩
  | succ retries ih =>
      induction waits using Nat.strong_induction_on generalizing last s with
      | _ waits ihwait =>
      set request : HttpRequest := ⟨method, env.apiBase ++ path, body⟩ with hrequest
      obtain ⟨ht, hst⟩ := hsend.of_ok hs (send_eq request s)
      have hagain {m : Effect W Json}
          (h : Answered env service request (m (s.asked service request)) ∧
            contract.inv (after m (s.asked service request)) ∧
              contract.rel (s.asked service request) (after m (s.asked service request))) :
          Answered env service request (m (s.asked service request)) ∧
            contract.inv (after m (s.asked service request)) ∧
              contract.rel s (after m (s.asked service request)) :=
        ⟨h.1, h.2.1, contract.trans hst h.2.2⟩
      rw [attempts, after_bind_of_ok (send_eq request s), bind_of_ok (send_eq request s)]
      cases hanswer : (service.answer request s.board).1 with
      | body status raw =>
          simp only
          split_ifs with hempty
          · exact ⟨.value hanswer rfl (Or.inl ⟨hempty, rfl⟩), ht, hst⟩
          · cases hloads : Json.loads env.toFloat raw with
            | some value => exact ⟨.value hanswer rfl (Or.inr hloads), ht, hst⟩
            | none => exact ⟨.raised, ht, hst⟩
      | httpError code text =>
          simp only
          split_ifs with hwait herror
          · cases waits with
            | zero => exact ⟨.refused hanswer rfl, ht, hst⟩
            | succ waits =>
                exact hagain (ihwait waits (Nat.lt_succ_self waits) ht (.refused hanswer rfl))
          · exact hagain (ih waits ht (.refused hanswer rfl))
          · exact ⟨.refused hanswer rfl, ht, hst⟩
      | urlError text => exact hagain (ih waits ht .unreached)
      | raises exc => exact ⟨.raised, ht, hst⟩

theorem kept_api {contract : Contract (Session W)} {method path : String} {body : Option Json}
    (hsend : contract.Kept (send service ⟨method, env.apiBase ++ path, body⟩)) :
    contract.Kept (api env service method path body) := by
  refine Contract.kept_of_after fun s hs ↦ ?_
  exact (attempts_spec hsend 8 (service.waits s.board) hs .unreached).2

theorem answered_api (method path : String) (body : Option Json) (s : Session W) :
    Answered env service ⟨method, env.apiBase ++ path, body⟩
      (api env service method path body s) := by
  have hsend : (Contract.any (Session W)).Kept
      (send service ⟨method, env.apiBase ++ path, body⟩) :=
    Contract.kept_of_after fun _ _ ↦ ⟨trivial, trivial⟩
  exact (attempts_spec hsend 8 (service.waits s.board) trivial .unreached).1

end Requests

/-! ## Creating an item -/

/-- What an item that is created hangs below. -/
def Issue.under (issue : Issue) : Json :=
  if Python.truthy issue.parent then issue.parent else .null

theorem externalId_body (issue : Issue) :
    Python.get issue.body "external_id" = .str issue.key := rfl

theorem parent_body (issue : Issue) : Python.get issue.body "parent" = issue.under := by
  simp only [Python.get, Issue.body, Issue.under, List.lookup_append]
  split_ifs <;> rfl

section Creating

variable {W : Type} {env : Env} {service : Service W} {issue : Issue}

/-- Between two states nothing is created but an item of the issue, and only where there was none. -/
structure Posted (service : Service W) (issue : Issue) (s t : Session W) : Prop where
  st : t.st = s.st
  file : t.file = s.file
  stays : ∀ item ∈ service.items s.board, item ∈ service.items t.board
  new : ∀ item ∈ service.items t.board, item ∈ service.items s.board ∨
    item.externalId = .str issue.key ∧ item.parent = issue.under
  single : ∀ key, itemsOf key (service.items t.board) ≤
    max 1 (itemsOf key (service.items s.board))

theorem Posted.trans {s t u : Session W} (hst : Posted service issue s t)
    (htu : Posted service issue t u) : Posted service issue s u where
  st := htu.st.trans hst.st
  file := htu.file.trans hst.file
  stays item hitem := htu.stays item (hst.stays item hitem)
  new item hitem := (htu.new item hitem).elim (hst.new item) Or.inr
  single key := (htu.single key).trans (max_le (le_max_left _ _) (hst.single key))

def posting (service : Service W) (issue : Issue) : Contract (Session W) where
  inv _ := True
  rel := Posted service issue
  refl _ := ⟨rfl, rfl, fun _ h ↦ h, fun _ ↦ Or.inl, fun _ ↦ le_max_right _ _⟩
  trans := Posted.trans

theorem posting_send (hservice : service.Documented env) {request : HttpRequest}
    (h : creation env request = some issue.body) :
    (posting service issue).Kept (send service request) := by
  refine Contract.kept_of_after fun s _ ↦ ⟨trivial, ?_⟩
  show Posted service issue s (s.asked service request)
  rcases hservice.creates request s.board _ h with hsame | ⟨hnone, id, hperm⟩
  · refine ⟨rfl, rfl, fun item hitem ↦ ?_, fun item hitem ↦ Or.inl ?_, fun key ↦ ?_⟩
    · exact hsame.symm ▸ hitem
    · exact hsame ▸ hitem
    · exact (congrArg (itemsOf key) hsame).trans_le (le_max_right _ _)
  · rw [externalId_body, parent_body] at hperm
    refine ⟨rfl, rfl, fun item hitem ↦ ?_, fun item hitem ↦ ?_, fun key ↦ ?_⟩
    · exact hperm.mem_iff.mpr (List.mem_cons_of_mem _ hitem)
    · rcases List.mem_cons.mp (hperm.mem_iff.mp hitem) with rfl | hold
      · exact Or.inr ⟨rfl, rfl⟩
      · exact Or.inl hold
    · have hcount := (hperm.map Item.externalId).count_eq (.str key)
      rw [List.map_cons, List.count_cons] at hcount
      show List.count _ _ ≤ _
      by_cases hkey : key = issue.key
      · have hfresh : (List.map Item.externalId (service.items s.board)).count (.str key) = 0 := by
          rw [List.count_eq_zero]
          rintro hmem
          obtain ⟨item, hitem, hsame⟩ := List.mem_map.mp hmem
          refine hnone item hitem ?_
          rw [hsame, hkey, externalId_body]
        rw [hfresh] at hcount
        refine le_trans (le_of_eq hcount) ?_
        split_ifs <;> simp
      · have hother : ((Json.str issue.key) == (Json.str key)) = false := by
          simpa using fun hsame ↦ hkey hsame.symm
        rw [hother, if_neg Bool.false_ne_true, Nat.add_zero] at hcount
        exact hcount.trans_le (le_max_right _ _)

def issueRequest (env : Env) (issue : Issue) : HttpRequest :=
  ⟨"POST", env.apiBase ++ (env.pbase ++ "/work-items/"), some (.obj issue.body)⟩

theorem creation_issueRequest (env : Env) (issue : Issue) :
    creation env (issueRequest env issue) = some issue.body := if_pos ⟨rfl, rfl⟩

theorem posting_postIssue (hservice : service.Documented env) (issue : Issue) :
    (posting service issue).Kept (postIssue env service issue) := by
  have hsend : (posting service issue).Kept (send service (issueRequest env issue)) :=
    posting_send hservice (creation_issueRequest env issue)
  refine Contract.Kept.tryCatch ?_ fun failure ↦ Contract.kept_lift _
  exact (kept_api hsend).bind fun _ ↦ Contract.kept_lift _

theorem start_ne_empty {n : ℕ} {text : String} (h : text ≠ "") : start (n + 1) text ≠ "" := by
  intro hstart
  rw [start, String.ofList_eq_empty_iff, List.take_eq_nil_iff] at hstart
  exact h (String.toList_eq_nil_iff.mp (hstart.resolve_left (Nat.succ_ne_zero n)))

/-- The id in an answer is the one of the item of the key. -/
theorem hasId_of_answer (hservice : service.Documented env) {t : Session W} {r id : Json}
    (h : Answered env service (issueRequest env issue) (.ok r t))
    (hid : Python.subscript r "id" = .ok id) : HasId (service.items t.board) issue.key id := by
  cases h with
  | value hanswer hboard hvalue =>
      rcases hvalue with ⟨-, rfl⟩ | hloads
      · cases hid
      · rw [hboard]
        exact hservice.answers _ _ _ _ _ _ _ _ (creation_issueRequest env issue)
          (externalId_body issue) hanswer hloads hid

theorem hasId_of_conflict (hservice : service.Documented env) {t : Session W} {failure : Failure}
    {id : Json} (h : Answered env service (issueRequest env issue) (.error failure t))
    (hid : onConflict env failure = .ok id) : HasId (service.items t.board) issue.key id := by
  cases h with
  | unreached => cases hid
  | raised => cases hid
  | @refused _ _ code text message hanswer hboard =>
      by_cases hcode : code = 409
      · subst hcode
        obtain ⟨hsome, hnamed⟩ := hservice.conflicts _ _ _ _ _ (creation_issueRequest env issue)
          (externalId_body issue) hanswer
        have htext : start 400 text ≠ "" := start_ne_empty hsome
        simp only [onConflict, Option.getD_some, if_neg htext] at hid
        rw [hboard]
        exact hnamed _ _ hid
      · have hthrow : onConflict env (.api code message (some (start 400 text))) =
            throw (.api code message (some (start 400 text))) := by
          rw [onConflict]
          rintro _ _ hsame
          exact hcode (Failure.api.inj hsame).1
        rw [hthrow] at hid
        cases hid

/-- An id that comes back is the one of the item of the key. -/
theorem hasId_of_postIssue (hservice : service.Documented env) {s t : Session W} {iid : Json}
    (h : postIssue env service issue s = .ok iid t) :
    HasId (service.items t.board) issue.key iid := by
  have hanswered : Answered env service (issueRequest env issue) (api env service "POST"
      (env.pbase ++ "/work-items/") (some (.obj issue.body)) s) := answered_api _ _ _ s
  rw [postIssue] at h
  cases hapi : api env service "POST" (env.pbase ++ "/work-items/") (some (.obj issue.body)) s with
  | ok r u =>
      rw [hapi] at hanswered
      have hrun : requestIssue env service issue s =
          (liftM (raising (Python.subscript r "id")) : Effect W Json) u := bind_of_ok hapi
      cases hid : Python.subscript r "id" with
      | ok id =>
          rw [hid] at hrun
          rw [tryCatch_of_ok hrun] at h
          obtain ⟨rfl, rfl⟩ := EStateM.Result.ok.inj h
          exact hasId_of_answer hservice hanswered hid
      | error exc =>
          rw [hid] at hrun
          rw [tryCatch_of_error hrun] at h
          cases h
  | error failure u =>
      rw [hapi] at hanswered
      have hrun : requestIssue env service issue s = .error failure u := bind_of_error hapi
      rw [tryCatch_of_error hrun] at h
      obtain ⟨hadopted, rfl⟩ := lift_eq_ok_iff.mp h
      exact hasId_of_conflict hservice hanswered hadopted

end Creating

/-! ## Steps that create nothing -/

section Idle

variable {W : Type} (env : Env) (service : Service W)

/-- The contract allows what the steps are made of that create no item. -/
structure Idle (contract : Contract (Session W)) : Prop where
  send (request : HttpRequest) : creation env request = none →
    contract.Kept (send service request)
  save : contract.Kept (saveState service)
  set (f : State → State) : (∀ st, (f st).issues = st.issues) →
    contract.Kept (modify fun s ↦ { s with st := f s.st } : Effect W Unit)

variable {env service}

theorem creation_other {path : String} (h : path ≠ "/work-items/") (data : Option Json) :
    creation env ⟨"POST", env.apiBase ++ (env.pbase ++ path), data⟩ = none := by
  have hne : env.apiBase ++ (env.pbase ++ path) ≠ env.apiBase ++ (env.pbase ++ "/work-items/") :=
    fun hsame ↦ h (String.append_right_inj _ |>.mp (String.append_right_inj _ |>.mp hsame))
  cases data with
  | none => rfl
  | some value =>
      cases value with
      | obj body => exact if_neg fun hboth ↦ hne hboth.2
      | _ => rfl

variable {contract : Contract (Session W)}

theorem Idle.get (h : Idle env service contract) (path : String) :
    contract.Kept (api env service "GET" path none) :=
  kept_api (h.send _ rfl)

theorem Idle.readPages (h : Idle env service contract) (path : String) (rounds : ℕ)
    (cursor : String) (out : List Json) :
    contract.Kept (readPages env service path rounds cursor out) := by
  induction rounds generalizing cursor out with
  | zero => exact Contract.kept_throw _
  | succ rounds ih =>
      refine (h.get cursor).bind fun d ↦ (Contract.kept_lift _).bind fun page ↦ ?_
      match page with
      | (results, none) => exact Contract.kept_pure _
      | (results, some next) => exact ih _ _

theorem Idle.readNames (h : Idle env service contract) (path : String) :
    contract.Kept (readNames env service path) :=
  (h.readPages path env.patience path []).bind fun _ ↦ Contract.kept_lift _

theorem Idle.ensureState (h : Idle env service contract) (existing : List (Json × Json))
    (entry : String × String × String) : contract.Kept (ensureState env service existing entry) := by
  obtain ⟨name, group, meaning⟩ := entry
  have hset (id : Json) : contract.Kept (modify fun s ↦
      { s with st := { s.st with states := Dict.set name id s.st.states } } : Effect W Unit) :=
    h.set (fun st ↦ { st with states := Dict.set name id st.states }) fun _ ↦ rfl
  have hpost (body : Option Json) :
      contract.Kept (api env service "POST" (env.pbase ++ "/states/") body) :=
    kept_api (h.send _ (creation_other (by decide) body))
  simp only [Provision.ensureState]
  cases named existing name with
  | some id => exact hset id
  | none =>
      refine Contract.kept_get.bind fun s ↦ ?_
      split_ifs
      · exact Contract.kept_pure _
      · refine (Contract.kept_lift _).bind fun color ↦ (hpost _).bind fun r ↦ ?_
        exact (Contract.kept_lift _).bind hset

theorem Idle.ensureLabel (h : Idle env service contract) (existing : List (Json × Json))
    (name : String) : contract.Kept (ensureLabel env service existing name) := by
  have hset (id : Json) : contract.Kept (modify fun s ↦
      { s with st := { s.st with labels := Dict.set name id s.st.labels } } : Effect W Unit) :=
    h.set (fun st ↦ { st with labels := Dict.set name id st.labels }) fun _ ↦ rfl
  have hpost (body : Option Json) :
      contract.Kept (api env service "POST" (env.pbase ++ "/labels/") body) :=
    kept_api (h.send _ (creation_other (by decide) body))
  simp only [Provision.ensureLabel]
  cases named existing name with
  | some id => exact hset id
  | none =>
      refine Contract.kept_get.bind fun s ↦ ?_
      split_ifs
      · exact Contract.kept_pure _
      · exact (hpost _).bind fun r ↦ (Contract.kept_lift _).bind hset

theorem Idle.ensureStates (h : Idle env service contract) (vocab : Vocab) :
    contract.Kept (ensureStates env service vocab) :=
  (h.readNames _).bind fun existing ↦
    (Contract.kept_forM fun entry _ ↦ h.ensureState existing entry).bind fun _ ↦ h.save

theorem Idle.ensureLabels (h : Idle env service contract) (vocab : Vocab) :
    contract.Kept (ensureLabels env service vocab) :=
  (h.readNames _).bind fun existing ↦
    (Contract.kept_forM fun name _ ↦ h.ensureLabel existing name).bind fun _ ↦ h.save

theorem Idle.on (h : Idle env service contract) {settled : Session W → Prop}
    (hkeeps : ∀ s t, contract.rel s t → settled s → settled t) :
    Idle env service (contract.on fun s ↦ contract.inv s ∧ settled s) where
  send request hrequest := (h.send request hrequest).on hkeeps
  save := h.save.on hkeeps
  set f hf := (h.set f hf).on hkeeps

end Idle

/-! ## What the sessions keep -/

def State.Knows (st : State) (key : String) : Prop := (st.issues.lookup key).isSome = true

/-- The ids that are recorded are those of the items of their keys. -/
def Recorded (items : List Item) (st : State) : Prop :=
  ∀ key id, st.issues.lookup key = some id → HasId items key id

section Keeping

variable {W : Type} {env : Env} {service : Service W} {old : List Item}
  {placed : List Item → Item → Prop}

/-- The old items are still there, the new ones are where they may be, no key has got more than
one, and what is recorded is so, in the session and in the file. -/
structure Sound (service : Service W) (old : List Item) (placed : List Item → Item → Prop)
    (s : Session W) : Prop where
  stays : ∀ item ∈ old, item ∈ service.items s.board
  placed : ∀ item ∈ service.items s.board, item ∈ old ∨ placed (service.items s.board) item
  single : ∀ key, itemsOf key (service.items s.board) ≤ max 1 (itemsOf key old)
  recorded : Recorded (service.items s.board) s.st
  saved : ∀ st, s.file = .holds st → Recorded (service.items s.board) st

/-- Items stay, and keys stay known. -/
structure Grown (service : Service W) (s t : Session W) : Prop where
  stays : ∀ item ∈ service.items s.board, item ∈ service.items t.board
  known : ∀ key, s.st.Knows key → t.st.Knows key

def provisioning (service : Service W) (old : List Item) (placed : List Item → Item → Prop) :
    Contract (Session W) where
  inv := Sound service old placed
  rel := Grown service
  refl _ := ⟨fun _ h ↦ h, fun _ h ↦ h⟩
  trans hst htu := ⟨fun item h ↦ htu.stays item (hst.stays item h),
    fun key h ↦ htu.known key (hst.known key h)⟩

/-- Items that are there may be used for placing others whatever is created besides. -/
def Persistent (placed : List Item → Item → Prop) : Prop :=
  ∀ items items', (∀ item ∈ items, item ∈ items') → ∀ item, placed items item → placed items' item

theorem HasId.mono {items items' : List Item} (h : ∀ item ∈ items, item ∈ items') {key : String}
    {id : Json} (hid : HasId items key id) : HasId items' key id := by
  obtain ⟨item, hitem, hrest⟩ := hid
  exact ⟨item, h item hitem, hrest⟩

theorem Recorded.mono {items items' : List Item} (h : ∀ item ∈ items, item ∈ items') {st : State}
    (hst : Recorded items st) : Recorded items' st :=
  fun key id hid ↦ (hst key id hid).mono h

theorem Recorded.setIssue {items : List Item} {st : State} (h : Recorded items st) {key : String}
    {id : Json} (hid : HasId items key id) : Recorded items (st.setIssue key id) := by
  intro other found hfound
  rw [State.setIssue, Dict.lookup_set] at hfound
  split_ifs at hfound with hsame
  · obtain rfl := Option.some.inj hfound
    exact hsame ▸ hid
  · exact h other found hfound

theorem Sound.of_items {s t : Session W} (h : Sound service old placed s)
    (hitems : service.items t.board = service.items s.board) (hissues : t.st.issues = s.st.issues)
    (hfile : ∀ st, t.file = .holds st → s.file = .holds st ∨ st = s.st) :
    Sound service old placed t where
  stays := hitems ▸ h.stays
  placed := hitems ▸ h.placed
  single := hitems ▸ h.single
  recorded key id hid := hitems ▸ h.recorded key id (hissues ▸ hid)
  saved st hst := by
    rw [hitems]
    rcases hfile st hst with hsame | rfl
    · exact h.saved st hsame
    · exact h.recorded

theorem Grown.of_items {s t : Session W} (hitems : service.items t.board = service.items s.board)
    (hissues : t.st.issues = s.st.issues) : Grown service s t where
  stays := hitems ▸ fun _ h ↦ h
  known key hkey := by rwa [State.Knows, hissues]

/-- What a write of the state file leaves. -/
theorem saveState_cases (service : Service W) (s : Session W) : ∃ file,
    after (saveState service) s = { s with board := (service.save s.board).2, file } ∧
      (file = s.file ∨ file = .unreadable ∨ file = .holds s.st) := by
  rcases hsave : service.save s.board with ⟨fate, board⟩
  rw [after, saveState, hsave]
  cases fate with
  | done => exact ⟨_, rfl, Or.inr (Or.inr rfl)⟩
  | missed exc => exact ⟨_, rfl, Or.inl rfl⟩
  | torn exc => exact ⟨_, rfl, Or.inr (Or.inl rfl)⟩
  | behind exc => exact ⟨_, rfl, Or.inr (Or.inr rfl)⟩

theorem idle_provisioning (hservice : service.Documented env) :
    Idle env service (provisioning service old placed) where
  send request hrequest := by
    refine Contract.kept_of_after fun s hs ↦ ?_
    have hitems : service.items (after (send service request) s).board = service.items s.board :=
      hservice.keeps request s.board hrequest
    exact ⟨Sound.of_items hs hitems rfl fun _ ↦ Or.inl, Grown.of_items hitems rfl⟩
  save := by
    refine Contract.kept_of_after fun s hs ↦ ?_
    obtain ⟨file, hafter, hfile⟩ := saveState_cases service s
    have hitems := hservice.saves s.board
    rw [hafter]
    refine ⟨Sound.of_items hs hitems rfl fun st hst ↦ ?_, Grown.of_items hitems rfl⟩
    rcases hfile with rfl | rfl | rfl
    · exact Or.inl hst
    · cases hst
    · exact Or.inr (StateFile.holds.inj hst).symm
  set f hf := by
    refine Contract.kept_of_after fun s hs ↦ ?_
    have hissues : (after (modify fun s ↦ { s with st := f s.st } : Effect W Unit) s).st.issues =
        s.st.issues := hf s.st
    exact ⟨Sound.of_items hs rfl hissues fun _ ↦ Or.inl, Grown.of_items rfl hissues⟩

/-- Creating an item where it may be, or adopting it. -/
theorem Sound.posted {issue : Issue} (hpersistent : Persistent placed) {s t : Session W}
    (h : Sound service old placed s) (hposted : Posted service issue s t)
    (hplaced : ∀ items, (∀ item ∈ service.items s.board, item ∈ items) → ∀ id,
      placed items ⟨id, .str issue.key, issue.under⟩) : Sound service old placed t where
  stays item hitem := hposted.stays item (h.stays item hitem)
  placed item hitem := by
    rcases hposted.new item hitem with hbefore | ⟨hkey, hparent⟩
    · exact (h.placed item hbefore).imp_right (hpersistent _ _ hposted.stays item)
    · have hitem : item = ⟨item.id, .str issue.key, issue.under⟩ := by rw [← hkey, ← hparent]
      exact Or.inr (hitem ▸ hplaced _ hposted.stays item.id)
  single key := (hposted.single key).trans (max_le (le_max_left _ _) (h.single key))
  recorded := hposted.st.symm ▸ h.recorded.mono hposted.stays
  saved st hst := (h.saved st (hposted.file ▸ hst)).mono hposted.stays

theorem createIssue_of_known (env : Env) (service : Service W) {issue : Issue} {s : Session W}
    (h : s.st.Knows issue.key) : ∃ iid, createIssue env service issue s = .ok iid s := by
  obtain ⟨iid, hiid⟩ := Option.isSome_iff_exists.mp h
  refine ⟨iid, ?_⟩
  have hget : (get : Effect W (Session W)) s = .ok s s := rfl
  rw [createIssue, bind_of_ok hget, hiid]
  rfl

theorem createIssue_of_unknown {issue : Issue} {s : Session W}
    (h : s.st.issues.lookup issue.key = none) :
    createIssue env service issue s = (postIssue env service issue >>= fun iid ↦ do
      modify fun s ↦ { s with st := s.st.setIssue issue.key iid }
      saveState service
      return iid) s := by
  have hget : (get : Effect W (Session W)) s = .ok s s := rfl
  rw [createIssue, bind_of_ok hget, h]

theorem Sound.createIssue (hservice : service.Documented env) (hpersistent : Persistent placed)
    (issue : Issue) {s : Session W} (h : Sound service old placed s)
    (hplaced : ∀ items, (∀ item ∈ service.items s.board, item ∈ items) → ∀ id,
      placed items ⟨id, .str issue.key, issue.under⟩) :
    Sound service old placed (after (createIssue env service issue) s) ∧
      Grown service s (after (Provision.createIssue env service issue) s) := by
  cases hlookup : s.st.issues.lookup issue.key with
  | some iid =>
      obtain ⟨iid, hrun⟩ := createIssue_of_known env service
        (show s.st.Knows issue.key by rw [State.Knows, hlookup]; rfl)
      rw [after_of_ok hrun]
      exact ⟨h, (provisioning service old placed).refl s⟩
  | none =>
      have hposted := (posting_postIssue hservice issue).rel_after (s := s) trivial
      rw [after, createIssue_of_unknown hlookup, ← after]
      cases hpost : postIssue env service issue s with
      | error failure t =>
          rw [after_of_error hpost] at hposted
          rw [after_of_error (bind_of_error hpost)]
          refine ⟨h.posted hpersistent hposted hplaced, hposted.stays, fun key hkey ↦ ?_⟩
          rwa [hposted.st]
      | ok iid t =>
          rw [after_of_ok hpost] at hposted
          rw [after_bind_of_ok hpost]
          have ht := h.posted hpersistent hposted hplaced
          set noted : Session W := { t with st := t.st.setIssue issue.key iid } with hnoted
          have hsound : Sound service old placed noted :=
            ⟨ht.stays, ht.placed, ht.single,
              ht.recorded.setIssue (hasId_of_postIssue hservice hpost), ht.saved⟩
          have hgrown : Grown service s noted := by
            refine ⟨hposted.stays, fun key hkey ↦ ?_⟩
            rw [State.Knows, hnoted, State.setIssue, Dict.lookup_set, hposted.st]
            split_ifs
            · rfl
            · exact hkey
          have hsave : (provisioning service old placed).Kept (do
              saveState service
              return iid : Effect W Json) :=
            (idle_provisioning hservice).save.bind fun _ ↦ Contract.kept_pure _
          exact ⟨hsave.inv_after hsound,
            (provisioning service old placed).trans hgrown (hsave.rel_after hsound)⟩

theorem saveState_eq_ok {s t : Session W} (h : saveState service s = .ok () t) :
    t.st = s.st ∧ t.file = .holds s.st := by
  rcases hsave : service.save s.board with ⟨fate, board⟩
  rw [saveState, hsave] at h
  cases fate with
  | done =>
      obtain ⟨-, rfl⟩ := EStateM.Result.ok.inj h
      exact ⟨rfl, rfl⟩
  | _ => cases h

/-- A key is known once its item has been seen to. -/
theorem knows_of_createIssue {issue : Issue} {s t : Session W} {iid : Json}
    (h : createIssue env service issue s = .ok iid t) : t.st.Knows issue.key := by
  cases hlookup : s.st.issues.lookup issue.key with
  | some found =>
      have hknown : s.st.Knows issue.key := by
        rw [State.Knows, hlookup]
        rfl
      obtain ⟨_, hrun⟩ := createIssue_of_known env service hknown
      obtain ⟨-, rfl⟩ := EStateM.Result.ok.inj (hrun.symm.trans h)
      exact hknown
  | none =>
      rw [createIssue_of_unknown hlookup] at h
      obtain ⟨id, u, -, hnote⟩ := bind_eq_ok_iff.mp h
      obtain ⟨_, noted, hnoted, hsave⟩ := bind_eq_ok_iff.mp hnote
      obtain ⟨_, saved, hsaved, hpure⟩ := bind_eq_ok_iff.mp hsave
      obtain ⟨-, rfl⟩ := EStateM.Result.ok.inj hpure
      obtain ⟨-, rfl⟩ := EStateM.Result.ok.inj hnoted
      rw [(saveState_eq_ok hsaved).1]
      show ((Dict.set issue.key id u.st.issues).lookup issue.key).isSome = true
      rw [Dict.lookup_set, if_pos rfl]
      rfl

end Keeping

end AgenticSDLC.Provision
