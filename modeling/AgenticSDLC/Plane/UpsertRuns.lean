import AgenticSDLC.Plane.UpsertFrame

/-!
# Runs of an upsert plan

Under an external id that is on the board nothing is created, and under another one nothing more
after the first answer, so that only a request that the service acted on without answering it can
make an item double.  What one run creates the next one finds.
-/

namespace AgenticSDLC.UpsertPlan

open Effects
open Pagination (byExt pagePath)
open PlaneMcpServer (HttpRequest start)
open Python (Exception Key)

/-! ## The index -/

section Index

variable {W : Type} {env : Env} {service : Service W}

/-- The index has the external ids of the items, and ids of theirs. -/
theorem lookup_byExt {items : List Json} {index : List (Key × Json)}
    (h : byExt items = .ok index) :
    (∀ ext, ext ≠ "" → ((index.lookup (.str ext)).isSome = true ↔ .str ext ∈ items.map externalId)) ∧
      ∀ key id, index.lookup key = some id → ∃ w ∈ items, Python.subscript w "id" = .ok id := by
  induction items using List.reverseRecOn generalizing index with
  | nil =>
      rw [← Except.ok.inj h]
      simp
  | append_singleton items w ih =>
      rw [byExt, List.foldlM_append] at h
      obtain ⟨before, hbefore, hlast⟩ := Outcome.bind_eq_ok_iff.mp h
      obtain ⟨hkeys, hids⟩ := ih hbefore
      simp only [List.foldlM_cons, List.foldlM_nil, bind_pure] at hlast
      obtain ⟨fields, hfields, hlast⟩ := Outcome.bind_eq_ok_iff.mp hlast
      cases w with
      | obj members =>
          obtain rfl := Except.ok.inj hfields
          split_ifs at hlast with htruthy
          · obtain ⟨id, hid, hlast⟩ := Outcome.bind_eq_ok_iff.mp hlast
            obtain ⟨key, hkey, hlast⟩ := Outcome.bind_eq_ok_iff.mp hlast
            rw [← Except.ok.inj hlast]
            constructor
            · intro ext hext
              rw [Dict.lookup_set, List.map_append, List.mem_append, ← hkeys ext hext,
                List.map_singleton, List.mem_singleton, externalId]
              split_ifs with hsame
              · rw [← hsame] at hkey
                simp [Python.hashKey_eq_str_iff.mp hkey]
              · have hother : Json.str ext ≠ Python.get members "external_id" := fun heq ↦ by
                  rw [← heq] at hkey
                  exact hsame (Except.ok.inj hkey)
                simp [hother]
            · intro other found hfound
              rw [Dict.lookup_set] at hfound
              split_ifs at hfound with hsame
              · exact ⟨_, by simp, hid.trans (congrArg Except.ok (Option.some.inj hfound))⟩
              · obtain ⟨w, hw, hfound⟩ := hids other found hfound
                exact ⟨w, List.mem_append_left _ hw, hfound⟩
          · rw [← Except.ok.inj hlast]
            refine ⟨fun ext hext ↦ ?_, fun key id hfound ↦ ?_⟩
            · have hother : Json.str ext ≠ Python.get members "external_id" := fun heq ↦ by
                rw [← heq] at htruthy
                exact htruthy (by simpa [Python.truthy] using hext)
              rw [hkeys ext hext]
              simp [externalId, hother]
            · obtain ⟨w, hw, hfound⟩ := hids key id hfound
              exact ⟨w, List.mem_append_left _ hw, hfound⟩
      | _ => cases hfields

theorem itemsOf_pos_iff {ext : String} {board : W} :
    0 < itemsOf service ext board ↔ .str ext ∈ exts service board := List.count_pos_iff

theorem loads_empty (toFloat : String → Json) : Json.loads toFloat "" = none := rfl

/-- What a read returns has been answered to it at the same items. -/
theorem attempts_get (hservice : service.Documented env) (path : String) (retries : ℕ)
    {s t : Session W} {value : Json} (h : attempts env service "GET" path none retries s = .ok value t) :
    service.items t.board = service.items s.board ∧ ∃ board status raw,
      service.items board = service.items s.board ∧
      (service.answer ⟨"GET", env.apiBase ++ path, none⟩ board).1 = .body status raw ∧
      (raw = "" ∨ Json.loads env.toFloat raw = some value) := by
  induction retries generalizing s with
  | zero => cases h
  | succ retries ih =>
      have hsend : send service ⟨"GET", env.apiBase ++ path, none⟩ s = .ok _
        (s.sent service ⟨"GET", env.apiBase ++ path, none⟩) := rfl
      rw [attempts, bind_of_ok hsend] at h
      have hitems := hservice.reads ⟨"GET", env.apiBase ++ path, none⟩ s.board rfl
      have hagain : attempts env service "GET" path none retries
          (s.sent service ⟨"GET", env.apiBase ++ path, none⟩) = .ok value t →
          service.items t.board = service.items s.board ∧ ∃ board status raw,
            service.items board = service.items s.board ∧
            (service.answer ⟨"GET", env.apiBase ++ path, none⟩ board).1 = .body status raw ∧
            (raw = "" ∨ Json.loads env.toFloat raw = some value) := by
        intro hrun
        obtain ⟨hboard, board, status, raw, hsame, hanswer⟩ := ih hrun
        exact ⟨hboard.trans hitems, board, status, raw, hsame.trans hitems, hanswer⟩
      cases hanswer : (service.answer ⟨"GET", env.apiBase ++ path, none⟩ s.board).1 with
      | body status raw =>
          simp only [hanswer] at h
          split_ifs at h with hempty
          · obtain ⟨-, rfl⟩ := EStateM.Result.ok.inj h
            exact ⟨hitems, s.board, status, raw, rfl, hanswer, Or.inl hempty⟩
          · cases hloads : Json.loads env.toFloat raw with
            | some read =>
                rw [hloads] at h
                obtain ⟨rfl, rfl⟩ := EStateM.Result.ok.inj h
                exact ⟨hitems, s.board, status, raw, rfl, hanswer, Or.inr hloads⟩
            | none =>
                rw [hloads] at h
                cases h
      | httpError code text =>
          simp only [hanswer] at h
          split_ifs at h
          · exact hagain h
          · exact hagain h
          · cases h
      | urlError text =>
          simp only [hanswer] at h
          split_ifs at h
          · cases h
          · exact hagain h
      | raises exc =>
          simp only [hanswer] at h
          cases h

theorem IsPage.pageOf_next {offset : Json → ℕ} {items : List Json} {n : ℕ}
    {page : List (String × Json)} (h : IsPage offset items n page) (hmore : n + 100 < items.length) :
    ∃ next, pageOf (.obj page) = .ok ((items.drop n).take 100, some next) ∧
      offset next = n + 100 := by
  obtain ⟨hnext, hcursor, hoffset⟩ := h.next hmore
  refine ⟨_, ?_, hoffset⟩
  simp [pageOf, Python.asDict, Python.getD, h.results, Python.iterate, hnext, hcursor,
    Outcome.pure_eq]

theorem IsPage.pageOf_last {offset : Json → ℕ} {items : List Json} {n : ℕ}
    {page : List (String × Json)} (h : IsPage offset items n page) (hlast : items.length ≤ n + 100) :
    pageOf (.obj page) = .ok ((items.drop n).take 100, none) := by
  simp [pageOf, Python.asDict, Python.getD, h.results, Python.iterate, h.last hlast,
    Outcome.pure_eq]

/-- The loop over the pages returns the items from its place on, a hundred a round. -/
theorem readPages_items (hservice : service.Documented env) {offset : Json → ℕ}
    (hpages : ∀ cur board status raw, (service.answer ⟨"GET", env.apiBase ++
      pagePath env.repr (env.pbase ++ "/work-items/") cur, none⟩ board).1 = .body status raw →
      ∃ page, Json.loads env.toFloat raw = some (.obj page) ∧
        IsPage offset (service.items board) (offset cur) page) (rounds : ℕ) (cur : Json)
    (out : List Json) {s t : Session W} {items : List Json}
    (h : readPages env service (env.pbase ++ "/work-items/") rounds cur out s = .ok items t) :
    items = out ++ ((service.items s.board).drop (offset cur)).take (100 * rounds) := by
  induction rounds generalizing cur out s with
  | zero =>
      obtain ⟨rfl, -⟩ := EStateM.Result.ok.inj h
      simp
  | succ rounds ih =>
      rw [readPages] at h
      obtain ⟨d, s', hget, hrest⟩ := bind_eq_ok_iff.mp h
      obtain ⟨hitems, board, status, raw, hsame, hanswer, hvalue⟩ :=
        attempts_get hservice _ _ hget
      obtain ⟨page, hloads, hpage⟩ := hpages cur board status raw hanswer
      rcases hvalue with rfl | hvalue
      · rw [loads_empty] at hloads
        cases hloads
      · rw [hvalue] at hloads
        obtain rfl := Option.some.inj hloads
        rw [hsame] at hpage
        obtain ⟨found, u, hlift, hrest⟩ := bind_eq_ok_iff.mp hrest
        obtain ⟨hfound, rfl⟩ := lift_eq_ok_iff.mp hlift
        by_cases hmore : offset cur + 100 < (service.items s.board).length
        · obtain ⟨next, hpageOf, hoffset⟩ := hpage.pageOf_next hmore
          obtain rfl := Except.ok.inj (hpageOf.symm.trans hfound)
          have hlater := ih _ _ hrest
          rw [hlater, hitems, hoffset, List.append_assoc, ← List.drop_drop, ← List.take_add,
            Nat.mul_succ, Nat.add_comm (100 * rounds)]
        · obtain rfl := Except.ok.inj ((hpage.pageOf_last (Nat.le_of_not_lt hmore)).symm.trans hfound)
          obtain ⟨rfl, -⟩ := EStateM.Result.ok.inj hrest
          rw [List.take_of_length_le (by rw [List.length_drop]; omega),
            List.take_of_length_le (by rw [List.length_drop]; omega)]

end Index

/-! ## Creating -/

section Create

variable {W : Type} {env : Env} {service : Service W} {ext : String}

theorem itemsOf_perm {board board' : W} {other : Json}
    (h : (exts service board').Perm (other :: exts service board)) :
    itemsOf service ext board' = itemsOf service ext board + if other = .str ext then 1 else 0 := by
  rw [itemsOf, h.count_eq, List.count_cons, itemsOf]
  simp

/-- Between two states the requests were to create an item under one external id; `answered`
says that the last one was answered. -/
structure Sent (env : Env) (service : Service W) (ext : String) (s t : Session W)
    (answered : Bool) : Prop where
  others : ∀ other, other ≠ ext → itemsOf service other t.board = itemsOf service other s.board
  mono : itemsOf service ext s.board ≤ itemsOf service ext t.board
  bound : itemsOf service ext t.board + lost env ext s.exchanges ≤
    itemsOf service ext s.board + lost env ext t.exchanges + if answered then 1 else 0
  landed : answered = true → 0 < itemsOf service ext t.board
  exchanges : ∃ more, t.exchanges = s.exchanges ++ more ∧
    ∀ x ∈ more, externalIdIn x.request = some (.str ext)
  byExt : t.byExt = s.byExt
  actions : t.actions = s.actions

theorem Sent.refl (s : Session W) : Sent env service ext s s false where
  others _ _ := rfl
  mono := Nat.le_refl _
  bound := by simp
  landed h := by cases h
  exchanges := ⟨[], by simp⟩
  byExt := rfl
  actions := rfl

theorem Sent.trans {s t u : Session W} {answered : Bool} (hst : Sent env service ext s t false)
    (htu : Sent env service ext t u answered) : Sent env service ext s u answered where
  others other hother := (htu.others other hother).trans (hst.others other hother)
  mono := hst.mono.trans htu.mono
  bound := by
    have hfirst := hst.bound
    have hsecond := htu.bound
    simp only [Bool.false_eq_true, if_false] at hfirst
    omega
  landed := htu.landed
  exchanges := by
    obtain ⟨first, hfirst, hfirsts⟩ := hst.exchanges
    obtain ⟨more, hmore, hmores⟩ := htu.exchanges
    refine ⟨first ++ more, by rw [hmore, hfirst, List.append_assoc], ?_⟩
    exact List.forall_mem_append.mpr ⟨hfirsts, hmores⟩
  byExt := htu.byExt.trans hst.byExt
  actions := htu.actions.trans hst.actions

theorem sent_send (hservice : service.Documented env) {request : HttpRequest}
    (h : externalIdIn request = some (.str ext)) (s : Session W) :
    Sent env service ext s (s.sent service request)
      (Exchange.gaveId env ⟨request, (service.answer request s.board).1, true⟩) := by
  set board := (service.answer request s.board).2 with hboard
  set grew := decide ((service.items s.board).length < (service.items board).length) with hgrew
  have hlost : lost env ext (s.sent service request).exchanges = lost env ext s.exchanges +
      if Exchange.isLost env ext ⟨request, (service.answer request s.board).1, grew⟩ then 1 else 0 := by
    rw [lost, Session.sent, List.countP_append, List.countP_singleton]
    rfl
  have hothers : ∀ other, other ≠ ext → itemsOf service other board = itemsOf service other s.board := by
    intro other hother
    rcases hservice.creates request s.board _ h with hsame | hperm
    · rw [itemsOf, hsame, itemsOf]
    · rw [itemsOf_perm hperm, if_neg (by simpa using hother.symm), Nat.add_zero]
  cases hgave : Exchange.gaveId env ⟨request, (service.answer request s.board).1, true⟩ with
  | true =>
      obtain ⟨status, raw, value, hanswer, hloads, hid⟩ : ∃ status raw value,
          (service.answer request s.board).1 = .body status raw ∧
          Json.loads env.toFloat raw = some value ∧ hasId value = true := by
        rw [Exchange.gaveId] at hgave
        cases hanswer : (service.answer request s.board).1 with
        | body status raw =>
            simp only [hanswer] at hgave
            cases hloads : Json.loads env.toFloat raw with
            | some value => exact ⟨status, raw, value, rfl, hloads, by simpa [hloads] using hgave⟩
            | none => simp [hloads] at hgave
        | _ => simp [hanswer] at hgave
      have hcount : itemsOf service ext board = itemsOf service ext s.board + 1 := by
        rw [itemsOf_perm (hservice.answers request s.board _ status raw value h hanswer hloads hid),
          if_pos rfl]
      refine ⟨hothers, ?_, ?_, fun _ ↦ ?_, ⟨_, rfl, by simp [h]⟩, rfl, rfl⟩
      · show itemsOf service ext s.board ≤ itemsOf service ext board
        omega
      · show itemsOf service ext board + _ ≤ _
        rw [hlost, hcount]
        simp only [if_true]
        omega
      · show 0 < itemsOf service ext board
        omega
  | false =>
      have hgaveGrew : Exchange.gaveId env ⟨request, (service.answer request s.board).1, grew⟩ = false :=
        hgave
      have hcount : itemsOf service ext board = itemsOf service ext s.board + if grew then 1 else 0 := by
        rcases hservice.creates request s.board _ h with hsame | hperm
        · have hlength : (service.items board).length = (service.items s.board).length := by
            simpa [exts] using congrArg List.length hsame
          have hfalse : grew = false := by simp [hgrew, hlength]
          rw [itemsOf, hsame, itemsOf, hfalse]
          rfl
        · have hlength : (service.items board).length = (service.items s.board).length + 1 := by
            simpa [exts] using hperm.length_eq
          have htrue : grew = true := by simp [hgrew, hlength]
          rw [itemsOf_perm hperm, if_pos rfl, htrue]
          rfl
      refine ⟨hothers, ?_, ?_, fun hfalse ↦ (by cases hfalse), ⟨_, rfl, by simp [h]⟩, rfl, rfl⟩
      · show itemsOf service ext s.board ≤ itemsOf service ext board
        omega
      · show itemsOf service ext board + _ ≤ _
        rw [hlost, hcount, Exchange.isLost, hgaveGrew]
        simp only [h, decide_true, Bool.and_true, Bool.not_false]
        omega

/-- What the attempts at a creation leave; only a value with an id is an answer. -/
theorem sent_attempts (hservice : service.Documented env) (method path : String)
    {body : Option Json}
    (h : externalIdIn ⟨method, env.apiBase ++ path, body⟩ = some (.str ext)) (retries : ℕ)
    (s : Session W) :
    match attempts env service method path body retries s with
    | .ok value t => Sent env service ext s t (hasId value)
    | .error _ t => Sent env service ext s t false := by
  induction retries generalizing s with
  | zero => exact Sent.refl s
  | succ retries ih =>
      set request : HttpRequest := ⟨method, env.apiBase ++ path, body⟩ with hrequest
      have hsend : send service request s = .ok _ (s.sent service request) := rfl
      have hsent := sent_send hservice h s
      rw [attempts, ← hrequest, bind_of_ok hsend]
      rw [Exchange.gaveId] at hsent
      have hagain : Sent env service ext s (s.sent service request) false →
          match attempts env service method path body retries (s.sent service request) with
          | .ok value t => Sent env service ext s t (hasId value)
          | .error _ t => Sent env service ext s t false := by
        intro hfirst
        have hrest := ih (s.sent service request)
        cases hrun : attempts env service method path body retries (s.sent service request) with
        | ok value t =>
            rw [hrun] at hrest
            exact hfirst.trans hrest
        | error exc t =>
            rw [hrun] at hrest
            exact hfirst.trans hrest
      cases hanswer : (service.answer request s.board).1 with
      | body status raw =>
          simp only [hanswer] at hsent ⊢
          split_ifs with hempty
          · rw [hempty, loads_empty] at hsent
            exact hsent
          · cases hloads : Json.loads env.toFloat raw with
            | some value =>
                rw [hloads] at hsent
                exact hsent
            | none =>
                rw [hloads] at hsent
                exact hsent
      | httpError code text =>
          simp only [hanswer] at hsent ⊢
          split_ifs
          · exact hagain hsent
          · exact hagain hsent
          · exact hsent
      | urlError text =>
          simp only [hanswer] at hsent ⊢
          split_ifs
          · exact hsent
          · exact hagain hsent
      | raises exc =>
          simp only [hanswer] at hsent ⊢
          exact hsent

theorem quiet_created (c : Create) : (quiet service).Kept (created c : Effect W Unit) :=
  (quiet_count _).bind fun _ ↦ quiet_logAction _

theorem quiet_exceptRuntimeError_after {m : Effect W Unit} {handler : Exception → Effect W Unit}
    (h : ∀ exc, (quiet service).Kept (handler exc)) (s : Session W) :
    Quiet service (after m s) (after (exceptRuntimeError m handler) s) := by
  rcases after_tryCatch m _ s with hsame | ⟨exc, hcaught⟩
  · rw [exceptRuntimeError, hsame]
    exact Quiet.refl _
  · rw [exceptRuntimeError, hcaught]
    have hhandler : (quiet service).Kept
        (if exc.name = "RuntimeError" then handler exc else throw exc) := by
      split_ifs
      · exact h exc
      · exact Contract.kept_throw exc
    exact hhandler.rel_after trivial

/-- An answer without an id is not taken in. -/
theorem quiet_afterCreate (modules cycles : List (Json × Json))
    (c : Create) {r : Json} (h : hasId r = false) :
    (quiet service).Kept (afterCreate env service modules cycles c r) := by
  refine Contract.obeyed_bind (Contract.obeyed_lift fun lacks hlacks ↦ hlacks) fun lacks hlacks ↦ ?_
  cases lacks with
  | true => exact (quiet_logAction _).bind fun _ ↦ quiet_count _
  | false =>
      refine Contract.obeyed_bind (Contract.obeyed_lift fun id hid ↦ hid) fun id hid ↦ ?_
      obtain ⟨members, rfl, hmember⟩ := Python.subscript_eq_ok_iff.mp hid
      rw [hasId, hmember] at h
      cases h

theorem lacksId_of_hasId {r : Json} (h : hasId r = true) :
    lacksId r = .ok false ∧ ∃ id, Python.subscript r "id" = .ok id := by
  cases r with
  | obj members =>
      obtain ⟨id, hid⟩ := Option.isSome_iff_exists.mp h
      refine ⟨?_, id, Python.subscript_obj_eq_ok_iff.mpr hid⟩
      cases members with
      | nil => cases hid
      | cons member members =>
          have hcontains : ModelFingerprint.contains (.obj (member :: members)) "id" = .ok true :=
            congrArg Except.ok h
          simp [lacksId, Python.truthy, hcontains, Outcome.pure_eq]
  | _ => cases h

/-- Take the id of what was created into the index. -/
def Session.taking (ext : String) (id : Json) (s : Session W) : Session W :=
  { s with byExt := Dict.set (.str ext) id s.byExt }

theorem afterCreate_hasId (modules cycles : List (Json × Json)) (c : Create) {r : Json}
    (h : hasId r = true) : ∃ id, ∀ s, afterCreate env service modules cycles c r s =
      (assign env service modules cycles id c.op >>= fun _ ↦ created c) (s.taking c.ext id) := by
  obtain ⟨hlacks, id, hid⟩ := lacksId_of_hasId h
  refine ⟨id, fun s ↦ ?_⟩
  rw [afterCreate, hlacks, hid]
  rfl

/-- An operation is failed when the log says so. -/
def Failed (ext : String) (actions : List Json) : Prop :=
  ∃ rest, .obj (("op", .str "create-fail") :: ("ext", .str ext) :: rest) ∈ actions

/-- The rest of a round, from the answer on. -/
structure Taken (service : Service W) (ext : String) (answered : Bool) (t u : Session W) : Prop where
  yes : answered = true → ∃ id, Quiet service (t.taking ext id) u
  no : answered = false → Quiet service t u

/-- What a round does: it leaves an external id that is known, and otherwise takes it in when the
request for it is answered. -/
theorem applyCreate_cases (hservice : service.Documented env)
    (states modules cycles : List (Json × Json)) (c : Create) (s : Session W) :
    Quiet service s (after (applyCreate env service states modules cycles c) s) ∨
    s.byExt.lookup (.str c.ext) = none ∧ ∃ t answered, Sent env service c.ext s t answered ∧
      Taken service c.ext answered t (after (applyCreate env service states modules cycles c) s) := by
  have hget : (get : Effect W (Session W)) s = .ok s s := rfl
  rw [applyCreate, after_bind_of_ok hget]
  cases hlookup : s.byExt.lookup (.str c.ext) with
  | some id =>
      simp only [Option.isSome_some, if_true]
      exact Or.inl ((quiet_count _).rel_after trivial)
  | none =>
      have hhandler : ∀ exc : Exception, (quiet service).Kept (do
          count fun n ↦ { n with err := n.err + 1 }
          logAction [("op", .str "create-fail"), ("ext", .str c.ext),
            ("error", .str (start 160 exc.detail))] : Effect W Unit) := fun exc ↦
        (quiet_count _).bind fun _ ↦ quiet_logAction _
      simp only [Option.isSome_none, Bool.false_eq_true, if_false]
      cases happly : env.apply with
      | false =>
          refine Or.inl (Quiet.trans ?_ (quiet_exceptRuntimeError_after hhandler s))
          exact (quiet_created c).rel_after trivial
      | true =>
          simp only [if_true]
          refine Or.inr ⟨trivial, ?_⟩
          have hext : externalIdIn ⟨"POST", env.apiBase ++ (env.pbase ++ "/work-items/"),
              some (.obj (createBody states c))⟩ = some (.str c.ext) := by
            simp only [externalIdIn, createBody, Dict.lookup_setDefault]
            rfl
          have hsent : match api env service "POST" (env.pbase ++ "/work-items/")
              (some (.obj (createBody states c))) s with
            | .ok value t => Sent env service c.ext s t (hasId value)
            | .error _ t => Sent env service c.ext s t false :=
            sent_attempts hservice "POST" (env.pbase ++ "/work-items/") hext 6 s
          have hrest := quiet_exceptRuntimeError_after (m := do
            let r ← api env service "POST" (env.pbase ++ "/work-items/")
              (some (.obj (createBody states c)))
            afterCreate env service modules cycles c r) hhandler s
          cases hrun : api env service "POST" (env.pbase ++ "/work-items/")
              (some (.obj (createBody states c))) s with
          | error exc t =>
              rw [hrun] at hsent
              rw [after_bind_of_error hrun] at hrest
              exact ⟨t, false, hsent, ⟨nofun, fun _ ↦ hrest⟩⟩
          | ok r t =>
              rw [hrun] at hsent
              rw [after_bind_of_ok hrun] at hrest
              refine ⟨t, hasId r, hsent, ⟨fun hyes ↦ ?_, fun hno ↦ ?_⟩⟩
              · obtain ⟨id, hid⟩ := afterCreate_hasId modules cycles c hyes
                refine ⟨id, Quiet.trans ?_ hrest⟩
                rw [after, hid, ← after]
                exact ((quiet_assign hservice modules cycles id c.op).bind fun _ ↦
                  quiet_created c).rel_after trivial
              · exact ((quiet_afterCreate modules cycles c hno).rel_after trivial).trans hrest

theorem failed_afterCreate {modules cycles : List (Json × Json)} {c : Create} {r : Json}
    (hid : hasId r = false) {s u : Session W}
    (h : afterCreate env service modules cycles c r s = .ok () u) : Failed c.ext u.actions := by
  obtain ⟨lacks, t, hlacks, hrest⟩ := bind_eq_ok_iff.mp h
  cases lacks with
  | true =>
      obtain ⟨hlacks, rfl⟩ := lift_eq_ok_iff.mp hlacks
      obtain ⟨-, rfl⟩ := EStateM.Result.ok.inj hrest
      exact ⟨[], by simp⟩
  | false =>
      obtain ⟨id, t', hsubscript, -⟩ := bind_eq_ok_iff.mp hrest
      obtain ⟨hsubscript, -⟩ := lift_eq_ok_iff.mp hsubscript
      obtain ⟨members, rfl, hmember⟩ := Python.subscript_eq_ok_iff.mp hsubscript
      rw [hasId, hmember] at hid
      cases hid

/-- A round that does not end the run takes the external id in or says that it failed. -/
theorem applyCreate_settles (hservice : service.Documented env) (happly : env.apply = true)
    {states modules cycles : List (Json × Json)} {c : Create} {s u : Session W}
    (h : applyCreate env service states modules cycles c s = .ok () u) :
    (u.byExt.lookup (.str c.ext)).isSome = true ∨ Failed c.ext u.actions := by
  have hget : (get : Effect W (Session W)) s = .ok s s := rfl
  rw [applyCreate, bind_of_ok hget] at h
  simp only [happly, if_true] at h
  split_ifs at h with hknown
  · obtain ⟨-, rfl⟩ := EStateM.Result.ok.inj h
    exact Or.inl hknown
  · rw [exceptRuntimeError] at h
    cases hrun : (api env service "POST" (env.pbase ++ "/work-items/")
        (some (.obj (createBody states c))) >>= afterCreate env service modules cycles c) s with
    | error exc t =>
        rw [tryCatch_of_error hrun] at h
        split_ifs at h
        · obtain ⟨-, rfl⟩ := EStateM.Result.ok.inj h
          exact Or.inr ⟨_, List.mem_append_right _ (List.mem_singleton_self _)⟩
        · cases h
    | ok done t =>
        rw [tryCatch_of_ok hrun] at h
        obtain ⟨-, rfl⟩ := EStateM.Result.ok.inj h
        obtain ⟨r, t', -, hafter⟩ := bind_eq_ok_iff.mp hrun
        cases hid : hasId r with
        | false => exact Or.inr (failed_afterCreate hid hafter)
        | true =>
            obtain ⟨id, hrest⟩ := afterCreate_hasId modules cycles c hid
            rw [hrest] at hafter
            have hquiet := ((quiet_assign hservice modules cycles id c.op).bind fun _ ↦
              quiet_created c).rel_after (s := t'.taking c.ext id) trivial
            rw [after_of_ok hafter] at hquiet
            rw [hquiet.byExt, Session.taking, Dict.lookup_set, if_pos rfl]
            exact Or.inl rfl

end Create

/-! ## The loop over what is to be created -/

section Loop

variable {W : Type} {env : Env} {service : Service W}

theorem Quiet.itemsOf {s t : Session W} (h : Quiet service s t) (ext : String) :
    itemsOf service ext t.board = UpsertPlan.itemsOf service ext s.board := by
  rw [UpsertPlan.itemsOf, h.exts, UpsertPlan.itemsOf]

theorem lost_append_of_ne {exchanges more : List Exchange} {ext : String}
    (h : ∀ x ∈ more, externalIdIn x.request ≠ some (.str ext)) :
    lost env ext (exchanges ++ more) = lost env ext exchanges := by
  rw [lost, lost, List.countP_append, Nat.add_eq_left, List.countP_eq_zero]
  intro x hx
  simp [Exchange.isLost, h x hx]

theorem Quiet.lost {s t : Session W} (h : Quiet service s t) (ext : String) :
    lost env ext t.exchanges = UpsertPlan.lost env ext s.exchanges := by
  obtain ⟨more, hmore, hnone⟩ := h.exchanges
  rw [hmore]
  exact lost_append_of_ne fun x hx ↦ by simp [hnone x hx]

/-- What is known is on the board; from the session `s₀` on there is at most one item more than
were lost, and none more before the external id is known. -/
structure OnTrack (env : Env) (service : Service W) (s₀ s : Session W) : Prop where
  backed : ∀ ext, ext ≠ "" → (s.byExt.lookup (.str ext)).isSome = true →
    0 < itemsOf service ext s.board
  taken : ∀ ext, ext ≠ "" → itemsOf service ext s.board + lost env ext s₀.exchanges ≤
    max (itemsOf service ext s₀.board) 1 + lost env ext s.exchanges
  fresh : ∀ ext, ext ≠ "" → s.byExt.lookup (.str ext) = none →
    itemsOf service ext s.board + lost env ext s₀.exchanges ≤ lost env ext s.exchanges

/-- What one state has a later one has too; between them only these external ids are named. -/
structure Later (service : Service W) (names : List String) (s t : Session W) : Prop where
  mono : ∀ ext, itemsOf service ext s.board ≤ itemsOf service ext t.board
  known : ∀ key, (s.byExt.lookup key).isSome = true → (t.byExt.lookup key).isSome = true
  actions : ∀ action ∈ s.actions, action ∈ t.actions
  exchanges : ∃ more, t.exchanges = s.exchanges ++ more ∧
    ∀ x ∈ more, ∀ ext, externalIdIn x.request = some ext → ∃ name ∈ names, ext = .str name

variable {names : List String} {s₀ : Session W}

theorem Later.trans {s t u : Session W} (hst : Later service names s t)
    (htu : Later service names t u) : Later service names s u := by
  obtain ⟨first, hfirst, hfirsts⟩ := hst.exchanges
  obtain ⟨more, hmore, hmores⟩ := htu.exchanges
  refine ⟨fun ext ↦ (hst.mono ext).trans (htu.mono ext), fun key h ↦ htu.known key (hst.known key h),
    fun action h ↦ htu.actions action (hst.actions action h), first ++ more, ?_, ?_⟩
  · rw [hmore, hfirst, List.append_assoc]
  · exact List.forall_mem_append.mpr ⟨hfirsts, hmores⟩

def creating (env : Env) (service : Service W) (names : List String) (s₀ : Session W) :
    Contract (Session W) where
  inv := OnTrack env service s₀
  rel := Later service names
  refl _ := ⟨fun _ ↦ Nat.le_refl _, fun _ h ↦ h, fun _ h ↦ h, [], by simp⟩
  trans := Later.trans

theorem OnTrack.quiet {s t : Session W} (h : OnTrack env service s₀ s) (hquiet : Quiet service s t) :
    OnTrack env service s₀ t := by
  refine ⟨fun ext hext hknown ↦ ?_, fun ext hext ↦ ?_, fun ext hext hnone ↦ ?_⟩
  · rw [hquiet.byExt] at hknown
    rw [hquiet.itemsOf]
    exact h.backed ext hext hknown
  · rw [hquiet.itemsOf, hquiet.lost]
    exact h.taken ext hext
  · rw [hquiet.byExt] at hnone
    rw [hquiet.itemsOf, hquiet.lost]
    exact h.fresh ext hext hnone

theorem Quiet.later {s t : Session W} (h : Quiet service s t) : Later service names s t := by
  obtain ⟨more, hmore, hnone⟩ := h.exchanges
  refine ⟨fun ext ↦ (h.itemsOf ext).ge, fun key hkey ↦ ?_, h.actions, more, hmore, ?_⟩
  · rwa [h.byExt]
  · intro x hx ext hext
    rw [hnone x hx] at hext
    cases hext

theorem creating_of_quiet {α : Type} {m : Effect W α} (h : (quiet service).Kept m) :
    (creating env service names s₀).Kept m :=
  h.imp (fun _ _ ↦ trivial) fun _ _ hs hquiet ↦ ⟨OnTrack.quiet hs hquiet, hquiet.later⟩

theorem Sent.lost_of_ne {ext other : String} {answered : Bool} {s t : Session W}
    (h : Sent env service ext s t answered) (hother : other ≠ ext) :
    lost env other t.exchanges = lost env other s.exchanges := by
  obtain ⟨more, hmore, hsame⟩ := h.exchanges
  rw [hmore]
  refine lost_append_of_ne fun x hx ↦ ?_
  rw [hsame x hx]
  simpa using hother.symm

/-- The requests for an unknown external id keep the bound, and its answer is taken in. -/
theorem OnTrack.sent {ext : String} {answered : Bool} {s t : Session W}
    (h : OnTrack env service s₀ s) (hnone : s.byExt.lookup (.str ext) = none)
    (hsent : Sent env service ext s t answered) :
    (answered = true → ∀ id, OnTrack env service s₀ (t.taking ext id)) ∧
      (answered = false → OnTrack env service s₀ t) := by
  constructor
  · intro hanswered id
    refine ⟨fun other hother hknown ↦ ?_, fun other hother ↦ ?_, fun other hother hunknown ↦ ?_⟩
    all_goals by_cases hsame : other = ext
    · rw [hsame]
      exact hsent.landed hanswered
    · rw [Session.taking, Dict.lookup_set, if_neg (by simpa using hsame), hsent.byExt] at hknown
      exact (hsent.others other hsame).symm ▸ h.backed other hother hknown
    · subst hsame
      have hfresh := h.fresh other hother hnone
      have hbound := hsent.bound
      simp only [hanswered, if_true] at hbound
      simp only [Session.taking]
      omega
    · have htaken := h.taken other hother
      rw [← hsent.others other hsame, ← hsent.lost_of_ne hsame] at htaken
      exact htaken
    · rw [hsame, Session.taking, Dict.lookup_set, if_pos rfl] at hunknown
      cases hunknown
    · rw [Session.taking, Dict.lookup_set, if_neg (by simpa using hsame), hsent.byExt] at hunknown
      have hfresh := h.fresh other hother hunknown
      rw [← hsent.others other hsame, ← hsent.lost_of_ne hsame] at hfresh
      exact hfresh
  · intro hanswered
    have hbound := hsent.bound
    simp only [hanswered, Bool.false_eq_true, if_false, Nat.add_zero] at hbound
    refine ⟨fun other hother hknown ↦ ?_, fun other hother ↦ ?_, fun other hother hunknown ↦ ?_⟩
    all_goals by_cases hsame : other = ext
    · rw [hsame, hsent.byExt, hnone] at hknown
      cases hknown
    · rw [hsent.byExt] at hknown
      exact (hsent.others other hsame).symm ▸ h.backed other hother hknown
    · subst hsame
      have htaken := h.taken other hother
      omega
    · rw [hsent.others other hsame, hsent.lost_of_ne hsame]
      exact h.taken other hother
    · subst hsame
      have hfresh := h.fresh other hother hnone
      omega
    · rw [hsent.byExt] at hunknown
      rw [hsent.others other hsame, hsent.lost_of_ne hsame]
      exact h.fresh other hother hunknown

theorem Sent.later {ext : String} {answered : Bool} {s t : Session W}
    (h : Sent env service ext s t answered) (hext : ext ∈ names) : Later service names s t := by
  obtain ⟨more, hmore, hsame⟩ := h.exchanges
  refine ⟨fun other ↦ ?_, fun key hkey ↦ by rwa [h.byExt], fun action haction ↦ by rwa [h.actions],
    more, hmore, fun x hx named hnamed ↦ ?_⟩
  · by_cases hother : other = ext
    · exact hother ▸ h.mono
    · exact (h.others other hother).ge
  · rw [hsame x hx] at hnamed
    exact ⟨ext, hext, (Option.some.inj hnamed).symm⟩

theorem later_taking {ext : String} {id : Json} (s : Session W) :
    Later service names s (s.taking ext id) := by
  refine ⟨fun _ ↦ Nat.le_refl _, fun key hkey ↦ ?_, fun _ h ↦ h, [], by simp [Session.taking]⟩
  rw [Session.taking, Dict.lookup_set]
  split_ifs
  · rfl
  · exact hkey

theorem creating_applyCreate (hservice : service.Documented env)
    (states modules cycles : List (Json × Json)) {c : Create} (hc : c.ext ∈ names) :
    (creating env service names s₀).Kept (applyCreate env service states modules cycles c) := by
  refine Contract.kept_of_after fun s hs ↦ ?_
  rcases applyCreate_cases hservice states modules cycles c s with
    hquiet | ⟨hnone, t, answered, hsent, htaken⟩
  · exact ⟨OnTrack.quiet hs hquiet, hquiet.later⟩
  · have htrack := OnTrack.sent hs hnone hsent
    cases answered with
    | true =>
        obtain ⟨id, hquiet⟩ := htaken.yes rfl
        exact ⟨(htrack.1 rfl id).quiet hquiet,
          (hsent.later hc).trans ((later_taking t).trans hquiet.later)⟩
    | false =>
        exact ⟨(htrack.2 rfl).quiet (htaken.no rfl), (hsent.later hc).trans (htaken.no rfl).later⟩

end Loop

end AgenticSDLC.UpsertPlan
