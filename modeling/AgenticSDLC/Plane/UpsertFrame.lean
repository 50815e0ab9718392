import AgenticSDLC.Plane.UpsertPlan

/-!
# What an upsert plan leaves alone

Which operations of a plan are to create items is settled by the index, and only the requests that
create them name an external id.
-/

namespace AgenticSDLC.UpsertPlan

open Effects
open Pagination (byExt pagePath)
open PlaneMcpServer (HttpRequest)
open Python (Exception Key)

/-! ## The service -/

def externalId : Json → Json
  | .obj fields => Python.get fields "external_id"
  | _ => .null

/-- The external id of the item that a request creates. -/
def externalIdIn (request : HttpRequest) : Option Json :=
  match request.data with
  | some (.obj members) => members.lookup "external_id"
  | _ => none

def hasId : Json → Bool
  | .obj members => (members.lookup "id").isSome
  | _ => false

section Contents

variable {W : Type} (env : Env) (service : Service W)

/-- The external ids of the work items. -/
def exts (board : W) : List Json := (service.items board).map externalId

/-- The number of work items with an external id. -/
def itemsOf (ext : String) (board : W) : ℕ := (exts service board).count (.str ext)

/-- The answer gives the id of what was created. -/
def Exchange.gaveId (x : Exchange) : Bool :=
  match x.response with
  | .body _ raw => ((Json.loads env.toFloat raw).map hasId).getD false
  | _ => false

/-- An item was created, and the answer does not say so. -/
def Exchange.isLost (ext : String) (x : Exchange) : Bool :=
  x.grew && !x.gaveId env && decide (externalIdIn x.request = some (.str ext))

def lost (ext : String) (exchanges : List Exchange) : ℕ :=
  exchanges.countP (Exchange.isLost env ext)

/-- A page of the items, from a place on. -/
structure IsPage (offset : Json → ℕ) (items : List Json) (n : ℕ) (page : List (String × Json)) :
    Prop where
  results : page.lookup "results" = some (.arr ((items.drop n).take 100))
  last : items.length ≤ n + 100 → Python.truthy (Python.get page "next_page_results") = false
  next : n + 100 < items.length → Python.truthy (Python.get page "next_page_results") = true ∧
    Python.truthy (Python.get page "next_cursor") = true ∧
    offset (Python.get page "next_cursor") = n + 100

/-- The service lists the items page by page, keeps their external ids, and has ids for them; a
request that names an external id creates an item under it or fails to. -/
structure Service.Documented : Prop where
  reads (request : HttpRequest) (board : W) : request.method = "GET" →
    service.items (service.answer request board).2 = service.items board
  keeps (request : HttpRequest) (board : W) : externalIdIn request = none →
    exts service (service.answer request board).2 = exts service board
  creates (request : HttpRequest) (board : W) (ext : Json) : externalIdIn request = some ext →
    exts service (service.answer request board).2 = exts service board ∨
      (exts service (service.answer request board).2).Perm (ext :: exts service board)
  answers (request : HttpRequest) (board : W) (ext : Json) (status : ℤ) (raw : String)
    (value : Json) : externalIdIn request = some ext →
    (service.answer request board).1 = .body status raw →
    Json.loads env.toFloat raw = some value → hasId value = true →
      (exts service (service.answer request board).2).Perm (ext :: exts service board)
  pages : ∃ offset : Json → ℕ, offset .null = 0 ∧ ∀ cur board status raw,
    (service.answer ⟨"GET", env.apiBase ++ pagePath env.repr (env.pbase ++ "/work-items/") cur,
      none⟩ board).1 = .body status raw →
    ∃ page, Json.loads env.toFloat raw = some (.obj page) ∧
      IsPage offset (service.items board) (offset cur) page
  ids (board : W) (item id : Json) : item ∈ service.items board →
    Python.subscript item "id" = .ok id → Python.truthy id = true

/-- `_paginate` reads the items of the board to the last one. -/
def Service.Fits : Prop := ∀ board, (service.items board).length ≤ 8000

end Contents

/-! ## What creates nothing -/

section Quiet

variable {W : Type} {env : Env} {service : Service W}

/-- Between two states no request has named an external id, and none was taken in. -/
structure Quiet (service : Service W) (s t : Session W) : Prop where
  exts : exts service t.board = exts service s.board
  byExt : t.byExt = s.byExt
  actions : ∀ action ∈ s.actions, action ∈ t.actions
  exchanges : ∃ more, t.exchanges = s.exchanges ++ more ∧ ∀ x ∈ more, externalIdIn x.request = none

theorem Quiet.refl (s : Session W) : Quiet service s s := ⟨rfl, rfl, fun _ h ↦ h, [], by simp⟩

theorem Quiet.trans {s t u : Session W} (hst : Quiet service s t) (htu : Quiet service t u) :
    Quiet service s u := by
  obtain ⟨first, hfirst, hnone⟩ := hst.exchanges
  obtain ⟨more, hmore, hnone'⟩ := htu.exchanges
  refine ⟨htu.exts.trans hst.exts, htu.byExt.trans hst.byExt,
    fun action h ↦ htu.actions action (hst.actions action h), first ++ more, ?_, ?_⟩
  · rw [hmore, hfirst, List.append_assoc]
  · exact List.forall_mem_append.mpr ⟨hnone, hnone'⟩

def quiet (service : Service W) : Contract (Session W) where
  inv _ := True
  rel := Quiet service
  refl := Quiet.refl
  trans := Quiet.trans

theorem quiet_modify {f : Session W → Session W} (hboard : ∀ s, (f s).board = s.board)
    (hexchanges : ∀ s, (f s).exchanges = s.exchanges) (hindex : ∀ s, (f s).byExt = s.byExt)
    (hactions : ∀ s, ∀ action ∈ s.actions, action ∈ (f s).actions) :
    (quiet service).Kept (modify f : Effect W Unit) := by
  refine Contract.obeyed_modify fun s _ ↦ ⟨trivial, ?_⟩
  exact ⟨by rw [hboard], hindex s, hactions s, [], by simp [hexchanges]⟩

theorem quiet_count (f : Counts → Counts) : (quiet service).Kept (count f : Effect W Unit) :=
  quiet_modify (fun _ ↦ rfl) (fun _ ↦ rfl) (fun _ ↦ rfl) fun _ _ h ↦ h

theorem quiet_logAction (entry : List (String × Json)) :
    (quiet service).Kept (logAction entry : Effect W Unit) :=
  quiet_modify (fun _ ↦ rfl) (fun _ ↦ rfl) (fun _ ↦ rfl) fun _ _ h ↦ List.mem_append_left _ h

theorem quiet_exceptRuntimeError {m : Effect W Unit} {handler : Exception → Effect W Unit}
    (hm : (quiet service).Kept m) (hhandler : ∀ exc, (quiet service).Kept (handler exc)) :
    (quiet service).Kept (exceptRuntimeError m handler) := by
  refine hm.tryCatch fun exc ↦ ?_
  split_ifs
  · exact hhandler exc
  · exact Contract.kept_throw exc

variable (hservice : service.Documented env)

include hservice

theorem quiet_send {request : HttpRequest} (h : externalIdIn request = none) :
    (quiet service).Kept (send service request) := by
  intro s _
  refine ⟨trivial, ⟨hservice.keeps request s.board h, rfl, fun _ h ↦ h, ?_⟩, trivial⟩
  exact ⟨_, rfl, fun x hx ↦ by rw [List.mem_singleton.mp hx, h]⟩

theorem quiet_attempts (method path : String) {body : Option Json}
    (h : externalIdIn ⟨method, env.apiBase ++ path, body⟩ = none) (retries : ℕ) :
    (quiet service).Kept (attempts env service method path body retries) := by
  induction retries with
  | zero => exact Contract.kept_throw _
  | succ retries ih =>
      refine (quiet_send hservice h).bind fun response ↦ ?_
      cases response with
      | body status raw =>
          simp only
          split_ifs
          · exact Contract.kept_pure _
          · cases Json.loads env.toFloat raw with
            | some value => exact Contract.kept_pure _
            | none => exact Contract.kept_throw _
      | httpError code text =>
          simp only
          split_ifs
          · exact ih
          · exact ih
          · exact Contract.kept_throw _
      | urlError text =>
          simp only
          split_ifs
          · exact Contract.kept_throw _
          · exact ih
      | raises exc => exact Contract.kept_throw _

theorem quiet_api (method path : String) {body : Option Json}
    (h : externalIdIn ⟨method, env.apiBase ++ path, body⟩ = none) :
    (quiet service).Kept (api env service method path body) :=
  quiet_attempts hservice method path h 6

theorem quiet_readPages (path : String) (rounds : ℕ) (cur : Json) (out : List Json) :
    (quiet service).Kept (readPages env service path rounds cur out) := by
  induction rounds generalizing cur out with
  | zero => exact Contract.kept_pure _
  | succ rounds ih =>
      refine (quiet_api hservice _ _ rfl).bind fun d ↦ ?_
      split
      · exact Contract.kept_pure _
      · refine (Contract.kept_lift _).bind fun page ↦ ?_
        split
        · exact Contract.kept_pure _
        · exact ih _ _

theorem quiet_readNames (path : String) : (quiet service).Kept (readNames env service path) :=
  (quiet_readPages hservice path 80 .null []).bind fun _ ↦ Contract.kept_lift _

theorem quiet_labelId (n : String) : (quiet service).Kept (labelId env service n) := by
  refine Contract.kept_get.bind fun s ↦ ?_
  simp only
  split_ifs
  · refine (quiet_api hservice _ _ rfl).bind fun made ↦ ?_
    refine (Contract.kept_lift _).bind fun lid ↦ ?_
    refine Contract.Kept.bind ?_ fun _ ↦ Contract.kept_pure lid
    exact quiet_modify (fun _ ↦ rfl) (fun _ ↦ rfl) (fun _ ↦ rfl) fun _ _ h ↦ h
  · exact Contract.kept_pure _

theorem quiet_labelIds (names : List String) :
    (quiet service).Kept (labelIds env service names) := by
  induction names with
  | nil => exact Contract.kept_pure _
  | cons n names ih =>
      exact (quiet_labelId hservice n).bind fun lid ↦ ih.bind fun ids ↦ Contract.kept_pure _

end Quiet

/-! ## Planning -/

section Planning

variable {W : Type} {env : Env} {service : Service W}

/-- A body that names no external id. -/
def Plain (body : Body) : Prop := body.lookup "external_id" = none

theorem plain_set {body : Body} (h : Plain body) {key : String} (hkey : key ≠ "external_id")
    (value : Json) : Plain (Dict.set key value body) := by
  rw [Plain, Dict.lookup_set, if_neg hkey.symm]
  exact h

theorem plain_mergeLabels {dst src out : Body} (h : Plain dst)
    (hout : mergeLabels env dst src = .ok out) : Plain out := by
  rw [mergeLabels] at hout
  cases hlabels : src.lookup "labels" with
  | none =>
      rw [hlabels] at hout
      rwa [← Except.ok.inj hout]
  | some labels =>
      simp only [hlabels, Outcome.bind_eq_ok_iff] at hout
      obtain ⟨old, -, new, -, ids, -, all, -, hset⟩ := hout
      rw [← Except.ok.inj hset]
      exact plain_set h (by decide) _

theorem plain_mergeDescription {dst : Body} (h : Plain dst) (src : Body) :
    Plain (mergeDescription dst src) := by
  rw [mergeDescription]
  split
  · exact h
  · exact plain_set h (by decide) _
  · exact plain_set h (by decide) _
  · exact plain_set h (by decide) _
  · exact h

theorem plain_mergeState {dst : Body} (h : Plain dst) (src : Body) : Plain (mergeState dst src) := by
  simp only [mergeState]
  split_ifs
  · exact plain_set h (by decide) _
  · exact h

theorem plain_mergePriority {dst : Body} (h : Plain dst) (src : Body) :
    Plain (mergePriority dst src) := by
  simp only [mergePriority]
  split_ifs
  · exact plain_set h (by decide) _
  · exact h

theorem plain_merge {dst src out : Body} (h : Plain dst) (hout : merge env dst src = .ok out) :
    Plain out := by
  obtain ⟨merged, hmerged, hrest⟩ := Outcome.bind_eq_ok_iff.mp hout
  rw [← Except.ok.inj hrest]
  exact plain_mergePriority (plain_mergeState (plain_mergeDescription
    (plain_mergeLabels h hmerged) src) src) src

theorem plain_addUpdate {op : Op} {body : Body} {updates out : List Update} {tid : Json}
    (h : ∀ u ∈ updates, Plain u.body) (hout : addUpdate env op body updates tid = .ok out) :
    ∀ u ∈ out, Plain u.body := by
  obtain ⟨key, -, hout⟩ := Outcome.bind_eq_ok_iff.mp hout
  split_ifs at hout
  · intro u hu
    obtain ⟨old, hold, hu⟩ := Outcome.exists_of_mem_mapM hout u hu
    split_ifs at hu
    · obtain ⟨merged, hmerged, hu⟩ := Outcome.bind_eq_ok_iff.mp hu
      rw [← Except.ok.inj hu]
      exact plain_merge (h old hold) hmerged
    · rw [← Except.ok.inj hu]
      exact h old hold
  · obtain ⟨merged, hmerged, hu⟩ := Outcome.bind_eq_ok_iff.mp hout
    rw [← Except.ok.inj hu]
    have hempty : Plain [] := rfl
    refine List.forall_mem_append.mpr ⟨h, fun u hu ↦ ?_⟩
    rw [List.mem_singleton.mp hu]
    exact plain_merge hempty hmerged

theorem plain_addUpdates {op : Op} {body : Body} {tids : List Json} {updates out : List Update}
    (h : ∀ u ∈ updates, Plain u.body)
    (hout : tids.foldlM (addUpdate env op body) updates = .ok out) : ∀ u ∈ out, Plain u.body := by
  induction tids generalizing updates with
  | nil => rwa [← Except.ok.inj hout]
  | cons tid tids ih =>
      obtain ⟨next, hnext, hrest⟩ := Outcome.foldlM_cons_eq_ok_iff.mp hout
      exact ih (plain_addUpdate h hnext) hrest

/-- The operation is to create an item. -/
def IsNew (env : Env) (index : List (Key × Json)) (ops : List Op) (op : Op) : Prop :=
  isSuperseded ops op = false ∧ resolveAll env index op = .ok [] ∧
    index.lookup (.str (extOf op)) = none

/-- What the operations so far call for. -/
structure PlanFor (env : Env) (index : List (Key × Json)) (ops done : List Op)
    (planned : Planned) : Prop where
  plain : ∀ u ∈ planned.updates, Plain u.body
  creates : ∀ c ∈ planned.creates, ∃ op ∈ done, IsNew env index ops op ∧ c.ext = extOf op
  all : ∀ op ∈ done, IsNew env index ops op → ∃ c ∈ planned.creates, c.ext = extOf op
  resolved : ∀ op ∈ done, isSuperseded ops op = false → ∃ ids, resolveAll env index op = .ok ids

variable {index : List (Key × Json)} {ops done : List Op} {planned : Planned} {op : Op}

/-- An operation that is not to create an item changes the updates alone. -/
theorem PlanFor.skip (h : PlanFor env index ops done planned) (hnew : ¬IsNew env index ops op)
    (hresolved : isSuperseded ops op = false → ∃ ids, resolveAll env index op = .ok ids)
    {updates : List Update} (hplain : ∀ u ∈ updates, Plain u.body) :
    PlanFor env index ops (done ++ [op]) { planned with updates } where
  plain := hplain
  creates c hc := by
    obtain ⟨old, hold, hcreate⟩ := h.creates c hc
    exact ⟨old, List.mem_append_left _ hold, hcreate⟩
  all later hlater hlaternew := by
    rcases List.mem_append.mp hlater with hold | hlast
    · exact h.all later hold hlaternew
    · rw [List.mem_singleton.mp hlast] at hlaternew
      exact absurd hlaternew hnew
  resolved later hlater := by
    rcases List.mem_append.mp hlater with hold | hlast
    · exact h.resolved later hold
    · rw [List.mem_singleton.mp hlast]
      exact hresolved

theorem PlanFor.add (h : PlanFor env index ops done planned) (hnew : IsNew env index ops op)
    (body : Body) :
    PlanFor env index ops (done ++ [op])
      { planned with creates := planned.creates ++ [⟨op, extOf op, body⟩] } where
  plain := h.plain
  creates c hc := by
    rcases List.mem_append.mp hc with hold | hlast
    · obtain ⟨old, hmem, hcreate⟩ := h.creates c hold
      exact ⟨old, List.mem_append_left _ hmem, hcreate⟩
    · rw [List.mem_singleton.mp hlast]
      exact ⟨op, by simp, hnew, rfl⟩
  all later hlater hlaternew := by
    rcases List.mem_append.mp hlater with hold | hlast
    · obtain ⟨c, hc, hext⟩ := h.all later hold hlaternew
      exact ⟨c, List.mem_append_left _ hc, hext⟩
    · rw [List.mem_singleton.mp hlast]
      exact ⟨_, List.mem_append_right _ (List.mem_singleton_self _), rfl⟩
  resolved later hlater := by
    rcases List.mem_append.mp hlater with hold | hlast
    · exact h.resolved later hold
    · rw [List.mem_singleton.mp hlast]
      exact fun _ ↦ ⟨[], hnew.2.1⟩

/-- What creates nothing, while the index is this one. -/
def planning (service : Service W) (index : List (Key × Json)) : Contract (Session W) :=
  (quiet service).on fun s ↦ s.byExt = index

theorem planning_of_quiet {α : Type} {m : Effect W α} (h : (quiet service).Kept m) :
    (planning service index).Kept m :=
  h.imp (fun _ _ ↦ trivial) fun _ _ hs hquiet ↦ ⟨hquiet.byExt.trans hs, hquiet⟩

variable (hservice : service.Documented env)

include hservice

theorem planning_planOp (states : List (Json × Json)) (h : PlanFor env index ops done planned) :
    (planning service index).Obeyed (planOp env service states ops planned op)
      (PlanFor env index ops (done ++ [op])) := by
  rw [planOp]
  split_ifs with hsuperseded
  · have hnew : ¬IsNew env index ops op := fun hnew ↦ by
      rw [hnew.1] at hsuperseded
      cases hsuperseded
    exact Contract.obeyed_bind (planning_of_quiet (quiet_count _)) fun _ _ ↦
      Contract.obeyed_pure (h.skip hnew (fun hfalse ↦ absurd (hfalse.symm.trans hsuperseded) nofun) h.plain)
  · have hbody : (quiet service).Kept (buildBody env service states op) :=
      (quiet_labelIds hservice op.labels).bind fun _ ↦ Contract.kept_pure _
    refine Contract.obeyed_bind (planning_of_quiet hbody) fun body _ ↦ ?_
    refine Contract.obeyed_bind (Contract.obeyed_get fun s hs ↦ hs) fun s hs ↦ ?_
    have hindex : s.byExt = index := hs
    refine Contract.obeyed_bind (p := fun ids ↦ resolveAll env index op = .ok ids)
      (Contract.obeyed_lift fun ids hids ↦ hindex ▸ hids) fun ids hids ↦ ?_
    cases ids with
    | cons tid tids =>
        have hnew : ¬IsNew env index ops op := fun hnew ↦ by simpa [hids] using hnew.2.1
        refine Contract.obeyed_bind (Contract.obeyed_lift fun out hout ↦
          plain_addUpdates h.plain hout) fun updates hplain ↦ ?_
        exact Contract.obeyed_pure (h.skip hnew (fun _ ↦ ⟨_, hids⟩) hplain)
    | nil =>
        simp only [hindex]
        cases hext : index.lookup (.str (extOf op)) with
        | some tid =>
            have hnew : ¬IsNew env index ops op := fun hnew ↦ by simpa [hext] using hnew.2.2
            exact Contract.obeyed_bind (Contract.obeyed_lift fun out hout ↦
              plain_addUpdate h.plain hout) fun updates hplain ↦
                Contract.obeyed_pure (h.skip hnew (fun _ ↦ ⟨_, hids⟩) hplain)
        | none =>
            exact Contract.obeyed_pure (h.add ⟨Bool.eq_false_of_not_eq_true hsuperseded, hids, hext⟩ body)

theorem planning_planOps (states : List (Json × Json)) (rest : List Op)
    (h : PlanFor env index ops done planned) :
    (planning service index).Obeyed (rest.foldlM (planOp env service states ops) planned)
      (PlanFor env index ops (done ++ rest)) := by
  induction rest generalizing done planned with
  | nil =>
      rw [List.append_nil]
      exact Contract.obeyed_pure h
  | cons op rest ih =>
      rw [List.foldlM_cons]
      refine Contract.obeyed_bind (planning_planOp hservice states h) fun next hnext ↦ ?_
      have hrest := ih hnext
      rwa [List.append_assoc] at hrest

/-! ## Updating -/

theorem quiet_addTo (collection members : String) (target iid : Json) :
    (quiet service).Kept (addTo env service collection members target iid) := by
  rw [addTo]
  split_ifs
  · exact (quiet_api hservice _ _ rfl).bind fun _ ↦ Contract.kept_pure _
  · exact Contract.kept_pure _

theorem quiet_assign (modules cycles : List (Json × Json)) (iid : Json) (op : Op) :
    (quiet service).Kept (assign env service modules cycles iid op) := by
  rw [assign]
  split_ifs
  · exact Contract.kept_pure _
  · refine (Contract.kept_lift _).bind fun found ↦ ?_
    refine (Contract.kept_lift _).bind fun cid ↦ quiet_exceptRuntimeError ?_ fun exc ↦ ?_
    · exact (quiet_addTo hservice _ _ _ _).bind fun _ ↦ quiet_addTo hservice _ _ _ _
    · exact (quiet_count _).bind fun _ ↦ quiet_logAction _

theorem quiet_applyUpdate (modules cycles : List (Json × Json)) {u : Update} (h : Plain u.body) :
    (quiet service).Kept (applyUpdate env service modules cycles u) := by
  have hdone : (quiet service).Kept (do
      assign env service modules cycles u.tid u.op
      count fun c ↦ { c with upd := c.upd + 1 }
      logAction [("op", .str "update"), ("id", u.tid),
        ("name", PlaneMcpServer.optional u.op.targetName), ("fields", fieldsOf u.body)]) :=
    (quiet_assign hservice modules cycles u.tid u.op).bind fun _ ↦
      (quiet_count _).bind fun _ ↦ quiet_logAction _
  refine quiet_exceptRuntimeError ?_ fun exc ↦ (quiet_count _).bind fun _ ↦ quiet_logAction _
  split_ifs
  · have hbody : externalIdIn ⟨"PATCH", env.apiBase ++ (env.pbase ++ "/work-items/" ++
        Python.str env.repr u.tid ++ "/"), some (.obj u.body)⟩ = none := h
    exact (quiet_api hservice _ _ hbody).bind fun _ ↦ hdone
  · exact hdone

end Planning

end AgenticSDLC.UpsertPlan
