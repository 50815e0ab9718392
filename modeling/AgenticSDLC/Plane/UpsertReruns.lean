import AgenticSDLC.Plane.UpsertRuns
import Mathlib.Data.List.Dedup

/-!
# One run after another

However the service answers, an external id gets at most one item more than were created without
an answer, over all the runs of all plans; and a plan that is run again creates only what its
last run has logged as failed.
-/

namespace AgenticSDLC.UpsertPlan

open Effects
open Python (Key)

section Start

variable {W : Type} {env : Env} {service : Service W} {ops : List Op} {s t : Session W}

/-- Nothing was created between two states. -/
structure Untouched (service : Service W) (s t : Session W) : Prop where
  exts : exts service t.board = exts service s.board
  exchanges : ∃ more, t.exchanges = s.exchanges ++ more ∧ ∀ x ∈ more, externalIdIn x.request = none

theorem Quiet.untouched (h : Quiet service s t) : Untouched service s t := ⟨h.exts, h.exchanges⟩

theorem quiet_paginate (hservice : service.Documented env) (path : String) :
    (quiet service).Kept (paginate env service path) :=
  quiet_readPages hservice path 80 .null []

theorem quiet_indexBoard (hservice : service.Documented env) :
    (quiet service).Kept (indexBoard env service) :=
  (quiet_readNames hservice _).bind fun _ ↦ (quiet_readNames hservice _).bind fun _ ↦
    (quiet_readNames hservice _).bind fun _ ↦ (quiet_readNames hservice _).bind fun _ ↦
      (quiet_paginate hservice _).bind fun _ ↦ (Contract.kept_lift _).bind fun _ ↦
        (Contract.kept_lift _).bind fun _ ↦ Contract.kept_pure _

/-- The index has the external ids of the board, under ids of its items. -/
structure Indexes (service : Service W) (board : W) (index : List (Key × Json)) : Prop where
  known : ∀ ext, ext ≠ "" →
    ((index.lookup (.str ext)).isSome = true ↔ 0 < itemsOf service ext board)
  ids : ∀ key id, index.lookup key = some id → Python.truthy id = true

theorem indexes_indexBoard (hservice : service.Documented env) (hfits : service.Fits)
    {board : Indexed} (h : indexBoard env service s = .ok board t) :
    Indexes service t.board board.index := by
  obtain ⟨states, s₁, h₁, h⟩ := bind_eq_ok_iff.mp h
  obtain ⟨labels, s₂, h₂, h⟩ := bind_eq_ok_iff.mp h
  obtain ⟨modules, s₃, h₃, h⟩ := bind_eq_ok_iff.mp h
  obtain ⟨cycles, s₄, h₄, h⟩ := bind_eq_ok_iff.mp h
  obtain ⟨items, s₅, h₅, h⟩ := bind_eq_ok_iff.mp h
  obtain ⟨index, s₆, h₆, h⟩ := bind_eq_ok_iff.mp h
  obtain ⟨names, s₇, h₇, h⟩ := bind_eq_ok_iff.mp h
  obtain ⟨hindex, rfl⟩ := lift_eq_ok_iff.mp h₆
  obtain ⟨-, rfl⟩ := lift_eq_ok_iff.mp h₇
  obtain ⟨rfl, rfl⟩ := EStateM.Result.ok.inj h
  have hread : exts service s₅.board = exts service s₄.board := by
    have hkept := (quiet_paginate hservice (env.pbase ++ "/work-items/")).rel_after (s := s₄) trivial
    rw [after_of_ok h₅] at hkept
    exact hkept.exts
  obtain ⟨offset, hstart, hpages⟩ := hservice.pages
  have hitems := readPages_items hservice hpages 80 .null [] h₅
  rw [hstart, List.drop_zero, List.take_of_length_le (hfits s₄.board), List.nil_append] at hitems
  subst hitems
  obtain ⟨hkeys, hids⟩ := lookup_byExt hindex
  refine ⟨fun ext hext ↦ ?_, fun key id hid ↦ ?_⟩
  · rw [itemsOf_pos_iff, hread]
    exact hkeys ext hext
  · obtain ⟨w, hw, hsub⟩ := hids key id hid
    exact hservice.ids s₄.board w id hw hsub

/-- The state in which a run comes to its loops. -/
structure Started (env : Env) (service : Service W) (ops : List Op) (s s₁ : Session W)
    (planned : Planned) : Prop where
  untouched : Untouched service s s₁
  indexes : Indexes service s₁.board s₁.byExt
  plan : PlanFor env s₁.byExt ops ops planned

/-- A run ends before its loops, or it comes to them with a plan for the board. -/
theorem main_cases (hservice : service.Documented env) (hfits : service.Fits) (ops : List Op)
    (s : Session W) :
    (Untouched service s (after (main env service ops) s) ∧
      ∀ t, main env service ops s ≠ .ok () t) ∨
    ∃ board s₁ planned, Started env service ops s s₁ planned ∧
      main env service ops s = finallyLog env (applyPlanned env service board planned) s₁ := by
  have hindexed := (quiet_indexBoard hservice).rel_after (s := s) trivial
  cases hindex : indexBoard env service s with
  | error exc t =>
      rw [after_of_error hindex] at hindexed
      have hmain : main env service ops s = .error exc t := by
        rw [main, bind_of_error hindex]
      refine Or.inl ⟨?_, fun u hu ↦ by simp [hmain] at hu⟩
      rw [after_of_error hmain]
      exact hindexed.untouched
  | ok board t =>
      rw [after_of_ok hindex] at hindexed
      have hindexes := indexes_indexBoard hservice hfits hindex
      have hempty : PlanFor env board.index ops [] ⟨[], []⟩ := by
        refine ⟨?_, ?_, ?_, ?_⟩ <;> exact fun _ h ↦ absurd h List.not_mem_nil
      have hplan := planning_planOps hservice board.states ops hempty (t.fresh board) rfl
      have hmain : main env service ops s =
          (ops.foldlM (planOp env service board.states ops) ⟨[], []⟩ >>= fun planned ↦
            finallyLog env (applyPlanned env service board planned)) (t.fresh board) := by
        have hfresh : (modify (Session.fresh board) : Effect W Unit) t = .ok () (t.fresh board) := rfl
        rw [main, bind_of_ok hindex, bind_of_ok hfresh]
      have huntouched : ∀ {u}, Quiet service (t.fresh board) u → Untouched service s u := by
        intro u hquiet
        obtain ⟨first, hfirst, hfirsts⟩ := hindexed.exchanges
        obtain ⟨more, hmore, hmores⟩ := hquiet.exchanges
        refine ⟨hquiet.exts.trans hindexed.exts, first ++ more, ?_, ?_⟩
        · rw [hmore, Session.fresh, hfirst, List.append_assoc]
        · exact List.forall_mem_append.mpr ⟨hfirsts, hmores⟩
      rw [List.nil_append] at hplan
      cases hrun : ops.foldlM (planOp env service board.states ops) ⟨[], []⟩ (t.fresh board) with
      | error exc u =>
          rw [hrun] at hplan
          rw [bind_of_error hrun] at hmain
          refine Or.inl ⟨?_, fun v hv ↦ by simp [hmain] at hv⟩
          rw [after_of_error hmain]
          exact huntouched hplan.2
      | ok planned u =>
          rw [hrun] at hplan
          rw [bind_of_ok hrun] at hmain
          obtain ⟨hbyExt, hquiet, hplanned⟩ := hplan
          refine Or.inr ⟨board, u, planned, ⟨huntouched hquiet, ?_, ?_⟩, hmain⟩
          · rw [hbyExt]
            refine ⟨fun ext hext ↦ ?_, hindexes.ids⟩
            rw [hquiet.itemsOf ext]
            exact hindexes.known ext hext
          · rw [hbyExt]
            exact hplanned

end Start

/-! ## The loops -/

section Loops

variable {W : Type} {env : Env} {service : Service W} {ops : List Op} {s s₁ : Session W}
variable {planned : Planned}

def Planned.names (planned : Planned) : List String := planned.creates.map Create.ext

theorem Started.onTrack (h : Started env service ops s s₁ planned) : OnTrack env service s₁ s₁ := by
  refine ⟨fun ext hext hknown ↦ (h.indexes.known ext hext).mp hknown, fun ext _ ↦ ?_,
    fun ext hext hnone ↦ ?_⟩
  · exact Nat.add_le_add_right (Nat.le_max_left _ 1) _
  · have hzero : itemsOf service ext s₁.board = 0 := by
      refine Nat.eq_zero_of_not_pos fun hpos ↦ ?_
      rw [← h.indexes.known ext hext, hnone] at hpos
      cases hpos
    omega

theorem quiet_updates (hservice : service.Documented env) (board : Indexed) {updates : List Update}
    (h : ∀ u ∈ updates, Plain u.body) :
    (quiet service).Kept (updates.forM (applyUpdate env service board.modules board.cycles)) :=
  Contract.kept_forM fun u hu ↦ quiet_applyUpdate hservice board.modules board.cycles (h u hu)

/-- The log that a run leaves. -/
def logOf (env : Env) (actions : List Json) : Json :=
  .obj [("mode", .str (if env.apply then "apply" else "dry-run")), ("actions", .arr actions)]

theorem finallyLog_eq (m : Effect W Unit) (s : Session W) :
    after (finallyLog env m) s =
      { after m s with logFile := some (logOf env (after m s).actions) } := by
  rw [after, finallyLog, after]
  cases m s <;> rfl

theorem finallyLog_eq_ok {m : Effect W Unit} {s t : Session W}
    (h : finallyLog env m s = .ok () t) :
    ∃ t', m s = .ok () t' ∧ t = { t' with logFile := some (logOf env t'.actions) } := by
  rw [finallyLog] at h
  cases hrun : m s with
  | ok done t' =>
      rw [hrun] at h
      exact ⟨t', rfl, (EStateM.Result.ok.inj h).2.symm⟩
  | error exc t' =>
      rw [hrun] at h
      cases h

theorem creating_creates (hservice : service.Documented env) (board : Indexed) {names : List String}
    {creates : List Create} (h : ∀ c ∈ creates, c.ext ∈ names) :
    (creating env service names s₁).Kept
      (creates.forM (applyCreate env service board.states board.modules board.cycles)) :=
  Contract.kept_forM fun c hc ↦
    creating_applyCreate hservice board.states board.modules board.cycles (h c hc)

theorem creating_applyPlanned (hservice : service.Documented env) (board : Indexed)
    (h : Started env service ops s s₁ planned) :
    (creating env service planned.names s₁).Kept (applyPlanned env service board planned) :=
  (creating_of_quiet (quiet_updates hservice board h.plan.plain)).bind fun _ ↦
    creating_creates hservice board fun _ ↦ List.mem_map_of_mem

/-- When the loop comes to its end, each of its external ids is known or logged as failed. -/
theorem creates_settle (hservice : service.Documented env) (happly : env.apply = true)
    (board : Indexed) {creates : List Create} {t u : Session W} (htrack : OnTrack env service s₁ t)
    (h : creates.forM (applyCreate env service board.states board.modules board.cycles) t = .ok () u) :
    ∀ c ∈ creates, (u.byExt.lookup (.str c.ext)).isSome = true ∨ Failed c.ext u.actions := by
  have hkept : ∀ c ∈ creates, (creating env service (creates.map Create.ext) s₁).Kept
      (applyCreate env service board.states board.modules board.cycles c) := fun c hc ↦
    creating_applyCreate hservice _ _ _ (List.mem_map_of_mem hc)
  refine @Contract.forM_settles _ _ _ _ t u _ creates (fun c u ↦
    (u.byExt.lookup (.str c.ext)).isSome = true ∨ Failed c.ext u.actions) hkept ?_ ?_ htrack h
  · intro c hc s hs u' hrun
    exact applyCreate_settles hservice happly hrun
  · rintro c s u' hlater (hknown | ⟨rest, hfailed⟩)
    · exact Or.inl (hlater.known _ hknown)
    · exact Or.inr ⟨rest, hlater.actions _ hfailed⟩

end Loops

/-! ## All the runs -/

/-- One run of the program: its orders of the sets, whether it applies, and its plan. -/
structure Run where
  keyOrder : List String → List String
  perm : ∀ keys, (keyOrder keys).Perm keys
  idOrder : List Json → List Json
  apply : Bool
  ops : List Op

def Env.during (env : Env) (run : Run) : Env :=
  { env with keyOrder := run.keyOrder, idOrder := run.idOrder, apply := run.apply }

section Runs

variable {W : Type} (env : Env) (service : Service W)

/-- The session after a run, whether it comes to its end or not. -/
def afterRun (s : Session W) (run : Run) : Session W :=
  after (main (env.during run) service run.ops) s

def afterRuns (runs : List Run) (s : Session W) : Session W := runs.foldl (afterRun env service) s

variable {env service}

theorem Service.Documented.during (h : service.Documented env) (run : Run) :
    service.Documented (env.during run) :=
  ⟨h.reads, h.keeps, h.creates, h.answers, h.pages, h.ids⟩

/-- There are as many items as before, and at most one more than were lost if there was none. -/
structure CreatesOnce (env : Env) (service : Service W) (ext : String) (s t : Session W) : Prop where
  mono : itemsOf service ext s.board ≤ itemsOf service ext t.board
  lost_mono : lost env ext s.exchanges ≤ lost env ext t.exchanges
  bound : itemsOf service ext t.board + lost env ext s.exchanges ≤
    max (itemsOf service ext s.board) 1 + lost env ext t.exchanges

theorem CreatesOnce.refl (ext : String) (s : Session W) : CreatesOnce env service ext s s :=
  ⟨Nat.le_refl _, Nat.le_refl _, Nat.add_le_add_right (Nat.le_max_left _ 1) _⟩

theorem CreatesOnce.trans {ext : String} {s t u : Session W} (hst : CreatesOnce env service ext s t)
    (htu : CreatesOnce env service ext t u) : CreatesOnce env service ext s u := by
  have hmono := hst.mono
  have hlost := hst.lost_mono
  have hfirst := hst.bound
  have hsecond := htu.bound
  exact ⟨hmono.trans htu.mono, hlost.trans htu.lost_mono, by omega⟩

theorem lost_le_append (ext : String) (exchanges more : List Exchange) :
    lost env ext exchanges ≤ lost env ext (exchanges ++ more) := by
  rw [lost, lost, List.countP_append]
  exact Nat.le_add_right _ _

theorem createsOnce_afterRun (hservice : service.Documented env) (hfits : service.Fits)
    {ext : String} (hext : ext ≠ "") (run : Run) (s : Session W) :
    CreatesOnce env service ext s (afterRun env service s run) := by
  have hduring := hservice.during run
  have huntouched : ∀ {t : Session W}, Untouched service s t →
      itemsOf service ext t.board = itemsOf service ext s.board ∧
        lost env ext t.exchanges = lost env ext s.exchanges := by
    intro t h
    obtain ⟨more, hmore, hnone⟩ := h.exchanges
    refine ⟨by rw [itemsOf, h.exts, itemsOf], ?_⟩
    rw [hmore]
    exact lost_append_of_ne fun x hx ↦ by simp [hnone x hx]
  rw [afterRun]
  rcases main_cases hduring hfits run.ops s with ⟨hsame, -⟩ | ⟨board, s₁, planned, hstart, hmain⟩
  · obtain ⟨hitems, hlost⟩ := huntouched hsame
    refine ⟨hitems.ge, hlost.ge, ?_⟩
    rw [hitems, hlost]
    exact Nat.add_le_add_right (Nat.le_max_left _ 1) _
  · obtain ⟨hitems, hlost⟩ := huntouched hstart.untouched
    have hkept := creating_applyPlanned hduring board hstart
    have htrack := hkept.inv_after hstart.onTrack
    have hlater := hkept.rel_after hstart.onTrack
    obtain ⟨more, hmore, -⟩ := hlater.exchanges
    have htaken : itemsOf service ext _ + lost env ext _ ≤ max (itemsOf service ext _) 1 +
      lost env ext _ := htrack.taken ext hext
    rw [after, hmain, ← after, finallyLog_eq]
    refine ⟨hitems ▸ hlater.mono ext, ?_, ?_⟩
    · rw [← hlost, hmore]
      exact lost_le_append ext _ _
    · rw [← hitems, ← hlost]
      exact htaken

end Runs

/-! ## The same plan again -/

section Again

/-- One of the keys of an operation is known in one of its variants. -/
def Resolves (index : List (Key × Json)) (op : Op) : Prop :=
  ∃ mk ∈ op.matchKey.toList ++ op.additionalMatchKeys, ∃ cand ∈ variants mk,
    (index.lookup (.str cand)).isSome = true

variable {env : Env} {index : List (Key × Json)} {op : Op}

theorem ne_empty_of_mem_variants {mk cand : String} (h : cand ∈ variants mk) : cand ≠ "" := by
  have hstory : ∀ text : String, "story:" ++ text ≠ "" := fun text hempty ↦ by
    simpa using congrArg String.toList hempty
  have htagged : ∀ text : String, "story:ASCP-" ++ text ≠ "" := fun text hempty ↦ by
    simpa using congrArg String.toList hempty
  rw [variants] at h
  split_ifs at h with hempty hprefix
  · cases h
  · simp only [List.mem_dedup, List.mem_append, List.mem_cons, List.not_mem_nil, or_false] at h
    rcases h with (rfl | rfl) | h
    · exact hempty
    · exact hstory _
    · split_ifs at h
      · cases h
      · rw [List.mem_singleton.mp h]
        exact htagged _
  · rw [List.mem_singleton.mp h]
    exact hempty

theorem truthy_resolveOne_iff (hperm : ∀ keys, (env.keyOrder keys).Perm keys)
    (hids : ∀ key id, index.lookup key = some id → Python.truthy id = true) (mk : String) :
    Python.truthy (resolveOne env index mk) = true ↔
      ∃ cand ∈ variants mk, (index.lookup (.str cand)).isSome = true := by
  rw [resolveOne]
  cases hfound : (env.keyOrder (variants mk)).findSome? fun cand ↦ index.lookup (.str cand) with
  | none =>
      rw [List.findSome?_eq_none_iff] at hfound
      refine iff_of_false (by simp [Python.truthy]) ?_
      rintro ⟨cand, hcand, hknown⟩
      rw [hfound cand ((hperm _).mem_iff.mpr hcand)] at hknown
      cases hknown
  | some id =>
      obtain ⟨cand, hcand, hknown⟩ := List.exists_of_findSome?_eq_some hfound
      exact iff_of_true (hids _ id hknown)
        ⟨cand, (hperm _).mem_iff.mp hcand, Option.isSome_iff_exists.mpr ⟨id, hknown⟩⟩

theorem addTarget_eq_nil_iff {ids out : List Json} {mk : String}
    (h : addTarget env index ids mk = .ok out) :
    out = [] ↔ ids = [] ∧ ¬(mk ≠ "" ∧ Python.truthy (resolveOne env index mk) = true) := by
  simp only [addTarget] at h
  split_ifs at h with hfound hany
  · obtain ⟨key, -, h⟩ := Outcome.bind_eq_ok_iff.mp h
    rw [← Except.ok.inj h]
    refine iff_of_false ?_ fun hboth ↦ hboth.2 hfound
    rintro rfl
    simp at hany
  · obtain ⟨key, -, h⟩ := Outcome.bind_eq_ok_iff.mp h
    rw [← Except.ok.inj h]
    simp [hfound]
  · rw [← Except.ok.inj h]
    simp [hfound]

/-- An operation is for no item if and only if none of its keys is known. -/
theorem resolveAll_eq_nil_iff (hperm : ∀ keys, (env.keyOrder keys).Perm keys)
    (hids : ∀ key id, index.lookup key = some id → Python.truthy id = true) {ids : List Json}
    (h : resolveAll env index op = .ok ids) : ids = [] ↔ ¬Resolves index op := by
  have hfold : ∀ (mks : List String) (before : List Json),
      mks.foldlM (addTarget env index) before = .ok ids →
        (ids = [] ↔ before = [] ∧ ∀ mk ∈ mks, ¬∃ cand ∈ variants mk,
          (index.lookup (.str cand)).isSome = true) := by
    intro mks
    induction mks with
    | nil =>
        intro before hbefore
        rw [← Except.ok.inj hbefore]
        simp
    | cons mk mks ih =>
        intro before hbefore
        obtain ⟨next, hnext, hrest⟩ := Outcome.foldlM_cons_eq_ok_iff.mp hbefore
        rw [ih next hrest, addTarget_eq_nil_iff hnext, truthy_resolveOne_iff hperm hids,
          List.forall_mem_cons, and_assoc]
        refine and_congr_right fun _ ↦ and_congr_left fun _ ↦ not_congr ?_
        refine and_iff_right_of_imp ?_
        rintro ⟨cand, hcand, -⟩ rfl
        cases hcand
  rw [hfold _ [] h, Resolves]
  simp

variable {W : Type} {service : Service W} {index' : List (Key × Json)} {board board' : W}

theorem Indexes.known_of_le (h : Indexes service board index) (h' : Indexes service board' index')
    (hle : ∀ ext, 0 < itemsOf service ext board → 0 < itemsOf service ext board') {ext : String}
    (hext : ext ≠ "") (hknown : (index.lookup (.str ext)).isSome = true) :
    (index'.lookup (.str ext)).isSome = true :=
  (h'.known ext hext).mpr (hle ext ((h.known ext hext).mp hknown))

theorem extOf_ne_empty (op : Op) : extOf op ≠ "" := fun hempty ↦ by
  simpa [extOf, extSource] using congrArg String.toList hempty

/-- What is to be created on a board that has all of an earlier one was to be created there. -/
theorem isNew_of_later {env' : Env} {ops : List Op}
    (hperm : ∀ keys, (env.keyOrder keys).Perm keys) (hperm' : ∀ keys, (env'.keyOrder keys).Perm keys)
    (h : Indexes service board index) (h' : Indexes service board' index')
    (hle : ∀ ext, 0 < itemsOf service ext board → 0 < itemsOf service ext board')
    (hresolved : isSuperseded ops op = false → ∃ ids, resolveAll env index op = .ok ids)
    (hnew : IsNew env' index' ops op) : IsNew env index ops op := by
  obtain ⟨hsuperseded, htargets, hunknown⟩ := hnew
  obtain ⟨ids, hids⟩ := hresolved hsuperseded
  have hnone : ¬Resolves index' op := (resolveAll_eq_nil_iff hperm' h'.ids htargets).mp rfl
  have hnil : ids = [] := by
    rw [resolveAll_eq_nil_iff hperm h.ids hids]
    rintro ⟨mk, hmk, cand, hcand, hknown⟩
    exact hnone ⟨mk, hmk, cand, hcand,
      h.known_of_le h' hle (ne_empty_of_mem_variants hcand) hknown⟩
  refine ⟨hsuperseded, hnil ▸ hids, Option.not_isSome_iff_eq_none.mp fun hknown ↦ ?_⟩
  have hlater := h.known_of_le h' hle (extOf_ne_empty op) hknown
  rw [hunknown] at hlater
  cases hlater

/-- Where a run comes to its end, what was to be created is on the board or logged as failed. -/
theorem run_settles {ops : List Op} {s t : Session W} (hservice : service.Documented env)
    (hfits : service.Fits) (happly : env.apply = true) (h : main env service ops s = .ok () t) :
    ∃ s₁ planned actions, Started env service ops s s₁ planned ∧
      (∀ ext, itemsOf service ext s₁.board ≤ itemsOf service ext t.board) ∧
      t.logFile = some (logOf env actions) ∧
      ∀ c ∈ planned.creates, 0 < itemsOf service c.ext t.board ∨ Failed c.ext actions := by
  rcases main_cases hservice hfits ops s with ⟨-, hends⟩ | ⟨board, s₁, planned, hstart, hmain⟩
  · exact absurd h (hends t)
  · rw [hmain] at h
    obtain ⟨t', hloops, rfl⟩ := finallyLog_eq_ok h
    have hkept := creating_applyPlanned hservice board hstart
    have htrack := hkept.inv_after hstart.onTrack
    have hlater := hkept.rel_after hstart.onTrack
    rw [after_of_ok hloops] at htrack hlater
    obtain ⟨_, s₂, hupdates, hcreates⟩ := bind_eq_ok_iff.mp hloops
    have hupdated : OnTrack env service s₁ s₂ := by
      have hquiet := (quiet_updates hservice board hstart.plan.plain).rel_after (s := s₁) trivial
      rw [after_of_ok hupdates] at hquiet
      exact hstart.onTrack.quiet hquiet
    refine ⟨s₁, planned, t'.actions, hstart, hlater.mono, rfl, fun c hc ↦ ?_⟩
    obtain ⟨op, -, -, hext⟩ := hstart.plan.creates c hc
    rcases creates_settle hservice happly board hupdated hcreates c hc with hknown | hfailed
    · exact Or.inl (htrack.backed c.ext (hext ▸ extOf_ne_empty op) hknown)
    · exact Or.inr hfailed

end Again

/-! ## A board that takes one item in -/

def sampleEnv : Env where
  repr _ := ""
  toFloat _ := .null
  decodeError _ := ""
  keyOrder := id
  idOrder := id
  apiBase := ""
  pbase := "/p"
  apply := true

def sampleItem : Json :=
  .obj [("id", .str "W-1"), ("external_id", .str "ascp-audit-reorg:OP-1")]

/-- The listing of the items. -/
def samplePage (there : Bool) : String :=
  if there then
    "\x7b\"results\": [\x7b\"id\": \"W-1\", \"external_id\": \"ascp-audit-reorg:OP-1\"\x7d]\x7d"
  else "\x7b\"results\": []\x7d"

def sampleAnswer (request : PlaneMcpServer.HttpRequest) (there : Bool) :
    PlaneMcpServer.Response × Bool :=
  if request.method = "GET" then
    if "/p/work-items/".toList <+: request.url.toList then
      (.body 200 (samplePage there), there)
    else (.body 200 "[]", there)
  else if externalIdIn request = some (.str "ascp-audit-reorg:OP-1") ∧ there = false then
    (.body 201 "\x7b\"id\": \"W-1\"\x7d", true)
  else (.httpError 400 "Bad Request", there)

def sampleService : Service Bool where
  answer := sampleAnswer
  items there := if there then [sampleItem] else []

def sampleOp (id : String) : Op :=
  ⟨some "create", some id, none, none, [], some id, none, none, [], none, [], none, none, none⟩

def sampleRun : Run := ⟨id, fun keys ↦ List.Perm.refl keys, id, true, [sampleOp "OP-1", sampleOp "OP-2"]⟩

def sampleStart : Session Bool := ⟨false, [], [], [], [], ⟨0, 0, 0, 0, 0, 0⟩, none⟩

theorem sampleAnswer_get {request : PlaneMcpServer.HttpRequest} (h : request.method = "GET")
    (there : Bool) : (sampleAnswer request there).2 = there := by
  rw [sampleAnswer, if_pos h]
  split_ifs <;> rfl

/-- A request to create an item takes it in or leaves the board as it is. -/
theorem sampleAnswer_cases (request : PlaneMcpServer.HttpRequest) (there : Bool) :
    (sampleAnswer request there).2 = there ∨
      externalIdIn request = some (.str "ascp-audit-reorg:OP-1") ∧ there = false ∧
        (sampleAnswer request there).2 = true := by
  by_cases hget : request.method = "GET"
  · exact Or.inl (sampleAnswer_get hget there)
  · rw [sampleAnswer, if_neg hget]
    split_ifs with hnew
    · exact Or.inr ⟨hnew.1, hnew.2, rfl⟩
    · exact Or.inl rfl

theorem loads_samplePage (there : Bool) : Json.loads sampleEnv.toFloat (samplePage there) =
    some (.obj [("results", .arr (if there then [sampleItem] else []))]) := by
  cases there <;> decide +kernel

theorem documented_sampleService : sampleService.Documented sampleEnv where
  reads request there hget := by
    show (if (sampleAnswer request there).2 then [sampleItem] else []) = _
    rw [sampleAnswer_get hget]
    rfl
  keeps request there hnone := by
    rcases sampleAnswer_cases request there with hsame | ⟨hext, -, -⟩
    · show exts sampleService (sampleAnswer request there).2 = _
      rw [hsame]
    · rw [hnone] at hext
      cases hext
  creates request there ext hext := by
    show exts sampleService (sampleAnswer request there).2 = _ ∨
      (exts sampleService (sampleAnswer request there).2).Perm _
    rcases sampleAnswer_cases request there with hsame | ⟨hnew, hthere, htaken⟩
    · exact Or.inl (by rw [hsame])
    · obtain rfl := Option.some.inj (hext.symm.trans hnew)
      rw [htaken, hthere]
      exact Or.inr (.refl _)
  answers request there ext status raw value hext hanswer hloads hid := by
    change (sampleAnswer request there).1 = .body status raw at hanswer
    show (exts sampleService (sampleAnswer request there).2).Perm _
    rw [sampleAnswer] at hanswer ⊢
    split_ifs at hanswer ⊢ with hget hpage hnew
    · obtain ⟨-, rfl⟩ := PlaneMcpServer.Response.body.inj hanswer
      obtain rfl := Option.some.inj ((loads_samplePage there).symm.trans hloads)
      cases hid
    · obtain ⟨-, rfl⟩ := PlaneMcpServer.Response.body.inj hanswer
      obtain rfl : Json.arr [] = value := Option.some.inj hloads
      cases hid
    · obtain rfl := Option.some.inj (hext.symm.trans hnew.1)
      rw [hnew.2]
      exact .refl _
  pages := by
    refine ⟨fun _ ↦ 0, rfl, fun cur there status raw hanswer ↦ ?_⟩
    have hlisting : "/p/work-items/".toList <+: (sampleEnv.apiBase ++ Pagination.pagePath sampleEnv.repr
        (sampleEnv.pbase ++ "/work-items/") cur).toList := by
      simp only [Pagination.pagePath, String.toList_append, List.append_assoc]
      exact List.prefix_append _ _
    change (sampleAnswer _ there).1 = .body status raw at hanswer
    rw [sampleAnswer, if_pos rfl, if_pos hlisting] at hanswer
    obtain ⟨-, rfl⟩ := PlaneMcpServer.Response.body.inj hanswer
    refine ⟨_, loads_samplePage there, ?_, fun _ ↦ rfl, fun hlong ↦ ?_⟩
    · cases there <;> rfl
    · exact absurd hlong (by cases there <;> simp [sampleService])
  ids there item id hitem hsub := by
    cases there with
    | false => cases hitem
    | true =>
        rw [List.mem_singleton.mp hitem] at hsub
        obtain rfl := Except.ok.inj hsub
        rfl

theorem fits_sampleService : sampleService.Fits := by
  rintro (_ | _) <;> simp [sampleService]

end AgenticSDLC.UpsertPlan
