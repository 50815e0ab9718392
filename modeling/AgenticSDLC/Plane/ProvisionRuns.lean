import AgenticSDLC.Plane.ProvisionIssues

/-!
# Runs that provision a workspace

However often the program is stopped and started again, with or without its state file, an external
id has one item at most, the state file maps a key to an item that has it for its external id, and
what a run has created hangs below the item that the backlog says.
-/

namespace AgenticSDLC.Provision

open Effects
open PlaneMcpServer (HttpRequest)

/-! ## The steps that create items -/

/-- Where a run for a backlog may have created an item. -/
inductive Placed (backlog : Backlog) (only : String) (items : List Item) : Item → Prop
  | epic {e : Epic} (he : e ∈ backlog.epics) (id : Json) :
      Placed backlog only items ⟨id, .str (epicKey e.epicId), .null⟩
  | story {s : Story} (hs : s ∈ backlog.stories) (id : Json) {up : Json}
      (hup : HasId items (epicKey s.epicId) up) :
      Placed backlog only items ⟨id, .str (storyKey s.key), up⟩
  | orphan {s : Story} (hs : s ∈ backlog.stories) (id : Json)
      (h : only ≠ "all" ∨ ∀ e ∈ backlog.epics, e.epicId ≠ s.epicId) :
      Placed backlog only items ⟨id, .str (storyKey s.key), .null⟩
  | task {s : Story} (hs : s ∈ backlog.stories) {i : ℕ} (hi : i < s.tasks.length) (id : Json)
      {up : Json} (hup : HasId items (storyKey s.key) up) :
      Placed backlog only items ⟨id, .str (taskKey s.key i), up⟩

theorem Placed.mono {backlog : Backlog} {only : String} {items items' : List Item} {item : Item}
    (h : ∀ item ∈ items, item ∈ items') (hitem : Placed backlog only items item) :
    Placed backlog only items' item := by
  cases hitem with
  | epic he id => exact .epic he id
  | story hs id hup => exact .story hs id (hup.mono h)
  | orphan hs id horphan => exact .orphan hs id horphan
  | task hs hi id hup => exact .task hs hi id (hup.mono h)

section Stages

variable {W : Type} {env : Env} {service : Service W} {old : List Item}
  {placed : List Item → Item → Prop} {backlog : Backlog} {only : String}

/-- In a run of all steps the epics are known. -/
def EpicsKnown (backlog : Backlog) (only : String) (s : Session W) : Prop :=
  only = "all" → ∀ e ∈ backlog.epics, s.st.Knows (epicKey e.epicId)

theorem EpicsKnown.grown {s t : Session W} (h : EpicsKnown backlog only s)
    (hgrown : Grown service s t) : EpicsKnown backlog only t :=
  fun hall e he ↦ hgrown.known _ (h hall e he)

/-- The contract of the steps behind the one for the epics. -/
def behindEpics (service : Service W) (old : List Item) (placed : List Item → Item → Prop)
    (backlog : Backlog) (only : String) : Contract (Session W) :=
  (provisioning service old placed).on fun s ↦
    Sound service old placed s ∧ EpicsKnown backlog only s

/-- An id of an item that is recorded is no blank one. -/
theorem Sound.under_of_lookup (hservice : service.Documented env) {s : Session W}
    (h : Sound service old placed s) {key : String} {up : Json}
    (hup : s.st.issues.lookup key = some up) :
    HasId (service.items s.board) key up ∧ Python.truthy up = true := by
  have hid := h.recorded key up hup
  obtain ⟨item, hitem, rfl, -⟩ := hid
  exact ⟨h.recorded key _ hup, hservice.ids _ item hitem⟩

theorem kept_ensureEpic (hservice : service.Documented env) (hpersistent : Persistent placed)
    (hplaced : ∀ items item, Placed backlog only items item → placed items item) {e : Epic}
    (he : e ∈ backlog.epics) :
    (provisioning service old placed).Kept (ensureEpic env service e) := by
  have hget (s : Session W) : (get : Effect W (Session W)) s = .ok s s := rfl
  refine Contract.kept_of_after fun s hs ↦ ?_
  rw [ensureEpic, after_bind_of_ok (hget s)]
  refine Contract.bind_at ?_ fun _ ↦ Contract.kept_pure _
  exact hs.createIssue hservice hpersistent _ fun items _ id ↦ hplaced _ _ (.epic he id)

theorem kept_ensureStory (hservice : service.Documented env) (hpersistent : Persistent placed)
    (hplaced : ∀ items item, Placed backlog only items item → placed items item) {story : Story}
    (hstory : story ∈ backlog.stories) :
    (behindEpics service old placed backlog only).Kept (ensureStory env service story) := by
  have hget (s : Session W) : (get : Effect W (Session W)) s = .ok s s := rfl
  refine Contract.kept_of_after fun s hs ↦ ?_
  rw [ensureStory, after_bind_of_ok (hget s)]
  refine Contract.bind_at ?_ fun _ ↦ Contract.kept_pure _
  have hcreate := hs.1.createIssue hservice hpersistent (storyIssue s.st story)
    fun items hitems id ↦ by
      refine hplaced _ _ ?_
      cases hlookup : s.st.issues.lookup (epicKey story.epicId) with
      | none =>
          have hunder : (storyIssue s.st story).under = .null := by
            simp [Issue.under, storyIssue, Python.get, hlookup, Python.truthy]
          rw [hunder]
          refine .orphan hstory id ?_
          by_cases hall : only = "all"
          · refine Or.inr fun e he hsame ↦ ?_
            have hknown := hs.2 hall e he
            rw [State.Knows, hsame, hlookup] at hknown
            cases hknown
          · exact Or.inl hall
      | some up =>
          obtain ⟨hup, htruthy⟩ := hs.1.under_of_lookup hservice hlookup
          have hunder : (storyIssue s.st story).under = up := by
            simp [Issue.under, storyIssue, Python.get, hlookup, htruthy]
          rw [hunder]
          exact .story hstory id (hup.mono hitems)
  exact ⟨⟨hcreate.1, hs.2.grown hcreate.2⟩, hcreate.2⟩

/-- The contract of the tasks of a story, which has an item. -/
def taskContract (service : Service W) (old : List Item) (placed : List Item → Item → Prop)
    (story : Story) (parent : Json) : Contract (Session W) :=
  (provisioning service old placed).on fun s ↦
    Sound service old placed s ∧ HasId (service.items s.board) (storyKey story.key) parent

theorem kept_ensureTask (hservice : service.Documented env) (hpersistent : Persistent placed)
    (hplaced : ∀ items item, Placed backlog only items item → placed items item) {story : Story}
    (hstory : story ∈ backlog.stories) {parent : Json} (n : ℕ) {entry : Task × ℕ}
    (hentry : entry ∈ story.tasks.zipIdx) :
    (taskContract service old placed story parent).Kept
      (ensureTask env service story parent n entry) := by
  have hget (s : Session W) : (get : Effect W (Session W)) s = .ok s s := rfl
  have hsave : (taskContract service old placed story parent).Kept (saveState service) :=
    (idle_provisioning hservice).save.on fun s t hgrown hup ↦ hup.mono hgrown.stays
  refine Contract.kept_of_after fun s hs ↦ ?_
  rw [ensureTask, after_bind_of_ok (hget s)]
  refine Contract.bind_at ?_ fun _ ↦ ?_
  · obtain ⟨item, hitem, hid, -⟩ := hs.2
    have htruthy : Python.truthy parent = true := hid ▸ hservice.ids _ item hitem
    have hunder : (taskIssue s.st story parent entry.2 entry.1).under = parent := if_pos htruthy
    have hplace : entry.2 < story.tasks.length := by
      obtain ⟨-, hlt, -⟩ := List.mem_zipIdx hentry
      simpa using hlt
    have hcreate := hs.1.createIssue hservice hpersistent
      (taskIssue s.st story parent entry.2 entry.1) fun items hitems id ↦ by
        rw [hunder]
        exact hplaced _ _ (.task hstory hplace id (hs.2.mono hitems))
    exact ⟨⟨hcreate.1, hs.2.mono hcreate.2.stays⟩, hcreate.2⟩
  · split_ifs
    · exact hsave.bind fun _ ↦ Contract.kept_pure _
    · exact (Contract.kept_pure _).bind fun _ ↦ Contract.kept_pure _

/-- The tasks of a story are seen to where the story has an item. -/
theorem kept_ensureTasksOf (hservice : service.Documented env) (hpersistent : Persistent placed)
    (hplaced : ∀ items item, Placed backlog only items item → placed items item) {story : Story}
    (hstory : story ∈ backlog.stories) (n : ℕ) :
    (provisioning service old placed).Kept (ensureTasksOf env service n story) := by
  have hget (s : Session W) : (get : Effect W (Session W)) s = .ok s s := rfl
  refine Contract.kept_of_after fun s hs ↦ ?_
  rw [ensureTasksOf, after_bind_of_ok (hget s)]
  dsimp only
  split_ifs with htruthy
  swap
  · exact ⟨hs, (provisioning service old placed).refl s⟩
  have hlookup : s.st.issues.lookup (storyKey story.key) =
      some (Python.get s.st.issues (storyKey story.key)) := by
    cases hfound : s.st.issues.lookup (storyKey story.key) with
    | none =>
        rw [Python.get, hfound] at htruthy
        cases htruthy
    | some up => rw [Python.get, hfound, Option.getD_some]
  have hkept : (taskContract service old placed story
      (Python.get s.st.issues (storyKey story.key))).Kept (story.tasks.zipIdx.foldlM
        (ensureTask env service story (Python.get s.st.issues (storyKey story.key))) n) :=
    Contract.obeyed_foldlM (q := fun _ ↦ True) (fun entry hentry n _ ↦
      kept_ensureTask hservice hpersistent hplaced hstory n hentry) trivial
  have hboth := And.intro hs (hs.recorded _ _ hlookup)
  exact ⟨(hkept.inv_after hboth).1, hkept.rel_after hboth⟩

/-! ## What a step has seen to when it comes to its end -/

theorem knows_ensureEpics (hservice : service.Documented env) (hpersistent : Persistent placed)
    (hplaced : ∀ items item, Placed backlog only items item → placed items item) {s t : Session W}
    (hs : Sound service old placed s) (h : ensureEpics env service backlog.epics s = .ok () t) :
    ∀ e ∈ backlog.epics, t.st.Knows (epicKey e.epicId) := by
  obtain ⟨_, u, hloop, hsave⟩ := bind_eq_ok_iff.mp h
  rw [(saveState_eq_ok hsave).1]
  refine @Contract.forM_settles _ _ _ (provisioning service old placed) s u _ backlog.epics
    (fun e u ↦ u.st.Knows (epicKey e.epicId)) (fun e he ↦
      kept_ensureEpic hservice hpersistent hplaced he) ?_ ?_ hs hloop
  · intro e he s hs t hrun
    obtain ⟨_, _, hget, hrest⟩ := bind_eq_ok_iff.mp hrun
    obtain ⟨iid, u, hcreate, hpure⟩ := bind_eq_ok_iff.mp hrest
    obtain ⟨-, rfl⟩ := EStateM.Result.ok.inj hpure
    exact knows_of_createIssue hcreate
  · exact fun e s t hgrown ↦ hgrown.known _

theorem knows_ensureStories (hservice : service.Documented env) (hpersistent : Persistent placed)
    (hplaced : ∀ items item, Placed backlog only items item → placed items item) {s t : Session W}
    (hs : (behindEpics service old placed backlog only).inv s)
    (h : ensureStories env service backlog.stories s = .ok () t) :
    ∀ story ∈ backlog.stories, t.st.Knows (storyKey story.key) := by
  obtain ⟨_, u, hloop, hsave⟩ := bind_eq_ok_iff.mp h
  rw [(saveState_eq_ok hsave).1]
  refine @Contract.forM_settles _ _ _ (behindEpics service old placed backlog only) s u _
    backlog.stories (fun story u ↦ u.st.Knows (storyKey story.key)) (fun story hstory ↦
      kept_ensureStory hservice hpersistent hplaced hstory) ?_ ?_ hs hloop
  · intro story hstory s hs t hrun
    obtain ⟨_, _, hget, hrest⟩ := bind_eq_ok_iff.mp hrun
    obtain ⟨iid, u, hcreate, hpure⟩ := bind_eq_ok_iff.mp hrest
    obtain ⟨-, rfl⟩ := EStateM.Result.ok.inj hpure
    exact knows_of_createIssue hcreate
  · exact fun story s t hgrown ↦ hgrown.known _

def TaskKnown (story : Story) (entry : Task × ℕ) (s : Session W) : Prop :=
  s.st.Knows (taskKey story.key entry.2)

def TasksKnown (story : Story) (s : Session W) : Prop :=
  ∀ entry ∈ story.tasks.zipIdx, TaskKnown story entry s

theorem knows_ensureTask {story : Story} {parent : Json} {n n' : ℕ} {entry : Task × ℕ}
    {s t : Session W} (h : ensureTask env service story parent n entry s = .ok n' t) :
    TaskKnown story entry t := by
  obtain ⟨_, _, hget, hrest⟩ := bind_eq_ok_iff.mp h
  obtain ⟨iid, u, hcreate, hlast⟩ := bind_eq_ok_iff.mp hrest
  have hnoted : u.st.Knows (taskKey story.key entry.2) := knows_of_createIssue hcreate
  dsimp only at hlast
  split_ifs at hlast
  · obtain ⟨_, v, hsave, hpure⟩ := bind_eq_ok_iff.mp hlast
    obtain ⟨-, rfl⟩ := EStateM.Result.ok.inj hpure
    rwa [TaskKnown, (saveState_eq_ok hsave).1]
  · obtain ⟨-, rfl⟩ := EStateM.Result.ok.inj hlast
    exact hnoted

theorem ensureTasksOf_of_lookup {story : Story} {s : Session W} {up : Json}
    (hup : s.st.issues.lookup (storyKey story.key) = some up) (htruthy : Python.truthy up = true)
    (n : ℕ) : ensureTasksOf env service n story s =
      story.tasks.zipIdx.foldlM (ensureTask env service story up) n s := by
  have hget : (get : Effect W (Session W)) s = .ok s s := rfl
  have hparent : Python.get s.st.issues (storyKey story.key) = up := by
    rw [Python.get, hup, Option.getD_some]
  rw [ensureTasksOf, bind_of_ok hget]
  simp only [hparent, htruthy, if_true]

theorem knows_ensureTasksOf (hservice : service.Documented env) (hpersistent : Persistent placed)
    (hplaced : ∀ items item, Placed backlog only items item → placed items item) {story : Story}
    (hstory : story ∈ backlog.stories) {s t : Session W} (hs : Sound service old placed s)
    (hknown : s.st.Knows (storyKey story.key)) {n n' : ℕ}
    (h : ensureTasksOf env service n story s = .ok n' t) : TasksKnown story t := by
  obtain ⟨up, hup⟩ := Option.isSome_iff_exists.mp hknown
  obtain ⟨hid, htruthy⟩ := hs.under_of_lookup hservice hup
  rw [ensureTasksOf_of_lookup hup htruthy] at h
  have hkept : ∀ entry ∈ story.tasks.zipIdx, ∀ n, (taskContract service old placed story up).Kept
      (ensureTask env service story up n entry) := fun entry hentry n ↦
    kept_ensureTask hservice hpersistent hplaced hstory n hentry
  have hinv : (taskContract service old placed story up).inv s := ⟨hs, hid⟩
  have hkeeps : ∀ (entry : Task × ℕ) (s t : Session W),
      (taskContract service old placed story up).rel s t → TaskKnown story entry s →
        TaskKnown story entry t := fun entry s t hgrown ↦ hgrown.known _
  exact Contract.foldlM_settles hkept (fun entry _ n s _ n' t hrun ↦ knows_ensureTask hrun) hkeeps
    hinv h

/-! ## A run -/

theorem kept_when {contract : Contract (Session W)} {m : Effect W Unit} (only step : String)
    (h : contract.Kept m) : contract.Kept (when only step m) := by
  rw [when]
  split_ifs
  · exact h
  · exact Contract.kept_pure _

theorem kept_ensureEpics (hservice : service.Documented env) (hpersistent : Persistent placed)
    (hplaced : ∀ items item, Placed backlog only items item → placed items item) :
    (provisioning service old placed).Kept (ensureEpics env service backlog.epics) :=
  (Contract.kept_forM fun _ he ↦ kept_ensureEpic hservice hpersistent hplaced he).bind fun _ ↦
    (idle_provisioning hservice).save

theorem kept_ensureStories (hservice : service.Documented env) (hpersistent : Persistent placed)
    (hplaced : ∀ items item, Placed backlog only items item → placed items item) :
    (behindEpics service old placed backlog only).Kept
      (ensureStories env service backlog.stories) :=
  (Contract.kept_forM fun _ hstory ↦
    kept_ensureStory hservice hpersistent hplaced hstory).bind fun _ ↦
      (idle_provisioning hservice).save.on fun _ _ hgrown hknown ↦ hknown.grown hgrown

theorem kept_ensureTasks (hservice : service.Documented env) (hpersistent : Persistent placed)
    (hplaced : ∀ items item, Placed backlog only items item → placed items item) :
    (provisioning service old placed).Kept (ensureTasks env service backlog.stories) := by
  have hloop : (provisioning service old placed).Kept
      (backlog.stories.foldlM (ensureTasksOf env service) 0) :=
    Contract.obeyed_foldlM (q := fun _ ↦ True) (fun story hstory n _ ↦
      kept_ensureTasksOf hservice hpersistent hplaced hstory n) trivial
  exact hloop.bind fun _ ↦ (idle_provisioning hservice).save

theorem kept_main (hservice : service.Documented env) (hpersistent : Persistent placed)
    (hplaced : ∀ items item, Placed backlog only items item → placed items item) :
    (provisioning service old placed).Kept (main env service backlog only) := by
  have hidle : Idle env service (provisioning service old placed) := idle_provisioning hservice
  have hepics : (provisioning service old placed).Kept (ensureEpics env service backlog.epics) :=
    kept_ensureEpics hservice hpersistent hplaced
  rw [main]
  refine (kept_when only "states" (hidle.ensureStates _)).bind fun _ ↦ ?_
  refine (kept_when only "labels" (hidle.ensureLabels _)).bind fun _ ↦ ?_
  refine (kept_when only "epics" hepics).bind_settled (EpicsKnown backlog only) ?_ ?_
  · intro s _ t hs hrun hall
    rw [when, if_pos (Or.inl hall)] at hrun
    exact knows_ensureEpics hservice hpersistent hplaced hs hrun
  · intro _
    refine (kept_when only "stories"
      (kept_ensureStories hservice hpersistent hplaced)).bind fun _ ↦ ?_
    exact (kept_when only "tasks" (kept_ensureTasks hservice hpersistent hplaced)).on
      fun _ _ hgrown hknown ↦ EpicsKnown.grown hknown hgrown

/-- The keys of all that a backlog plans. -/
def Backlog.keys (backlog : Backlog) : List String :=
  (backlog.epics.map fun e ↦ epicKey e.epicId) ++
    (backlog.stories.map fun story ↦ storyKey story.key) ++
      backlog.stories.flatMap fun story ↦
        story.tasks.zipIdx.map fun entry ↦ taskKey story.key entry.2

theorem mem_keys_iff {key : String} : key ∈ backlog.keys ↔
    (∃ e ∈ backlog.epics, epicKey e.epicId = key) ∨
      (∃ story ∈ backlog.stories, storyKey story.key = key) ∨
        ∃ story ∈ backlog.stories, ∃ entry ∈ story.tasks.zipIdx,
          taskKey story.key entry.2 = key := by
  simp only [Backlog.keys, List.mem_append, List.mem_map, List.mem_flatMap, or_assoc]

theorem knows_ensureTasks (hservice : service.Documented env) (hpersistent : Persistent placed)
    (hplaced : ∀ items item, Placed backlog only items item → placed items item) {s t : Session W}
    (hs : Sound service old placed s)
    (hstories : ∀ story ∈ backlog.stories, s.st.Knows (storyKey story.key))
    (h : ensureTasks env service backlog.stories s = .ok () t) :
    (∀ story ∈ backlog.stories, TasksKnown story t) ∧ t.file = .holds t.st := by
  obtain ⟨n, u, hloop, hsave⟩ := bind_eq_ok_iff.mp h
  obtain ⟨hst, hfile⟩ := saveState_eq_ok hsave
  refine ⟨?_, by rw [hfile, hst]⟩
  have hkept : ∀ story ∈ backlog.stories, ∀ n, ((provisioning service old placed).on fun s ↦
      Sound service old placed s ∧
        ∀ story ∈ backlog.stories, s.st.Knows (storyKey story.key)).Kept
          (ensureTasksOf env service n story) := fun story hstory n ↦
    (kept_ensureTasksOf hservice hpersistent hplaced hstory n).on
      fun s t hgrown hknown story hstory ↦ hgrown.known _ (hknown story hstory)
  have hkeeps : ∀ (story : Story) (s t : Session W), Grown service s t → TasksKnown story s →
      TasksKnown story t := fun story s t hgrown hknown entry hentry ↦
    hgrown.known _ (hknown entry hentry)
  have hsettled : ∀ story ∈ backlog.stories, TasksKnown story u :=
    Contract.foldlM_settles hkept (fun story hstory n s hs n' t hrun ↦
      knows_ensureTasksOf hservice hpersistent hplaced hstory hs.1 (hs.2 story hstory) hrun) hkeeps
      ⟨hs, hstories⟩ hloop
  intro story hstory entry hentry
  rw [TaskKnown, hst]
  exact hsettled story hstory entry hentry

/-- A run of all steps that comes to its end has seen to all keys, and has saved them. -/
theorem knows_main (hservice : service.Documented env) (hpersistent : Persistent placed)
    (hplaced : ∀ items item, Placed backlog "all" items item → placed items item) {s t : Session W}
    (hs : Sound service old placed s) (h : main env service backlog "all" s = .ok () t) :
    (∀ key ∈ backlog.keys, t.st.Knows key) ∧ t.file = .holds t.st := by
  have hidle : Idle env service (provisioning service old placed) := idle_provisioning hservice
  obtain ⟨_, s₁, hstates, h₁⟩ := bind_eq_ok_iff.mp h
  obtain ⟨_, s₂, hlabels, h₂⟩ := bind_eq_ok_iff.mp h₁
  obtain ⟨_, s₃, hepics, h₃⟩ := bind_eq_ok_iff.mp h₂
  obtain ⟨_, s₄, hstories, htasks⟩ := bind_eq_ok_iff.mp h₃
  rw [when, if_pos (Or.inl rfl)] at hstates hlabels hepics hstories htasks
  have hs₁ := ((hidle.ensureStates _).of_ok hs hstates).1
  have hs₂ := ((hidle.ensureLabels _).of_ok hs₁ hlabels).1
  have hs₃ : Sound service old placed s₃ :=
    ((kept_ensureEpics hservice hpersistent hplaced).of_ok hs₂ hepics).1
  have hepicsKnown := knows_ensureEpics hservice hpersistent hplaced hs₂ hepics
  have hbehind : (behindEpics service old placed backlog "all").inv s₃ :=
    ⟨hs₃, fun _ ↦ hepicsKnown⟩
  have hstoriesKnown := knows_ensureStories hservice hpersistent hplaced hbehind hstories
  obtain ⟨hs₄, hgrown₄⟩ :=
    (kept_ensureStories hservice hpersistent hplaced).of_ok hbehind hstories
  obtain ⟨-, hgrown⟩ : Sound service old placed t ∧ Grown service s₄ t :=
    (kept_ensureTasks hservice hpersistent hplaced).of_ok hs₄.1 htasks
  obtain ⟨htasksKnown, hfile⟩ :=
    knows_ensureTasks hservice hpersistent hplaced hs₄.1 hstoriesKnown htasks
  refine ⟨fun key hkey ↦ ?_, hfile⟩
  rcases mem_keys_iff.mp hkey with ⟨e, he, rfl⟩ | ⟨story, hstory, rfl⟩ |
    ⟨story, hstory, entry, hentry, rfl⟩
  · exact hgrown.known _ (hgrown₄.known _ (hepicsKnown e he))
  · exact hgrown.known _ (hstoriesKnown story hstory)
  · exact htasksKnown story hstory entry hentry

end Stages

/-! ## Runs -/

section Runs

variable {W : Type} {env : Env} {service : Service W}

/-- The session before the first run. -/
def Session.opened (board : W) (file : StateFile) : Session W := ⟨board, [], State.empty, file⟩

def PlacedBy (acts : List Act) (items : List Item) (item : Item) : Prop :=
  ∃ backlog only, Act.run backlog only ∈ acts ∧ Placed backlog only items item

theorem persistent_placedBy (acts : List Act) : Persistent (PlacedBy acts) := by
  rintro items items' h item ⟨backlog, only, hact, hplaced⟩
  exact ⟨backlog, only, hact, hplaced.mono h⟩

theorem recorded_empty (items : List Item) : Recorded items State.empty := by
  rintro key id ⟨⟩

theorem sound_opened (board : W) {file : StateFile}
    (hfile : ∀ st, file = .holds st → Recorded (service.items board) st)
    (placed : List Item → Item → Prop) :
    Sound service (service.items board) placed (Session.opened board file) where
  stays _ h := h
  placed _ h := Or.inl h
  single _ := le_max_right _ _
  recorded := recorded_empty _
  saved := hfile

variable {old : List Item} {placed : List Item → Item → Prop}

/-- Nothing is said of the requests that were sent. -/
theorem Sound.restarted {s : Session W} (h : Sound service old placed s) :
    Sound service old placed { s with sent := [] } :=
  ⟨h.stays, h.placed, h.single, h.recorded, h.saved⟩

theorem load_cases (s : Session W) :
    (s.file = .unreadable ∧ ∃ failure, load s = .error failure s) ∨
      ∃ st, load s = .ok () { s with st } ∧
        (s.file = .absent ∧ st = State.empty ∨ s.file = .holds st) := by
  obtain ⟨board, sent, st, file⟩ := s
  cases file with
  | absent => exact Or.inr ⟨_, rfl, Or.inl ⟨rfl, rfl⟩⟩
  | unreadable => exact Or.inl ⟨rfl, _, rfl⟩
  | holds saved => exact Or.inr ⟨saved, rfl, Or.inr rfl⟩

theorem sound_loaded {s t : Session W} (hs : Sound service old placed s) (h : load s = .ok () t) :
    Sound service old placed t := by
  rcases load_cases s with ⟨-, failure, hload⟩ | ⟨st, hload, hfile⟩
  · cases hload.symm.trans h
  · obtain ⟨-, rfl⟩ := EStateM.Result.ok.inj (hload.symm.trans h)
    refine ⟨hs.stays, hs.placed, hs.single, ?_, hs.saved⟩
    rcases hfile with ⟨-, rfl⟩ | hfile
    · exact recorded_empty _
    · exact hs.saved st hfile

theorem sound_step (hservice : service.Documented env) (hpersistent : Persistent placed) {act : Act}
    (hplaced : ∀ backlog only, act = .run backlog only →
      ∀ items item, Placed backlog only items item → placed items item) {s : Session W}
    (hs : Sound service old placed s) : Sound service old placed (s.step env service act) := by
  cases act with
  | lose =>
      refine ⟨hs.stays, hs.placed, hs.single, hs.recorded, ?_⟩
      rintro _ ⟨⟩
  | run backlog only =>
      rw [Session.step, program]
      rcases load_cases ({ s with sent := [] } : Session W) with ⟨-, failure, hload⟩ |
        ⟨st, hload, -⟩
      · rw [after_of_error (bind_of_error hload)]
        exact hs.restarted
      · rw [after_bind_of_ok hload]
        exact (kept_main hservice hpersistent (hplaced backlog only rfl)).inv_after
          (sound_loaded hs.restarted hload)

theorem sound_steps (hservice : service.Documented env) (hpersistent : Persistent placed)
    {acts : List Act} (hplaced : ∀ backlog only, .run backlog only ∈ acts →
      ∀ items item, Placed backlog only items item → placed items item) {s : Session W}
    (hs : Sound service old placed s) : Sound service old placed (s.steps env service acts) := by
  induction acts generalizing s with
  | nil => exact hs
  | cons act acts ih =>
      refine ih (fun backlog only hact ↦ hplaced backlog only (List.mem_cons_of_mem _ hact)) ?_
      refine sound_step hservice hpersistent (fun backlog only hact ↦ ?_) hs
      exact hplaced backlog only (hact ▸ List.mem_cons_self)

/-- Whatever runs there have been, wherever they have been stopped, and however often the state
file was lost: the items from before are still there, each new one is where a backlog of the runs
has it, below the item of its epic or story, no key has more than one item if it had not, and the
file holds the ids of the items of its keys. -/
theorem provision_sound (hservice : service.Documented env) (board : W) (file : StateFile)
    (hfile : ∀ st, file = .holds st → Recorded (service.items board) st) (acts : List Act) :
    Sound service (service.items board) (PlacedBy acts)
      ((Session.opened board file).steps env service acts) :=
  sound_steps hservice (persistent_placedBy acts)
    (fun backlog only hact _ _ hplaced ↦ ⟨backlog, only, hact, hplaced⟩)
    (sound_opened board hfile (PlacedBy acts))

/-! ## Runs after a complete one -/

/-- All keys are known, also in the file if it can be read. -/
structure Provisioned (backlog : Backlog) (s : Session W) : Prop where
  known : ∀ key ∈ backlog.keys, s.st.Knows key
  file : s.file = .unreadable ∨ ∃ st, s.file = .holds st ∧ ∀ key ∈ backlog.keys, st.Knows key

/-- No request is sent that would create an item. -/
def creatingNone (env : Env) (backlog : Backlog) : Contract (Session W) :=
  Contract.logging (Provisioned backlog) Session.sent fun request ↦ creation env request = none

variable {backlog : Backlog}

theorem idle_creatingNone : Idle env service (creatingNone env backlog) where
  send request hrequest := by
    refine Contract.kept_of_after fun s hs ↦ ⟨⟨hs.known, hs.file⟩, [request], rfl, ?_⟩
    exact fun entry hentry ↦ List.mem_singleton.mp hentry ▸ hrequest
  save := by
    refine Contract.kept_of_after fun s hs ↦ ?_
    obtain ⟨file, hafter, hfile⟩ := saveState_cases service s
    rw [hafter]
    refine ⟨⟨hs.known, ?_⟩, [], (List.append_nil _).symm, by simp⟩
    rcases hfile with rfl | rfl | rfl
    · exact hs.file
    · exact Or.inl rfl
    · exact Or.inr ⟨s.st, rfl, hs.known⟩
  set f hf := by
    refine Contract.kept_of_after fun s hs ↦ ⟨⟨fun key hkey ↦ ?_, hs.file⟩, [], ?_, by simp⟩
    · show ((f s.st).issues.lookup key).isSome = true
      rw [hf]
      exact hs.known key hkey
    · exact (List.append_nil _).symm

theorem creatingNone_createIssue {issue : Issue} (hkey : issue.key ∈ backlog.keys) :
    (creatingNone env backlog).Kept (createIssue env service issue) := by
  refine Contract.kept_of_after fun s hs ↦ ?_
  obtain ⟨iid, hrun⟩ := createIssue_of_known env service (hs.known _ hkey)
  rw [after_of_ok hrun]
  exact ⟨hs, (creatingNone env backlog).refl s⟩

theorem creatingNone_main (only : String) :
    (creatingNone env backlog).Kept (main env service backlog only) := by
  have hidle : Idle env service (creatingNone env backlog) := idle_creatingNone
  have hepics : (creatingNone env backlog).Kept (ensureEpics env service backlog.epics) := by
    refine (Contract.kept_forM fun e he ↦ ?_).bind fun _ ↦ hidle.save
    refine Contract.kept_get.bind fun s ↦ ?_
    refine (creatingNone_createIssue ?_).bind fun _ ↦ Contract.kept_pure _
    exact mem_keys_iff.mpr (Or.inl ⟨e, he, rfl⟩)
  have hstories : (creatingNone env backlog).Kept (ensureStories env service backlog.stories) := by
    refine (Contract.kept_forM fun story hstory ↦ ?_).bind fun _ ↦ hidle.save
    refine Contract.kept_get.bind fun s ↦ ?_
    refine (creatingNone_createIssue ?_).bind fun _ ↦ Contract.kept_pure _
    exact mem_keys_iff.mpr (Or.inr (Or.inl ⟨story, hstory, rfl⟩))
  have htask : ∀ story ∈ backlog.stories, ∀ parent n, ∀ entry ∈ story.tasks.zipIdx,
      (creatingNone env backlog).Kept (ensureTask env service story parent n entry) := by
    intro story hstory parent n entry hentry
    refine Contract.kept_get.bind fun s ↦ ?_
    refine (creatingNone_createIssue ?_).bind fun _ ↦ ?_
    · exact mem_keys_iff.mpr (Or.inr (Or.inr ⟨story, hstory, entry, hentry, rfl⟩))
    · split_ifs
      · exact hidle.save.bind fun _ ↦ Contract.kept_pure _
      · exact (Contract.kept_pure _).bind fun _ ↦ Contract.kept_pure _
  have htasks : (creatingNone env backlog).Kept (ensureTasks env service backlog.stories) := by
    have hloop : (creatingNone env backlog).Kept
        (backlog.stories.foldlM (ensureTasksOf env service) 0) := by
      refine Contract.obeyed_foldlM (q := fun _ ↦ True) (fun story hstory n _ ↦ ?_) trivial
      refine Contract.kept_get.bind fun s ↦ ?_
      dsimp only
      split_ifs
      · exact Contract.obeyed_foldlM (q := fun _ ↦ True) (fun entry hentry n _ ↦
          htask story hstory _ n entry hentry) trivial
      · exact Contract.kept_pure _
    exact hloop.bind fun _ ↦ hidle.save
  rw [main]
  refine (kept_when only "states" (hidle.ensureStates _)).bind fun _ ↦ ?_
  refine (kept_when only "labels" (hidle.ensureLabels _)).bind fun _ ↦ ?_
  refine (kept_when only "epics" hepics).bind fun _ ↦ ?_
  exact (kept_when only "stories" hstories).bind fun _ ↦ kept_when only "tasks" htasks

theorem provisioned_step {s : Session W} (hs : Provisioned backlog s) (only : String) :
    Provisioned backlog (s.step env service (.run backlog only)) ∧
      ∀ request ∈ (s.step env service (.run backlog only)).sent, creation env request = none := by
  rw [Session.step, program]
  rcases load_cases ({ s with sent := [] } : Session W) with ⟨-, failure, hload⟩ |
    ⟨st, hload, hfile⟩
  · rw [after_of_error (bind_of_error hload)]
    exact ⟨⟨hs.known, hs.file⟩, by simp⟩
  · rw [after_bind_of_ok hload]
    have hknown : ∀ key ∈ backlog.keys, st.Knows key := by
      rcases hs.file with hunreadable | ⟨saved, hsaved, hknown⟩
      · rcases hfile with ⟨habsent, -⟩ | hholds
        · cases habsent.symm.trans hunreadable
        · cases hholds.symm.trans hunreadable
      · rcases hfile with ⟨habsent, -⟩ | hholds
        · cases habsent.symm.trans hsaved
        · obtain rfl := StateFile.holds.inj (hholds.symm.trans hsaved)
          exact hknown
    have hstart : Provisioned backlog ({ s with sent := [], st } : Session W) := ⟨hknown, hs.file⟩
    have hkept : (creatingNone env backlog).Kept (main env service backlog only) :=
      creatingNone_main only
    obtain ⟨entries, hsent, hentries⟩ := hkept.rel_after hstart
    refine ⟨hkept.inv_after hstart, ?_⟩
    rw [hsent]
    simpa using hentries

/-- When a run of all steps comes to its end, behind whatever runs before it, each key of its
backlog has an item, and still one at most if it had not, its id is in the file, and no run for
the backlog that follows asks for another item. -/
theorem provision_completes (hservice : service.Documented env) (board : W) (file : StateFile)
    (hfile : ∀ st, file = .holds st → Recorded (service.items board) st) (acts : List Act)
    {t : Session W} (hrun : program env service backlog "all"
      { (Session.opened board file).steps env service acts with sent := [] } = .ok () t) :
    (∃ st, t.file = .holds st ∧ ∀ key ∈ backlog.keys,
      (∃ id, st.issues.lookup key = some id ∧ HasId (service.items t.board) key id) ∧
        itemsOf key (service.items t.board) ≤ max 1 (itemsOf key (service.items board))) ∧
    ∀ (onlys : List String) (only : String), ∀ request ∈
      ((t.steps env service (onlys.map (Act.run backlog))).step env service
        (.run backlog only)).sent, creation env request = none := by
  have hplaced : ∀ runs only, (.run runs only : Act) ∈ Act.run backlog "all" :: acts →
      ∀ items item, Placed runs only items item →
        PlacedBy (Act.run backlog "all" :: acts) items item :=
    fun runs only hact items item hitem ↦ ⟨runs, only, hact, hitem⟩
  have hpersistent := persistent_placedBy (Act.run backlog "all" :: acts)
  have hs := sound_steps hservice hpersistent
    (fun runs only hact ↦ hplaced runs only (List.mem_cons_of_mem _ hact)) (sound_opened board hfile _)
  obtain ⟨_, s₁, hload, hmain⟩ := bind_eq_ok_iff.mp hrun
  have hs₁ : Sound service (service.items board) (PlacedBy (Act.run backlog "all" :: acts)) s₁ :=
    sound_loaded hs.restarted hload
  have hall := hplaced backlog "all" List.mem_cons_self
  obtain ⟨hknown, hsaved⟩ := knows_main hservice hpersistent hall hs₁ hmain
  have ht := ((kept_main hservice hpersistent hall).of_ok hs₁ hmain).1
  refine ⟨⟨t.st, hsaved, fun key hkey ↦ ⟨?_, ht.single key⟩⟩, fun onlys only ↦ ?_⟩
  · obtain ⟨id, hid⟩ := Option.isSome_iff_exists.mp (hknown key hkey)
    exact ⟨id, hid, ht.recorded key id hid⟩
  · have hlater : Provisioned backlog (t.steps env service (onlys.map (Act.run backlog))) := by
      have hstart : Provisioned backlog t := ⟨hknown, Or.inr ⟨t.st, hsaved, hknown⟩⟩
      clear hrun hmain hsaved hknown ht
      induction onlys generalizing t with
      | nil => exact hstart
      | cons first onlys ih => exact ih (provisioned_step hstart first).1
    exact (provisioned_step hlater only).2

end Runs

/-! ## A sample -/

def sampleEnv : Env where
  repr _ := ""
  toFloat _ := .null
  decodeError _ := ""
  apiBase := "https://plane"
  pbase := "/p"
  patience := 1

/-- A board with room for one item, of which it keeps the external id and the parent. -/
def sampleAnswer (request : HttpRequest) (taken : Option (Json × Json)) :
    PlaneMcpServer.Response × Option (Json × Json) :=
  match creation sampleEnv request, taken with
  | none, taken => (.body 200 "[]", taken)
  | some body, none => (.body 201 "\x7b\"id\": \"W-1\"\x7d",
      some (Python.get body "external_id", Python.get body "parent"))
  | some body, some item =>
      if Python.get body "external_id" = item.1 then
        (.httpError 409 "\x7b\"id\": \"W-1\"\x7d", some item)
      else (.httpError 400 "Bad Request", some item)

def sampleItems (taken : Option (Json × Json)) : List Item :=
  taken.toList.map fun item ↦ ⟨.str "W-1", item.1, item.2⟩

def sampleService : Service (Option (Json × Json)) where
  answer := sampleAnswer
  save taken := (.done, taken)
  waits _ := 0
  items := sampleItems

def sampleBacklog : Backlog := ⟨⟨[], []⟩, [⟨"E1", "Audit"⟩], []⟩

theorem sampleAnswer_of_creation {request : HttpRequest} {body : List (String × Json)}
    (h : creation sampleEnv request = some body) (taken : Option (Json × Json)) :
    (taken = none ∧ sampleAnswer request taken = (.body 201 "\x7b\"id\": \"W-1\"\x7d",
        some (Python.get body "external_id", Python.get body "parent"))) ∨
      ∃ item, taken = some item ∧ (sampleAnswer request taken).2 = some item ∧
        (Python.get body "external_id" = item.1 ∧
            (sampleAnswer request taken).1 = .httpError 409 "\x7b\"id\": \"W-1\"\x7d" ∨
          Python.get body "external_id" ≠ item.1 ∧
            (sampleAnswer request taken).1 = .httpError 400 "Bad Request") := by
  cases taken with
  | none => exact Or.inl ⟨rfl, by simp only [sampleAnswer, h]⟩
  | some item =>
      refine Or.inr ⟨item, rfl, ?_⟩
      simp only [sampleAnswer, h]
      split_ifs with hsame
      · exact ⟨rfl, Or.inl ⟨hsame, rfl⟩⟩
      · exact ⟨rfl, Or.inr ⟨hsame, rfl⟩⟩

theorem adopted_sample (refusal : Failure) :
    adopted sampleEnv refusal (PlaneMcpServer.start 400 "\x7b\"id\": \"W-1\"\x7d") =
      .ok (.str "W-1") := by
  have hbraced : braced (PlaneMcpServer.start 400 "\x7b\"id\": \"W-1\"\x7d").toList =
      some "\x7b\"id\": \"W-1\"\x7d".toList := by decide +kernel
  have hloads : Json.loads sampleEnv.toFloat (String.ofList "\x7b\"id\": \"W-1\"\x7d".toList) =
      some (.obj [("id", .str "W-1")]) := by decide +kernel
  rw [adopted, hbraced]
  simp only [hloads]
  rfl

theorem documented_sampleService : sampleService.Documented sampleEnv where
  keeps request taken h := by
    show sampleItems (sampleAnswer request taken).2 = sampleItems taken
    simp only [sampleAnswer, h]
  creates request taken body h := by
    show sampleItems (sampleAnswer request taken).2 = sampleItems taken ∨
      (∀ item ∈ sampleItems taken, _) ∧ ∃ id, (sampleItems (sampleAnswer request taken).2).Perm _
    rcases sampleAnswer_of_creation h taken with ⟨rfl, hanswer⟩ | ⟨item, rfl, hsame, -⟩
    · rw [hanswer]
      exact Or.inr ⟨fun item hitem ↦ absurd hitem List.not_mem_nil, .str "W-1", .refl _⟩
    · exact Or.inl (by rw [hsame])
  answers request taken body key status raw value id h hkey hanswer hloads hid := by
    change (sampleAnswer request taken).1 = _ at hanswer
    show HasId (sampleItems (sampleAnswer request taken).2) key id
    rcases sampleAnswer_of_creation h taken with ⟨rfl, hnew⟩ | ⟨item, rfl, -, ⟨-, hrefused⟩ |
      ⟨-, hrefused⟩⟩
    · rw [hnew] at hanswer ⊢
      obtain ⟨-, rfl⟩ := PlaneMcpServer.Response.body.inj hanswer
      obtain rfl : Json.obj [("id", .str "W-1")] = value := by
        refine Option.some.inj (Eq.trans ?_ hloads)
        decide +kernel
      obtain rfl := Except.ok.inj hid
      exact ⟨_, List.mem_singleton_self _, rfl, hkey⟩
    · cases hanswer.symm.trans hrefused
    · cases hanswer.symm.trans hrefused
  conflicts request taken body key text h hkey hanswer := by
    change (sampleAnswer request taken).1 = _ at hanswer
    show text ≠ "" ∧ ∀ refusal id, _ → HasId (sampleItems (sampleAnswer request taken).2) key id
    rcases sampleAnswer_of_creation h taken with ⟨rfl, hnew⟩ | ⟨item, rfl, hsame, ⟨hext, hrefused⟩ |
      ⟨-, hrefused⟩⟩
    · rw [hnew] at hanswer
      cases hanswer
    · obtain ⟨-, rfl⟩ := PlaneMcpServer.Response.httpError.inj (hanswer.symm.trans hrefused)
      refine ⟨by decide, fun refusal id hid ↦ ?_⟩
      obtain rfl := Except.ok.inj ((adopted_sample refusal).symm.trans hid)
      rw [hsame]
      exact ⟨_, List.mem_singleton_self _, rfl, hext.symm.trans hkey⟩
    · obtain ⟨hcode, -⟩ := PlaneMcpServer.Response.httpError.inj (hanswer.symm.trans hrefused)
      exact absurd hcode (by decide)
  ids taken item hitem := by
    obtain ⟨_, -, rfl⟩ := List.mem_map.mp hitem
    rfl
  saves _ := rfl

/-- A run, one that has lost the file and adopts the item, and another run. -/
theorem provision_sound_sample :
    Sound sampleService (sampleService.items none)
      (PlacedBy [.run sampleBacklog "all", .lose, .run sampleBacklog "epics"])
      ((Session.opened none .absent).steps sampleEnv sampleService
        [.run sampleBacklog "all", .lose, .run sampleBacklog "epics"]) := by
  refine provision_sound documented_sampleService none .absent ?_ _
  rintro _ ⟨⟩

theorem sample_api_get (path : String) (s : Session (Option (Json × Json))) :
    api sampleEnv sampleService "GET" path none s =
      .ok (.arr []) (s.asked sampleService ⟨"GET", sampleEnv.apiBase ++ path, none⟩) := by
  have hget : (get : Effect _ (Session (Option (Json × Json)))) s = .ok s s := rfl
  rw [api, bind_of_ok hget, attempts, bind_of_ok (send_eq _ _)]
  rfl

theorem sample_ensureStates (s : Session (Option (Json × Json))) :
    ∃ t, ensureStates sampleEnv sampleService sampleBacklog.vocab s = .ok () t ∧
      t.board = s.board ∧ t.st = s.st := by
  have hpaged : paged sampleEnv sampleService (sampleEnv.pbase ++ "/states/") s = .ok []
      (s.asked sampleService ⟨"GET", sampleEnv.apiBase ++ (sampleEnv.pbase ++ "/states/"), none⟩) :=
    bind_of_ok (sample_api_get _ s)
  exact ⟨_, bind_of_ok (bind_of_ok hpaged), rfl, rfl⟩

theorem sample_ensureLabels (s : Session (Option (Json × Json))) :
    ∃ t, ensureLabels sampleEnv sampleService sampleBacklog.vocab s = .ok () t ∧
      t.board = s.board ∧ t.st = s.st := by
  have hpaged : paged sampleEnv sampleService (sampleEnv.pbase ++ "/labels/") s = .ok []
      (s.asked sampleService ⟨"GET", sampleEnv.apiBase ++ (sampleEnv.pbase ++ "/labels/"), none⟩) :=
    bind_of_ok (sample_api_get _ s)
  exact ⟨_, bind_of_ok (bind_of_ok hpaged), rfl, rfl⟩

theorem sample_ensureEpics {s : Session (Option (Json × Json))} (hboard : s.board = none)
    (hst : s.st = State.empty) :
    ∃ t, ensureEpics sampleEnv sampleService sampleBacklog.epics s = .ok () t := by
  obtain ⟨board, sent, st, file⟩ := s
  obtain rfl := hboard
  obtain rfl := hst
  set s : Session (Option (Json × Json)) := ⟨none, sent, State.empty, file⟩
  have hget : (get : Effect _ (Session (Option (Json × Json)))) s = .ok s s := rfl
  have hapi : api sampleEnv sampleService "POST" (sampleEnv.pbase ++ "/work-items/")
      (some (.obj (epicIssue State.empty ⟨"E1", "Audit"⟩).body)) s =
        .ok (.obj [("id", .str "W-1")]) (s.asked sampleService
          (issueRequest sampleEnv (epicIssue State.empty ⟨"E1", "Audit"⟩))) := by
    have hloads : Json.loads sampleEnv.toFloat "\x7b\"id\": \"W-1\"\x7d" =
        some (.obj [("id", .str "W-1")]) := by decide +kernel
    have hanswer : (sampleService.answer (issueRequest sampleEnv
        (epicIssue State.empty ⟨"E1", "Audit"⟩)) s.board).1 =
          .body 201 "\x7b\"id\": \"W-1\"\x7d" := rfl
    rw [api, bind_of_ok hget, attempts, bind_of_ok (send_eq _ _)]
    simp only [issueRequest] at hanswer
    simp only [hanswer, hloads]
    rfl
  have hpost : postIssue sampleEnv sampleService (epicIssue State.empty ⟨"E1", "Audit"⟩) s =
      .ok (.str "W-1") (s.asked sampleService
        (issueRequest sampleEnv (epicIssue State.empty ⟨"E1", "Audit"⟩))) :=
    tryCatch_of_ok (bind_of_ok hapi)
  have hcreate : ∃ t, createIssue sampleEnv sampleService (epicIssue State.empty ⟨"E1", "Audit"⟩) s =
      .ok (.str "W-1") t := by
    rw [createIssue_of_unknown rfl, bind_of_ok hpost]
    exact ⟨_, rfl⟩
  obtain ⟨t, ht⟩ := hcreate
  have hepic : ensureEpic sampleEnv sampleService ⟨"E1", "Audit"⟩ s = .ok () t := bind_of_ok ht
  exact ⟨_, bind_of_ok (bind_of_ok hepic)⟩

theorem provision_completes_sample : ∃ t,
    program sampleEnv sampleService sampleBacklog "all"
        { (Session.opened none .absent).steps sampleEnv sampleService [.lose] with sent := [] } =
      .ok () t ∧
    (∃ st, t.file = .holds st ∧ ∀ key ∈ sampleBacklog.keys,
      (∃ id, st.issues.lookup key = some id ∧ HasId (sampleService.items t.board) key id) ∧
        itemsOf key (sampleService.items t.board) ≤ max 1 (itemsOf key (sampleService.items none))) ∧
    ∀ (onlys : List String) (only : String), ∀ request ∈
      ((t.steps sampleEnv sampleService (onlys.map (Act.run sampleBacklog))).step sampleEnv
        sampleService (.run sampleBacklog only)).sent, creation sampleEnv request = none := by
  have hdone : ∃ t, program sampleEnv sampleService sampleBacklog "all"
      { (Session.opened none .absent).steps sampleEnv sampleService [.lose] with sent := [] } =
        .ok () t := by
    set s : Session (Option (Json × Json)) := ⟨none, [], State.empty, .absent⟩
    obtain ⟨t₁, hstates, hboard₁, hst₁⟩ := sample_ensureStates s
    obtain ⟨t₂, hlabels, hboard₂, hst₂⟩ := sample_ensureLabels t₁
    obtain ⟨t₃, hepics⟩ := sample_ensureEpics (hboard₂.trans hboard₁) (hst₂.trans hst₁)
    refine ⟨{ t₃ with file := .holds t₃.st }, ?_⟩
    show main sampleEnv sampleService sampleBacklog "all" s = _
    have hwhen (step : String) (m : Effect (Option (Json × Json)) Unit) : when "all" step m = m :=
      if_pos (Or.inl rfl)
    simp only [main, hwhen]
    rw [bind_of_ok hstates, bind_of_ok hlabels, bind_of_ok hepics]
    rfl
  obtain ⟨t, ht⟩ := hdone
  refine ⟨t, ht, provision_completes documented_sampleService none .absent ?_ [.lose] ht⟩
  rintro _ ⟨⟩

end AgenticSDLC.Provision
