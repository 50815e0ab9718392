import AgenticSDLC.Coverage.ProvenModels
import AgenticSDLC.Wiring.MarkFailed
import AgenticSDLC.Wiring.WiringIds

/-!
# The wiring tools before the merge gates

An item that `ingest_wiring_candidates` writes is in scope and unproven, and one that
`mark_wiring_failed` fails was unproven before.  Two gates read the model: the exit status of
`tools/coverage_gate.py`, and the policy that is its twin.  The tools can shut them and cannot open
them.  A model that cannot be loaded is refused.
-/

namespace AgenticSDLC.WiringGate

open Python (Exception)
open Runs (EachStep eachStep_cons)
open WiringChecker (analyze candidate emitWiringItems)
open WiringIngest

/-! ## The tools -/

inductive Act
  | ingest (run : Run)
  | mark (unreachable : List String) (written : Bool)

/-- The number of items that a call says it has written, and the file after it. -/
def Act.call (valid : Json → Bool) (file : Option Json) : Act → Except Exception ℕ × Option Json
  | .ingest run =>
      match analyze run.sourcePaths run.sources with
      | .error exc => (.error exc, file)
      | .ok analysis => ingestWiringCandidates valid (emitWiringItems analysis) run.written file
  | .mark unreachable written => markWiringFailed unreachable written file

def after (valid : Json → Bool) (file : Option Json) (acts : List Act) : Option Json :=
  acts.foldl (fun file act ↦ (act.call valid file).2) file

/-- The call says that it has written obligations. -/
def Adds (valid : Json → Bool) (file : Option Json) : Act → Prop
  | .ingest run => ∃ count, ((Act.ingest run).call valid file).1 = .ok (count + 1)
  | .mark _ _ => False

/-! ## The gates -/

/-- What `main` of the merge gate returns for the file. -/
def exitStatus (repr : Json → String) : Option Json → ℕ
  | none => 1
  | some content => if (CoverageGate.denyMerge repr content).deny then 1 else 0

/-- The policy denies nothing. -/
def Passes (quote : Json → String) : Option Json → Prop
  | none => False
  | some content => CoverageQuery.deny quote content = []

def Scoped (value : Json) : Prop :=
  ∃ item, value = .obj item ∧ Python.get item "in_scope" = .bool true

/-- Some item is in scope, and each that is has what a gate asks of it. -/
def AllSound (sound : List (String × Json) → Prop) (items : List Json) : Prop :=
  (∃ value ∈ items, Scoped value) ∧
    ∀ value ∈ items, ∀ item, value = .obj item → Python.get item "in_scope" = .bool true →
      sound item

/-- A gate that asks something of the items in scope, which none of those has that the tools
handle. -/
structure Guards (opened : Option Json → Prop) (sound : List (String × Json) → Prop) : Prop where
  reads : ∀ members items, Python.get members "items" = .arr items →
    (opened (some (.obj members)) ↔ AllSound sound items)
  unproven : ∀ item, Python.get item "status" = .str "unproven" → ¬sound item
  failed : ∀ item, Python.get item "status" = .str "failed" → ¬sound item

theorem exitStatus_eq_zero_iff (repr : Json → String) (content : Json) :
    exitStatus repr (some content) = 0 ↔ (CoverageGate.denyMerge repr content).deny = false := by
  rw [exitStatus]
  split_ifs with hdeny
  · simp [hdeny]
  · simpa using hdeny

theorem allSound_iff (sound : List (String × Json) → Prop) (items : List Json) :
    AllSound sound items ↔
      (∃ item, .obj item ∈ items ∧ Python.get item "in_scope" = .bool true) ∧
        ∀ item, .obj item ∈ items → Python.get item "in_scope" = .bool true → sound item := by
  refine and_congr ⟨?_, ?_⟩ ⟨?_, ?_⟩
  · rintro ⟨_, hmem, item, rfl, hscope⟩
    exact ⟨item, hmem, hscope⟩
  · intro ⟨item, hmem, hscope⟩
    exact ⟨_, hmem, item, rfl, hscope⟩
  · exact fun h item hmem ↦ h _ hmem item rfl
  · rintro h _ hmem item rfl
    exact h item hmem

theorem guards_exitStatus (repr : Json → String) :
    Guards (exitStatus repr · = 0) ProvenModels.ProvenItem where
  reads members items hitems := by
    rw [exitStatus_eq_zero_iff, ProvenModels.allowed_iff_of_arr repr hitems, allSound_iff]
  unproven item hstatus hsound := by
    have hproven := hstatus.symm.trans hsound.status
    exact absurd hproven (by decide)
  failed item hstatus hsound := by
    have hproven := hstatus.symm.trans hsound.status
    exact absurd hproven (by decide)

/-- What the policy has nothing against. -/
def PolicySound (item : List (String × Json)) : Prop :=
  ¬(MergeParity.SharedDefect item ∨ MergeParity.RegoOnlyDefect item)

theorem not_policySound {item : List (String × Json)} {status : String}
    (hstatus : Python.get item "status" = .str status) (hne : status ≠ "proven") :
    ¬PolicySound item := by
  refine not_not_intro (Or.inl (Or.inl ⟨.str status, ?_, fun h ↦ hne (Json.str.inj h)⟩))
  exact (Python.get_eq_iff_of_ne_null Json.noConfusion).mp hstatus

theorem guards_passes (quote : Json → String) : Guards (Passes quote) PolicySound where
  reads members items hitems := by
    have href : Rego.ref (some (.obj members)) "items" = some (.arr items) :=
      (Rego.ref_obj _ _).trans ((Python.get_eq_iff_of_ne_null Json.noConfusion).mp hitems)
    have hscope (item : List (String × Json)) : item ∈ MergeParity.inScope (.obj members) ↔
        .obj item ∈ items ∧ Python.get item "in_scope" = .bool true := by
      rw [MergeParity.mem_inScope_of_arr href, List.mem_filter, CoverageGate.isInScope,
        decide_eq_true_iff]
    have hdeny := not_congr (MergeParity.deny_iff quote (.obj members))
    rw [ne_eq, not_not] at hdeny
    rw [Passes, hdeny, MergeParity.SharedDenial, MergeParity.RegoOnlyDenial, or_assoc, ← exists_or,
      not_or, List.eq_nil_iff_forall_not_mem, allSound_iff]
    simp only [← and_or_left, hscope, not_forall, not_not, not_exists, not_and, and_imp, exists_prop,
      PolicySound]
  unproven item hstatus := not_policySound hstatus (by decide)
  failed item hstatus := not_policySound hstatus (by decide)

/-! ## One call -/

section Call

variable {valid : Json → Bool} {file : Option Json} {opened : Option Json → Prop}
  {sound : List (String × Json) → Prop}

theorem exists_of_loadModel {members : List (String × Json)} {items : List Json}
    (h : loadModel file = some (members, items)) :
    file = some (.obj members) ∧ Python.get members "items" = .arr items := by
  match file, h with
  | some (.obj content), h =>
      rw [loadModel] at h
      cases hitems : Python.get content "items" with
      | arr held =>
          rw [hitems] at h
          obtain ⟨rfl, rfl⟩ := Prod.mk.inj (Option.some.inj h)
          exact ⟨rfl, hitems⟩
      | _ =>
          rw [hitems] at h
          cases h

theorem Guards.opened_iff (hguards : Guards opened sound) {members : List (String × Json)}
    {items : List Json} (h : loadModel file = some (members, items)) :
    opened file ↔ AllSound sound items := by
  obtain ⟨rfl, hitems⟩ := exists_of_loadModel h
  exact hguards.reads members items hitems

theorem get_setFailed (members : List (String × Json)) (key : String) :
    Python.get (Dict.set "status" (.str "failed") members) key =
      if key = "status" then .str "failed" else Python.get members key := by
  rw [Python.get, Python.get, Dict.lookup_set]
  split_ifs <;> rfl

/-- A marked item is in scope if it was, and no better than it was. -/
theorem Guards.marked (hguards : Guards opened sound) {unreachable : List String} {value value' : Json}
    (h : Marked unreachable value value') : (Scoped value ↔ Scoped value') ∧
      ((∀ item, value = .obj item → Python.get item "in_scope" = .bool true → sound item) ↔
        ∀ item, value' = .obj item → Python.get item "in_scope" = .bool true → sound item) := by
  rcases h with rfl | ⟨⟨members, fields, rfl, htype, hstatus, -⟩, rfl⟩
  · exact ⟨Iff.rfl, Iff.rfl⟩
  have hscope : Python.get (Dict.set "status" (.str "failed") members) "in_scope" =
      Python.get members "in_scope" := (get_setFailed members _).trans (if_neg (by decide))
  have hfailed : Python.get (Dict.set "status" (.str "failed") members) "status" = .str "failed" :=
    (get_setFailed members _).trans (if_pos rfl)
  simp only [Scoped, setFailed, Json.obj.injEq, exists_eq_left', forall_eq', hscope]
  refine ⟨trivial, forall_congr' fun _ ↦ ?_⟩
  exact iff_of_false (hguards.unproven _ hstatus) (hguards.failed _ hfailed)

theorem Guards.all_marked (hguards : Guards opened sound) {unreachable : List String}
    {items items' : List Json} (h : List.Forall₂ (Marked unreachable) items items') :
    AllSound sound items ↔ AllSound sound items' := by
  rw [AllSound, AllSound]
  refine and_congr ?_ ?_
  · induction h with
    | nil => exact Iff.rfl
    | cons hmarked _ ih =>
        rw [List.exists_mem_cons_iff, List.exists_mem_cons_iff, (hguards.marked hmarked).1, ih]
  · induction h with
    | nil => exact Iff.rfl
    | cons hmarked _ ih =>
        rw [List.forall_mem_cons, List.forall_mem_cons, (hguards.marked hmarked).2, ih]

theorem Guards.mark (hguards : Guards opened sound) (unreachable : List String) (written : Bool) :
    opened (markWiringFailed unreachable written file).2 ↔ opened file := by
  rw [markWiringFailed]
  by_cases hnames : unreachable = []
  · rw [if_pos hnames]
  rw [if_neg hnames]
  cases hmodel : loadModel file with
  | none => exact Iff.rfl
  | some model =>
      obtain ⟨members, items⟩ := model
      cases hrounds : items.mapM (flip unreachable) with
      | error exc => simp only [hrounds]
      | ok rounds =>
          simp only [hrounds]
          split_ifs
          · exact Iff.rfl
          · rw [hguards.opened_iff (loadModel_set members _), hguards.opened_iff hmodel]
            exact (hguards.all_marked (rounds_spec hrounds).1).symm
          · exact Iff.rfl

/-- A call counts what it appends, and appends nothing where it counts nothing. -/
theorem call_ingest (valid : Json → Bool) (file : Option Json) (run : Run) :
    (∃ members items symbols, Appends valid file run members items symbols ∧
      (Act.ingest run).call valid file =
        (.ok symbols.length, some (extend members items (symbols.map entryItem)))) ∨
      ¬Adds valid file (.ingest run) ∧ ((Act.ingest run).call valid file).2 = file := by
  rw [Adds, Act.call]
  cases hanalysis : analyze run.sourcePaths run.sources with
  | error exc => exact Or.inr ⟨by simp, rfl⟩
  | ok analysis =>
      simp only
      rw [ingestWiringCandidates]
      by_cases hcandidates : emitWiringItems analysis = []
      · rw [if_pos hcandidates]
        exact Or.inr ⟨by simp, rfl⟩
      rw [if_neg hcandidates]
      cases hmodel : loadModel file with
      | none => exact Or.inr ⟨by simp, rfl⟩
      | some model =>
          obtain ⟨members, items⟩ := model
          cases hselect : selectNewCandidates (emitWiringItems analysis) items with
          | error exc =>
              simp only [hselect]
              exact Or.inr ⟨by simp, trivial⟩
          | ok appended =>
              obtain ⟨quals, hquals, hrest⟩ := Outcome.bind_eq_ok_iff.mp hselect
              obtain ⟨ids, hids, -⟩ := Outcome.bind_eq_ok_iff.mp hrest
              have happended := hselect.symm.trans (selectNewCandidates_emit hquals hids analysis)
              obtain rfl := Except.ok.inj happended
              simp only [hselect]
              split_ifs with hnil hinvalid hwritten
              · exact Or.inr ⟨by simp, rfl⟩
              · exact Or.inr ⟨by simp, rfl⟩
              · refine Or.inl ⟨members, items, _, ⟨hmodel, ⟨analysis, quals, ids, hanalysis, hquals,
                  hids, rfl⟩, ?_, ?_, hwritten⟩, ?_⟩
                · rwa [List.map_eq_nil_iff] at hnil
                · simpa using hinvalid
                · rw [List.length_map]
              · exact Or.inr ⟨by simp, rfl⟩

/-- One of the obligations that have been appended shuts the gate. -/
theorem Guards.appends (hguards : Guards opened sound) {run : Run} {members : List (String × Json)}
    {items : List Json} {symbols : List (WiringChecker.WiringItem × ℕ)}
    (h : Appends valid file run members items symbols) :
    ¬opened (some (extend members items (symbols.map entryItem))) := by
  rw [hguards.opened_iff (loadModel_extend members items _)]
  rintro ⟨-, hall⟩
  obtain ⟨symbol, hsymbol⟩ := List.exists_mem_of_ne_nil symbols h.nonempty
  refine hguards.unproven (candidate symbol.2 symbol.1) rfl (hall (entryItem symbol) ?_ _ rfl rfl)
  exact List.mem_append_right _ (List.mem_map_of_mem hsymbol)

/-- A call leaves the gate open that was open, unless it adds obligations, and opens none. -/
theorem Guards.call (hguards : Guards opened sound) (act : Act) :
    opened (act.call valid file).2 ↔ opened file ∧ ¬Adds valid file act := by
  cases act with
  | mark unreachable written => exact (hguards.mark unreachable written).trans (by simp [Adds])
  | ingest run =>
      rcases call_ingest valid file run with ⟨members, items, symbols, happends, hcall⟩ |
        ⟨hnone, hsame⟩
      · rw [hcall]
        refine iff_of_false (hguards.appends happends) fun h ↦ h.2 ?_
        obtain ⟨symbol, rest, rfl⟩ := List.exists_cons_of_ne_nil happends.nonempty
        exact ⟨rest.length, congrArg Prod.fst hcall⟩
      · rw [hsame]
        exact (and_iff_left hnone).symm

end Call

/-! ## Runs -/

theorem Guards.run {opened : Option Json → Prop} {sound : List (String × Json) → Prop}
    (hguards : Guards opened sound) (valid : Json → Bool) (file : Option Json) (acts : List Act) :
    opened (after valid file acts) ↔ opened file ∧
      EachStep (fun before act ↦ ¬Adds valid (after valid file before) act) acts := by
  induction acts generalizing file with
  | nil => simp [after]
  | cons act acts ih =>
      rw [eachStep_cons, ← and_assoc]
      refine (ih (act.call valid file).2).trans (and_congr_left fun _ ↦ ?_)
      exact hguards.call act

/-- In whatever order the tools are called, and whatever their calls come to, the merge gate and
its twin allow the model after the run just when they allowed it before and no call of the run
has added an obligation. -/
theorem merge_allowed_iff (valid : Json → Bool) (repr quote : Json → String) (file : Option Json)
    (acts : List Act) :
    (exitStatus repr (after valid file acts) = 0 ↔ exitStatus repr file = 0 ∧
      EachStep (fun before act ↦ ¬Adds valid (after valid file before) act) acts) ∧
    (Passes quote (after valid file acts) ↔ Passes quote file ∧
      EachStep (fun before act ↦ ¬Adds valid (after valid file before) act) acts) :=
  ⟨(guards_exitStatus repr).run valid file acts, (guards_passes quote).run valid file acts⟩

end AgenticSDLC.WiringGate
