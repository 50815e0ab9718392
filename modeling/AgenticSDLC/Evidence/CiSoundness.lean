import AgenticSDLC.Evidence.CiEvidenceCheck

/-!
# What an exit code of zero means

Two readings of a passing evidence check.  The first is about delivery: with a
baseline that requires items, a pass should mean that each of them was
re-verified.  The second is about binding: a pass should mean that each item's
hash is the hash of the artifact the item itself names.  Each holds on the
inputs outside one branch of the code, which the theorems describe exactly.
-/

namespace AgenticSDLC.CiEvidenceCheck

open Python (Exception Stdlib Key)
open EvidenceGate (Artifacts ItemAccepted)

/-! ## Sample inputs -/

/-- The baseline file is an object whose `required_in_scope` is `required`. -/
def Requires (inputs : Inputs) (fields : List (String × Json)) (required : List Json) : Prop :=
  (∃ path, inputs.baseline = some (path, .document (.obj fields))) ∧
    Python.get fields "required_in_scope" = .arr required

/-- The library on the one artifact and the one timestamp of the samples. -/
def sampleLibrary : Stdlib where
  repr := fun _ ↦ "None"
  sha256 := fun text ↦
    if text = "PASS" then "2f9acb02faa121bb2a3621951f57b4c690655337edee2e5ac350be2b3be88ea8"
    else ""
  fromisoformat := fun text ↦ if text = "2026-01-05T10:00:00+00:00" then some true else none

/-- A proven item `F1` whose evidence claims the digest of `PASS`. -/
def sampleItem (testFile : String) : Json :=
  .obj [("id", .str "F1"), ("in_scope", .bool true), ("status", .str "proven"),
    ("evidence", .obj [("test_file", .str testFile), ("test_name", .str "login"),
      ("output_hash",
        .str "sha256:2f9acb02faa121bb2a3621951f57b4c690655337edee2e5ac350be2b3be88ea8"),
      ("collected_at", .str "2026-01-05T10:00:00+00:00"),
      ("verifier_session_id", .str "v1"), ("implementer_session_id", .str "i1")])]

/-- A checkout with `items` as its model, the one artifact `login.txt`, and a
baseline outside of it that requires `F1`. -/
def sampleInputs (items : List Json) (ledger : JsonFile) : Inputs where
  cwd := ResolvedPath.root.resolve "/home/runner/work"
  githubWorkspace := some "/home/runner/work"
  featureList := .document (.obj [("items", .arr items)])
  artifactsDir := "artifacts"
  ledger := ledger
  baseline := some ("/home/runner/temp/coverage_baseline.json",
    .document (.obj [("required_in_scope", .arr [.str "F1"])]))
  files := fun path ↦
    if path.names = ["home", "runner", "work", "artifacts", "login.txt"] then some "PASS"
    else none

def sampleLedger : JsonFile :=
  .document (.obj [("sessions", .arr [.str "v1", .str "i1"])])

theorem sample_requires (items : List Json) (ledger : JsonFile) :
    Requires (sampleInputs items ledger) [("required_in_scope", .arr [.str "F1"])] [.str "F1"] :=
  ⟨⟨_, rfl⟩, rfl⟩

variable (py : Stdlib)

/-! ## Delivery -/

/-- Each required id, compared by `str` as the baseline gate compares it, belongs
to an in-scope proven item that the evidence gate accepts against the ledger. -/
def Delivered (inputs : Inputs) (required : List Json) : Prop :=
  ∃ model items ledger artifacts, inputs.featureList = .document (.obj model) ∧
    Python.getD model "items" (.arr []) = .arr items ∧
      inputs.ledger = .document ledger ∧
        collectArtifacts inputs (.obj model) = .ok artifacts ∧
          ∀ rid ∈ required, ∃ item, .obj item ∈ items ∧
            Python.str py.repr (Python.get item "id") = Python.str py.repr rid ∧
              Python.truthy (Python.get item "in_scope") = true ∧
                ItemAccepted py ledger artifacts item

/-- The run never gets to the question whether the ledger file is there. -/
def StopsBeforeLedger (inputs : Inputs) (baseline : Json) : Prop :=
  inputs.baselineInWorkspace = true ∨
    ∀ model, inputs.featureList.loadOrNone = .ok model →
      (BaselineGate.baselineGate py.repr baseline model).deny = true

theorem loadOrNone_eq_obj {file : JsonFile} {members : List (String × Json)}
    (h : file.loadOrNone = .ok (.obj members)) : file = .document (.obj members) := by
  cases file with
  | absent => cases h
  | unreadable exc => cases h
  | document value => rw [Except.ok.inj h]

section Delivery

variable {inputs : Inputs} {fields : List (String × Json)} {required : List Json}

theorem loadBaseline_of_requires (h : Requires inputs fields required) :
    inputs.loadBaseline = .ok (.obj fields) := by
  obtain ⟨⟨path, hpath⟩, -⟩ := h
  simp [Inputs.loadBaseline, hpath, JsonFile.loadOrNone]

theorem delivered_of_reverified (hrequires : Requires inputs fields required)
    (hne : required ≠ []) {model : Json} (hmodel : inputs.featureList.loadOrNone = .ok model)
    (hallowed : (BaselineGate.baselineGate py.repr (.obj fields) model).deny = false)
    (hverified : Reverified py inputs model) : Delivered py inputs required := by
  obtain ⟨members, scanned, rfl, hscanned, hids⟩ :=
    BaselineGate.exists_inScope_of_allowed py.repr hrequires.2 hne hallowed
  obtain ⟨ledger, artifacts, hledger, hartifacts, haccepted⟩ := hverified
  obtain ⟨members', items, hobj, hitems, hall⟩ :=
    EvidenceGate.checkModel_accepted py haccepted
  obtain rfl := Json.obj.inj hobj
  have hsame : scanned = items := by
    rw [hitems] at hscanned
    exact (Except.ok.inj hscanned).symm
  refine ⟨members, items, ledger, artifacts, loadOrNone_eq_obj hmodel, hitems, hledger,
    hartifacts, fun rid hrid ↦ ?_⟩
  obtain ⟨item, hmem, hid, hscope⟩ := hids rid hrid
  exact ⟨item, hsame ▸ hmem, hid, hscope, hall item (hsame ▸ hmem) hscope⟩

/-- With a delivery expected, a pass means delivery exactly when the ledger file
is there or something stops the run before the ledger is looked for. -/
theorem pass_delivers_iff (hrequires : Requires inputs fields required) (hne : required ≠ []) :
    (run py inputs = .ok 0 → Delivered py inputs required) ↔
      inputs.ledger ≠ .absent ∨ StopsBeforeLedger py inputs (.obj fields) := by
  have hbaseline := loadBaseline_of_requires hrequires
  constructor
  · intro hpass
    by_contra hcontra
    simp only [StopsBeforeLedger, not_or, not_not, not_forall, Bool.not_eq_true] at hcontra
    obtain ⟨habsent, hworkspace, model, hmodel, hallowed⟩ := hcontra
    have hzero : run py inputs = .ok 0 := (run_eq_zero_iff py inputs).mpr
      ⟨hworkspace, .obj fields, model, hbaseline, hmodel, hallowed, Or.inr (Or.inl habsent)⟩
    obtain ⟨_, _, ledger, _, _, _, hledger, -⟩ := hpass hzero
    rw [habsent] at hledger
    cases hledger
  · intro hcond hzero
    obtain ⟨hworkspace, baseline, model, hload, hmodel, hallowed, hcase⟩ :=
      (run_eq_zero_iff py inputs).mp hzero
    obtain rfl : baseline = .obj fields := Except.ok.inj (hload.symm.trans hbaseline)
    have hpresent : inputs.ledger ≠ .absent := by
      rcases hcond with hpresent | hstop | hdenied
      · exact hpresent
      · rw [hworkspace] at hstop
        cases hstop
      · rw [hdenied model hmodel] at hallowed
        cases hallowed
    rcases hcase with rfl | habsent | hverified
    · -- A baseline that requires items never allows an absent model.
      obtain ⟨_, _, hobj, -⟩ :=
        BaselineGate.exists_inScope_of_allowed py.repr hrequires.2 hne hallowed
      cases hobj
    · exact absurd habsent hpresent
    · exact delivered_of_reverified py hrequires hne hmodel hallowed hverified

end Delivery

/-- Nothing is proven, the ledger is absent, and the run still passes. -/
theorem ledgerless_pass :
    run sampleLibrary (sampleInputs
        [.obj [("id", .str "F1"), ("in_scope", .bool true)]] .absent) = .ok 0 ∧
      ¬Delivered sampleLibrary (sampleInputs
        [.obj [("id", .str "F1"), ("in_scope", .bool true)]] .absent) [.str "F1"] := by
  refine ⟨rfl, ?_⟩
  rintro ⟨_, _, _, _, _, _, hledger, -⟩
  cases hledger

theorem pass_delivers_sample :
    (run sampleLibrary (sampleInputs [sampleItem "login.txt"] sampleLedger) = .ok 0 →
        Delivered sampleLibrary (sampleInputs [sampleItem "login.txt"] sampleLedger)
          [.str "F1"]) ↔
      (sampleInputs [sampleItem "login.txt"] sampleLedger).ledger ≠ .absent ∨
        StopsBeforeLedger sampleLibrary (sampleInputs [sampleItem "login.txt"] sampleLedger)
          (.obj [("required_in_scope", .arr [.str "F1"])]) :=
  pass_delivers_iff sampleLibrary (sample_requires _ _) (by simp)

/-! ## Binding -/

/-- `testFile` names a file with the text `text` inside the artifacts directory. -/
def Names (inputs : Inputs) (testFile text : String) : Prop :=
  testFile ≠ "" ∧
    (inputs.artifactPath testFile).isWithin (inputs.cwd.resolve inputs.artifactsDir) = true ∧
      inputs.files (inputs.artifactPath testFile) = some text

/-- The item's hash is the hash of the artifact its own `test_file` names. -/
def OwnBound (inputs : Inputs) (item : List (String × Json)) : Prop :=
  ∃ ev testFile text, Python.get item "evidence" = .obj ev ∧
    Python.get ev "test_file" = .str testFile ∧ Names inputs testFile text ∧
      Python.get ev "output_hash" = .str ("sha256:" ++ py.sha256 text)

def SameDigest (inputs : Inputs) (item other : Json) : Prop :=
  ∃ text text', inputs.ownArtifact item = .ok (some text) ∧
    inputs.ownArtifact other = .ok (some text') ∧ py.sha256 text = py.sha256 text'

/-- No in-scope item is judged by the artifact of a later item with an equal id,
unless the two artifacts have one digest. -/
def NoForeignArtifact (inputs : Inputs) (items : List Json) : Prop :=
  ∀ item, .obj item ∈ items → Python.truthy (Python.get item "in_scope") = true →
    ∀ key last, Python.hashKey (Python.get item "id") = .ok key →
      lastWithId items key = some last →
        last = .obj item ∨ SameDigest py inputs (.obj item) last

section Binding

variable {inputs : Inputs}

theorem testFile_iff {evidence : Json} {ev : List (String × Json)}
    (hev : Inputs.evidenceOrEmpty evidence = .ok ev) (testFile : String) :
    Python.get ev "test_file" = .str testFile ↔
      ∃ ev', evidence = .obj ev' ∧ Python.get ev' "test_file" = .str testFile := by
  unfold Inputs.evidenceOrEmpty at hev
  split_ifs at hev with htruthy
  · cases evidence with
    | obj members =>
        obtain rfl := Except.ok.inj hev
        simp
    | _ => cases hev
  · obtain rfl := Except.ok.inj hev
    cases evidence with
    | obj members =>
        have hnil : members = [] := by simpa [Python.truthy] using htruthy
        simp [hnil]
    | _ => simp [Python.get]

/-- The artifact that was read for an item is the one its own evidence names. -/
theorem ownArtifact_eq_some_iff {item : List (String × Json)} {artifact : Option String}
    (hread : inputs.ownArtifact (.obj item) = .ok artifact) (text : String) :
    artifact = some text ↔
      ∃ ev testFile, Python.get item "evidence" = .obj ev ∧
        Python.get ev "test_file" = .str testFile ∧ Names inputs testFile text := by
  obtain ⟨fields, hfields, hread⟩ := Outcome.bind_eq_ok_iff.mp hread
  obtain rfl := Except.ok.inj hfields
  obtain ⟨ev, hev, hread⟩ := Outcome.bind_eq_ok_iff.mp hread
  have hname : (∃ ev testFile, Python.get item "evidence" = .obj ev ∧
      Python.get ev "test_file" = .str testFile ∧ Names inputs testFile text) ↔
        ∃ testFile, Python.get ev "test_file" = .str testFile ∧ Names inputs testFile text := by
    simp only [testFile_iff hev]
    tauto
  rw [hname]
  dsimp only at hread
  split_ifs at hread with htruthy
  · cases htest : Python.get ev "test_file" with
    | str testFile =>
        rw [htest] at hread htruthy
        have hne : testFile ≠ "" := by simpa [Python.truthy] using htruthy
        simp only [Inputs.safeReadArtifact] at hread
        split_ifs at hread with hnul hwithin
        · rw [← Except.ok.inj hread]
          simp [Names, hne, hwithin]
        · rw [← Except.ok.inj hread]
          simp [Names, hwithin]
    | _ =>
        rw [htest] at hread
        cases hread
  · rw [← Except.ok.inj hread]
    constructor
    · intro h
      cases h
    · rintro ⟨testFile, htest, hne, -⟩
      simp [htest, Python.truthy, hne] at htruthy

theorem ownBound_iff {item : List (String × Json)} {artifact : Option String}
    (hread : inputs.ownArtifact (.obj item) = .ok artifact) {ev : List (String × Json)}
    (hev : Python.get item "evidence" = .obj ev) {judged : String}
    (hhash : Python.get ev "output_hash" = .str (EvidenceGate.rederive py judged)) :
    OwnBound py inputs item ↔
      ∃ text, artifact = some text ∧ py.sha256 text = py.sha256 judged := by
  constructor
  · rintro ⟨ev', testFile, text, hev', htest, hnames, hbound⟩
    refine ⟨text, (ownArtifact_eq_some_iff hread text).mpr ⟨ev', testFile, hev', htest, hnames⟩, ?_⟩
    obtain rfl := Json.obj.inj (hev.symm.trans hev')
    have heq := Json.str.inj (hbound.symm.trans hhash)
    exact String.append_right_inj _ |>.mp heq
  · rintro ⟨text, htext, hdigest⟩
    obtain ⟨ev', testFile, hev', htest, hnames⟩ := (ownArtifact_eq_some_iff hread text).mp htext
    obtain rfl := Json.obj.inj (hev.symm.trans hev')
    exact ⟨ev, testFile, text, hev, htest, hnames, by rw [hhash, EvidenceGate.rederive, hdigest]⟩

/-- What a pass over a present model says of an in-scope item: it was judged by
the artifact of the last item with its id, and that artifact has its hash. -/
theorem judged_of_reverified {model : List (String × Json)} {items : List Json}
    (hitems : Python.getD model "items" (.arr []) = .arr items)
    (hverified : Reverified py inputs (.obj model)) {item : List (String × Json)}
    (hmem : .obj item ∈ items) (hscope : Python.truthy (Python.get item "in_scope") = true) :
    ∃ artifact key last judged ev, inputs.ownArtifact (.obj item) = .ok artifact ∧
      Python.hashKey (Python.get item "id") = .ok key ∧ lastWithId items key = some last ∧
        inputs.ownArtifact last = .ok (some judged) ∧ Python.get item "evidence" = .obj ev ∧
          Python.get ev "output_hash" = .str (EvidenceGate.rederive py judged) := by
  obtain ⟨ledger, artifacts, -, hartifacts, haccepted⟩ := hverified
  obtain ⟨model', items', hmodel, hitems', hall⟩ :=
    EvidenceGate.checkModel_accepted py haccepted
  obtain rfl := Json.obj.inj hmodel
  obtain rfl := Json.arr.inj (hitems.symm.trans hitems')
  obtain ⟨fields, hfields, hcollect⟩ := Outcome.bind_eq_ok_iff.mp hartifacts
  obtain rfl := Except.ok.inj hfields
  obtain ⟨scanned, hscanned, hfold⟩ := Outcome.bind_eq_ok_iff.mp hcollect
  rw [hitems] at hscanned
  obtain rfl := Except.ok.inj hscanned
  obtain ⟨artifact, hread⟩ := ownArtifact_of_foldlM hfold _ hmem
  obtain ⟨-, key, hkey, hslice⟩ := hall item hmem hscope
  obtain ⟨ev, judged, hev, hjudged, hhash⟩ := EvidenceGate.exists_artifact_of_accepted py hslice
  have hlookup := lookup_of_foldlM hfold key
  rw [Artifacts.get] at hjudged
  cases hlast : lastWithId items key with
  | none => simp [hlookup, hlast] at hjudged
  | some last =>
      have hmemLast : last ∈ items := by
        simpa using List.mem_of_find?_eq_some hlast
      obtain ⟨artifact', hread'⟩ := ownArtifact_of_foldlM hfold last hmemLast
      refine ⟨artifact, key, last, judged, ev, hread, hkey, hlast, ?_, hev, hhash⟩
      simpa [hlookup, hlast, hread', Except.toOption] using hjudged

/-- A run that passes over a present model and ledger binds every in-scope item
to its own artifact exactly when none is judged by a foreign one. -/
theorem pass_binds_iff {model : List (String × Json)} {items : List Json}
    (hpass : run py inputs = .ok 0) (hledger : inputs.ledger ≠ .absent)
    (hmodel : inputs.featureList = .document (.obj model))
    (hitems : Python.getD model "items" (.arr []) = .arr items) :
    (∀ item, .obj item ∈ items → Python.truthy (Python.get item "in_scope") = true →
        OwnBound py inputs item) ↔
      NoForeignArtifact py inputs items := by
  obtain ⟨-, baseline, model', -, hload, -, hcase⟩ := (run_eq_zero_iff py inputs).mp hpass
  rw [hmodel] at hload
  obtain rfl := Except.ok.inj hload
  have hverified : Reverified py inputs (.obj model) := by
    rcases hcase with hnull | habsent | hverified
    · cases hnull
    · exact absurd habsent hledger
    · exact hverified
  unfold NoForeignArtifact
  refine forall_congr' fun item ↦ forall_congr' fun hmem ↦ forall_congr' fun hscope ↦ ?_
  obtain ⟨artifact, key, last, judged, ev, hread, hkey, hlast, hjudged, hev, hhash⟩ :=
    judged_of_reverified py hitems hverified hmem hscope
  rw [ownBound_iff py hread hev hhash]
  constructor
  · rintro ⟨text, rfl, hdigest⟩ key' last' hkey' hlast'
    obtain rfl := Except.ok.inj (hkey.symm.trans hkey')
    obtain rfl := Option.some.inj (hlast.symm.trans hlast')
    exact Or.inr ⟨text, judged, hread, hjudged, hdigest⟩
  · intro hforeign
    rcases hforeign key last hkey hlast with rfl | ⟨text, text', hown, hother, hdigest⟩
    · exact ⟨judged, Except.ok.inj (hread.symm.trans hjudged), rfl⟩
    · obtain rfl := Option.some.inj (Except.ok.inj (hjudged.symm.trans hother))
      exact ⟨text, Except.ok.inj (hread.symm.trans hown), hdigest⟩

end Binding

/-- Two items share the id `F1`; the first names a file outside the directory
and is accepted on the second one's artifact. -/
theorem sharedId_pass :
    run sampleLibrary (sampleInputs
        [sampleItem "../outside.txt", sampleItem "login.txt"] sampleLedger) = .ok 0 ∧
      ∃ item, .obj item ∈ [sampleItem "../outside.txt", sampleItem "login.txt"] ∧
        Python.truthy (Python.get item "in_scope") = true ∧
          ¬OwnBound sampleLibrary (sampleInputs
            [sampleItem "../outside.txt", sampleItem "login.txt"] sampleLedger) item := by
  refine ⟨by decide +kernel, _, List.mem_cons_self, rfl, ?_⟩
  rintro ⟨ev, testFile, text, hev, htest, ⟨-, hwithin, -⟩, -⟩
  obtain rfl := Json.obj.inj hev
  obtain rfl := Json.str.inj htest
  revert hwithin
  decide

theorem pass_binds_sample :
    (∀ item, .obj item ∈ [sampleItem "login.txt"] →
        Python.truthy (Python.get item "in_scope") = true →
          OwnBound sampleLibrary
            (sampleInputs [sampleItem "login.txt"] sampleLedger) item) ↔
      NoForeignArtifact sampleLibrary
        (sampleInputs [sampleItem "login.txt"] sampleLedger) [sampleItem "login.txt"] :=
  pass_binds_iff sampleLibrary (by decide +kernel) (by simp [sampleInputs, sampleLedger]) rfl rfl

end AgenticSDLC.CiEvidenceCheck
