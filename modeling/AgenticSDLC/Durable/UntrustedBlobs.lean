import AgenticSDLC.Durable.CheckpointIntegrity

/-!
# Blobs that nobody vouches for

`resume` on any text, with all that its library calls may raise.  Python reads more than
JSON: words for infinities and NaN, which `int` refuses, and lone surrogates, which do not
encode; and nesting that is too deep ends in a `RecursionError`.  Values of that kind
stand here for floats and texts of their own, told by what the library raises on them.
-/

namespace AgenticSDLC.DurableOrchestrator

open Python (Exception)

structure RaisingLibrary extends Library where
  /-- What `json.loads` raises that is no `ValueError`. -/
  loadsRaises : String → Option Exception
  /-- What `int` raises on a float. -/
  intRaises : Decimal → Option Exception
  /-- What `encode` raises on a text. -/
  encodeRaises : String → Option Exception

namespace RaisingLibrary

/-- `int(value)`. -/
def toInt (lib : RaisingLibrary) : Json → Except Exception ℤ
  | .float x =>
      match lib.intRaises x with
      | some exc => .error exc
      | none => DurableOrchestrator.toInt lib.toLibrary (.float x)
  | value => DurableOrchestrator.toInt lib.toLibrary value

def fromDict (lib : RaisingLibrary) (d : Json) : Except Exception Event := do
  let seq ← Python.subscript d "seq"
  let seq ← lib.toInt seq
  let type ← Python.subscript d "type"
  let name ← Python.subscript d "name"
  let members ← Python.asDict d
  return ⟨seq, .ofText (Python.str lib.repr type), Python.str lib.repr name,
    Python.get members "payload"⟩

def canonicalJson (lib : RaisingLibrary) (history : List Event) : String :=
  Json.dumps lib.repr (.arr (history.map Event.toDict))

def historyHash (lib : RaisingLibrary) (history : List Event) : Except Exception String :=
  match lib.encodeRaises (lib.canonicalJson history) with
  | some exc => .error exc
  | none => .ok (lib.sha256 (lib.canonicalJson history))

def loadsOrRaise (lib : RaisingLibrary) (blob : String) : Except Raised Json :=
  match lib.loadsRaises blob with
  | some exc => .error (.other exc)
  | none => (lib.loads blob).mapError fun text ↦
      Raised.nonDeterminism ("checkpoint blob is not valid JSON: " ++ text)

def resume (lib : RaisingLibrary) (blob : String) : Except Raised Workflow := do
  let obj ← lib.loadsOrRaise blob
  let members ← (Python.asDict obj).mapError fun _ ↦
    Raised.nonDeterminism "checkpoint blob must be a JSON object"
  let version := Python.get members "version"
  if !isBlobVersion version then
    throw (.nonDeterminism ("checkpoint blob version " ++ lib.repr version ++ " != supported " ++
      toString blobVersion))
  else
    match Python.get members "history" with
    | .arr rawEvents => do
        let events ← (rawEvents.mapM lib.fromDict).mapError Raised.other
        let recomputed ← (lib.historyHash events).mapError Raised.other
        let recorded := Python.get members "history_hash"
        if recorded ≠ .str recomputed then
          throw (.nonDeterminism ("checkpoint history hash mismatch -- corrupted or forged " ++
            "resume (recorded=" ++ lib.repr recorded ++ ", recomputed=" ++
            lib.repr (.str recomputed) ++ ")"))
        else
          return .new (Python.str lib.repr (Python.getD members "workflow_id" (.str ""))) events
    | _ => throw (.nonDeterminism "checkpoint blob 'history' must be a list")

/-- Nothing but proper JSON: the library raises no more than `Library` says. -/
structure Quiet (lib : RaisingLibrary) : Prop where
  loads : ∀ blob, lib.loadsRaises blob = none
  int : ∀ x, lib.intRaises x = none
  encode : ∀ text, lib.encodeRaises text = none

/-- The record is an object with the three keys, and its `seq` has an integer value. -/
def IsEvent (lib : RaisingLibrary) : Json → Prop
  | .obj members =>
      (∃ seq n, members.lookup "seq" = some seq ∧ lib.toInt seq = .ok n) ∧
        (∃ type, members.lookup "type" = some type) ∧ ∃ name, members.lookup "name" = some name
  | _ => False

/-- The records are events, and their canonical text encodes. -/
def Decodable (lib : RaisingLibrary) (records : List Json) : Prop :=
  (∀ record ∈ records, lib.IsEvent record) ∧
    ∀ events, records.mapM lib.fromDict = .ok events →
      lib.encodeRaises (lib.canonicalJson events) = none

/-- Either the blob is refused before its records are read, or they can be decoded. -/
structure Readable (lib : RaisingLibrary) (blob : String) : Prop where
  loads : lib.loadsRaises blob = none
  records : ∀ members records, lib.loads blob = .ok (.obj members) →
    isBlobVersion (Python.get members "version") = true →
      Python.get members "history" = .arr records → lib.Decodable records

/-- A workflow is returned, or the blob refused. -/
def Total (lib : RaisingLibrary) (blob : String) : Prop :=
  (∃ wf, lib.resume blob = .ok wf) ∨ ∃ detail, lib.resume blob = .error (.nonDeterminism detail)

/-! ## The library of proper JSON -/

section Quiet

variable {lib : RaisingLibrary}

theorem fromDict_of_quiet (h : lib.Quiet) (d : Json) :
    lib.fromDict d = Event.fromDict lib.toLibrary d := by
  have hint : lib.toInt = DurableOrchestrator.toInt lib.toLibrary := by
    funext value
    cases value with
    | float x => rw [toInt, h.int]
    | _ => rfl
  rw [fromDict, hint]
  rfl

/-- On proper JSON there is nothing more to raise. -/
theorem resume_of_quiet (h : lib.Quiet) (blob : String) :
    lib.resume blob = DurableOrchestrator.resume lib.toLibrary blob := by
  have hread : lib.loadsOrRaise blob = (lib.loads blob).mapError fun text ↦
      Raised.nonDeterminism ("checkpoint blob is not valid JSON: " ++ text) := by
    rw [loadsOrRaise, h.loads]
  have hhash : lib.historyHash = fun events ↦
      .ok (DurableOrchestrator.historyHash lib.toLibrary events) := by
    funext events
    rw [historyHash, h.encode]
    rfl
  have hrecords : lib.fromDict = Event.fromDict lib.toLibrary := funext (fromDict_of_quiet h)
  rw [resume, hread, hrecords, hhash]
  rfl

end Quiet

/-! ## Records -/

section Records

variable {lib : RaisingLibrary}

theorem exists_fromDict_iff (record : Json) :
    (∃ event, lib.fromDict record = .ok event) ↔ lib.IsEvent record := by
  cases record with
  | obj members =>
      constructor
      · rintro ⟨event, h⟩
        obtain ⟨seq, hseq, h⟩ := Outcome.bind_eq_ok_iff.mp h
        obtain ⟨n, hn, h⟩ := Outcome.bind_eq_ok_iff.mp h
        obtain ⟨type, htype, h⟩ := Outcome.bind_eq_ok_iff.mp h
        obtain ⟨name, hname, -⟩ := Outcome.bind_eq_ok_iff.mp h
        rw [Python.subscript_obj_eq_ok_iff] at hseq htype hname
        exact ⟨⟨seq, n, hseq, hn⟩, ⟨type, htype⟩, name, hname⟩
      · rintro ⟨⟨seq, n, hseq, hn⟩, ⟨type, htype⟩, name, hname⟩
        simp only [fromDict, Python.subscript, hseq, htype, hname, hn, Python.asDict,
          Outcome.ok_bind]
        exact ⟨_, rfl⟩
  | _ =>
      refine iff_of_false ?_ id
      rintro ⟨event, h⟩
      cases h

theorem exists_events_iff (records : List Json) :
    (∃ events, records.mapM lib.fromDict = .ok events) ↔ ∀ record ∈ records, lib.IsEvent record := by
  rw [Outcome.exists_mapM_iff]
  exact forall₂_congr fun record _ ↦ exists_fromDict_iff record

end Records

/-! ## Resuming -/

section Blob

variable {lib : RaisingLibrary} {blob : String} {members : List (String × Json)}

theorem resume_eq (hquiet : lib.loadsRaises blob = none) (hloads : lib.loads blob = .ok (.obj members))
    (hversion : isBlobVersion (Python.get members "version") = true) {records : List Json}
    (hrecords : Python.get members "history" = .arr records) :
    lib.resume blob = ((records.mapM lib.fromDict).mapError Raised.other >>= fun events ↦
      (lib.historyHash events).mapError Raised.other >>= fun recomputed ↦
        if Python.get members "history_hash" ≠ .str recomputed then
          .error (.nonDeterminism ("checkpoint history hash mismatch -- corrupted or forged " ++
            "resume (recorded=" ++ lib.repr (Python.get members "history_hash") ++
            ", recomputed=" ++ lib.repr (.str recomputed) ++ ")"))
        else
          .ok (.new (Python.str lib.repr (Python.getD members "workflow_id" (.str ""))) events)) := by
  simp only [resume, loadsOrRaise, hquiet, hloads, Except.mapError, Outcome.ok_bind, Python.asDict,
    hversion, hrecords]
  rfl

/-- A blob that does not come as far as its records is refused. -/
theorem total_of_refused (hquiet : lib.loadsRaises blob = none)
    (h : ∀ members records, lib.loads blob = .ok (.obj members) →
      isBlobVersion (Python.get members "version") = true →
        Python.get members "history" ≠ .arr records) : lib.Total blob := by
  right
  simp only [resume, loadsOrRaise, hquiet]
  cases hloads : lib.loads blob with
  | error text => exact ⟨_, rfl⟩
  | ok obj =>
      cases obj with
      | obj members =>
          simp only [Except.mapError, Outcome.ok_bind, Python.asDict]
          cases hversion : isBlobVersion (Python.get members "version") with
          | false => exact ⟨_, rfl⟩
          | true =>
              cases hhistory : Python.get members "history" with
              | arr records => exact absurd hhistory (h members records hloads hversion)
              | _ => exact ⟨_, rfl⟩
      | _ => exact ⟨_, rfl⟩

/-- Of the records it depends whether a blob with the right version gets an answer. -/
theorem total_iff_decodable (hquiet : lib.loadsRaises blob = none)
    (hloads : lib.loads blob = .ok (.obj members))
    (hversion : isBlobVersion (Python.get members "version") = true) {records : List Json}
    (hrecords : Python.get members "history" = .arr records) :
    lib.Total blob ↔ lib.Decodable records := by
  rw [Total, resume_eq hquiet hloads hversion hrecords]
  cases hevents : records.mapM lib.fromDict with
  | error exc =>
      refine iff_of_false ?_ fun hdecodable ↦ ?_
      · rintro (⟨wf, h⟩ | ⟨detail, h⟩) <;> cases h
      · obtain ⟨events, hok⟩ := (exists_events_iff records).mpr hdecodable.1
        cases hevents.symm.trans hok
  | ok events =>
      have hall := (exists_events_iff records).mp ⟨events, hevents⟩
      have hdecodable : lib.Decodable records ↔
          lib.encodeRaises (lib.canonicalJson events) = none := by
        refine ⟨fun h ↦ h.2 events hevents, fun h ↦ ⟨hall, fun others hothers ↦ ?_⟩⟩
        rwa [← Except.ok.inj (hevents.symm.trans hothers)]
      rw [hdecodable]
      simp only [Except.mapError, Outcome.ok_bind, historyHash]
      cases hencode : lib.encodeRaises (lib.canonicalJson events) with
      | some exc =>
          refine iff_of_false ?_ (by simp)
          rintro (⟨wf, h⟩ | ⟨detail, h⟩) <;> cases h
      | none =>
          refine iff_of_true ?_ rfl
          simp only [Outcome.ok_bind]
          split_ifs
          · exact Or.inr ⟨_, rfl⟩
          · exact Or.inl ⟨_, rfl⟩

/-- Resuming gives a workflow or refuses the blob just when the blob is readable; any
other blob has a third kind of error. -/
theorem resume_total_iff (lib : RaisingLibrary) (blob : String) :
    lib.Total blob ↔ lib.Readable blob := by
  cases hquiet : lib.loadsRaises blob with
  | some exc =>
      refine iff_of_false ?_ fun hreadable ↦ ?_
      · rw [Total, resume, loadsOrRaise, hquiet]
        rintro (⟨wf, h⟩ | ⟨detail, h⟩) <;> cases h
      · cases hquiet.symm.trans hreadable.loads
  | none =>
      by_cases hread : ∃ members records, lib.loads blob = .ok (.obj members) ∧
          isBlobVersion (Python.get members "version") = true ∧
            Python.get members "history" = .arr records
      · obtain ⟨members, records, hloads, hversion, hrecords⟩ := hread
        rw [total_iff_decodable hquiet hloads hversion hrecords]
        refine ⟨fun h ↦ ⟨hquiet, fun others records' hothers _ hrecords' ↦ ?_⟩, fun h ↦ ?_⟩
        · obtain rfl := Json.obj.inj (Except.ok.inj (hloads.symm.trans hothers))
          rwa [← Json.arr.inj (hrecords.symm.trans hrecords')]
        · exact h.records members records hloads hversion hrecords
      · refine iff_of_true (total_of_refused hquiet ?_) ⟨hquiet, ?_⟩
        · exact fun members records hloads hversion hrecords ↦
            hread ⟨members, records, hloads, hversion, hrecords⟩
        · exact fun members records hloads hversion hrecords ↦
            absurd ⟨members, records, hloads, hversion, hrecords⟩ hread

end Blob

/-! ## A record without a key -/

/-- The library of proper JSON, where `int` and `encode` raise nothing. -/
def plainLibrary : RaisingLibrary where
  toLibrary := readingLibrary
  loadsRaises := fun _ ↦ none
  intRaises := fun _ ↦ none
  encodeRaises := fun _ ↦ none

def namelessBlob : String :=
  "\x7b\"version\": 1, \"history\": [\x7b\"seq\": 0, \"type\": \"TIMER_FIRED\"\x7d]\x7d"

theorem loads_namelessBlob :
    Json.loads sampleToFloat namelessBlob = some (.obj [("version", .int 1),
      ("history", .arr [.obj [("seq", .int 0), ("type", .str "TIMER_FIRED")]])]) := by
  decide +kernel

theorem plainLibrary_quiet : plainLibrary.Quiet where
  loads _ := rfl
  int _ := rfl
  encode _ := rfl

theorem namelessBlob_raises :
    plainLibrary.resume namelessBlob = .error (.other ⟨"KeyError", "'name'"⟩) := by
  have hlibrary : plainLibrary.toLibrary = readingLibrary := rfl
  have hloads := (readingLibrary_readsJson.loads namelessBlob _).mpr loads_namelessBlob
  rw [resume_of_quiet plainLibrary_quiet, hlibrary,
    DurableOrchestrator.resume_eq hloads rfl rfl]
  rfl

theorem namelessBlob_not_total : ¬plainLibrary.Total namelessBlob := by
  rw [Total, namelessBlob_raises]
  rintro (⟨wf, h⟩ | ⟨detail, h⟩) <;> cases h

end RaisingLibrary

end AgenticSDLC.DurableOrchestrator
