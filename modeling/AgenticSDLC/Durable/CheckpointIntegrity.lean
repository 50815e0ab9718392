import AgenticSDLC.Durable.CrashReplay
import AgenticSDLC.Foundations.JsonFloats

/-!
# What the checkpoint hash protects

A checkpoint resumes to its own workflow.  A blob that carries the hash of a workflow's
history is refused or resumes to that history, as the canonical text is injective; but the
hash is over the history alone, so the id of the resumed workflow is whatever the blob says,
and records that are no events raise other errors than the one for a refused blob.
-/

namespace AgenticSDLC.DurableOrchestrator

/-- `json.loads`, with floats that read back from their `repr`. -/
structure Library.ReadsJson (lib : Library) (toFloat : String → Json) : Prop where
  loads : ∀ text value, lib.loads text = .ok value ↔ Json.loads toFloat text = some value
  floats : Json.FloatTexts lib.repr toFloat

/-- Payloads without an object that has a key twice. -/
def NativePayloads (history : List Event) : Prop :=
  ∀ event ∈ history, event.payload.Native fun _ ↦ True

/-- The same id and history; a dictionary in a payload has no order. -/
structure Workflow.Same (wf other : Workflow) : Prop where
  workflowId : other.workflowId = wf.workflowId
  history : other.history.map Event.sortKeys = wf.history.map Event.sortKeys

/-- The blob is an object with the hash of the workflow's history. -/
structure Carries (lib : Library) (wf : Workflow) (blob : String) (members : List (String × Json)) :
    Prop where
  loads : lib.loads blob = .ok (.obj members)
  hash : Python.get members "history_hash" = .str (historyHash lib wf.history)

/-- The blob is refused, or resumes to the workflow. -/
def Intact (lib : Library) (wf : Workflow) (blob : String) : Prop :=
  (∃ detail, resume lib blob = .error (.nonDeterminism detail)) ∨
    ∃ other, resume lib blob = .ok other ∧ wf.Same other

/-- A record that `Event.from_dict` reads. -/
def IsRecord (lib : Library) : Json → Prop
  | .obj members =>
      (∃ seq n, members.lookup "seq" = some seq ∧ toInt lib seq = .ok n) ∧
        (∃ type, members.lookup "type" = some type) ∧ ∃ name, members.lookup "name" = some name
  | _ => False

/-- A history that the version allows to be read has records only; if its events are those
of the workflow, the blob names the workflow. -/
def Trusted (lib : Library) (wf : Workflow) (members : List (String × Json)) : Prop :=
  isBlobVersion (Python.get members "version") = true →
    ∀ records, Python.get members "history" = .arr records →
      (∀ record ∈ records, IsRecord lib record) ∧
        ∀ events, records.mapM (Event.fromDict lib) = .ok events →
          events.map Event.sortKeys = wf.history.map Event.sortKeys →
            Python.str lib.repr (Python.getD members "workflow_id" (.str "")) = wf.workflowId

/-! ## Records -/

section Records

variable {lib : Library}

theorem exists_fromDict_iff (record : Json) :
    (∃ event, Event.fromDict lib record = .ok event) ↔ IsRecord lib record := by
  cases record with
  | obj members =>
      constructor
      · rintro ⟨event, h⟩
        obtain ⟨seq, hseq, h⟩ := Outcome.bind_eq_ok_iff.mp h
        obtain ⟨n, hn, h⟩ := Outcome.bind_eq_ok_iff.mp h
        obtain ⟨type, htype, h⟩ := Outcome.bind_eq_ok_iff.mp h
        obtain ⟨name, hname, -⟩ := Outcome.bind_eq_ok_iff.mp h
        rw [Python.subscript_obj_eq_ok_iff] at hseq htype hname
        exact ⟨⟨seq, n, hseq, hn⟩, ⟨type, htype⟩, name, hname⟩
      · rintro ⟨⟨seq, n, hseq, hn⟩, ⟨type, htype⟩, name, hname⟩
        simp only [Event.fromDict, Python.subscript, hseq, htype, hname, hn, Python.asDict,
          Outcome.ok_bind]
        exact ⟨_, rfl⟩
  | _ =>
      refine iff_of_false ?_ id
      rintro ⟨event, h⟩
      cases h

theorem exists_mapM_fromDict_iff (records : List Json) :
    (∃ events, records.mapM (Event.fromDict lib) = .ok events) ↔
      ∀ record ∈ records, IsRecord lib record := by
  rw [Outcome.exists_mapM_iff]
  exact forall₂_congr fun record _ ↦ exists_fromDict_iff record

theorem payload_of_fromDict {record : Json} {event : Event}
    (h : Event.fromDict lib record = .ok event) :
    ∃ members, record = .obj members ∧ event.payload = Python.get members "payload" := by
  obtain ⟨seq, -, h⟩ := Outcome.bind_eq_ok_iff.mp h
  obtain ⟨n, -, h⟩ := Outcome.bind_eq_ok_iff.mp h
  obtain ⟨type, -, h⟩ := Outcome.bind_eq_ok_iff.mp h
  obtain ⟨name, -, h⟩ := Outcome.bind_eq_ok_iff.mp h
  obtain ⟨members, hmembers, h⟩ := Outcome.bind_eq_ok_iff.mp h
  cases record with
  | obj others =>
      obtain rfl := Except.ok.inj hmembers
      exact ⟨others, rfl, by rw [← Except.ok.inj h]⟩
  | _ => cases hmembers

end Records

/-! ## The hash and the history -/

section Hash

variable {lib : Library}

theorem native_get {P : Decimal → Prop} {members : List (String × Json)}
    (h : (Json.obj members).Native P) (key : String) : (Python.get members key).Native P := by
  rw [Python.get]
  cases hlookup : members.lookup key with
  | none => trivial
  | some value =>
      exact (Json.native_obj_iff.mp h).2 (key, value) (Dict.mem_of_lookup hlookup)

theorem native_toDict {event : Event} (h : event.payload.Native fun _ ↦ True) :
    event.toDict.Native fun _ ↦ True := by
  rw [Event.toDict, Json.native_obj_iff]
  refine ⟨by simp, ?_⟩
  simp only [List.forall_mem_cons]
  exact ⟨trivial, trivial, trivial, h, by simp⟩

theorem native_toDicts {history : List Event} (h : NativePayloads history) :
    (Json.arr (history.map Event.toDict)).Native fun _ ↦ True := by
  rw [Json.native_arr_iff, List.forall_mem_map]
  exact fun event hevent ↦ native_toDict (h event hevent)

/-- The records of a history determine it, up to the order of keys. -/
theorem sortKeys_eq_of_toDict {event other : Event}
    (h : event.toDict.sortKeys = other.toDict.sortKeys) : event.sortKeys = other.sortKeys := by
  rw [sortKeys_toDict, sortKeys_toDict] at h
  simp only [Json.obj.injEq, List.cons.injEq, Prod.mk.injEq, Json.str.injEq, Json.int.injEq,
    true_and, and_true] at h
  obtain ⟨hname, hpayload, hseq, htype⟩ := h
  have htype' : event.type = other.type := by
    rw [← EventType.ofText_text event.type, htype, EventType.ofText_text]
  rw [Event.sortKeys, Event.sortKeys, Event.mk.injEq]
  exact ⟨hseq, htype', hname, hpayload⟩

theorem map_sortKeys_eq_of_toDict : ∀ {events history : List Event},
    events.map (fun event ↦ event.toDict.sortKeys) =
        history.map (fun event ↦ event.toDict.sortKeys) →
      events.map Event.sortKeys = history.map Event.sortKeys
  | [], [], _ => rfl
  | [], _ :: _, h | _ :: _, [], h => by cases h
  | event :: events, other :: history, h => by
      obtain ⟨hfirst, hrest⟩ := List.cons.inj h
      rw [List.map_cons, List.map_cons, sortKeys_eq_of_toDict hfirst, map_sortKeys_eq_of_toDict hrest]

/-- Histories with one hash differ in the order of keys at most. -/
theorem sortKeys_eq_of_historyHash (hsha : Function.Injective lib.sha256) {toFloat : String → Json}
    (hfloats : Json.FloatTexts lib.repr toFloat) {events history : List Event}
    (hevents : NativePayloads events) (hhistory : NativePayloads history)
    (h : historyHash lib events = historyHash lib history) :
    events.map Event.sortKeys = history.map Event.sortKeys := by
  have hsorted := Json.sortKeys_eq_of_dumps_eq hfloats.readsFloat (native_toDicts hevents)
    (native_toDicts hhistory) (hsha h)
  rw [Json.sortKeys_arr, Json.sortKeys_arr, List.map_map, List.map_map, Json.arr.injEq] at hsorted
  exact map_sortKeys_eq_of_toDict hsorted

theorem readsBack_of_native {toFloat : String → Json} (hjson : lib.ReadsJson toFloat) {wf : Workflow}
    (h : NativePayloads wf.history) : lib.ReadsBack wf := by
  rw [Library.ReadsBack, hjson.loads]
  apply Json.loads_dumps (P := fun _ ↦ True) hjson.floats.readsFloat
  rw [Workflow.blobObject, Json.native_obj_iff]
  refine ⟨by simp, ?_⟩
  simp only [List.forall_mem_cons]
  exact ⟨trivial, trivial, native_toDicts h, trivial, by simp⟩

end Hash

/-! ## Resuming a blob -/

section Blob

variable {lib : Library} {wf : Workflow} {blob : String} {members : List (String × Json)}

theorem resume_eq (hloads : lib.loads blob = .ok (.obj members))
    (hversion : isBlobVersion (Python.get members "version") = true) {records : List Json}
    (hrecords : Python.get members "history" = .arr records) :
    resume lib blob = ((records.mapM (Event.fromDict lib)).mapError Raised.other >>= fun events ↦
      if Python.get members "history_hash" ≠ .str (historyHash lib events) then
        .error (.nonDeterminism ("checkpoint history hash mismatch -- corrupted or forged " ++
          "resume (recorded=" ++ lib.repr (Python.get members "history_hash") ++
          ", recomputed=" ++ lib.repr (.str (historyHash lib events)) ++ ")"))
      else
        .ok (.new (Python.str lib.repr (Python.getD members "workflow_id" (.str ""))) events)) := by
  simp only [resume, hloads, Except.mapError, Outcome.ok_bind, Python.asDict, hversion, hrecords]
  rfl

theorem intact_of_unread (hloads : lib.loads blob = .ok (.obj members))
    (h : isBlobVersion (Python.get members "version") = false ∨
      ∀ records, Python.get members "history" ≠ .arr records) : Intact lib wf blob := by
  apply Or.inl
  simp only [resume, hloads, Except.mapError, Outcome.ok_bind, Python.asDict]
  cases hversion : isBlobVersion (Python.get members "version") with
  | false => exact ⟨_, rfl⟩
  | true =>
      have hlist := h.resolve_left (by simp [hversion])
      cases hhistory : Python.get members "history" with
      | arr records => exact absurd hhistory (hlist records)
      | _ => exact ⟨_, rfl⟩

/-- What `json.loads` makes has no object with a key twice. -/
theorem nativePayloads_of_blob {toFloat : String → Json} (hjson : lib.ReadsJson toFloat)
    (hloads : lib.loads blob = .ok (.obj members)) {records : List Json} {events : List Event}
    (hrecords : Python.get members "history" = .arr records)
    (hevents : records.mapM (Event.fromDict lib) = .ok events) : NativePayloads events := by
  have hblob : (Json.obj members).Native fun _ ↦ True :=
    Json.native_of_loads hjson.floats.native ((hjson.loads _ _).mp hloads)
  have hlist := native_get hblob "history"
  rw [hrecords, Json.native_arr_iff] at hlist
  intro event hevent
  obtain ⟨record, hrecord, hread⟩ := Outcome.exists_of_mem_mapM hevents event hevent
  obtain ⟨fields, rfl, hpayload⟩ := payload_of_fromDict hread
  rw [hpayload]
  exact native_get (hlist _ hrecord) "payload"

theorem trusted_iff_of_events {records : List Json} {events : List Event}
    (hversion : isBlobVersion (Python.get members "version") = true)
    (hrecords : Python.get members "history" = .arr records)
    (hevents : records.mapM (Event.fromDict lib) = .ok events) :
    Trusted lib wf members ↔ (events.map Event.sortKeys = wf.history.map Event.sortKeys →
      Python.str lib.repr (Python.getD members "workflow_id" (.str "")) = wf.workflowId) := by
  constructor
  · exact fun htrusted ↦ (htrusted hversion records hrecords).2 events hevents
  · intro hid _ others hothers
    obtain rfl := Json.arr.inj (hrecords.symm.trans hothers)
    refine ⟨(exists_mapM_fromDict_iff records).mp ⟨events, hevents⟩, fun same hsame ↦ ?_⟩
    obtain rfl := Except.ok.inj (hevents.symm.trans hsame)
    exact hid

theorem intact_iff_of_events (hsha : Function.Injective lib.sha256) {toFloat : String → Json}
    (hjson : lib.ReadsJson toFloat) (hnative : NativePayloads wf.history)
    (h : Carries lib wf blob members) {records : List Json} {events : List Event}
    (hversion : isBlobVersion (Python.get members "version") = true)
    (hrecords : Python.get members "history" = .arr records)
    (hevents : records.mapM (Event.fromDict lib) = .ok events) :
    Intact lib wf blob ↔ (events.map Event.sortKeys = wf.history.map Event.sortKeys →
      Python.str lib.repr (Python.getD members "workflow_id" (.str "")) = wf.workflowId) := by
  have hresume := resume_eq h.loads hversion hrecords
  rw [hevents, h.hash] at hresume
  by_cases hhash : historyHash lib events = historyHash lib wf.history
  · have hpayloads := nativePayloads_of_blob hjson h.loads hrecords hevents
    have hsame := sortKeys_eq_of_historyHash hsha hjson.floats hpayloads hnative hhash
    have hresumed : resume lib blob = .ok (.new (Python.str lib.repr
        (Python.getD members "workflow_id" (.str ""))) events) := by
      rw [hresume]
      exact if_neg (not_not_intro (congrArg Json.str hhash.symm))
    constructor
    · rintro (⟨detail, hdetail⟩ | ⟨other, hother, hid, -⟩) -
      · cases hresumed.symm.trans hdetail
      · rw [← Except.ok.inj (hresumed.symm.trans hother)] at hid
        exact hid
    · exact fun hid ↦ Or.inr ⟨_, hresumed, hid hsame, hsame⟩
  · -- The events are others, so the hash refuses them.
    refine iff_of_true (Or.inl ?_) fun hsame ↦ absurd ?_ hhash
    · exact ⟨_, hresume.trans (if_pos fun hstr ↦ hhash (Json.str.inj hstr).symm)⟩
    · rw [← historyHash_sortKeys, hsame, historyHash_sortKeys]

theorem intact_iff_trusted (hsha : Function.Injective lib.sha256) {toFloat : String → Json}
    (hjson : lib.ReadsJson toFloat) (hnative : NativePayloads wf.history)
    (h : Carries lib wf blob members) : Intact lib wf blob ↔ Trusted lib wf members := by
  by_cases hread : isBlobVersion (Python.get members "version") = true ∧
      ∃ records, Python.get members "history" = .arr records
  · obtain ⟨hversion, records, hrecords⟩ := hread
    cases hevents : records.mapM (Event.fromDict lib) with
    | error exc =>
        have hresume := resume_eq h.loads hversion hrecords
        rw [hevents] at hresume
        refine iff_of_false ?_ fun htrusted ↦ ?_
        · rintro (⟨detail, hdetail⟩ | ⟨other, hother, -⟩)
          · cases hresume.symm.trans hdetail
          · cases hresume.symm.trans hother
        · obtain ⟨events, hok⟩ := (exists_mapM_fromDict_iff records).mpr
            (htrusted hversion records hrecords).1
          cases hevents.symm.trans hok
    | ok events =>
        rw [intact_iff_of_events hsha hjson hnative h hversion hrecords hevents,
          trusted_iff_of_events hversion hrecords hevents]
  · have hunread : isBlobVersion (Python.get members "version") = false ∨
        ∀ records, Python.get members "history" ≠ .arr records := by
      cases hversion : isBlobVersion (Python.get members "version") with
      | false => exact Or.inl rfl
      | true => exact Or.inr fun records hrecords ↦ hread ⟨hversion, records, hrecords⟩
    refine iff_of_true (intact_of_unread h.loads hunread) fun hversion records hrecords ↦ ?_
    exact absurd ⟨hversion, records, hrecords⟩ hread

end Blob

/-! ## A blob under another id -/

section Sample

/-- The digest of one text, and the other texts behind an x. -/
def digestOf (known digest text : String) : String :=
  if text = known then digest else "x" ++ text

theorem digestOf_injective {known digest : String} (h : digest.toList.head? ≠ some 'x') :
    Function.Injective (digestOf known digest) := by
  have hmarked : ∀ text, digest ≠ "x" ++ text := by
    rintro text rfl
    rw [String.toList_append] at h
    exact h rfl
  intro text other heq
  rw [digestOf, digestOf] at heq
  split_ifs at heq with htext hother hother
  · rw [htext, hother]
  · exact absurd heq (hmarked other)
  · exact absurd heq.symm (hmarked text)
  · have hlists := congrArg String.toList heq
    rw [String.toList_append, String.toList_append, List.append_cancel_left_eq] at hlists
    exact String.toList_inj.mp hlists

def sampleRepr : Json → String
  | .float x => String.ofList (Json.scientific x)
  | .str s => "'" ++ s ++ "'"
  | _ => "None"

def sampleToFloat (text : String) : Json := Json.readScientific text.toList

def plannedHistory : List Event := [startedEvent "wf-1" [], plannedEvent]

/-- A library with the digest of the sample's history. -/
def readingLibrary : Library where
  repr := sampleRepr
  sha256 := digestOf (Json.dumps sampleRepr (.arr (plannedHistory.map Event.toDict)))
    "365a438281f3e0c6fa81b976a5615c6a4036072fc0a5339f4fffc3ff321aecfe"
  fromisoformat := fun _ ↦ none
  intOfText := String.toInt?
  loads := fun text ↦
    match Json.loads sampleToFloat text with
    | some value => .ok value
    | none => .error "Expecting value: line 1 column 1 (char 0)"

theorem readingLibrary_readsJson : readingLibrary.ReadsJson sampleToFloat where
  loads text value := by
    simp only [readingLibrary]
    cases Json.loads sampleToFloat text with
    | none => exact iff_of_false (fun h ↦ (by cases h)) (fun h ↦ (by cases h))
    | some read => rw [Except.ok.injEq, Option.some.injEq]
  floats :=
    { literal := fun x ↦ by
        change Json.IsFloatLiteral (String.ofList (Json.scientific x)).toList
        rw [String.toList_ofList]
        exact Json.isFloatLiteral_scientific x
      value := fun x ↦ by
        change Json.readScientific (String.ofList (Json.scientific x)).toList = .float x
        rw [String.toList_ofList]
        exact Json.readScientific_scientific x
      native := fun text ↦ Json.native_readScientific text.toList }

theorem native_plannedHistory : NativePayloads plannedHistory := by
  simp [NativePayloads, plannedHistory, startedEvent, plannedEvent, samplePlan, Json.Native,
    Json.NativeItems, Json.NativeMembers]

end Sample

end AgenticSDLC.DurableOrchestrator
