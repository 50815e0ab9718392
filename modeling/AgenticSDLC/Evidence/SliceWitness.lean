import AgenticSDLC.Evidence.EvidenceGate
import AgenticSDLC.Evidence.RecordFormat

/-!
# Independently witnessed evidence

What `check_slice` accepts, over a ledger with a list of sessions: a valid record whose
hash is that of the artifact, and two different sessions that the ledger has.  Ids count
by their normal form only, so neither the case of ASCII letters nor white space around an
id matters.
-/

namespace AgenticSDLC.EvidenceGate

open Python (Stdlib)

/-- The ledger has a list of sessions. -/
def Lists (ledger : List (String × Json)) (sessions : List Json) : Prop :=
  ledger.lookup "sessions" = some (.arr sessions)

/-- The two sessions of a record, present, different and known. -/
structure Sessions (evidence : List (String × Json)) (sessions : List Json) : Prop where
  verifier : normSession (Python.get evidence "verifier_session_id") ≠ ""
  implementer : normSession (Python.get evidence "implementer_session_id") ≠ ""
  distinct : normSession (Python.get evidence "verifier_session_id") ≠
    normSession (Python.get evidence "implementer_session_id")
  verifierListed : ∃ session ∈ sessions,
    normSession session = normSession (Python.get evidence "verifier_session_id")
  implementerListed : ∃ session ∈ sessions,
    normSession session = normSession (Python.get evidence "implementer_session_id")

/-- The record is valid, has the hash of the artifact, and two sessions of the ledger. -/
structure Witnessed (py : Stdlib) (evidence : Json) (artifact : String) (sessions : List Json) :
    Prop where
  valid : EvidenceCollector.validateEvidenceRecord py evidence = true
  record : ∃ members, evidence = .obj members ∧
    Python.get members "output_hash" = .str ("sha256:" ++ py.sha256 artifact) ∧
      Sessions members sessions

/-! ## Acceptance -/

section Acceptance

variable {py : Stdlib} {ledger : List (String × Json)} {sessions : List Json}

theorem mem_ledgerSessions (h : Lists ledger sessions) :
    ∃ valid, ledgerSessions (.obj ledger) = .ok valid ∧
      ∀ norm, norm ∈ valid ↔ norm ≠ "" ∧ ∃ session ∈ sessions, normSession session = norm := by
  have hget : Python.getD ledger "sessions" (.arr []) = .arr sessions := by
    rw [Python.getD, h, Option.getD_some]
  refine ⟨(sessions.map normSession).filter (· ≠ ""), ?_, fun norm ↦ ?_⟩
  · rw [ledgerSessions, Python.asDict, Outcome.ok_bind, hget, Python.iterate, Outcome.ok_bind]
    rfl
  · rw [List.mem_filter, List.mem_map, and_comm, decide_eq_true_eq]

/-- The session checks pass for two different sessions of the ledger. -/
theorem checkSessions_accepted_iff (h : Lists ledger sessions) (evidence : List (String × Json)) :
    (∃ verdict, checkSessions evidence (.obj ledger) = .ok verdict ∧ verdict.accepted = true) ↔
      Sessions evidence sessions := by
  obtain ⟨valid, hvalid, hmem⟩ := mem_ledgerSessions h
  rw [checkSessions, hvalid]
  generalize hvs : normSession (Python.get evidence "verifier_session_id") = vs
  generalize his : normSession (Python.get evidence "implementer_session_id") = is
  split_ifs with hempty hsame
  · refine iff_of_false ?_ fun hsessions ↦ ?_
    · rintro ⟨verdict, hverdict, haccepted⟩
      obtain rfl := Except.ok.inj hverdict
      cases haccepted
    · rcases hempty with hnone | hnone
      · exact hsessions.verifier (hvs.trans hnone)
      · exact hsessions.implementer (his.trans hnone)
  · refine iff_of_false ?_ fun hsessions ↦ hsessions.distinct (by rw [hvs, his, hsame])
    rintro ⟨verdict, hverdict, haccepted⟩
    obtain rfl := Except.ok.inj hverdict
    cases haccepted
  · obtain ⟨hvs', his'⟩ := not_or.mp hempty
    rw [Outcome.ok_bind]
    split_ifs with hunknown
    · refine iff_of_false ?_ fun hsessions ↦ ?_
      · rintro ⟨verdict, hverdict, haccepted⟩
        obtain rfl := Except.ok.inj hverdict
        cases haccepted
      · rcases hunknown with hnot | hnot
        · exact hnot ((hmem vs).mpr ⟨hvs', hvs ▸ hsessions.verifierListed⟩)
        · exact hnot ((hmem is).mpr ⟨his', his ▸ hsessions.implementerListed⟩)
    · obtain ⟨hv, hi⟩ := not_or.mp hunknown
      refine iff_of_true ⟨_, rfl, rfl⟩ ⟨?_, ?_, ?_, ?_, ?_⟩
      · rwa [hvs]
      · rwa [his]
      · rwa [hvs, his]
      · rw [hvs]
        exact ((hmem vs).mp (not_not.mp hv)).2
      · rw [his]
        exact ((hmem is).mp (not_not.mp hi)).2

theorem checkSlice_accepted_iff (h : Lists ledger sessions) (evidence : Json) (artifact : String) :
    (checkSlice py evidence (some artifact) (.obj ledger)).accepted = true ↔
      Witnessed py evidence artifact sessions := by
  constructor
  · intro haccepted
    have hvalid := valid_of_accepted py haccepted
    obtain ⟨members, text, rfl, htext, hhash⟩ := exists_artifact_of_accepted py haccepted
    obtain rfl := Option.some.inj htext
    refine ⟨hvalid, members, rfl, hhash, (checkSessions_accepted_iff h members).mp ?_⟩
    unfold checkSlice at haccepted
    split_ifs at haccepted with hempty hmalformed
    · cases haccepted
    · rw [hvalid] at hmalformed
      cases hmalformed
    · simp only [hhash, if_true] at haccepted
      cases hcheck : checkSessions members (.obj ledger) with
      | ok verdict => exact ⟨verdict, rfl, by simpa [hcheck] using haccepted⟩
      | error exc =>
          rw [hcheck] at haccepted
          cases haccepted
  · rintro ⟨hvalid, members, rfl, hhash, hsessions⟩
    obtain ⟨verdict, hverdict, haccepted⟩ := (checkSessions_accepted_iff h members).mpr hsessions
    have htruthy : Python.truthy (.obj members) = true := by
      cases members with
      | nil => cases hhash
      | cons member members => rfl
    simp only [checkSlice, htruthy, hvalid, Bool.not_true, Bool.false_eq_true, if_false, rederive,
      hhash, if_true, hverdict, haccepted]

end Acceptance

/-! ## Ids of one session -/

def White (s : String) : Prop := ∀ c ∈ s.toList, Python.isspace c = true

/-- The text is `core` with white space around it. -/
def Padded (core s : String) : Prop :=
  ∃ left right, White left ∧ White right ∧ s = left ++ core ++ right

/-- Two ids that are one up to ASCII case and surrounding white space. -/
def SameId (id other : Json) : Prop :=
  id = other ∨ ∃ s t core core', id = .str s ∧ other = .str t ∧ Padded core s ∧ Padded core' t ∧
    Text.asciiLower core = Text.asciiLower core'

theorem isspace_toLower (c : Char) : Python.isspace c.toLower = Python.isspace c := by
  have hlower := Text.toNat_toLower c
  split_ifs at hlower with hupper
  · have hno : Python.isspace c = false := by
      rw [Bool.eq_false_iff]
      intro h
      simp only [Python.isspace, Bool.or_eq_true, Bool.and_eq_true, decide_eq_true_eq,
        beq_iff_eq] at h
      omega
    rw [hno, Bool.eq_false_iff]
    intro h
    simp only [Python.isspace, hlower, Bool.or_eq_true, Bool.and_eq_true, decide_eq_true_eq,
      beq_iff_eq] at h
    omega
  · simp only [Python.isspace, hlower]

/-- The normal form of a text, by its stripped text in lower case. -/
theorem normSession_str (s : String) : normSession (.str s) =
    if Python.strip (Text.asciiLower s) = "" || !Text.isAscii (Python.strip (Text.asciiLower s)) then
      ""
    else Python.strip (Text.asciiLower s) := by
  have hstrip : Python.strip (Text.asciiLower s) = Text.asciiLower (Python.strip s) :=
    Text.trim_asciiLower isspace_toLower s
  simp only [normSession, CoverageGate.normSession, hstrip, Text.isAscii_asciiLower,
    Text.asciiLower_eq_empty_iff, Python.casefold]

theorem strip_asciiLower_of_padded {core s : String} (h : Padded core s) :
    Python.strip (Text.asciiLower s) = Python.strip (Text.asciiLower core) := by
  obtain ⟨left, right, hleft, hright, rfl⟩ := h
  rw [Python.strip, Python.strip, Text.trim_asciiLower isspace_toLower,
    Text.trim_append hleft hright, ← Text.trim_asciiLower isspace_toLower]

theorem normSession_congr {id other : Json} (h : SameId id other) :
    normSession id = normSession other := by
  rcases h with rfl | ⟨s, t, core, core', rfl, rfl, hs, ht, hletters⟩
  · rfl
  · rw [normSession_str, normSession_str, strip_asciiLower_of_padded hs,
      strip_asciiLower_of_padded ht, hletters]

/-! ## Evidence that counts as the same -/

/-- Records with the same required fields. -/
def SameFields (members members' : List (String × Json)) : Prop :=
  ∀ field ∈ EvidenceCollector.requiredFields, Python.get members' field = Python.get members field

/-- Records with the same required fields and the same sessions. -/
structure SameEvidence (members members' : List (String × Json)) : Prop where
  fields : SameFields members members'
  verifier : SameId (Python.get members "verifier_session_id")
    (Python.get members' "verifier_session_id")
  implementer : SameId (Python.get members "implementer_session_id")
    (Python.get members' "implementer_session_id")

/-- Records with the same required fields and the two sessions exchanged. -/
structure Exchanged (members members' : List (String × Json)) : Prop where
  fields : SameFields members members'
  verifier : Python.get members' "verifier_session_id" =
    Python.get members "implementer_session_id"
  implementer : Python.get members' "implementer_session_id" =
    Python.get members "verifier_session_id"

section Same

variable {py : Stdlib} {members members' : List (String × Json)} {sessions sessions' : List Json}

theorem validateEvidenceRecord_congr (h : SameFields members members') :
    EvidenceCollector.validateEvidenceRecord py (.obj members') =
      EvidenceCollector.validateEvidenceRecord py (.obj members) := by
  have hpresent : EvidenceCollector.requiredFields.all (EvidenceCollector.fieldPresent members') =
      EvidenceCollector.requiredFields.all (EvidenceCollector.fieldPresent members) := by
    rw [Bool.eq_iff_iff, List.all_eq_true, List.all_eq_true]
    refine forall₂_congr fun field hfield ↦ ?_
    rw [EvidenceCollector.fieldPresent, EvidenceCollector.fieldPresent, h field hfield]
  rw [EvidenceCollector.validateEvidenceRecord, EvidenceCollector.validateEvidenceRecord, hpresent,
    h "output_hash" (by simp [EvidenceCollector.requiredFields]),
    h "collected_at" (by simp [EvidenceCollector.requiredFields])]

theorem exists_session_congr (h : List.Forall₂ SameId sessions sessions') (norm : String) :
    (∃ session ∈ sessions', normSession session = norm) ↔
      ∃ session ∈ sessions, normSession session = norm := by
  have hmap : sessions.map normSession = sessions'.map normSession := by
    induction h with
    | nil => rfl
    | cons hsame _ ih => rw [List.map_cons, List.map_cons, normSession_congr hsame, ih]
  simp only [← List.mem_map, hmap]

theorem Sessions.congr (h : SameEvidence members members')
    (hsessions : List.Forall₂ SameId sessions sessions') :
    Sessions members' sessions' ↔ Sessions members sessions := by
  have hverifier := normSession_congr h.verifier
  have himplementer := normSession_congr h.implementer
  constructor
  · rintro ⟨hv, hi, hdistinct, hvlisted, hilisted⟩
    rw [← hverifier, ← himplementer] at hdistinct
    rw [← hverifier, exists_session_congr hsessions] at hvlisted
    rw [← himplementer, exists_session_congr hsessions] at hilisted
    exact ⟨hverifier ▸ hv, himplementer ▸ hi, hdistinct, hvlisted, hilisted⟩
  · rintro ⟨hv, hi, hdistinct, hvlisted, hilisted⟩
    rw [hverifier, himplementer] at hdistinct
    rw [← exists_session_congr hsessions, hverifier] at hvlisted
    rw [← exists_session_congr hsessions, himplementer] at hilisted
    exact ⟨hverifier ▸ hv, himplementer ▸ hi, hdistinct, hvlisted, hilisted⟩

theorem Sessions.exchange (h : Exchanged members members') (hsessions : Sessions members sessions) :
    Sessions members' sessions := by
  obtain ⟨hv, hi, hdistinct, hvlisted, hilisted⟩ := hsessions
  refine ⟨?_, ?_, ?_, ?_, ?_⟩
  · rwa [h.verifier]
  · rwa [h.implementer]
  · rw [h.verifier, h.implementer]
    exact hdistinct.symm
  · rwa [h.verifier]
  · rwa [h.implementer]

theorem Sessions.mono (h : Sessions members sessions) (hsub : sessions ⊆ sessions') :
    Sessions members sessions' := by
  obtain ⟨hv, hi, hdistinct, ⟨session, hmem, hsession⟩, other, hother, hnorm⟩ := h
  exact ⟨hv, hi, hdistinct, ⟨session, hsub hmem, hsession⟩, other, hsub hother, hnorm⟩

theorem Exchanged.symm (h : Exchanged members members') : Exchanged members' members :=
  ⟨fun field hfield ↦ (h.fields field hfield).symm, h.implementer.symm, h.verifier.symm⟩

/-- Of the record only its required fields and its sessions count. -/
theorem witnessed_congr (hfields : SameFields members members')
    (hsessions : Sessions members' sessions' ↔ Sessions members sessions) (artifact : String) :
    Witnessed py (.obj members') artifact sessions' ↔
      Witnessed py (.obj members) artifact sessions := by
  have hvalid := @validateEvidenceRecord_congr py members members' hfields
  have hhash := hfields "output_hash" (by simp [EvidenceCollector.requiredFields])
  constructor
  · rintro ⟨hrecord, _, heq, hbound, hboth⟩
    obtain rfl := Json.obj.inj heq
    exact ⟨hvalid ▸ hrecord, members, rfl, hhash ▸ hbound, hsessions.mp hboth⟩
  · rintro ⟨hrecord, _, heq, hbound, hboth⟩
    obtain rfl := Json.obj.inj heq
    exact ⟨hvalid ▸ hrecord, members', rfl, hhash ▸ hbound, hsessions.mpr hboth⟩

end Same

/-! ## The decision -/

/-- The gate accepts exactly the witnessed evidence.  So ids count up to ASCII case and
surrounding white space, the sessions may be exchanged, and more entries in the ledger
never make it reject. -/
theorem accepts_iff_witnessed (py : Stdlib) {ledger : List (String × Json)} {sessions : List Json}
    (h : Lists ledger sessions) (evidence : Json) (artifact : String) :
    ((checkSlice py evidence (some artifact) (.obj ledger)).accepted = true ↔
        Witnessed py evidence artifact sessions) ∧
      (∀ members members' ledger' sessions', evidence = .obj members →
        SameEvidence members members' → Lists ledger' sessions' →
          List.Forall₂ SameId sessions sessions' →
            (checkSlice py (.obj members') (some artifact) (.obj ledger')).accepted =
              (checkSlice py evidence (some artifact) (.obj ledger)).accepted) ∧
      (∀ members members', evidence = .obj members → Exchanged members members' →
        (checkSlice py (.obj members') (some artifact) (.obj ledger)).accepted =
          (checkSlice py evidence (some artifact) (.obj ledger)).accepted) ∧
      ∀ ledger' sessions', Lists ledger' sessions' → sessions ⊆ sessions' →
        (checkSlice py evidence (some artifact) (.obj ledger)).accepted = true →
          (checkSlice py evidence (some artifact) (.obj ledger')).accepted = true := by
  refine ⟨checkSlice_accepted_iff h evidence artifact, ?_, ?_, ?_⟩
  · rintro members members' ledger' sessions' rfl hsame hledger' hsessions
    rw [Bool.eq_iff_iff, checkSlice_accepted_iff h, checkSlice_accepted_iff hledger']
    exact witnessed_congr hsame.fields (Sessions.congr hsame hsessions) artifact
  · rintro members members' rfl hswap
    rw [Bool.eq_iff_iff, checkSlice_accepted_iff h, checkSlice_accepted_iff h]
    refine witnessed_congr hswap.fields ⟨?_, ?_⟩ artifact
    · exact Sessions.exchange hswap.symm
    · exact Sessions.exchange hswap
  · intro ledger' sessions' hledger' hsub haccepted
    obtain ⟨hvalid, members, rfl, hhash, hboth⟩ := (checkSlice_accepted_iff h _ artifact).mp haccepted
    refine (checkSlice_accepted_iff hledger' _ artifact).mpr ⟨hvalid, members, rfl, hhash, ?_⟩
    exact hboth.mono hsub

/-- A record under the ids `V-1` and `i-1`, which the ledger writes in another way. -/
def loginRecord : Json :=
  .obj [("test_file", .str "tests/test_login.py"), ("test_name", .str "test_login"),
    ("output_hash", .str (rederive EvidenceCollector.zeroLibrary "1 passed")),
    ("collected_at", .str "2025-01-01T00:00:00+00:00"), ("verifier_session_id", .str "V-1"),
    ("implementer_session_id", .str "i-1")]

def loginSessions : List Json := [.str " v-1", .str "I-1", .null]

def loginLedger : List (String × Json) := [("sessions", .arr loginSessions)]

theorem loginLedger_lists : Lists loginLedger loginSessions := by
  rw [Lists]
  rfl

theorem loginRecord_accepted_iff :
    (checkSlice EvidenceCollector.zeroLibrary loginRecord (some "1 passed")
        (.obj loginLedger)).accepted = true ↔
      Witnessed EvidenceCollector.zeroLibrary loginRecord "1 passed" loginSessions :=
  (accepts_iff_witnessed EvidenceCollector.zeroLibrary loginLedger_lists loginRecord "1 passed").1

end AgenticSDLC.EvidenceGate
