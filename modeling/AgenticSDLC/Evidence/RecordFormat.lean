import AgenticSDLC.Evidence.EvidenceCollector

/-!
# The records that the validator accepts

`validate_evidence_record` asks for four filled fields, a hash and a timestamp with an
offset.  The pattern of the hash ends in `$`, which also matches before a final line feed,
so a hash with one more character passes.
-/

namespace AgenticSDLC.EvidenceCollector

open Python (Stdlib)

def IsDigest (digits : List Char) : Prop :=
  digits.length = 64 ∧ ∀ c ∈ digits, isLowerHex c = true

/-- `sha256:` and 64 lowercase hexadecimal digits. -/
def IsHash (text : String) : Prop :=
  ∃ digits, IsDigest digits ∧ text.toList = "sha256:".toList ++ digits

/-- A hash and a line feed. -/
def IsHashLine (text : String) : Prop :=
  ∃ digits, IsDigest digits ∧ text.toList = "sha256:".toList ++ digits ++ ['\n']

/-- Four filled fields, a hash as `accepts` has it, and a timestamp with an offset. -/
structure IsRecord (py : Stdlib) (accepts : String → Prop) (members : List (String × Json)) :
    Prop where
  filled : ∀ field ∈ requiredFields, ∃ text, Python.get members field = .str text ∧
    Python.strip text ≠ ""
  hash : ∃ text, Python.get members "output_hash" = .str text ∧ accepts text
  timestamp : ∃ text, Python.get members "collected_at" = .str text ∧
    py.fromisoformat text = some true

def WellFormed (py : Stdlib) (record : Json) : Prop :=
  ∃ members, record = .obj members ∧ IsRecord py IsHash members

/-- Well formed but for a line feed after the hash. -/
def HashEndsInLineFeed (py : Stdlib) (record : Json) : Prop :=
  ∃ members, record = .obj members ∧ IsRecord py IsHashLine members

/-! ## The hash -/

theorem take_drop_of_digest {cs digits rest : List Char} (hlength : digits.length = 64)
    (hcs : cs = "sha256:".toList ++ digits ++ rest) :
    cs.take 7 = "sha256:".toList ∧ (cs.drop 7).take 64 = digits ∧ cs.drop 71 = rest := by
  have hmark : "sha256:".toList.length = 7 := by decide
  have hdrop : cs.drop 7 = digits ++ rest := by
    rw [hcs, List.append_assoc, ← hmark, List.drop_left]
  refine ⟨?_, ?_, ?_⟩
  · rw [hcs, List.append_assoc, ← hmark, List.take_left]
  · rw [hdrop, ← hlength, List.take_left]
  · rw [show 71 = 7 + 64 from rfl, ← List.drop_drop, hdrop, ← hlength, List.drop_left]

theorem exists_digest_iff (cs rest : List Char) :
    (∃ digits, IsDigest digits ∧ cs = "sha256:".toList ++ digits ++ rest) ↔
      cs.take 7 = "sha256:".toList ∧ IsDigest ((cs.drop 7).take 64) ∧ cs.drop 71 = rest := by
  constructor
  · rintro ⟨digits, hdigits, hcs⟩
    obtain ⟨hmark, hhex, hrest⟩ := take_drop_of_digest hdigits.1 hcs
    exact ⟨hmark, hhex ▸ hdigits, hrest⟩
  · rintro ⟨hmark, hdigits, hrest⟩
    refine ⟨_, hdigits, ?_⟩
    rw [← hmark, ← hrest, List.append_assoc, show 71 = 7 + 64 from rfl, ← List.drop_drop,
      List.take_append_drop, List.take_append_drop]

/-- The pattern matches a hash, and a hash before a line feed at the end. -/
theorem outputHashMatches_iff (text : String) :
    outputHashMatches text = true ↔ IsHash text ∨ IsHashLine text := by
  have hhash : IsHash text ↔ ∃ digits, IsDigest digits ∧
      text.toList = "sha256:".toList ++ digits ++ [] := by
    simp only [IsHash, List.append_nil]
  rw [hhash, IsHashLine, exists_digest_iff, exists_digest_iff, outputHashMatches]
  simp only [Bool.and_eq_true, Bool.or_eq_true, decide_eq_true_eq, List.all_eq_true, IsDigest]
  tauto

theorem not_isHash_of_isHashLine {text : String} (h : IsHashLine text) : ¬IsHash text := by
  obtain ⟨digits, hdigits, htext⟩ := h
  rintro ⟨digits', hdigits', htext'⟩
  have hlength := congrArg List.length (htext.symm.trans htext')
  simp only [List.length_append, hdigits.1, hdigits'.1, List.length_singleton] at hlength
  omega

/-! ## Records -/

section Records

variable (py : Stdlib)

theorem fieldPresent_iff (members : List (String × Json)) (field : String) :
    fieldPresent members field = true ↔
      ∃ text, Python.get members field = .str text ∧ Python.strip text ≠ "" := by
  rw [fieldPresent]
  cases Python.get members field with
  | str text => simp
  | _ => simp

theorem validateEvidenceRecord_iff (record : Json) :
    validateEvidenceRecord py record = true ↔ ∃ members, record = .obj members ∧
      IsRecord py (fun text ↦ outputHashMatches text = true) members := by
  cases record with
  | obj members =>
      rw [validateEvidenceRecord, Bool.and_eq_true, List.all_eq_true]
      simp only [fieldPresent_iff]
      constructor
      · rintro ⟨hfilled, hformat⟩
        obtain ⟨hash, hhash, -⟩ := hfilled "output_hash" (by simp [requiredFields])
        obtain ⟨time, htime, -⟩ := hfilled "collected_at" (by simp [requiredFields])
        rw [hhash, htime] at hformat
        rw [Bool.and_eq_true, decide_eq_true_eq] at hformat
        exact ⟨members, Eq.refl _, hfilled, ⟨hash, hhash, hformat.1⟩, time, htime, hformat.2⟩
      · rintro ⟨members', hmembers, hfilled, ⟨hash, hhash, hmatches⟩, time, htime, haware⟩
        obtain rfl := Json.obj.inj hmembers
        refine ⟨hfilled, ?_⟩
        rw [hhash, htime]
        simp only [hmatches, haware, decide_true, Bool.and_self]
  | _ => simp [validateEvidenceRecord]

theorem isRecord_or {p q : String → Prop} {members : List (String × Json)} :
    IsRecord py (fun text ↦ p text ∨ q text) members ↔
      IsRecord py p members ∨ IsRecord py q members := by
  constructor
  · rintro ⟨hfilled, ⟨text, htext, hp | hq⟩, htime⟩
    · exact Or.inl ⟨hfilled, ⟨text, htext, hp⟩, htime⟩
    · exact Or.inr ⟨hfilled, ⟨text, htext, hq⟩, htime⟩
  · rintro (⟨hfilled, ⟨text, htext, hp⟩, htime⟩ | ⟨hfilled, ⟨text, htext, hq⟩, htime⟩)
    · exact ⟨hfilled, ⟨text, htext, Or.inl hp⟩, htime⟩
    · exact ⟨hfilled, ⟨text, htext, Or.inr hq⟩, htime⟩

/-- Accepted are the well-formed records and those with a line feed after the hash. -/
theorem accepted_iff (record : Json) : validateEvidenceRecord py record = true ↔
    WellFormed py record ∨ HashEndsInLineFeed py record := by
  rw [validateEvidenceRecord_iff]
  simp only [outputHashMatches_iff, isRecord_or, and_or_left, exists_or]
  rw [WellFormed, HashEndsInLineFeed]

theorem not_wellFormed_of_lineFeed {record : Json} (h : HashEndsInLineFeed py record) :
    ¬WellFormed py record := by
  obtain ⟨members, rfl, hline⟩ := h
  rintro ⟨members', hmembers, hrecord⟩
  obtain rfl := Json.obj.inj hmembers
  obtain ⟨text, htext, hhashline⟩ := hline.hash
  obtain ⟨text', htext', hhash⟩ := hrecord.hash
  obtain rfl := Json.str.inj (htext.symm.trans htext')
  exact not_isHash_of_isHashLine hhashline hhash

/-- The validator accepts just the well-formed records, unless a line feed follows the
hash of a record that has nothing else wrong. -/
theorem valid_iff_wellFormed_iff (record : Json) :
    (validateEvidenceRecord py record = true ↔ WellFormed py record) ↔
      ¬HashEndsInLineFeed py record := by
  rw [accepted_iff, or_iff_left_iff_imp]
  constructor
  · exact fun himp hline ↦ not_wellFormed_of_lineFeed py hline (himp hline)
  · exact fun hnot hline ↦ absurd hline hnot

end Records

/-! ## A hash and a line feed -/

def zeroLibrary : Stdlib where
  repr := fun _ ↦ ""
  sha256 := fun _ ↦ String.ofList (List.replicate 64 '0')
  fromisoformat := fun text ↦ if text = "2025-01-01T00:00:00+00:00" then some true else none

def lineFeedRecord : Json :=
  .obj [("test_file", .str "tests/test_login.py"), ("test_name", .str "test_login"),
    ("output_hash", .str ("sha256:" ++ String.ofList (List.replicate 64 '0') ++ "\n")),
    ("collected_at", .str "2025-01-01T00:00:00+00:00")]

theorem zeros_isDigest : IsDigest (List.replicate 64 '0') := by
  refine ⟨List.length_replicate, fun c hc ↦ ?_⟩
  rw [List.eq_of_mem_replicate hc]
  decide

theorem lineFeedRecord_accepted :
    validateEvidenceRecord zeroLibrary lineFeedRecord = true ∧
      ¬WellFormed zeroLibrary lineFeedRecord := by
  have hline : HashEndsInLineFeed zeroLibrary lineFeedRecord := by
    refine ⟨_, Eq.refl _, ?_, ⟨_, Eq.refl _, List.replicate 64 '0', zeros_isDigest, by decide⟩, ?_⟩
    · simp only [requiredFields, List.forall_mem_cons]
      exact ⟨⟨_, Eq.refl _, by decide⟩, ⟨_, Eq.refl _, by decide⟩, ⟨_, Eq.refl _, by decide⟩,
        ⟨_, Eq.refl _, by decide⟩, by simp⟩
    · exact ⟨_, Eq.refl _, by decide⟩
  exact ⟨(accepted_iff zeroLibrary _).mpr (Or.inr hline),
    not_wellFormed_of_lineFeed zeroLibrary hline⟩

end AgenticSDLC.EvidenceCollector
