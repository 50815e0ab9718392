import AgenticSDLC.Foundations.JsonLineBreaks

/-!
# Structured output on the wire

`tools/structured_output.py`: the parameters of a tool call as JSON lines, one record for each,
and the reader that puts them together again.
-/

namespace AgenticSDLC.StructuredOutput

open Json (Place)
open Python (Key)
open Text (isLineBreak)

def isArray : Json → Bool
  | .arr _ => true
  | _ => false

def record (kind : String) (param : String × Json) : Json :=
  .obj [("name", .str param.1), ("kind", .str kind), ("value", param.2)]

/-- `json.dumps(record, ensure_ascii=False)`. -/
def recordText (repr : Json → String) (value : Json) : String :=
  String.ofList (Json.laidOut Json.canonicalQuoting repr .space value)

/-- The scalar parameters, and then the arrays. -/
def encodeToolInput (repr : Json → String) (params : List (String × Json)) : String :=
  let scalarRecords := (params.filter fun param ↦ !isArray param.2).map (record "scalar")
  let arrayRecords := (params.filter fun param ↦ isArray param.2).map (record "array")
  "\n".intercalate ((scalarRecords ++ arrayRecords).map (recordText repr))

/-- One line of the wire, or nothing where reading it raises. -/
def decodeLine (toFloat : String → Json) (out : List (Key × Json)) (line : List Char) :
    Option (List (Key × Json)) :=
  let stripped := Python.strip (String.ofList line)
  if stripped = "" then some out
  else do
    let record ← Json.loads toFloat stripped
    let value ← (Python.subscript record "value").toOption
    let name ← (Python.subscript record "name").toOption
    let key ← (Python.hashKey name).toOption
    return Dict.set key value out

def decodeToolInput (toFloat : String → Json) (wire : String) : Option (List (Key × Json)) :=
  (Text.splitlines wire.toList).foldlM (decodeLine toFloat) []

/-! ## What comes back -/

/-- The wire of the parameters decodes to the dictionary of them. -/
def RoundTrips (repr : Json → String) (toFloat : String → Json) (params : List (String × Json)) :
    Prop :=
  ∃ out, decodeToolInput toFloat (encodeToolInput repr params) = some out ∧
    out.Perm (params.map fun param ↦ (.str param.1, param.2))

/-- No name, key or string of the parameters has one of the three separators. -/
def Unseparated (params : List (String × Json)) : Prop :=
  ∀ param ∈ params, ∀ s ∈ param.1 :: param.2.strings, ¬Json.Separated s.toList

/-- The parameters in the order of the wire. -/
def ordered (params : List (String × Json)) : List (String × Json) :=
  (params.filter fun param ↦ !isArray param.2) ++ params.filter fun param ↦ isArray param.2

def recordOf (param : String × Json) : Json :=
  record (if isArray param.2 then "array" else "scalar") param

theorem perm_ordered (params : List (String × Json)) : (ordered params).Perm params := by
  have hperm := List.filter_append_perm (fun param : String × Json ↦ !isArray param.2) params
  simpa [ordered] using hperm

theorem encodeToolInput_eq (repr : Json → String) (params : List (String × Json)) :
    encodeToolInput repr params =
      "\n".intercalate ((ordered params).map fun param ↦ recordText repr (recordOf param)) := by
  have hscalars : (params.filter fun param ↦ !isArray param.2).map (record "scalar") =
      (params.filter fun param ↦ !isArray param.2).map recordOf := by
    apply List.map_congr_left
    intro param hparam
    have hkind := (List.mem_filter.mp hparam).2
    rw [Bool.not_eq_true'] at hkind
    rw [recordOf, hkind]
    rfl
  have harrays : (params.filter fun param ↦ isArray param.2).map (record "array") =
      (params.filter fun param ↦ isArray param.2).map recordOf := by
    apply List.map_congr_left
    intro param hparam
    rw [recordOf, (List.mem_filter.mp hparam).2]
    rfl
  rw [encodeToolInput, hscalars, harrays, ← List.map_append, List.map_map]
  rfl

variable {repr : Json → String} {toFloat : String → Json} {params : List (String × Json)}

theorem native_recordOf {P : Decimal → Prop} {param : String × Json} (h : param.2.Native P) :
    (recordOf param).Native P := by
  rw [recordOf, record, Json.native_obj_iff]
  refine ⟨by simp, ?_⟩
  simp [Json.Native, h]

theorem strings_recordOf (param : String × Json) :
    (∃ s ∈ (recordOf param).strings, Json.Separated s.toList) ↔
      ∃ s ∈ param.1 :: param.2.strings, Json.Separated s.toList := by
  have hfixed : ∀ s ∈ ["name", "kind", "value", "array", "scalar"], ¬Json.Separated s.toList :=
    Text.forall_mem_of_all (by decide)
  have hkind : ¬Json.Separated (if isArray param.2 then "array" else "scalar").toList := by
    split_ifs
    · exact hfixed "array" (by simp)
    · exact hfixed "scalar" (by simp)
  simp only [recordOf, record, Json.strings, Json.stringsMembers, List.cons_append, List.nil_append,
    List.append_nil, List.exists_mem_cons_iff, hkind, hfixed "name" (by simp),
    hfixed "kind" (by simp), hfixed "value" (by simp), false_or]

/-! ## One record -/

section Record

variable (hfloats : Json.FloatTexts repr toFloat) {param : String × Json}
  (hnative : param.2.Native fun _ ↦ True)

include hfloats hnative

theorem carries_recordText :
    Json.Carries .outside (recordText repr (recordOf param)).toList (recordOf param).strings := by
  rw [recordText, String.toList_ofList]
  exact Json.carries_laidOut hfloats _
    (native_recordOf (Json.Native.imp (fun x _ ↦ hfloats.readsFloat x) _ hnative))

theorem broken_recordText :
    (∃ c ∈ (recordText repr (recordOf param)).toList, isLineBreak c = true) ↔
      ∃ s ∈ param.1 :: param.2.strings, Json.Separated s.toList :=
  (carries_recordText hfloats hnative).broken.trans (strings_recordOf param)

/-- A whole record is put under its name. -/
theorem decodeLine_recordText (out : List (Key × Json)) :
    decodeLine toFloat out (recordText repr (recordOf param)).toList =
      some (Dict.set (.str param.1) param.2 out) := by
  have hstrip : Python.strip (recordText repr (recordOf param)) =
      recordText repr (recordOf param) := Json.strip_laidOut _ _ _
  have hloads : Json.loads toFloat (recordText repr (recordOf param)) = some (recordOf param) :=
    Json.loads_laidOut _ _ _ _
      (native_recordOf (Json.Native.imp (fun x _ ↦ hfloats.readsFloat x) _ hnative))
  have hne : recordText repr (recordOf param) ≠ "" := by
    intro hempty
    have hnone : Json.loads toFloat "" = none := rfl
    rw [hempty, hnone] at hloads
    cases hloads
  rw [decodeLine, String.ofList_toList]
  simp only [hstrip, if_neg hne, hloads]
  rfl

end Record

/-! ## Lines that are cut -/

/-- A line that is skipped or read ends outside of its strings. -/
theorem after_of_decodeLine {out out' : List (Key × Json)} {line : List Char}
    (h : decodeLine toFloat out line = some out') : Place.outside.after line = .outside := by
  obtain ⟨left, right, htext, hleft, hright⟩ := Text.exists_trimEnds Python.isspace line
  have hspace : ∀ {text : List Char}, (∀ c ∈ text, Python.isspace c = true) →
      Place.outside.after text = .outside := by
    intro text htext
    apply Place.after_outside
    rintro c hc rfl
    exact absurd (htext _ hc) (by decide)
  have hstrip : Place.outside.after (Text.trimEnds Python.isspace line) = .outside := by
    rw [decodeLine] at h
    split_ifs at h with hempty
    · rw [Python.strip, Text.trim, String.toList_ofList, String.ofList_eq_empty_iff] at hempty
      rw [hempty]
      rfl
    · obtain ⟨record, hrecord, -⟩ := Option.bind_eq_some_iff.mp h
      have hafter := Json.after_of_loads hrecord
      rwa [Python.strip, Text.trim, String.toList_ofList, String.toList_ofList] at hafter
  rw [htext, Place.after_append, Place.after_append, hspace hleft, hstrip, hspace hright]

theorem after_of_foldlM {lines : List (List Char)} {out out' : List (Key × Json)}
    (h : lines.foldlM (decodeLine toFloat) out = some out') :
    ∀ line ∈ lines, Place.outside.after line = .outside := by
  induction lines generalizing out with
  | nil => simp
  | cons line lines ih =>
      rw [List.foldlM_cons] at h
      obtain ⟨next, hnext, hlines⟩ := Option.bind_eq_some_iff.mp h
      exact List.forall_mem_cons.mpr ⟨after_of_decodeLine hnext, ih hlines⟩

/-! ## Round trips -/

section RoundTrip

variable (hfloats : Json.FloatTexts repr toFloat) (hnames : (params.map Prod.fst).Nodup)
  (hnative : ∀ param ∈ params, param.2.Native fun _ ↦ True)

include hfloats hnative

theorem exists_broken_iff :
    (∃ line ∈ (ordered params).map fun param ↦ recordText repr (recordOf param),
      ∃ c ∈ line.toList, isLineBreak c = true) ↔ ¬Unseparated params := by
  have hmem : ∀ param, param ∈ ordered params ↔ param ∈ params := fun _ ↦
    (perm_ordered params).mem_iff
  simp only [Unseparated, not_forall, not_not, List.mem_map, exists_exists_and_eq_and, hmem]
  constructor
  · rintro ⟨param, hparam, hbroken⟩
    obtain ⟨s, hs, hseparated⟩ := (broken_recordText hfloats (hnative param hparam)).mp hbroken
    exact ⟨param, hparam, s, hs, hseparated⟩
  · rintro ⟨param, hparam, s, hs, hseparated⟩
    exact ⟨param, hparam, (broken_recordText hfloats (hnative param hparam)).mpr
      ⟨s, hs, hseparated⟩⟩

/-- A separator in a parameter cuts its record inside of a string, and the line is refused. -/
theorem decode_encode_of_separated (h : ¬Unseparated params) :
    decodeToolInput toFloat (encodeToolInput repr params) = none := by
  cases hdecode : decodeToolInput toFloat (encodeToolInput repr params) with
  | none => rfl
  | some out =>
      obtain ⟨line, hline, cut, c, rest, htext, hc, hcut⟩ := Text.exists_cut
        ((exists_broken_iff hfloats hnative).mpr h)
      rw [encodeToolInput_eq] at hdecode
      have houtside := after_of_foldlM hdecode cut hcut
      obtain ⟨param, hparam, rfl⟩ := List.mem_map.mp hline
      have hcarries :=
        carries_recordText hfloats (hnative param ((perm_ordered params).mem_iff.mp hparam))
      rw [htext] at hcarries
      rw [hcarries.within.after_eq hc] at houtside
      cases houtside

theorem decodeLines (out : List (Key × Json)) {records : List (String × Json)}
    (hrecords : ∀ param ∈ records, param ∈ params) :
    (records.map fun param ↦ (recordText repr (recordOf param)).toList).foldlM (decodeLine toFloat)
        out = some ((records.map fun param ↦ (Key.str param.1, param.2)).foldl
          (fun out item ↦ Dict.set item.1 item.2 out) out) := by
  induction records generalizing out with
  | nil => rfl
  | cons param records ih =>
      obtain ⟨hparam, hrest⟩ := List.forall_mem_cons.mp hrecords
      rw [List.map_cons, List.foldlM_cons, decodeLine_recordText hfloats (hnative param hparam)]
      exact ih _ hrest

include hnames

theorem decode_encode_of_unseparated (h : Unseparated params) :
    decodeToolInput toFloat (encodeToolInput repr params) =
      some ((ordered params).map fun param ↦ (.str param.1, param.2)) := by
  have hmem : ∀ param ∈ ordered params, param ∈ params := fun _ ↦ (perm_ordered params).mem_iff.mp
  have hlines : Text.splitlines (encodeToolInput repr params).toList =
      (ordered params).map fun param ↦ (recordText repr (recordOf param)).toList := by
    rw [encodeToolInput_eq, Text.splitlines_intercalate, List.map_map]
    · rfl
    · intro line hline
      refine ⟨?_, fun c hc ↦ eq_false_of_ne_true fun hbreak ↦ ?_⟩
      · obtain ⟨param, -, rfl⟩ := List.mem_map.mp hline
        simp [recordText, recordOf, record, Json.laidOut]
      · exact (exists_broken_iff hfloats hnative).mp ⟨line, hline, c, hc, hbreak⟩ h
  have hkeys : (((ordered params).map fun param ↦ (Key.str param.1, param.2)).map Prod.fst).Nodup := by
    have hordered : ((ordered params).map Prod.fst).Nodup :=
      ((perm_ordered params).map Prod.fst).nodup_iff.mpr hnames
    have hstr := hordered.map (f := Key.str) fun _ _ ↦ Key.str.inj
    rwa [List.map_map] at hstr ⊢
  rw [decodeToolInput, hlines, decodeLines hfloats hnative [] hmem, ← Dict.ofItems,
    Dict.ofItems_of_nodup hkeys]

/-- The wire decodes to the parameters exactly when none of their strings has one of the three
line separators that JSON text does not escape. -/
theorem roundTrips_iff : RoundTrips repr toFloat params ↔ Unseparated params := by
  constructor
  · rintro ⟨out, hdecode, -⟩
    by_contra hseparated
    rw [decode_encode_of_separated hfloats hnative hseparated] at hdecode
    cases hdecode
  · intro h
    exact ⟨_, decode_encode_of_unseparated hfloats hnames hnative h, (perm_ordered params).map _⟩

end RoundTrip

section Sample

def sampleParams : List (String × Json) :=
  [("key_findings", .arr [.str "finding A"]), ("count", .int 3), ("recommendations", .arr [])]

theorem native_sampleParams : ∀ param ∈ sampleParams, param.2.Native fun _ ↦ True := by
  simp [sampleParams, Json.Native, Json.NativeItems]

theorem roundTrips_sample :
    RoundTrips Json.scientificRepr (fun text ↦ Json.readScientific text.toList) sampleParams ↔
      Unseparated sampleParams :=
  roundTrips_iff Json.floatTexts_scientific (by decide) native_sampleParams

/-- A summary with a line separator in it. -/
def separatedParams : List (String × Json) := [("summary", .str "first\u2028second")]

/-- The record of such a summary is cut in two, and its first half is refused. -/
theorem not_roundTrips_separated :
    ¬RoundTrips Json.scientificRepr (fun text ↦ Json.readScientific text.toList)
      separatedParams := by
  rintro ⟨out, hdecode, -⟩
  have hseparated : ¬Unseparated separatedParams := by
    intro h
    have hsummary := h _ (List.mem_singleton.mpr rfl) "first\u2028second" (by simp [Json.strings])
    revert hsummary
    decide
  have hnative : ∀ param ∈ separatedParams, param.2.Native fun _ ↦ True := by
    simp [separatedParams, Json.Native]
  rw [decode_encode_of_separated Json.floatTexts_scientific hnative hseparated] at hdecode
  cases hdecode

end Sample

end AgenticSDLC.StructuredOutput
