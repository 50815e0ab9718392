import AgenticSDLC.Foundations.JsonReader

/-!
# Reading canonical JSON text

The canonical text of a value reads back, and so no two values have one text.  This takes
of floats that their `repr` is a literal of JSON and reads back as the float.
-/

namespace Json

/-! ## Strings -/

theorem readUnits_escapeChar (c : Char) (text : List Char) :
    readUnits ((escapeChar c).toList ++ text) = (readUnits text).map (consUnit c.toNat) := by
  unfold escapeChar
  split
  case h_8 hquote hslash _ _ _ _ _ =>
    split_ifs with hcontrol
    · have hhex : ("\\u00" ++ (hexDigit (c.toNat / 16)).toString ++
          (hexDigit (c.toNat % 16)).toString).toList = '\\' :: 'u' :: hexUnit c.toNat := by
        have hfirst : c.toNat / 4096 = 0 := by omega
        have hsecond : c.toNat / 256 % 16 = 0 := by omega
        have hthird : c.toNat / 16 % 16 = c.toNat / 16 := by omega
        rw [hexUnit, hfirst, hsecond, hthird]
        simp [hexDigit]
      rw [hhex]
      exact readUnits_hexUnit (by omega) text
    · have hchar : c.toString.toList = [c] := by simp
      rw [hchar]
      exact readUnits_char (fun h ↦ hquote (by rw [h]; rfl)) (fun h ↦ hslash (by rw [h]; rfl))
        (by omega) text
  all_goals
    rename_i hcode
    rw [hcode]
    exact readUnits_escape (by decide) rfl text

theorem readUnits_escapeChars (chars : List Char) (text : List Char) :
    readUnits (chars.flatMap (fun c ↦ (escapeChar c).toList) ++ '"' :: text) =
      some (chars.map Char.toNat, text) := by
  induction chars with
  | nil => exact readUnits_quote text
  | cons c chars ih =>
      rw [List.flatMap_cons, List.append_assoc, readUnits_escapeChar, ih]
      rfl

theorem joinUnits_toNat (chars : List Char) : joinUnits (chars.map Char.toNat) = some chars := by
  induction chars with
  | nil => rfl
  | cons c chars ih =>
      have hvalid := toNat_valid c
      have hhigh : isHigh c.toNat = false := by
        simp only [isHigh, Bool.and_eq_false_iff, decide_eq_false_iff_not]
        omega
      have hlow : isLow c.toNat = false := by
        simp only [isLow, Bool.and_eq_false_iff, decide_eq_false_iff_not]
        omega
      rw [List.map_cons, joinUnits.eq_def]
      simp only [hhigh, hlow, ih, Char.ofNat_toNat]
      rfl

def canonicalQuoting : Quoting where
  body s := s.toList.flatMap (fun c ↦ (escapeChar c).toList) ++ ['"']
  readString_body s text := by
    rw [List.append_assoc, readString]
    simp only [List.cons_append, List.nil_append, readUnits_escapeChars, Option.bind_eq_bind,
      Option.bind_some, joinUnits_toNat, String.ofList_toList]
    rfl

theorem toList_quote (s : String) : (quote s).toList = '"' :: canonicalQuoting.body s := by
  rw [quote, String.toList_append, String.toList_append, String.toList_join, List.flatMap_map]
  rfl

/-! ## The text from the left -/

section Text

variable (repr : Json → String)

/-- What comes between and after the texts of a list or an object. -/
theorem toList_intercalate (first : String) (rest : List String) :
    (",".intercalate (first :: rest)).toList =
      first.toList ++ (rest.map String.toList).flatMap (',' :: ·) := by
  induction rest generalizing first with
  | nil => simp
  | cons next rest ih =>
      rw [String.intercalate_cons_cons, String.toList_append, String.toList_append, ih next]
      simp

mutual

theorem toList_text : ∀ value : Json, (text repr value).toList = written canonicalQuoting repr value
  | .null | .bool true | .bool false => by
      rw [text, written]
      rfl
  | .int _ | .float _ => rfl
  | .str s => toList_quote s
  | .arr [] => by
      rw [text, itemTexts, written, String.intercalate_nil]
      rfl
  | .obj [] => by
      rw [text, memberTexts, written, String.intercalate_nil]
      rfl
  | .arr (item :: items) => by
      have hitems := toList_itemTexts items
      rw [text, itemTexts, String.toList_append, String.toList_append, toList_intercalate,
        toList_text item, written, ← hitems]
      simp
  | .obj ((key, value) :: members) => by
      have hmembers := toList_memberTexts members
      rw [text, memberTexts, String.toList_append, String.toList_append, toList_intercalate,
        String.toList_append, String.toList_append, toList_text value, toList_quote, written,
        ← hmembers]
      simp

theorem toList_itemTexts : ∀ items : List Json,
    ((itemTexts repr items).map String.toList).flatMap (',' :: ·) ++ [']'] =
      writtenItems canonicalQuoting repr items
  | [] => rfl
  | item :: items => by
      rw [itemTexts, List.map_cons, List.flatMap_cons, toList_text item, writtenItems,
        ← toList_itemTexts items]
      simp

theorem toList_memberTexts : ∀ members : List (String × Json),
    ((memberTexts repr members).map String.toList).flatMap (',' :: ·) ++ ['\x7d'] =
      writtenMembers canonicalQuoting repr members
  | [] => rfl
  | (key, value) :: members => by
      rw [memberTexts, List.map_cons, List.flatMap_cons, String.toList_append,
        String.toList_append, toList_text value, toList_quote, writtenMembers,
        ← toList_memberTexts members]
      simp

end

end Text

/-! ## Native values -/

section Native

variable {P Q : Decimal → Prop}

theorem nativeItems_iff {items : List Json} :
    NativeItems P items ↔ ∀ item ∈ items, item.Native P := by
  induction items with
  | nil => simp [NativeItems]
  | cons item items ih => simp [NativeItems, ih]

theorem nativeMembers_iff {members : List (String × Json)} :
    NativeMembers P members ↔ ∀ member ∈ members, member.2.Native P := by
  induction members with
  | nil => simp [NativeMembers]
  | cons member members ih =>
      obtain ⟨key, value⟩ := member
      simp [NativeMembers, ih]

theorem native_obj_iff {members : List (String × Json)} :
    (Json.obj members).Native P ↔
      (members.map Prod.fst).Nodup ∧ ∀ member ∈ members, member.2.Native P := by
  rw [Native, nativeMembers_iff]

theorem native_arr_iff {items : List Json} :
    (Json.arr items).Native P ↔ ∀ item ∈ items, item.Native P := by
  rw [Native, nativeItems_iff]

mutual

theorem Native.imp (h : ∀ x, P x → Q x) : ∀ value : Json, value.Native P → value.Native Q
  | .null, _ | .bool _, _ | .int _, _ | .str _, _ => trivial
  | .float x, hfloat => h x hfloat
  | .arr items, hitems => NativeItems.imp h items hitems
  | .obj members, hmembers => ⟨hmembers.1, NativeMembers.imp h members hmembers.2⟩

theorem NativeItems.imp (h : ∀ x, P x → Q x) : ∀ items : List Json, NativeItems P items →
    NativeItems Q items
  | [], _ => trivial
  | item :: items, hitems => ⟨Native.imp h item hitems.1, NativeItems.imp h items hitems.2⟩

theorem NativeMembers.imp (h : ∀ x, P x → Q x) : ∀ members : List (String × Json),
    NativeMembers P members → NativeMembers Q members
  | [], _ => trivial
  | (_, value) :: members, hmembers =>
      ⟨Native.imp h value hmembers.1, NativeMembers.imp h members hmembers.2⟩

end

mutual

/-- A value with distinct keys keeps them distinct in their order. -/
theorem native_sortKeys (h : ∀ x, P x → Q x) : ∀ value : Json, value.Native P →
    value.sortKeys.Native Q
  | .null, _ | .bool _, _ | .int _, _ | .str _, _ => trivial
  | .float x, hfloat => h x hfloat
  | .arr items, hitems => by
      rw [sortKeys_arr, native_arr_iff, List.forall_mem_map]
      exact native_sortItems h items hitems
  | .obj members, hmembers => by
      have hperm := Python.perm_sortedBy Prod.fst (members.map fun m ↦ (m.1, m.2.sortKeys))
      have hkeys : ((members.map fun m ↦ (m.1, m.2.sortKeys)).map Prod.fst) =
          members.map Prod.fst := by simp
      rw [sortKeys_obj, native_obj_iff]
      refine ⟨?_, fun member hmember ↦ ?_⟩
      · rw [(hperm.map Prod.fst).nodup_iff, hkeys]
        exact hmembers.1
      · obtain ⟨m, hm, rfl⟩ := List.mem_map.mp (hperm.mem_iff.mp hmember)
        exact native_sortMembers h members hmembers.2 m hm

theorem native_sortItems (h : ∀ x, P x → Q x) : ∀ items : List Json, NativeItems P items →
    ∀ item ∈ items, item.sortKeys.Native Q
  | [], _ => by simp
  | item :: items, hitems => by
      rw [List.forall_mem_cons]
      exact ⟨native_sortKeys h item hitems.1, native_sortItems h items hitems.2⟩

theorem native_sortMembers (h : ∀ x, P x → Q x) : ∀ members : List (String × Json),
    NativeMembers P members → ∀ member ∈ members, member.2.sortKeys.Native Q
  | [], _ => by simp
  | (key, value) :: members, hmembers => by
      rw [List.forall_mem_cons]
      exact ⟨native_sortKeys h value hmembers.1, native_sortMembers h members hmembers.2⟩

end

/-! ## What the reader gives -/

section Reader

variable {toFloat : String → Json}

theorem native_readUnsigned (hfloat : ∀ text, (toFloat text).Native P) {sign text : List Char} {value : Json} {rest : List Char}
    (h : readUnsigned toFloat sign text = some (value, rest)) : value.Native P := by
  simp only [readUnsigned] at h
  generalize (if (text.takeWhile Char.isDigit).head? = some '0' then ['0']
    else text.takeWhile Char.isDigit) = whole at h
  split_ifs at h
  · cases h
    trivial
  · cases h
    trivial
  · cases h
    exact hfloat _

theorem native_readWord (hfloat : ∀ text, (toFloat text).Native P) {text : List Char} {value : Json} {rest : List Char}
    (h : readWord toFloat text = some (value, rest)) : value.Native P := by
  rw [readWord] at h
  split_ifs at h
  · cases h
    trivial
  · cases h
    trivial
  · cases h
    trivial
  · rw [readNumber] at h
    split_ifs at h
    · exact native_readUnsigned hfloat h
    · exact native_readUnsigned hfloat h

mutual

theorem native_readValue (hfloat : ∀ text, (toFloat text).Native P) : ∀ (fuel : ℕ)
    (text : List Char) {value : Json} {rest : List Char},
    readValue toFloat fuel text = some (value, rest) → value.Native P
  | 0, _, _, _, h => by cases h
  | fuel + 1, text, value, rest, h => by
      rw [readValue] at h
      split at h
      · cases h
      · split_ifs at h
        · obtain ⟨⟨s, after⟩, -, hs⟩ := Option.bind_eq_some_iff.mp h
          cases hs
          trivial
        · cases h
          trivial
        · obtain ⟨⟨items, after⟩, hitems, hvalue⟩ := Option.bind_eq_some_iff.mp h
          cases hvalue
          rw [native_arr_iff]
          exact native_readItems hfloat fuel _ hitems
        · cases h
          exact ⟨List.nodup_nil, trivial⟩
        · obtain ⟨⟨members, after⟩, hmembers, hvalue⟩ := Option.bind_eq_some_iff.mp h
          cases hvalue
          rw [native_obj_iff]
          refine ⟨Dict.nodup_ofItems members, fun member hmember ↦ ?_⟩
          exact native_readMembers hfloat fuel _ hmembers member (Dict.mem_of_mem_ofItems hmember)
        · exact native_readWord hfloat h

theorem native_readItems (hfloat : ∀ text, (toFloat text).Native P) : ∀ (fuel : ℕ)
    (text : List Char) {items : List Json} {rest : List Char},
    readItems toFloat fuel text = some (items, rest) → ∀ item ∈ items, item.Native P
  | 0, _, _, _, h => by cases h
  | fuel + 1, text, items, rest, h => by
      rw [readItems] at h
      obtain ⟨⟨item, after⟩, hitem, hafter⟩ := Option.bind_eq_some_iff.mp h
      have hfirst := native_readValue hfloat fuel text hitem
      simp only at hafter
      split at hafter
      · cases hafter
      · split_ifs at hafter
        · cases hafter
          exact List.forall_mem_singleton.mpr hfirst
        · obtain ⟨⟨others, last⟩, hothers, hvalue⟩ := Option.bind_eq_some_iff.mp hafter
          cases hvalue
          exact List.forall_mem_cons.mpr ⟨hfirst, native_readItems hfloat fuel _ hothers⟩

theorem native_readMembers (hfloat : ∀ text, (toFloat text).Native P) : ∀ (fuel : ℕ)
    (text : List Char) {members : List (String × Json)} {rest : List Char},
    readMembers toFloat fuel text = some (members, rest) →
      ∀ member ∈ members, member.2.Native P
  | 0, _, _, _, h => by cases h
  | fuel + 1, text, members, rest, h => by
      rw [readMembers] at h
      obtain ⟨afterQuote, -, h⟩ := Option.bind_eq_some_iff.mp h
      obtain ⟨⟨key, afterKey⟩, -, h⟩ := Option.bind_eq_some_iff.mp h
      obtain ⟨afterColon, -, h⟩ := Option.bind_eq_some_iff.mp h
      obtain ⟨⟨value, after⟩, hvalue, hafter⟩ := Option.bind_eq_some_iff.mp h
      have hfirst := native_readValue hfloat fuel afterColon hvalue
      simp only at hafter
      split at hafter
      · cases hafter
      · split_ifs at hafter
        · cases hafter
          exact List.forall_mem_singleton.mpr hfirst
        · obtain ⟨⟨others, last⟩, hothers, hresult⟩ := Option.bind_eq_some_iff.mp hafter
          cases hresult
          exact List.forall_mem_cons.mpr ⟨hfirst, native_readMembers hfloat fuel _ hothers⟩

end

/-- A text that is read gives no object with a key twice. -/
theorem native_of_loads (hfloat : ∀ text, (toFloat text).Native P) {text : String} {value : Json}
    (h : loads toFloat text = some value) :
    value.Native P := by
  obtain ⟨⟨read, rest⟩, hread, hvalue⟩ := Option.bind_eq_some_iff.mp h
  simp only at hvalue
  split_ifs at hvalue
  rw [← Option.some.inj hvalue]
  exact native_readValue hfloat _ _ hread

end Reader

end Native

/-! ## Members of sorted objects -/

/-- Sorting the keys of an object does not move a value to another key. -/
theorem lookup_sortedMembers {members : List (String × Json)}
    (h : (members.map Prod.fst).Nodup) (key : String) :
    (Python.sortedBy Prod.fst (members.map fun m ↦ (m.1, m.2.sortKeys))).lookup key =
      (members.lookup key).map sortKeys := by
  have hkeys : (members.map fun m ↦ (m.1, m.2.sortKeys)).map Prod.fst = members.map Prod.fst := by
    simp
  have hlookup : (members.map fun m ↦ (m.1, m.2.sortKeys)).lookup key =
      (members.lookup key).map sortKeys := by
    clear h hkeys
    induction members with
    | nil => rfl
    | cons member members ih =>
        rw [List.map_cons, Dict.lookup_cons, Dict.lookup_cons, ih]
        split_ifs <;> rfl
  have hperm := Python.perm_sortedBy Prod.fst (members.map fun m ↦ (m.1, m.2.sortKeys))
  have hnodup := (hperm.map Prod.fst).nodup_iff.mpr (hkeys ▸ h)
  rw [Dict.lookup_perm hperm hnodup, hlookup]

theorem get_sortedMembers {members : List (String × Json)}
    (h : (members.map Prod.fst).Nodup) (key : String) :
    Python.get (Python.sortedBy Prod.fst (members.map fun m ↦ (m.1, m.2.sortKeys))) key =
      (Python.get members key).sortKeys := by
  rw [Python.get, lookup_sortedMembers h, Python.get]
  cases members.lookup key <;> simp [sortKeys]

theorem get_sortKeys_eq {members others : List (String × Json)} (hmembers : (members.map Prod.fst).Nodup)
    (hothers : (others.map Prod.fst).Nodup) (h : (Json.obj members).sortKeys = (Json.obj others).sortKeys)
    (key : String) : (Python.get members key).sortKeys = (Python.get others key).sortKeys := by
  rw [sortKeys_obj, sortKeys_obj] at h
  rw [← get_sortedMembers hmembers, ← get_sortedMembers hothers, Json.obj.inj h]

/-! ## Reading back -/

section RoundTrip

variable {repr : Json → String} {toFloat : String → Json} {P : Decimal → Prop}
  (hfloats : ∀ x, ReadsFloat repr toFloat x)

include hfloats

theorem loads_dumps {value : Json} (h : value.Native P) :
    loads toFloat (dumps repr value) = some value.sortKeys := by
  have htext : dumps repr value = String.ofList (written canonicalQuoting repr value.sortKeys) := by
    rw [← toList_text, String.ofList_toList, dumps]
  rw [htext]
  exact loads_written canonicalQuoting repr toFloat
    (native_sortKeys (fun x _ ↦ hfloats x) value h)

/-- Values of one canonical text differ in the order of their keys at most. -/
theorem sortKeys_eq_of_dumps_eq {value other : Json} (hvalue : value.Native P)
    (hother : other.Native P) (h : dumps repr value = dumps repr other) :
    value.sortKeys = other.sortKeys := by
  have hfirst := loads_dumps hfloats hvalue
  rw [h, loads_dumps hfloats hother] at hfirst
  exact (Option.some.inj hfirst).symm

/-- Values have one text in ASCII exactly when they differ in the order of their keys at most. -/
theorem asciiDumps_eq_iff {value other : Json} (hvalue : value.Native P) (hother : other.Native P) :
    asciiDumps repr value = asciiDumps repr other ↔ value.sortKeys = other.sortKeys := by
  constructor
  · intro h
    have htext := String.ofList_injective h
    rw [asciiText_eq_written, asciiText_eq_written, written_eq_laidOut, written_eq_laidOut] at htext
    exact laidOut_inj asciiQuoting repr .none toFloat (native_sortKeys (fun x _ ↦ hfloats x) value hvalue)
      (native_sortKeys (fun x _ ↦ hfloats x) other hother) htext
  · intro h
    rw [asciiDumps, asciiDumps, h]

end RoundTrip

end Json
