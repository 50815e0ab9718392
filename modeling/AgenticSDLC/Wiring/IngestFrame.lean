import AgenticSDLC.Wiring.FeatureSchema
import AgenticSDLC.Wiring.WiringIds

/-!
# The frame of an ingestion

The items of the file stay where they are, those that are appended are as many as the call
says, and no candidate is appended twice: it is known by its qualified name, or by its id
where it has no name.
-/

namespace AgenticSDLC.WiringIngest

open Python (Exception Key Hashable)
open WiringChecker

/-! ## The keys of the items -/

section Keys

variable {key : Json → Except Exception (Option Key)} {items : List Json}

theorem existingKeys_ok {keys : List Key} (h : existingKeys key items = .ok keys) :
    (∀ item ∈ items, ∃ k, key item = .ok k) ∧
      ∀ k, k ∈ keys ↔ ∃ item ∈ items, key item = .ok (some k) := by
  obtain ⟨found, hfound, hkeys⟩ := Outcome.bind_eq_ok_iff.mp h
  obtain rfl := Except.ok.inj hkeys
  have hread := Outcome.exists_of_mapM_eq_ok hfound
  refine ⟨fun item hitem ↦ ?_, fun k ↦ ⟨fun hk ↦ ?_, ?_⟩⟩
  · obtain ⟨k, -, hk⟩ := hread item hitem
    exact ⟨k, hk⟩
  · obtain ⟨k', hk', hsome⟩ := List.mem_filterMap.mp hk
    obtain rfl : k' = some k := hsome
    exact Outcome.exists_of_mem_mapM hfound (some k) hk'
  · rintro ⟨item, hitem, hk⟩
    obtain ⟨k', hk', hread'⟩ := hread item hitem
    obtain rfl := Except.ok.inj (hk.symm.trans hread')
    exact List.mem_filterMap.mpr ⟨some k, hk', rfl⟩

theorem exists_existingKeys (h : ∀ item ∈ items, ∃ k, key item = .ok k) :
    ∃ keys, existingKeys key items = .ok keys := by
  obtain ⟨found, hfound⟩ := Outcome.mapM_eq_ok_of_forall h
  exact ⟨found.filterMap id, by rw [existingKeys, hfound]; rfl⟩

end Keys

/-- The item can be asked for its qualified name: its wiring is nothing, or a dictionary
whose qualified name has a hash. -/
def Named (item : Json) : Prop :=
  ∀ members, item = .obj members → Python.truthy (Python.get members "wiring") = true →
    ∃ fields, Python.get members "wiring" = .obj fields ∧ Hashable (Python.get fields "qualname")

def Identified (item : Json) : Prop :=
  ∀ members id, item = .obj members → members.lookup "id" = some id → Hashable id

def Bears (item : Json) (key : Key) : Prop := qualKey item = .ok (some key)

theorem qualKey_of_wiring {members fields : List (String × Json)}
    (hwiring : Python.get members "wiring" = .obj fields)
    (htruthy : Python.truthy (Python.get members "wiring") = true) :
    qualKey (.obj members) = if Python.get fields "qualname" = .null then .ok none
      else some <$> Python.hashKey (Python.get fields "qualname") := by
  rw [hwiring] at htruthy
  simp only [qualKey, qualnameOf, hwiring, htruthy, if_true, Python.asDict, Outcome.ok_bind]
  rfl

theorem named_iff (item : Json) : Named item ↔ ∃ qual, qualKey item = .ok qual := by
  cases item with
  | obj members =>
      cases htruthy : Python.truthy (Python.get members "wiring") with
      | false =>
          have hnone : qualKey (.obj members) = .ok none := by simp [qualKey, qualnameOf, htruthy]; rfl
          refine ⟨fun _ ↦ ⟨none, hnone⟩, ?_⟩
          rintro - _ ⟨⟩ htruthy'
          rw [htruthy] at htruthy'
          cases htruthy'
      | true =>
          constructor
          · intro h
            obtain ⟨fields, hwiring, key, hkey⟩ := h members rfl htruthy
            rw [qualKey_of_wiring hwiring htruthy, hkey]
            split_ifs
            · exact ⟨none, rfl⟩
            · exact ⟨some key, rfl⟩
          · rintro h _ ⟨⟩ -
            cases hwiring : Python.get members "wiring" with
            | obj fields =>
                rw [qualKey_of_wiring hwiring htruthy] at h
                split_ifs at h with hnull
                · exact ⟨fields, rfl, .none, by rw [hnull]; rfl⟩
                · exact ⟨fields, rfl, Outcome.exists_map_iff.mp h⟩
            | _ =>
                obtain ⟨qual, hqual⟩ := h
                rw [hwiring] at htruthy
                simp [qualKey, qualnameOf, hwiring, htruthy, Python.asDict, bind, Except.bind] at hqual
  | _ =>
      refine ⟨fun _ ↦ ⟨none, rfl⟩, ?_⟩
      rintro - _ ⟨⟩

theorem identified_iff (item : Json) : Identified item ↔ ∃ id, idKey item = .ok id := by
  cases item with
  | obj members =>
      cases hid : members.lookup "id" with
      | none =>
          refine ⟨fun _ ↦ ⟨none, by rw [idKey, hid]; rfl⟩, ?_⟩
          rintro - _ id ⟨⟩ hid'
          rw [hid] at hid'
          cases hid'
      | some id =>
          have hkey : idKey (.obj members) = some <$> Python.hashKey id := by rw [idKey, hid]; rfl
          rw [hkey, Outcome.exists_map_iff]
          constructor
          · exact fun h ↦ h members id rfl hid
          · rintro h _ id' ⟨⟩ hid'
            obtain rfl := Option.some.inj (hid.symm.trans hid')
            exact h
  | _ =>
      refine ⟨fun _ ↦ ⟨none, rfl⟩, ?_⟩
      rintro - _ id ⟨⟩

/-- Normalization leaves the members without a default. -/
theorem lookup_normalizeItem {key : String} (members : List (String × Json))
    (hkey : key ∉ ["status", "in_scope", "dependencies", "acceptance_criteria", "priority"]) :
    (normalizeItem members).lookup key = members.lookup key := by
  simp only [List.mem_cons, List.not_mem_nil, or_false, not_or] at hkey
  obtain ⟨hstatus, hscope, hdependencies, hcriteria, hpriority⟩ := hkey
  simp only [normalizeItem, Dict.lookup_setDefault, if_neg hstatus, if_neg hscope,
    if_neg hdependencies, if_neg hcriteria, if_neg hpriority, Option.or_none]

theorem qualKey_normalizeItem (members : List (String × Json)) :
    qualKey (.obj (normalizeItem members)) = qualKey (.obj members) := by
  rw [qualKey, qualnameOf, Python.get, lookup_normalizeItem members (by decide)]
  rfl

theorem idKey_normalizeItem (members : List (String × Json)) :
    idKey (.obj (normalizeItem members)) = idKey (.obj members) := by
  rw [idKey, lookup_normalizeItem members (by decide)]
  rfl

/-! ## One candidate -/

/-- The candidate is known by its qualified name; one without a name, by its id. -/
def Selection.Known (selection : Selection) (candidate : Json) : Prop :=
  ∃ members, candidate = .obj members ∧
    ((∃ key ∈ selection.quals, Bears candidate key) ∨ qualKey candidate = .ok none ∧
      (Python.get members "id" = .null ∨
        ∃ key ∈ selection.ids, Python.hashKey (Python.get members "id") = .ok key))

/-- The candidate is one that is not known, with these keys. -/
structure Selection.New (selection : Selection) (members : List (String × Json))
    (qual : Option Key) (ids : List Key) : Prop where
  qual_eq : qualKey (.obj members) = .ok qual
  ids_eq : Python.get members "id" = .null ∧ ids = [] ∨ Python.get members "id" ≠ .null ∧
    ∃ key, Python.hashKey (Python.get members "id") = .ok key ∧ ids = [key]
  fresh : (∃ key ∉ selection.quals, qual = some key) ∨
    qual = none ∧ ∃ key ∉ selection.ids, ids = [key]

def Selection.add (selection : Selection) (members : List (String × Json)) (qual : Option Key)
    (ids : List Key) : Selection :=
  ⟨selection.appended ++ [.obj (normalizeItem members)], qual.toList ++ selection.quals,
    ids ++ selection.ids⟩

/-- What the loop needs of a candidate: it is a dictionary, it can be asked for its qualified
name, and its id has a hash unless it has one of these names. -/
def Legible (known : Key → Prop) (candidate : Json) : Prop :=
  ∃ members, candidate = .obj members ∧ Named candidate ∧
    (Hashable (Python.get members "id") ∨ ∃ key, known key ∧ Bears candidate key)

theorem take_of_name (selection : Selection) {members : List (String × Json)} {key : Key}
    (hqual : qualKey (.obj members) = .ok (some key)) :
    selection.take (.obj members) =
      if key ∈ selection.quals then .ok selection
      else if Python.get members "id" = .null then .ok (selection.add members (some key) [])
      else (fun id ↦ selection.add members (some key) [id]) <$>
        Python.hashKey (Python.get members "id") := by
  simp only [Selection.take, hqual, Python.asDict, Outcome.ok_bind, pure_bind, decide_eq_true_eq]
  split_ifs
  · rfl
  · rfl
  · cases Python.hashKey (Python.get members "id") <;> rfl

theorem take_of_id (selection : Selection) {members : List (String × Json)}
    (hqual : qualKey (.obj members) = .ok none) :
    selection.take (.obj members) =
      if Python.get members "id" = .null then .ok selection
      else Python.hashKey (Python.get members "id") >>= fun id ↦
        if id ∈ selection.ids then .ok selection else .ok (selection.add members none [id]) := by
  simp only [Selection.take, hqual, Python.asDict, Outcome.ok_bind]
  split_ifs
  · rfl
  · cases Python.hashKey (Python.get members "id") with
    | error exc => rfl
    | ok id =>
        simp only [Outcome.ok_bind, pure_bind, decide_eq_true_eq]
        split_ifs <;> rfl

/-- What the loop makes of a candidate: it knows it, appends it, or raises. -/
def Selection.Turn (selection : Selection) (candidate : Json) : Prop :=
  (selection.Known candidate ∧ selection.take candidate = .ok selection) ∨
    (∃ members qual ids, candidate = .obj members ∧ selection.New members qual ids ∧
      selection.take candidate = .ok (selection.add members qual ids)) ∨
    (∃ exc, selection.take candidate = .error exc) ∧ ¬Legible (· ∈ selection.quals) candidate

section Turn

variable (selection : Selection) {members : List (String × Json)}

/-- A candidate with a name is known, appended, or has an id without a hash. -/
theorem take_name_cases {key : Key} (hqual : qualKey (.obj members) = .ok (some key)) :
    selection.Turn (.obj members) := by
  rw [Selection.Turn, take_of_name selection hqual]
  split_ifs with hknown hnull
  · exact Or.inl ⟨⟨members, rfl, Or.inl ⟨key, hknown, hqual⟩⟩, rfl⟩
  · exact Or.inr (Or.inl ⟨members, some key, [], rfl,
      ⟨hqual, Or.inl ⟨hnull, rfl⟩, Or.inl ⟨key, hknown, rfl⟩⟩, rfl⟩)
  · cases hid : Python.hashKey (Python.get members "id") with
    | ok id =>
        exact Or.inr (Or.inl ⟨members, some key, [id], rfl,
          ⟨hqual, Or.inr ⟨hnull, id, hid, rfl⟩, Or.inl ⟨key, hknown, rfl⟩⟩, rfl⟩)
    | error exc =>
        refine Or.inr (Or.inr ⟨⟨exc, rfl⟩, ?_⟩)
        rintro ⟨_, ⟨⟩, -, ⟨id, hhash⟩ | ⟨other, hother, hbears⟩⟩
        · cases hid.symm.trans hhash
        · obtain rfl := Option.some.inj (Except.ok.inj (hqual.symm.trans hbears))
          exact hknown hother

/-- A candidate without a name is told by its id. -/
theorem take_id_cases (hqual : qualKey (.obj members) = .ok none) :
    selection.Turn (.obj members) := by
  rw [Selection.Turn, take_of_id selection hqual]
  split_ifs with hnull
  · exact Or.inl ⟨⟨members, rfl, Or.inr ⟨hqual, Or.inl hnull⟩⟩, rfl⟩
  · cases hid : Python.hashKey (Python.get members "id") with
    | ok id =>
        rw [Outcome.ok_bind]
        split_ifs with hknown
        · exact Or.inl ⟨⟨members, rfl, Or.inr ⟨hqual, Or.inr ⟨id, hknown, hid⟩⟩⟩, rfl⟩
        · exact Or.inr (Or.inl ⟨members, none, [id], rfl,
            ⟨hqual, Or.inr ⟨hnull, id, hid, rfl⟩, Or.inr ⟨rfl, id, hknown, rfl⟩⟩, rfl⟩)
    | error exc =>
        refine Or.inr (Or.inr ⟨⟨exc, rfl⟩, ?_⟩)
        rintro ⟨_, ⟨⟩, -, ⟨id, hhash⟩ | ⟨other, -, hbears⟩⟩
        · cases hid.symm.trans hhash
        · cases hqual.symm.trans hbears

end Turn

theorem take_cases (selection : Selection) (candidate : Json) : selection.Turn candidate := by
  cases candidate with
  | obj members =>
      cases hqual : qualKey (.obj members) with
      | error exc =>
          refine Or.inr (Or.inr ⟨⟨exc, by rw [Selection.take, hqual]; rfl⟩, ?_⟩)
          rintro ⟨_, -, hnamed, -⟩
          obtain ⟨qual, hok⟩ := (named_iff _).mp hnamed
          cases hqual.symm.trans hok
      | ok qual =>
          cases qual with
          | some key => exact take_name_cases selection hqual
          | none => exact take_id_cases selection hqual
  | _ =>
      refine Or.inr (Or.inr ⟨⟨_, rfl⟩, ?_⟩)
      rintro ⟨_, ⟨⟩, -⟩

theorem take_of_known {selection : Selection} {candidate : Json} (h : selection.Known candidate) :
    selection.take candidate = .ok selection := by
  obtain ⟨members, rfl, ⟨key, hknown, hqual⟩ | ⟨hqual, hid⟩⟩ := h
  · rw [take_of_name selection hqual, if_pos hknown]
  · rw [take_of_id selection hqual]
    rcases hid with hnull | ⟨key, hknown, hkey⟩
    · rw [if_pos hnull]
    · split_ifs
      · rfl
      · rw [hkey, Outcome.ok_bind, if_pos hknown]

theorem Selection.Known.mono {selection other : Selection} {candidate : Json}
    (h : selection.Known candidate) (hquals : ∀ key ∈ selection.quals, key ∈ other.quals)
    (hids : ∀ key ∈ selection.ids, key ∈ other.ids) : other.Known candidate := by
  obtain ⟨members, hmembers, ⟨key, hknown, hqual⟩ | ⟨hqual, hid⟩⟩ := h
  · exact ⟨members, hmembers, Or.inl ⟨key, hquals key hknown, hqual⟩⟩
  · refine ⟨members, hmembers, Or.inr ⟨hqual, hid.imp_right ?_⟩⟩
    rintro ⟨key, hknown, hkey⟩
    exact ⟨key, hids key hknown, hkey⟩

/-- A candidate that has been appended is known. -/
theorem Selection.New.known {selection : Selection} {members : List (String × Json)}
    {qual : Option Key} {ids : List Key} (h : selection.New members qual ids) :
    (selection.add members qual ids).Known (.obj members) := by
  obtain ⟨hqual, hids, ⟨key, -, rfl⟩ | ⟨rfl, key, -, rfl⟩⟩ := h
  · exact ⟨members, rfl, Or.inl ⟨key, List.mem_cons_self, hqual⟩⟩
  · rcases hids with ⟨-, hnil⟩ | ⟨-, id, hid, hsame⟩
    · cases hnil
    · obtain rfl := List.singleton_inj.mp hsame
      exact ⟨members, rfl, Or.inr ⟨hqual, Or.inr ⟨_, List.mem_cons_self, hid⟩⟩⟩

theorem Selection.Known.legible {selection : Selection} {candidate : Json}
    (h : selection.Known candidate) : Legible (· ∈ selection.quals) candidate := by
  obtain ⟨members, rfl, ⟨key, hknown, hqual⟩ | ⟨hqual, hid⟩⟩ := h
  · exact ⟨members, rfl, (named_iff _).mpr ⟨_, hqual⟩, Or.inr ⟨key, hknown, hqual⟩⟩
  · refine ⟨members, rfl, (named_iff _).mpr ⟨_, hqual⟩, Or.inl ?_⟩
    rcases hid with hnull | ⟨key, -, hkey⟩
    · exact ⟨.none, by rw [hnull]; rfl⟩
    · exact ⟨key, hkey⟩

theorem Selection.New.hashable {selection : Selection} {members : List (String × Json)}
    {qual : Option Key} {ids : List Key} (h : selection.New members qual ids) :
    Hashable (Python.get members "id") := by
  rcases h.ids_eq with ⟨hnull, -⟩ | ⟨-, key, hkey, -⟩
  · exact ⟨.none, by rw [hnull]; rfl⟩
  · exact ⟨key, hkey⟩

theorem Selection.New.legible {selection : Selection} {members : List (String × Json)}
    {qual : Option Key} {ids : List Key} (h : selection.New members qual ids) :
    Legible (· ∈ selection.quals) (.obj members) :=
  ⟨members, rfl, (named_iff _).mpr ⟨qual, h.qual_eq⟩, Or.inl h.hashable⟩

theorem Selection.New.idKey {selection : Selection} {members : List (String × Json)}
    {qual : Option Key} {ids : List Key} (h : selection.New members qual ids) {key : Key}
    (hkey : key ∈ ids) : idKey (.obj members) = .ok (some key) := by
  rcases h.ids_eq with ⟨-, rfl⟩ | ⟨hnull, id, hid, rfl⟩
  · cases hkey
  · have hlookup := (Python.get_eq_iff_of_ne_null hnull).mp rfl
    rw [WiringIngest.idKey, hlookup, List.mem_singleton.mp hkey]
    simp only [hid]
    rfl

/-! ## All of the candidates -/

/-- Every candidate is legible after the items and the candidates before it. -/
def AllLegible : List Json → List Json → Prop
  | _, [] => True
  | before, candidate :: candidates =>
      Legible (fun key ↦ ∃ item ∈ before, Bears item key) candidate ∧
        AllLegible (before ++ [candidate]) candidates

/-- What holds of the loop after it has taken these candidates. -/
structure Sound (items taken : List Json) (selection : Selection) : Prop where
  quals : ∀ key, key ∈ selection.quals ↔ ∃ item ∈ items ++ taken, Bears item key
  borne : ∀ key ∈ selection.quals, ∃ item ∈ items ++ selection.appended, Bears item key
  ids : ∀ key ∈ selection.ids, ∃ item ∈ items ++ selection.appended, idKey item = .ok (some key)
  known : ∀ candidate ∈ taken, selection.Known candidate
  named : ∀ item ∈ selection.appended, Named item
  identified : ∀ item ∈ selection.appended, Identified item

section Run

variable {items taken : List Json} {selection : Selection} {candidate : Json}

theorem Sound.init {quals ids : List Key} (hquals : existingKeys qualKey items = .ok quals)
    (hids : existingKeys idKey items = .ok ids) : Sound items [] ⟨[], quals, ids⟩ where
  quals := fun key ↦ by rw [List.append_nil]; exact (existingKeys_ok hquals).2 key
  borne := fun key hkey ↦ by rw [List.append_nil]; exact ((existingKeys_ok hquals).2 key).mp hkey
  ids := fun key hkey ↦ by rw [List.append_nil]; exact ((existingKeys_ok hids).2 key).mp hkey
  known := by simp
  named := by simp
  identified := by simp

theorem exists_mem_append_singleton {P : Json → Prop} :
    (∃ item ∈ items ++ (taken ++ [candidate]), P item) ↔
      (∃ item ∈ items ++ taken, P item) ∨ P candidate := by
  simp only [← List.append_assoc, List.mem_append, List.mem_singleton, or_and_right, exists_or,
    exists_eq_left]

theorem Sound.take_known (h : Sound items taken selection) (hknown : selection.Known candidate) :
    Sound items (taken ++ [candidate]) selection where
  quals := by
    intro key
    rw [exists_mem_append_singleton, ← h.quals key]
    refine ⟨Or.inl, fun hkey ↦ hkey.elim id fun hbears ↦ ?_⟩
    obtain ⟨members, rfl, ⟨other, hother, hqual⟩ | ⟨hqual, -⟩⟩ := hknown
    · obtain rfl := Option.some.inj (Except.ok.inj (hqual.symm.trans hbears))
      exact hother
    · cases hqual.symm.trans hbears
  borne := h.borne
  ids := h.ids
  known := by
    intro other hother
    rcases List.mem_append.mp hother with hold | hlast
    · exact h.known other hold
    · rw [List.mem_singleton.mp hlast]
      exact hknown
  named := h.named
  identified := h.identified

theorem Sound.take_new (h : Sound items taken selection) {members : List (String × Json)}
    {qual : Option Key} {ids : List Key} (hnew : selection.New members qual ids) :
    Sound items (taken ++ [.obj members]) (selection.add members qual ids) where
  quals := by
    intro key
    rw [exists_mem_append_singleton, ← h.quals key, Selection.add, List.mem_append, or_comm,
      Option.mem_toList, Bears, hnew.qual_eq, Except.ok.injEq]
  borne := by
    intro key hkey
    apply exists_mem_append_singleton.mpr
    rcases List.mem_append.mp hkey with hlast | hold
    · rw [Option.mem_toList] at hlast
      exact Or.inr ((qualKey_normalizeItem members).trans (hlast ▸ hnew.qual_eq))
    · exact Or.inl (h.borne key hold)
  ids := by
    intro key hkey
    apply exists_mem_append_singleton.mpr
    rcases List.mem_append.mp hkey with hlast | hold
    · exact Or.inr ((idKey_normalizeItem members).trans (hnew.idKey hlast))
    · exact Or.inl (h.ids key hold)
  known := by
    intro other hother
    rcases List.mem_append.mp hother with hold | hlast
    · apply (h.known other hold).mono
      · exact fun key hkey ↦ List.mem_append_right _ hkey
      · exact fun key hkey ↦ List.mem_append_right _ hkey
    · rw [List.mem_singleton.mp hlast]
      exact hnew.known
  named := by
    intro item hitem
    rcases List.mem_append.mp hitem with hold | hlast
    · exact h.named item hold
    · rw [List.mem_singleton.mp hlast, named_iff, qualKey_normalizeItem]
      exact ⟨qual, hnew.qual_eq⟩
  identified := by
    intro item hitem
    rcases List.mem_append.mp hitem with hold | hlast
    · exact h.identified item hold
    · rw [List.mem_singleton.mp hlast]
      rintro _ id ⟨⟩ hid
      rw [lookup_normalizeItem members (by decide)] at hid
      have hhashable := hnew.hashable
      rwa [Python.get, hid] at hhashable

/-- The loop comes to an end just when every candidate is legible. -/
theorem Sound.run {candidates : List Json} (h : Sound items taken selection) :
    (∃ last, candidates.foldlM Selection.take selection = .ok last ∧
        Sound items (taken ++ candidates) last) ∧ AllLegible (items ++ taken) candidates ∨
      (∃ exc, candidates.foldlM Selection.take selection = .error exc) ∧
        ¬AllLegible (items ++ taken) candidates := by
  induction candidates generalizing taken selection with
  | nil => exact Or.inl ⟨⟨selection, rfl, by rwa [List.append_nil]⟩, trivial⟩
  | cons candidate candidates ih =>
      have hlegible : Legible (fun key ↦ ∃ item ∈ items ++ taken, Bears item key) candidate ↔
          Legible (· ∈ selection.quals) candidate := by
        simp only [Legible, h.quals]
      have hcons {next : Selection} (htake : selection.take candidate = .ok next)
          (hfirst : Legible (· ∈ selection.quals) candidate)
          (hnext : Sound items (taken ++ [candidate]) next) :
          (∃ last, (candidate :: candidates).foldlM Selection.take selection = .ok last ∧
              Sound items (taken ++ candidate :: candidates) last) ∧
                AllLegible (items ++ taken) (candidate :: candidates) ∨
            (∃ exc, (candidate :: candidates).foldlM Selection.take selection = .error exc) ∧
              ¬AllLegible (items ++ taken) (candidate :: candidates) := by
        have hrest := ih hnext
        rw [List.append_assoc, List.singleton_append, ← List.append_assoc] at hrest
        rw [List.foldlM_cons, htake, AllLegible, hlegible]
        exact hrest.imp (fun hok ↦ ⟨hok.1, hfirst, hok.2⟩)
          (fun herror ↦ ⟨herror.1, fun hall ↦ herror.2 hall.2⟩)
      rcases take_cases selection candidate with ⟨hknown, htake⟩ |
        ⟨members, qual, ids, rfl, hnew, htake⟩ | ⟨⟨exc, htake⟩, hillegible⟩
      · exact hcons htake hknown.legible (h.take_known hknown)
      · exact hcons htake hnew.legible (h.take_new hnew)
      · refine Or.inr ⟨⟨exc, by rw [List.foldlM_cons, htake]; rfl⟩, fun hall ↦ ?_⟩
        exact hillegible (hlegible.mp hall.1)

end Run

/-- The loop can go through the candidates. -/
def Ingestible (candidates items : List Json) : Prop :=
  (∀ item ∈ items, Named item ∧ Identified item) ∧ AllLegible items candidates

theorem foldlM_take_of_known {selection : Selection} {candidates : List Json}
    (h : ∀ candidate ∈ candidates, selection.Known candidate) :
    candidates.foldlM Selection.take selection = .ok selection := by
  induction candidates with
  | nil => rfl
  | cons candidate candidates ih =>
      rw [List.foldlM_cons, take_of_known (h candidate List.mem_cons_self), Outcome.ok_bind]
      exact ih fun other hother ↦ h other (List.mem_cons_of_mem candidate hother)

/-- Once its selection has been appended, a batch has nothing that is new. -/
theorem Sound.again {items candidates : List Json} {selection : Selection}
    (hread : ∀ item ∈ items, Named item ∧ Identified item)
    (h : Sound items candidates selection) :
    selectNewCandidates candidates (items ++ selection.appended) = .ok [] := by
  have hnamed : ∀ item ∈ items ++ selection.appended, ∃ qual, qualKey item = .ok qual := by
    intro item hitem
    rw [← named_iff]
    exact (List.mem_append.mp hitem).elim (fun hold ↦ (hread item hold).1) (h.named item)
  have hidentified : ∀ item ∈ items ++ selection.appended, ∃ id, idKey item = .ok id := by
    intro item hitem
    rw [← identified_iff]
    exact (List.mem_append.mp hitem).elim (fun hold ↦ (hread item hold).2) (h.identified item)
  obtain ⟨quals, hquals⟩ := exists_existingKeys hnamed
  obtain ⟨ids, hids⟩ := exists_existingKeys hidentified
  have hknown : ∀ candidate ∈ candidates, (⟨[], quals, ids⟩ : Selection).Known candidate := by
    intro candidate hcandidate
    refine (h.known candidate hcandidate).mono (fun key hkey ↦ ?_) (fun key hkey ↦ ?_)
    · exact ((existingKeys_ok hquals).2 key).mpr (h.borne key hkey)
    · exact ((existingKeys_ok hids).2 key).mpr (h.ids key hkey)
  rw [selectNewCandidates, hquals, hids, Outcome.ok_bind, Outcome.ok_bind,
    foldlM_take_of_known hknown]
  rfl

theorem select_cases (candidates items : List Json) :
    (∃ appended, selectNewCandidates candidates items = .ok appended ∧
        selectNewCandidates candidates (items ++ appended) = .ok []) ∧ Ingestible candidates items ∨
      (∃ exc, selectNewCandidates candidates items = .error exc) ∧ ¬Ingestible candidates items := by
  cases hquals : existingKeys qualKey items with
  | error exc =>
      refine Or.inr ⟨⟨exc, by rw [selectNewCandidates, hquals]; rfl⟩, fun h ↦ ?_⟩
      obtain ⟨quals, hok⟩ := exists_existingKeys fun item hitem ↦
        (named_iff item).mp (h.1 item hitem).1
      cases hquals.symm.trans hok
  | ok quals =>
      cases hids : existingKeys idKey items with
      | error exc =>
          refine Or.inr ⟨⟨exc, by rw [selectNewCandidates, hquals, hids]; rfl⟩, fun h ↦ ?_⟩
          obtain ⟨ids, hok⟩ := exists_existingKeys fun item hitem ↦
            (identified_iff item).mp (h.1 item hitem).2
          cases hids.symm.trans hok
      | ok ids =>
          have hread : ∀ item ∈ items, Named item ∧ Identified item := fun item hitem ↦
            ⟨(named_iff item).mpr ((existingKeys_ok hquals).1 item hitem),
              (identified_iff item).mpr ((existingKeys_ok hids).1 item hitem)⟩
          have hselect : selectNewCandidates candidates items =
              Selection.appended <$> candidates.foldlM Selection.take ⟨[], quals, ids⟩ := by
            rw [selectNewCandidates, hquals, hids]
            rfl
          have hrun := @Sound.run _ _ _ candidates (Sound.init hquals hids)
          rw [List.append_nil, List.nil_append] at hrun
          rw [hselect]
          rcases hrun with ⟨⟨last, hlast, hsound⟩, hlegible⟩ | ⟨⟨exc, hexc⟩, hillegible⟩
          · exact Or.inl ⟨⟨last.appended, by rw [hlast]; rfl, hsound.again hread⟩, hread, hlegible⟩
          · exact Or.inr ⟨⟨exc, by rw [hexc]; rfl⟩, fun h ↦ hillegible h.2⟩

/-! ## Calls -/

section Calls

variable (valid : Json → Bool) (candidates : List Json)

/-- What a call says and leaves: it appends as many items as it returns, none where the write or
the validation fails, and a call after it, with no better luck in writing, appends nothing. -/
structure Keeps (written : Bool) (file : Option Json) (count : ℕ) (file' : Option Json) : Prop where
  absent : loadModel file = none → count = 0 ∧ file' = file
  appends : ∀ members items, loadModel file = some (members, items) → ∃ members' appended,
    loadModel file' = some (members', items ++ appended) ∧ appended.length = count ∧
      ∀ key ≠ "items", members'.lookup key = members.lookup key
  unchanged : count = 0 → file' = file
  unwritten : written = false → count = 0 ∧ file' = file
  invalid : ∀ members items appended, loadModel file = some (members, items) →
    selectNewCandidates candidates items = .ok appended →
      valid (extend members items appended) = false → count = 0 ∧ file' = file
  again : ∀ written', (written' = true → written = true) →
    ingestWiringCandidates valid candidates written' file' = (.ok 0, file')

/-- Every call on the file comes to a count, and keeps to it. -/
def KeepsFrame (file : Option Json) : Prop :=
  ∀ written, ∃ count file', ingestWiringCandidates valid candidates written file = (.ok count, file') ∧
    Keeps valid candidates written file count file'

variable {valid candidates}

/-- A call that does nothing keeps the frame, if it does nothing again. -/
theorem Keeps.refl {written : Bool} {file : Option Json}
    (h : ∀ written', (written' = true → written = true) →
      ingestWiringCandidates valid candidates written' file = (.ok 0, file)) :
    Keeps valid candidates written file 0 file where
  absent := fun _ ↦ ⟨rfl, rfl⟩
  appends := fun members items hmodel ↦
    ⟨members, [], by rw [List.append_nil, hmodel], rfl, fun _ _ ↦ rfl⟩
  unchanged := fun _ ↦ rfl
  unwritten := fun _ ↦ ⟨rfl, rfl⟩
  invalid := fun _ _ _ _ _ _ ↦ ⟨rfl, rfl⟩
  again := h

/-- The files on which a call raises nothing. -/
def Accessible (candidates : List Json) (file : Option Json) : Prop :=
  candidates = [] ∨ ∀ members items, loadModel file = some (members, items) →
    Ingestible candidates items

section Model

variable {file : Option Json} {members : List (String × Json)} {items appended : List Json}

theorem ingest_of_select (hcandidates : candidates ≠ []) (hmodel : loadModel file = some (members, items))
    (hselect : selectNewCandidates candidates items = .ok appended) (written : Bool) :
    ingestWiringCandidates valid candidates written file =
      if appended ≠ [] ∧ valid (extend members items appended) = true ∧ written = true then
        (.ok appended.length, some (extend members items appended))
      else (.ok 0, file) := by
  simp only [ingestWiringCandidates, if_neg hcandidates, hmodel, hselect]
  cases hvalid : valid (extend members items appended) <;> cases written <;>
    by_cases hnil : appended = [] <;> simp [hnil]

/-- A call that writes the new items. -/
theorem Keeps.of_written (hcandidates : candidates ≠ [])
    (hmodel : loadModel file = some (members, items))
    (hselect : selectNewCandidates candidates items = .ok appended)
    (hagain : selectNewCandidates candidates (items ++ appended) = .ok []) (hnew : appended ≠ [])
    (hvalid : valid (extend members items appended) = true) :
    Keeps valid candidates true file appended.length (some (extend members items appended)) where
  absent := by
    intro hnone
    rw [hmodel] at hnone
    cases hnone
  appends := by
    intro members' items' hmodel'
    obtain ⟨rfl, rfl⟩ := loadModel_inj hmodel hmodel'
    refine ⟨_, appended, loadModel_extend members items appended, rfl, fun key hkey ↦ ?_⟩
    rw [Dict.lookup_set, if_neg hkey]
  unchanged := fun hcount ↦ absurd (List.length_eq_zero_iff.mp hcount) hnew
  unwritten := by
    intro hfalse
    cases hfalse
  invalid := by
    intro members' items' appended' hmodel' hselect' hinvalid
    obtain ⟨rfl, rfl⟩ := loadModel_inj hmodel hmodel'
    obtain rfl := Except.ok.inj (hselect.symm.trans hselect')
    rw [hvalid] at hinvalid
    cases hinvalid
  again := by
    intro written' _
    rw [ingest_of_select hcandidates (loadModel_extend members items appended) hagain]
    exact if_neg fun h ↦ h.1 rfl

end Model

/-- A call keeps the frame just when it can go through the items and the candidates. -/
theorem ingest_keeps_frame_iff (valid : Json → Bool) (candidates : List Json)
    (file : Option Json) :
    KeepsFrame valid candidates file ↔ Accessible candidates file := by
  by_cases hcandidates : candidates = []
  · have hcall (written : Bool) : ingestWiringCandidates valid candidates written file =
        (.ok 0, file) := if_pos hcandidates
    refine iff_of_true (fun written ↦ ⟨0, file, hcall written, ?_⟩) (Or.inl hcandidates)
    exact Keeps.refl fun written' _ ↦ hcall written'
  cases hmodel : loadModel file with
  | none =>
      have hcall (written : Bool) : ingestWiringCandidates valid candidates written file =
          (.ok 0, file) := by rw [ingestWiringCandidates, if_neg hcandidates, hmodel]
      refine iff_of_true (fun written ↦ ⟨0, file, hcall written, ?_⟩) (Or.inr ?_)
      · exact Keeps.refl fun written' _ ↦ hcall written'
      · intro members items hmodel'
        rw [hmodel] at hmodel'
        cases hmodel'
  | some model =>
      obtain ⟨members, items⟩ := model
      rcases select_cases candidates items with ⟨⟨appended, hselect, hagain⟩, hingestible⟩ |
        ⟨⟨exc, hselect⟩, hnot⟩
      · have hcall := @ingest_of_select valid _ _ _ _ _ hcandidates hmodel hselect
        refine iff_of_true (fun written ↦ ?_) (Or.inr fun members' items' hmodel' ↦ ?_)
        · by_cases hwrites : appended ≠ [] ∧ valid (extend members items appended) = true ∧
            written = true
          · obtain ⟨hnew, hvalid, rfl⟩ := hwrites
            refine ⟨_, _, (hcall true).trans (if_pos ⟨hnew, hvalid, rfl⟩), ?_⟩
            exact Keeps.of_written hcandidates hmodel hselect hagain hnew hvalid
          · refine ⟨0, file, (hcall written).trans (if_neg hwrites), Keeps.refl ?_⟩
            intro written' hluck
            refine (hcall written').trans (if_neg fun h ↦ hwrites ?_)
            exact ⟨h.1, h.2.1, hluck h.2.2⟩
        · obtain ⟨rfl, rfl⟩ := loadModel_inj hmodel hmodel'
          exact hingestible
      · have hcall : ingestWiringCandidates valid candidates true file = (.error exc, file) := by
          simp only [ingestWiringCandidates, if_neg hcandidates, hmodel, hselect]
        refine iff_of_false (fun h ↦ ?_) (fun h ↦ ?_)
        · obtain ⟨count, file', hok, -⟩ := h true
          rw [hcall] at hok
          cases hok
        · exact hnot ((h.resolve_left hcandidates) members items hmodel)

end Calls

/-! ## A wiring that is a text -/

/-- A symbol whose wiring is in order. -/
def sampleCandidate : Json :=
  .obj (candidate 1 ⟨some "f", some "f", some .function, "m.py", 1, some false, false, ""⟩)

/-- The call raises, though the model is a valid one. -/
theorem text_wiring_raises :
    validModel (sampleFile (.str "m.f")) = true ∧
      ¬KeepsFrame validModel [sampleCandidate] (some (sampleFile (.str "m.f"))) := by
  refine ⟨validModel_sampleFile _, fun h ↦ ?_⟩
  obtain ⟨count, file', hok, -⟩ := h true
  have hraises : (ingestWiringCandidates validModel [sampleCandidate] true
      (some (sampleFile (.str "m.f")))).1 =
        .error ⟨"AttributeError", "'str' object has no attribute 'get'"⟩ := by decide +kernel
  rw [hok] at hraises
  cases hraises

end AgenticSDLC.WiringIngest
