import AgenticSDLC.Wiring.FeatureSchema
import Mathlib.Algebra.GroupWithZero.Nat

/-!
# Marking unreachable symbols

`mark_wiring_failed` of `tools/wiring_ingest.py`.  The names are a set of texts, so that a
qualified name is only looked up if it has a hash.
-/

namespace AgenticSDLC.WiringIngest

open Python (Exception Key Hashable)

def setFailed : Json → Json
  | .obj members => .obj (Dict.set "status" (.str "failed") members)
  | item => item

/-- A round of the loop: the item after it, and how many it has flipped. -/
def flip (unreachable : List String) (item : Json) : Except Exception (Json × ℕ) :=
  match item with
  | .obj members =>
      if Python.get members "type" ≠ .str "WIRING" then return (item, 0)
      else if Python.get members "status" ≠ .str "unproven" then return (item, 0)
      else do
        let wiring := Python.get members "wiring"
        let fields ← if Python.truthy wiring then Python.asDict wiring else pure []
        if Python.get fields "reachable" ≠ .bool false then return (item, 0)
        else do
          let qualname ← Python.hashKey (Python.get fields "qualname")
          if qualname ∈ unreachable.map Key.str then return (setFailed item, 1)
          else return (item, 0)
  | _ => return (item, 0)

/-- `mark_wiring_failed`: the number of items flipped, and the file afterwards. -/
def markWiringFailed (unreachable : List String) (written : Bool) (file : Option Json) :
    Except Exception ℕ × Option Json :=
  if unreachable = [] then (.ok 0, file)
  else
    match loadModel file with
    | none => (.ok 0, file)
    | some (members, items) =>
        match items.mapM (flip unreachable) with
        | .error exc => (.error exc, file)
        | .ok rounds =>
            let flipped := (rounds.map Prod.snd).sum
            if flipped = 0 then (.ok 0, file)
            else if written then
              (.ok flipped, some (.obj (Dict.set "items" (.arr (rounds.map Prod.fst)) members)))
            else (.ok 0, file)

/-! ## One item -/

/-- An unproven obligation that is not reachable, of one of the names. -/
def Flippable (unreachable : List String) (item : Json) : Prop :=
  ∃ members fields, item = .obj members ∧ Python.get members "type" = .str "WIRING" ∧
    Python.get members "status" = .str "unproven" ∧ Python.get members "wiring" = .obj fields ∧
      Python.get fields "reachable" = .bool false ∧
        ∃ name ∈ unreachable, Python.get fields "qualname" = .str name

/-- The wiring of an unproven obligation is nothing, or a dictionary, whose qualified name has a
hash where it is not reachable. -/
def Checkable (item : Json) : Prop :=
  ∀ members, item = .obj members → Python.get members "type" = .str "WIRING" →
    Python.get members "status" = .str "unproven" →
      Python.truthy (Python.get members "wiring") = true →
        ∃ fields, Python.get members "wiring" = .obj fields ∧
          (Python.get fields "reachable" = .bool false → Hashable (Python.get fields "qualname"))

/-- An unproven obligation whose wiring is something. -/
structure Pending (members : List (String × Json)) : Prop where
  type : Python.get members "type" = .str "WIRING"
  status : Python.get members "status" = .str "unproven"
  wiring : Python.truthy (Python.get members "wiring") = true

section Item

variable (unreachable : List String) {members : List (String × Json)}

theorem flip_of_not_pending (h : ¬Pending members) :
    flip unreachable (.obj members) = .ok (.obj members, 0) := by
  by_cases htype : Python.get members "type" = .str "WIRING"
  swap
  · exact if_pos htype
  by_cases hstatus : Python.get members "status" = .str "unproven"
  swap
  · exact (if_neg (not_not_intro htype)).trans (if_pos hstatus)
  have hfalse : Python.truthy (Python.get members "wiring") = false :=
    Bool.eq_false_iff.mpr fun htruthy ↦ h ⟨htype, hstatus, htruthy⟩
  have hreachable : Python.get [] "reachable" ≠ .bool false := by decide
  simp only [flip, htype, hstatus, hfalse, ne_eq, not_true_eq_false, if_false, Bool.false_eq_true,
    pure_bind, if_pos hreachable]
  rfl

theorem flip_of_pending (h : Pending members) :
    flip unreachable (.obj members) = Python.asDict (Python.get members "wiring") >>= fun fields ↦
      if Python.get fields "reachable" ≠ .bool false then .ok (.obj members, 0)
      else Python.hashKey (Python.get fields "qualname") >>= fun qualname ↦
        if qualname ∈ unreachable.map Key.str then .ok (setFailed (.obj members), 1)
        else .ok (.obj members, 0) := by
  simp only [flip, h.type, h.status, h.wiring, ne_eq, not_true_eq_false, if_false, if_true]
  rfl

theorem checkable_of_not_pending (h : ¬Pending members) : Checkable (.obj members) := by
  rintro _ ⟨⟩ htype hstatus htruthy
  exact absurd ⟨htype, hstatus, htruthy⟩ h

theorem checkable_iff_of_pending (h : Pending members) {fields : List (String × Json)}
    (hwiring : Python.get members "wiring" = .obj fields) :
    Checkable (.obj members) ↔
      (Python.get fields "reachable" = .bool false → Hashable (Python.get fields "qualname")) := by
  constructor
  · intro hcheckable
    obtain ⟨fields', hfields, hhash⟩ := hcheckable members rfl h.type h.status h.wiring
    obtain rfl := Json.obj.inj (hwiring.symm.trans hfields)
    exact hhash
  · rintro hhash _ ⟨⟩ - - -
    exact ⟨fields, hwiring, hhash⟩

/-- A round of an unproven obligation whose wiring is a dictionary. -/
theorem flip_fields_cases (h : Pending members) {fields : List (String × Json)}
    (hwiring : Python.get members "wiring" = .obj fields) :
    (flip unreachable (.obj members) = .ok (.obj members, 0) ∧ Checkable (.obj members)) ∨
      (Flippable unreachable (.obj members) ∧
        flip unreachable (.obj members) = .ok (setFailed (.obj members), 1) ∧
          Checkable (.obj members)) ∨
      (∃ exc, flip unreachable (.obj members) = .error exc) ∧ ¬Checkable (.obj members) := by
  rw [flip_of_pending unreachable h, checkable_iff_of_pending h hwiring, hwiring, Python.asDict,
    Outcome.ok_bind]
  by_cases hreachable : Python.get fields "reachable" = .bool false
  swap
  · exact Or.inl ⟨if_pos hreachable, fun hfalse ↦ absurd hfalse hreachable⟩
  rw [if_neg (not_not_intro hreachable)]
  cases hkey : Python.hashKey (Python.get fields "qualname") with
  | ok key =>
      rw [Outcome.ok_bind]
      split_ifs with hmem
      · obtain ⟨name, hname, rfl⟩ := List.mem_map.mp hmem
        refine Or.inr (Or.inl ⟨?_, rfl, fun _ ↦ ⟨_, hkey⟩⟩)
        exact ⟨members, fields, rfl, h.type, h.status, hwiring, hreachable, name, hname,
          Python.hashKey_eq_str_iff.mp hkey⟩
      · exact Or.inl ⟨rfl, fun _ ↦ ⟨key, hkey⟩⟩
  | error exc =>
      refine Or.inr (Or.inr ⟨⟨exc, rfl⟩, fun hhash ↦ ?_⟩)
      obtain ⟨key, hok⟩ := hhash hreachable
      cases hkey.symm.trans hok

end Item

/-- A round passes the item, flips it, or raises. -/
theorem flip_cases (unreachable : List String) (item : Json) :
    (flip unreachable item = .ok (item, 0) ∧ Checkable item) ∨
      (Flippable unreachable item ∧ flip unreachable item = .ok (setFailed item, 1) ∧
        Checkable item) ∨
      (∃ exc, flip unreachable item = .error exc) ∧ ¬Checkable item := by
  cases item with
  | obj members =>
      by_cases hpending : Pending members
      swap
      · exact Or.inl ⟨flip_of_not_pending unreachable hpending, checkable_of_not_pending hpending⟩
      cases hwiring : Python.get members "wiring" with
      | obj fields => exact flip_fields_cases unreachable hpending hwiring
      | _ =>
          refine Or.inr (Or.inr ⟨⟨_, by rw [flip_of_pending unreachable hpending, hwiring]; rfl⟩, ?_⟩)
          intro h
          obtain ⟨fields, hfields, -⟩ := h members rfl hpending.type hpending.status hpending.wiring
          rw [hwiring] at hfields
          cases hfields
  | _ =>
      refine Or.inl ⟨rfl, ?_⟩
      rintro _ ⟨⟩

/-- An item that has been failed is passed by. -/
theorem flip_setFailed {unreachable : List String} {item : Json} (h : Flippable unreachable item) :
    flip unreachable (setFailed item) = .ok (setFailed item, 0) ∧ setFailed item ≠ item := by
  obtain ⟨members, fields, rfl, htype, hstatus, -⟩ := h
  have htype' : Python.get (Dict.set "status" (.str "failed") members) "type" = .str "WIRING" := by
    rw [Python.get, Dict.lookup_set, if_neg (by decide)]
    exact htype
  have hstatus' : Python.get (Dict.set "status" (.str "failed") members) "status" = .str "failed" := by
    rw [Python.get, Dict.lookup_set, if_pos rfl]
    rfl
  refine ⟨?_, fun hsame ↦ ?_⟩
  · have hpassed : Python.get (Dict.set "status" (.str "failed") members) "status" ≠
        .str "unproven" := by rw [hstatus']; decide
    exact (if_neg (not_not_intro htype')).trans (if_pos hpassed)
  · rw [setFailed, Json.obj.injEq] at hsame
    rw [hsame, hstatus] at hstatus'
    exact absurd hstatus' (by decide)

/-- What a round does to an item. -/
def Marked (unreachable : List String) (item item' : Json) : Prop :=
  item' = item ∨ Flippable unreachable item ∧ item' = setFailed item

/-! ## All of the items -/

section Rounds

variable {unreachable : List String} {items : List Json} {rounds : List (Json × ℕ)}

theorem round_cases {item : Json} {round : Json × ℕ} (h : flip unreachable item = .ok round) :
    Marked unreachable item round.1 ∧ round.2 = (if item = round.1 then 0 else 1) ∧
      flip unreachable round.1 = .ok (round.1, 0) := by
  rcases flip_cases unreachable item with ⟨hpassed, -⟩ | ⟨hflippable, hflipped, -⟩ |
    ⟨⟨exc, hraised⟩, -⟩
  · obtain rfl := Except.ok.inj (hpassed.symm.trans h)
    exact ⟨Or.inl rfl, (if_pos rfl).symm, hpassed⟩
  · obtain rfl := Except.ok.inj (hflipped.symm.trans h)
    obtain ⟨hagain, hchanged⟩ := flip_setFailed hflippable
    exact ⟨Or.inr ⟨hflippable, rfl⟩, (if_neg hchanged.symm).symm, hagain⟩
  · rw [hraised] at h
    cases h

/-- The rounds mark items alone, count those that they change, and find nothing when they are
run again. -/
theorem rounds_spec (h : items.mapM (flip unreachable) = .ok rounds) :
    List.Forall₂ (Marked unreachable) items (rounds.map Prod.fst) ∧
      (rounds.map Prod.snd).sum = (items.zip (rounds.map Prod.fst)).countP (fun p ↦ p.1 ≠ p.2) ∧
        (rounds.map Prod.fst).mapM (flip unreachable) =
          .ok (rounds.map fun round ↦ (round.1, 0)) := by
  have hrounds := Outcome.forall₂_of_mapM_eq_ok h
  clear h
  induction hrounds with
  | nil => exact ⟨.nil, rfl, rfl⟩
  | @cons item round items rounds hround _ ih =>
      obtain ⟨hmarked, hcount, hagain⟩ := round_cases hround
      obtain ⟨hmarkeds, hcounts, hagains⟩ := ih
      refine ⟨.cons hmarked hmarkeds, ?_, ?_⟩
      · rw [List.map_cons, List.map_cons, List.sum_cons, List.zip_cons_cons, List.countP_cons,
          hcounts, hcount]
        split_ifs <;> simp_all [Nat.add_comm]
      · rw [List.map_cons, List.mapM_cons, hagain, hagains]
        rfl

theorem mapM_flip_cases (unreachable : List String) (items : List Json) :
    (∃ rounds, items.mapM (flip unreachable) = .ok rounds) ∧ (∀ item ∈ items, Checkable item) ∨
      (∃ exc, items.mapM (flip unreachable) = .error exc) ∧ ¬∀ item ∈ items, Checkable item := by
  have hitem (item : Json) : Checkable item ↔ ∃ round, flip unreachable item = .ok round := by
    rcases flip_cases unreachable item with ⟨hok, hcheckable⟩ | ⟨-, hok, hcheckable⟩ |
      ⟨⟨exc, hraised⟩, hnot⟩
    · exact iff_of_true hcheckable ⟨_, hok⟩
    · exact iff_of_true hcheckable ⟨_, hok⟩
    · apply iff_of_false hnot
      rintro ⟨round, hok⟩
      rw [hraised] at hok
      cases hok
  simp only [hitem, ← Outcome.exists_mapM_iff]
  cases items.mapM (flip unreachable) with
  | ok rounds => exact Or.inl ⟨⟨rounds, rfl⟩, rounds, rfl⟩
  | error exc =>
      refine Or.inr ⟨⟨exc, rfl⟩, ?_⟩
      rintro ⟨rounds, hok⟩
      cases hok

end Rounds

/-! ## Calls -/

section Calls

variable (unreachable : List String)

/-- What a call says and leaves: the items it has marked are as many as it returns, nothing else
changes, and a call after it, with no better luck in writing, changes nothing. -/
structure Marks (written : Bool) (file : Option Json) (count : ℕ) (file' : Option Json) : Prop where
  absent : loadModel file = none → count = 0 ∧ file' = file
  items : ∀ members items, loadModel file = some (members, items) → ∃ members' items',
    loadModel file' = some (members', items') ∧
      List.Forall₂ (Marked unreachable) items items' ∧
        count = (items.zip items').countP (fun p ↦ p.1 ≠ p.2) ∧
          ∀ key ≠ "items", members'.lookup key = members.lookup key
  unchanged : count = 0 → file' = file
  unwritten : written = false → count = 0 ∧ file' = file
  again : ∀ written', (written' = true → written = true) →
    markWiringFailed unreachable written' file' = (.ok 0, file')

/-- Every call on the file comes to a count, and changes what it may. -/
def MarksOnly (file : Option Json) : Prop :=
  ∀ written, ∃ count file', markWiringFailed unreachable written file = (.ok count, file') ∧
    Marks unreachable written file count file'

variable {unreachable}

/-- A call that does nothing marks nothing else, if it does nothing again. -/
theorem Marks.refl {written : Bool} {file : Option Json}
    (h : ∀ written', (written' = true → written = true) →
      markWiringFailed unreachable written' file = (.ok 0, file)) :
    Marks unreachable written file 0 file where
  absent := fun _ ↦ ⟨rfl, rfl⟩
  items := by
    intro members items hmodel
    refine ⟨members, items, hmodel, ?_, ?_, fun _ _ ↦ rfl⟩
    · exact List.forall₂_same.mpr fun item _ ↦ Or.inl rfl
    · rw [List.zip_eq_zipWith, List.zipWith_self]
      simp [Function.comp_def]
  unchanged := fun _ ↦ rfl
  unwritten := fun _ ↦ ⟨rfl, rfl⟩
  again := h

section Model

variable {file : Option Json} {members : List (String × Json)} {items : List Json}
  {rounds : List (Json × ℕ)}

theorem mark_of_rounds (hnames : unreachable ≠ []) (hmodel : loadModel file = some (members, items))
    (hrounds : items.mapM (flip unreachable) = .ok rounds) (written : Bool) :
    markWiringFailed unreachable written file =
      if (rounds.map Prod.snd).sum ≠ 0 ∧ written = true then
        (.ok (rounds.map Prod.snd).sum,
          some (.obj (Dict.set "items" (.arr (rounds.map Prod.fst)) members)))
      else (.ok 0, file) := by
  simp only [markWiringFailed, if_neg hnames, hmodel, hrounds]
  cases written <;> by_cases hnone : (rounds.map Prod.snd).sum = 0 <;> simp [hnone]

/-- A call that writes the items it has marked. -/
theorem Marks.of_written (hnames : unreachable ≠ [])
    (hmodel : loadModel file = some (members, items))
    (hrounds : items.mapM (flip unreachable) = .ok rounds)
    (hsome : (rounds.map Prod.snd).sum ≠ 0) :
    Marks unreachable true file (rounds.map Prod.snd).sum
      (some (.obj (Dict.set "items" (.arr (rounds.map Prod.fst)) members))) := by
  obtain ⟨hmarked, hcount, hagain⟩ := rounds_spec hrounds
  exact {
    absent := by
      intro hnone
      rw [hmodel] at hnone
      cases hnone
    items := by
      intro members' items' hmodel'
      obtain ⟨rfl, rfl⟩ := loadModel_inj hmodel hmodel'
      refine ⟨_, _, loadModel_set members _, hmarked, hcount, fun key hkey ↦ ?_⟩
      rw [Dict.lookup_set, if_neg hkey]
    unchanged := fun hnone ↦ absurd hnone hsome
    unwritten := by
      intro hfalse
      cases hfalse
    again := by
      intro written' _
      rw [mark_of_rounds hnames (loadModel_set members _) hagain]
      refine if_neg fun h ↦ h.1 ?_
      simp [Function.comp_def] }

end Model

/-- The files on which a call raises nothing. -/
def Markable (unreachable : List String) (file : Option Json) : Prop :=
  unreachable = [] ∨ ∀ members items, loadModel file = some (members, items) →
    ∀ item ∈ items, Checkable item

/-- A call marks what it may, and nothing else, just when it can go through the items. -/
theorem mark_changes_only_iff (unreachable : List String) (file : Option Json) :
    MarksOnly unreachable file ↔ Markable unreachable file := by
  by_cases hnames : unreachable = []
  · have hcall (written : Bool) : markWiringFailed unreachable written file = (.ok 0, file) :=
      if_pos hnames
    refine iff_of_true (fun written ↦ ⟨0, file, hcall written, ?_⟩) (Or.inl hnames)
    exact Marks.refl fun written' _ ↦ hcall written'
  cases hmodel : loadModel file with
  | none =>
      have hcall (written : Bool) : markWiringFailed unreachable written file = (.ok 0, file) := by
        rw [markWiringFailed, if_neg hnames, hmodel]
      refine iff_of_true (fun written ↦ ⟨0, file, hcall written, ?_⟩) (Or.inr ?_)
      · exact Marks.refl fun written' _ ↦ hcall written'
      · intro members items hmodel'
        rw [hmodel] at hmodel'
        cases hmodel'
  | some model =>
      obtain ⟨members, items⟩ := model
      rcases mapM_flip_cases unreachable items with ⟨⟨rounds, hrounds⟩, hcheckable⟩ |
        ⟨⟨exc, hraised⟩, hnot⟩
      · have hcall := mark_of_rounds hnames hmodel hrounds
        refine iff_of_true (fun written ↦ ?_) (Or.inr fun members' items' hmodel' ↦ ?_)
        · by_cases hwrites : (rounds.map Prod.snd).sum ≠ 0 ∧ written = true
          · obtain ⟨hsome, rfl⟩ := hwrites
            refine ⟨_, _, (hcall true).trans (if_pos ⟨hsome, rfl⟩), ?_⟩
            exact Marks.of_written hnames hmodel hrounds hsome
          · refine ⟨0, file, (hcall written).trans (if_neg hwrites), Marks.refl ?_⟩
            intro written' hluck
            refine (hcall written').trans (if_neg fun h ↦ hwrites ?_)
            exact ⟨h.1, hluck h.2⟩
        · obtain ⟨rfl, rfl⟩ := loadModel_inj hmodel hmodel'
          exact hcheckable
      · have hcall : markWiringFailed unreachable true file = (.error exc, file) := by
          simp only [markWiringFailed, if_neg hnames, hmodel, hraised]
        refine iff_of_false (fun h ↦ ?_) (fun h ↦ ?_)
        · obtain ⟨count, file', hok, -⟩ := h true
          rw [hcall] at hok
          cases hok
        · exact hnot ((h.resolve_left hnames) members items hmodel)

end Calls

/-- The call raises, though the model is a valid one. -/
theorem text_wiring_is_not_marked :
    validModel (sampleFile (.str "m.f")) = true ∧
      ¬MarksOnly ["m.f"] (some (sampleFile (.str "m.f"))) := by
  refine ⟨validModel_sampleFile _, fun h ↦ ?_⟩
  obtain ⟨count, file', hok, -⟩ := h true
  have hraises : (markWiringFailed ["m.f"] true (some (sampleFile (.str "m.f")))).1 =
      .error ⟨"AttributeError", "'str' object has no attribute 'get'"⟩ := by decide +kernel
  rw [hok] at hraises
  cases hraises

end AgenticSDLC.WiringIngest
