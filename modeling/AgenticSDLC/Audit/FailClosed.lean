import AgenticSDLC.Audit.AuditVerify

/-!
# Verification of untrusted rows

`verify_rows` answers for rows of any values.  It takes a row without a field for a broken
chain, and nothing else: what the sort of the numbers raises, or the encoding of a
`prev_hash` that is no text, it raises as well.
-/

namespace AgenticSDLC.AuditVerify

open Python (Exception Stdlib)
open AuditLog (computeEntryHash)
open Outcome (Raises raises_ok)

def Unreadable (exc : Exception) : Prop := exc.name = "ChainUnreadable"

instance (exc : Exception) : Decidable (Unreadable exc) := inferInstanceAs (Decidable (_ = _))

def canonicalFields : List String :=
  ["seq", "event_name", "tool_name", "decision", "reason", "requirement_id", "actor_agent",
    "created_at"]

section Verify

variable (py : Stdlib)

def verifyRows (entries : List Row) (genesis : Option String) : Except Exception Bool :=
  match verifyChain py entries genesis with
  | .ok verdict => .ok verdict.ok
  | .error exc => if Unreadable exc then .ok false else .error exc

/-- The rows by their numbers, as `verify_chain` walks them. -/
def seqOrder (entries : List Row) : Except Exception (List Row) := do
  let keyed ← entries.mapM fun row ↦ do return (← field row "seq", row)
  return (← Python.sortByKey keyed).map Prod.snd

/-- The row names `start`, and has the hash of its own fields. -/
structure Matches (start hash : String) (row : Row) : Prop where
  prev : row.lookup "prev_hash" = some (.str start)
  entry : row.lookup "entry_hash" = some (.str hash)
  recomputed : ∃ canonical, rowCanonicalBytes py row = .ok canonical ∧
    hash = computeEntryHash py canonical start

/-- Each row names the hash of the one before it, and the first one names `start`. -/
def Chain : String → List Row → Prop
  | _, [] => True
  | start, row :: rows => ∃ hash, Matches py start hash row ∧ Chain hash rows

/-- The row has every field, and a `prev_hash` that cannot be encoded. -/
structure Unlinkable (row : Row) : Prop where
  canonical : ∀ name ∈ canonicalFields, (row.lookup name).isSome = true
  entry : (row.lookup "entry_hash").isSome = true
  prev : ∃ value, row.lookup "prev_hash" = some value ∧ ∀ text, value ≠ .str text

/-- A chain of rows comes to one that cannot be linked. -/
def Meets (start : String) (rows : List Row) : Prop :=
  ∃ before row after, rows = before ++ row :: after ∧ Chain py start before ∧ Unlinkable row

/-! ## Fields -/

variable {py}

theorem field_eq_ok_iff {row : Row} {name : String} {value : Json} :
    field row name = .ok value ↔ row.lookup name = some value := by
  rw [field]
  cases row.lookup name <;> simp

theorem field_of_none {row : Row} {name : String} (h : row.lookup name = none) :
    ∃ exc, field row name = .error exc ∧ Unreadable exc := by
  rw [field, h]
  exact ⟨_, rfl, rfl⟩

theorem raises_field (row : Row) (name : String) : Raises Unreadable (field row name) := by
  intro exc h
  rw [field] at h
  split at h
  · cases h
  · cases h
    rfl

theorem raises_rowCanonicalBytes (row : Row) : Raises Unreadable (rowCanonicalBytes py row) := by
  rw [rowCanonicalBytes]
  iterate 8 refine (raises_field row _).bind fun _ ↦ ?_
  exact raises_ok _

/-- The canonical row can be made just when its fields are there. -/
theorem exists_rowCanonicalBytes_iff (row : Row) :
    (∃ canonical, rowCanonicalBytes py row = .ok canonical) ↔
      ∀ name ∈ canonicalFields, (row.lookup name).isSome = true := by
  simp only [rowCanonicalBytes, Outcome.bind_eq_ok_iff, field_eq_ok_iff, canonicalFields,
    List.forall_mem_cons, Option.isSome_iff_exists]
  constructor
  · rintro ⟨canonical, seq, hseq, event, hevent, tool, htool, decision, hdecision, reason, hreason,
      requirement, hrequirement, actor, hactor, created, hcreated, -⟩
    exact ⟨⟨seq, hseq⟩, ⟨event, hevent⟩, ⟨tool, htool⟩, ⟨decision, hdecision⟩, ⟨reason, hreason⟩,
      ⟨requirement, hrequirement⟩, ⟨actor, hactor⟩, ⟨created, hcreated⟩, by simp⟩
  · rintro ⟨⟨seq, hseq⟩, ⟨event, hevent⟩, ⟨tool, htool⟩, ⟨decision, hdecision⟩, ⟨reason, hreason⟩,
      ⟨requirement, hrequirement⟩, ⟨actor, hactor⟩, ⟨created, hcreated⟩, -⟩
    exact ⟨_, seq, hseq, event, hevent, tool, htool, decision, hdecision, reason, hreason,
      requirement, hrequirement, actor, hactor, created, hcreated, rfl⟩

/-! ## The walk -/

/-- The row has each of the fields that the walk reads. -/
structure Whole (row : Row) : Prop where
  canonical : ∀ name ∈ canonicalFields, (row.lookup name).isSome = true
  entry : (row.lookup "entry_hash").isSome = true
  prev : (row.lookup "prev_hash").isSome = true

theorem Unlinkable.whole {row : Row} (h : Unlinkable row) : Whole row where
  canonical := h.canonical
  entry := h.entry
  prev := by
    obtain ⟨value, hvalue, -⟩ := h.prev
    exact Option.isSome_of_eq_some hvalue

theorem Matches.whole {start hash : String} {row : Row} (h : Matches py start hash row) :
    Whole row where
  canonical := by
    obtain ⟨canonical, hcanonical, -⟩ := h.recomputed
    exact (exists_rowCanonicalBytes_iff row).mp ⟨canonical, hcanonical⟩
  entry := Option.isSome_of_eq_some h.entry
  prev := Option.isSome_of_eq_some h.prev

theorem Unlinkable.not_matches {row : Row} (h : Unlinkable row) (start hash : String) :
    ¬Matches py start hash row := by
  rintro ⟨hprev, -, -⟩
  obtain ⟨value, hvalue, htext⟩ := h.prev
  exact htext start (Option.some.inj (hvalue.symm.trans hprev))

section Row

variable (count index : ℕ) (start : String) {row : Row} (rows : List Row)

theorem walk_of_not_whole (h : ¬Whole row) :
    ∃ exc, walk py count index (.str start) (row :: rows) = .error exc ∧ Unreadable exc := by
  rw [walk]
  cases hprev : row.lookup "prev_hash" with
  | none =>
      obtain ⟨exc, hexc, hunreadable⟩ := field_of_none hprev
      exact ⟨exc, by rw [hexc]; rfl, hunreadable⟩
  | some prev =>
      rw [field_eq_ok_iff.mpr hprev, Outcome.ok_bind]
      cases hentry : row.lookup "entry_hash" with
      | none =>
          obtain ⟨exc, hexc, hunreadable⟩ := field_of_none hentry
          exact ⟨exc, by rw [hexc]; rfl, hunreadable⟩
      | some entry =>
          rw [field_eq_ok_iff.mpr hentry, Outcome.ok_bind]
          cases hcanonical : rowCanonicalBytes py row with
          | error exc => exact ⟨exc, rfl, raises_rowCanonicalBytes row exc hcanonical⟩
          | ok canonical =>
              refine absurd ⟨?_, Option.isSome_of_eq_some hentry, Option.isSome_of_eq_some hprev⟩ h
              exact (exists_rowCanonicalBytes_iff row).mp ⟨canonical, hcanonical⟩

/-- The walk at a row that has its fields. -/
theorem walk_of_whole (h : Whole row) : ∃ prev entry canonical seq,
    row.lookup "prev_hash" = some prev ∧ row.lookup "entry_hash" = some entry ∧
      rowCanonicalBytes py row = .ok canonical ∧
        walk py count index (.str start) (row :: rows) = encoded prev >>= fun text ↦
          if ¬Python.eq prev (.str start) then
            .ok ⟨false, some index, count, some seq, some "prev_hash mismatch"⟩
          else if ¬Python.eq entry (.str (computeEntryHash py canonical text)) then
            .ok ⟨false, some index, count, some seq, some "entry_hash mismatch"⟩
          else walk py count (index + 1) (.str (computeEntryHash py canonical text)) rows := by
  obtain ⟨prev, hprev⟩ := Option.isSome_iff_exists.mp h.prev
  obtain ⟨entry, hentry⟩ := Option.isSome_iff_exists.mp h.entry
  obtain ⟨canonical, hcanonical⟩ := (exists_rowCanonicalBytes_iff row).mpr h.canonical
  obtain ⟨seq, hseq⟩ := Option.isSome_iff_exists.mp (h.canonical "seq" (by decide))
  refine ⟨prev, entry, canonical, seq, hprev, hentry, hcanonical, ?_⟩
  rw [walk, field_eq_ok_iff.mpr hprev, field_eq_ok_iff.mpr hentry, hcanonical,
    field_eq_ok_iff.mpr hseq]
  rfl

/-- A row that can be linked breaks the chain, or is passed. -/
theorem walk_of_str (h : Whole row) {text : String}
    (htext : row.lookup "prev_hash" = some (.str text)) :
    ((∃ verdict, walk py count index (.str start) (row :: rows) = .ok verdict ∧
          verdict.ok = false) ∧ ∀ hash, ¬Matches py start hash row) ∨
      ∃ hash, Matches py start hash row ∧ walk py count index (.str start) (row :: rows) =
        walk py count (index + 1) (.str hash) rows := by
  obtain ⟨prev, entry, canonical, seq, hprev, hentry, hcanonical, hwalk⟩ :=
    @walk_of_whole py count index start row rows h
  obtain rfl := Option.some.inj (htext.symm.trans hprev)
  simp only [encoded, Outcome.ok_bind, Python.eq_str_iff, Json.str.injEq] at hwalk
  by_cases hlink : text = start
  · subst hlink
    rw [if_neg (not_not_intro rfl)] at hwalk
    by_cases hhash : entry = .str (computeEntryHash py canonical text)
    · subst hhash
      rw [if_neg (not_not_intro rfl)] at hwalk
      exact Or.inr ⟨_, ⟨hprev, hentry, canonical, hcanonical, rfl⟩, hwalk⟩
    · rw [if_pos hhash] at hwalk
      refine Or.inl ⟨⟨_, hwalk, rfl⟩, fun hash hmatches ↦ ?_⟩
      obtain ⟨other, hother, rfl⟩ := hmatches.recomputed
      obtain rfl := Except.ok.inj (hcanonical.symm.trans hother)
      exact hhash (Option.some.inj (hentry.symm.trans hmatches.entry))
  · rw [if_pos hlink] at hwalk
    refine Or.inl ⟨⟨_, hwalk, rfl⟩, fun hash hmatches ↦ hlink ?_⟩
    exact Json.str.inj (Option.some.inj (hprev.symm.trans hmatches.prev))

theorem walk_of_unlinkable (h : Unlinkable row) :
    ∃ exc, walk py count index (.str start) (row :: rows) = .error exc ∧ ¬Unreadable exc := by
  obtain ⟨prev, entry, canonical, seq, hprev, -, -, hwalk⟩ :=
    @walk_of_whole py count index start row rows h.whole
  obtain ⟨value, hvalue, htext⟩ := h.prev
  obtain rfl := Option.some.inj (hprev.symm.trans hvalue)
  cases prev with
  | str text => exact absurd rfl (htext text)
  | _ => exact ⟨_, hwalk, by simp [Unreadable, Python.noAttribute]⟩

variable (row)

/-- The walk at a row: the row cannot be read, cannot be linked, breaks the chain, or is passed. -/
theorem walk_cons_cases :
    ((∃ exc, walk py count index (.str start) (row :: rows) = .error exc ∧ Unreadable exc) ∧
        ¬Unlinkable row ∧ ∀ hash, ¬Matches py start hash row) ∨
      ((∃ exc, walk py count index (.str start) (row :: rows) = .error exc ∧ ¬Unreadable exc) ∧
        Unlinkable row) ∨
      ((∃ verdict, walk py count index (.str start) (row :: rows) = .ok verdict ∧
          verdict.ok = false) ∧
        ¬Unlinkable row ∧ ∀ hash, ¬Matches py start hash row) ∨
      ∃ hash, Matches py start hash row ∧ walk py count index (.str start) (row :: rows) =
        walk py count (index + 1) (.str hash) rows := by
  by_cases hwhole : Whole row
  swap
  · refine Or.inl ⟨walk_of_not_whole count index start rows hwhole, fun h ↦ hwhole h.whole, ?_⟩
    exact fun hash h ↦ hwhole h.whole
  by_cases hbad : Unlinkable row
  · exact Or.inr (Or.inl ⟨walk_of_unlinkable count index start rows hbad, hbad⟩)
  have htext : ∃ text, row.lookup "prev_hash" = some (.str text) := by
    obtain ⟨value, hvalue⟩ := Option.isSome_iff_exists.mp hwhole.prev
    by_contra hnone
    refine hbad ⟨hwhole.canonical, hwhole.entry, value, hvalue, ?_⟩
    rintro text rfl
    exact hnone ⟨text, hvalue⟩
  obtain ⟨text, htext⟩ := htext
  rcases @walk_of_str py count index start row rows hwhole text htext with ⟨hbroken, hnone⟩ | hpassed
  · exact Or.inr (Or.inr (Or.inl ⟨hbroken, hbad, hnone⟩))
  · exact Or.inr (Or.inr (Or.inr hpassed))

end Row

theorem matches_unique {start hash other : String} {row : Row} (h : Matches py start hash row)
    (hother : Matches py start other row) : hash = other :=
  Json.str.inj (Option.some.inj (h.entry.symm.trans hother.entry))

theorem meets_cons_iff {start : String} {row : Row} {rows : List Row} :
    Meets py start (row :: rows) ↔
      Unlinkable row ∨ ∃ hash, Matches py start hash row ∧ Meets py hash rows := by
  constructor
  · rintro ⟨before, bad, after, hrows, hchain, hbad⟩
    cases before with
    | nil =>
        obtain ⟨rfl, -⟩ := List.cons.inj hrows
        exact Or.inl hbad
    | cons first before =>
        obtain ⟨rfl, rfl⟩ := List.cons.inj hrows
        obtain ⟨hash, hmatches, hrest⟩ := hchain
        exact Or.inr ⟨hash, hmatches, before, bad, after, rfl, hrest, hbad⟩
  · rintro (hbad | ⟨hash, hmatches, before, bad, after, rfl, hchain, hbad⟩)
    · exact ⟨[], row, rows, rfl, trivial, hbad⟩
    · exact ⟨row :: before, bad, after, rfl, ⟨hash, hmatches, hchain⟩, hbad⟩

/-- What the walk comes to: a verdict, which is good just for a chain, or an exception, and
one of another kind just where the chain comes to a row that cannot be linked. -/
theorem walk_spec (count index : ℕ) (start : String) (rows : List Row) :
    (∃ verdict, walk py count index (.str start) rows = .ok verdict ∧
        (verdict.ok = true ↔ Chain py start rows) ∧ ¬Meets py start rows) ∨
      ∃ exc, walk py count index (.str start) rows = .error exc ∧ ¬Chain py start rows ∧
        (Unreadable exc ↔ ¬Meets py start rows) := by
  induction rows generalizing index start with
  | nil =>
      refine Or.inl ⟨_, rfl, iff_of_true rfl trivial, ?_⟩
      rintro ⟨before, row, after, hrows, -⟩
      simp at hrows
  | cons row rows ih =>
      have hstop : ¬Unlinkable row → (∀ hash, ¬Matches py start hash row) →
          ¬Chain py start (row :: rows) ∧ ¬Meets py start (row :: rows) := by
        intro hlinkable hnone
        refine ⟨fun hchain ↦ ?_, fun hmeets ↦ ?_⟩
        · obtain ⟨hash, hmatches, -⟩ := hchain
          exact hnone hash hmatches
        · rcases meets_cons_iff.mp hmeets with hbad | ⟨hash, hmatches, -⟩
          · exact hlinkable hbad
          · exact hnone hash hmatches
      rcases @walk_cons_cases py count index start row rows with
        ⟨⟨exc, hwalk, hunreadable⟩, hlinkable, hnone⟩ | ⟨⟨exc, hwalk, hother⟩, hbad⟩ |
        ⟨⟨verdict, hwalk, hbroken⟩, hlinkable, hnone⟩ | ⟨hash, hmatches, hwalk⟩
      · obtain ⟨hchain, hmeets⟩ := hstop hlinkable hnone
        exact Or.inr ⟨exc, hwalk, hchain, iff_of_true hunreadable hmeets⟩
      · refine Or.inr ⟨exc, hwalk, ?_, iff_of_false hother (not_not_intro ?_)⟩
        · rintro ⟨hash, hmatches, -⟩
          exact hbad.not_matches start hash hmatches
        · exact meets_cons_iff.mpr (Or.inl hbad)
      · obtain ⟨hchain, hmeets⟩ := hstop hlinkable hnone
        refine Or.inl ⟨verdict, hwalk, iff_of_false ?_ hchain, hmeets⟩
        rw [hbroken]
        exact Bool.false_ne_true
      · have hchain : Chain py start (row :: rows) ↔ Chain py hash rows := by
          constructor
          · rintro ⟨other, hother, hrest⟩
            rwa [matches_unique hmatches hother]
          · exact fun hrest ↦ ⟨hash, hmatches, hrest⟩
        have hmeets : Meets py start (row :: rows) ↔ Meets py hash rows := by
          rw [meets_cons_iff]
          constructor
          · rintro (hbad | ⟨other, hother, hrest⟩)
            · exact absurd hmatches (hbad.not_matches start hash)
            · rwa [matches_unique hmatches hother]
          · exact fun hrest ↦ Or.inr ⟨hash, hmatches, hrest⟩
        rw [hwalk, hchain, hmeets]
        exact ih (index + 1) hash

/-! ## The order of the rows -/

def Incomparable (exc : Exception) : Prop := exc.name = "TypeError"

theorem Incomparable.not_unreadable {exc : Exception} (h : Incomparable exc) : ¬Unreadable exc := by
  rw [Unreadable, h]
  decide

theorem raises_less (a b : Json) : Raises Incomparable (Python.less a b) := by
  have hboth := Python.less.mutual_induct
    (fun a b ↦ Raises Incomparable (Python.less a b))
    (fun items others ↦ Raises Incomparable (Python.lessItems items others))
  refine (hboth ?_ ?_ ?_ ?_ ?_ ?_ ?_ ?_).1 a b
  · intro items others ih
    rwa [Python.less]
  · intro s t
    rw [Python.less]
    exact raises_ok _
  · intro a b harr hstr x y hy hx
    rw [Python.less.eq_3 a b harr hstr, hx, hy]
    exact raises_ok _
  · intro a b harr hstr hnone
    rw [Python.less.eq_3 a b harr hstr]
    split
    · exact raises_ok _
    · intro exc h
      cases h
      rfl
  · intro items
    rw [Python.lessItems]
    exact raises_ok _
  · intro other others
    exact raises_ok _
  · intro item items other others hsame ih
    rwa [Python.lessItems, if_pos hsame]
  · intro item items other others hsame ih
    rwa [Python.lessItems, if_neg hsame]

theorem raises_insertByKey {α : Type} (item : Json × α) (items : List (Json × α)) :
    Raises Incomparable (Python.insertByKey item items) := by
  induction items with
  | nil => exact raises_ok _
  | cons other items ih =>
      rw [Python.insertByKey]
      refine (raises_less _ _).bind fun less ↦ ?_
      split_ifs
      · exact ih.bind fun _ ↦ raises_ok _
      · exact raises_ok _

theorem raises_sortByKey {α : Type} (items : List (Json × α)) :
    Raises Incomparable (Python.sortByKey items) := by
  induction items with
  | nil => exact raises_ok _
  | cons item items ih =>
      rw [Python.sortByKey]
      exact ih.bind fun _ ↦ raises_insertByKey _ _

/-- The rows can be put in order, or one of them has no number, or two cannot be compared. -/
theorem seqOrder_cases (entries : List Row) :
    ((∃ ordered, seqOrder entries = .ok ordered) ∧
        ¬∃ row ∈ entries, row.lookup "seq" = none) ∨
      ((∃ exc, seqOrder entries = .error exc ∧ Unreadable exc) ∧
        ∃ row ∈ entries, row.lookup "seq" = none) ∨
      (∃ exc, seqOrder entries = .error exc ∧ Incomparable exc) ∧
        ¬∃ row ∈ entries, row.lookup "seq" = none := by
  rw [seqOrder]
  by_cases hmissing : ∃ row ∈ entries, row.lookup "seq" = none
  · refine Or.inr (Or.inl ⟨?_, hmissing⟩)
    cases hkeyed : entries.mapM fun row ↦ do return (← field row "seq", row) with
    | error exc =>
        refine ⟨exc, rfl, ?_⟩
        have hraises := Outcome.raises_mapM (f := fun row ↦ do return (← field row "seq", row))
          (fun row ↦ (raises_field row "seq").bind fun _ ↦ raises_ok _) entries
        exact hraises exc hkeyed
    | ok keyed =>
        obtain ⟨row, hrow, hnone⟩ := hmissing
        obtain ⟨pair, -, hpair⟩ := Outcome.exists_of_mapM_eq_ok hkeyed row hrow
        obtain ⟨seq, hseq, -⟩ := Outcome.bind_eq_ok_iff.mp hpair
        rw [field_eq_ok_iff, hnone] at hseq
        cases hseq
  · have hall : ∀ row ∈ entries, ∃ pair, (do return (← field row "seq", row)) = Except.ok pair := by
      intro row hrow
      obtain ⟨seq, hseq⟩ := Option.ne_none_iff_exists'.mp fun hnone ↦ hmissing ⟨row, hrow, hnone⟩
      rw [field_eq_ok_iff.mpr hseq]
      exact ⟨_, rfl⟩
    obtain ⟨keyed, hkeyed⟩ := Outcome.mapM_eq_ok_of_forall hall
    rw [hkeyed, Outcome.ok_bind]
    cases hsorted : Python.sortByKey keyed with
    | error exc =>
        exact Or.inr (Or.inr ⟨⟨exc, rfl, raises_sortByKey keyed exc hsorted⟩, hmissing⟩)
    | ok sorted => exact Or.inl ⟨⟨_, rfl⟩, hmissing⟩

theorem verifyChain_none (entries : List Row) :
    verifyChain py entries none = seqOrder entries >>= fun ordered ↦
      walk py entries.length 0 (selectGenesis py ordered) ordered := by
  rw [verifyChain, seqOrder]
  cases entries.mapM fun row ↦ do return (← field row "seq", row) with
  | error exc => rfl
  | ok keyed =>
      rw [Outcome.ok_bind, Outcome.ok_bind]
      cases Python.sortByKey keyed <;> rfl

/-- The genesis is one of the two sentinels, and the first row's own where it names one. -/
theorem selectGenesis_spec (rows : List Row) :
    ∃ start ∈ genesisSentinels py, selectGenesis py rows = .str start ∧
      ∀ other ∈ genesisSentinels py, ∀ row rest, rows = row :: rest →
        row.lookup "prev_hash" = some (.str other) → other = start := by
  cases rows with
  | nil => exact ⟨_, List.mem_cons_self, rfl, fun _ _ _ _ h ↦ by cases h⟩
  | cons first rows =>
      rw [selectGenesis]
      cases hprev : first.lookup "prev_hash" with
      | none =>
          obtain ⟨exc, hexc, -⟩ := field_of_none hprev
          rw [hexc]
          refine ⟨_, List.mem_cons_self, rfl, fun other _ row rest hrows hother ↦ ?_⟩
          obtain ⟨rfl, -⟩ := List.cons.inj hrows
          rw [hprev] at hother
          cases hother
      | some prev =>
          rw [field_eq_ok_iff.mpr hprev]
          simp only [List.any_eq_true, Python.eq_str_iff]
          split_ifs with hsentinel
          · obtain ⟨start, hstart, rfl⟩ := hsentinel
            refine ⟨start, hstart, rfl, fun other _ row rest hrows hother ↦ ?_⟩
            obtain ⟨rfl, -⟩ := List.cons.inj hrows
            exact Json.str.inj (Option.some.inj (hother.symm.trans hprev))
          · refine ⟨_, List.mem_cons_self, rfl, fun other hmem row rest hrows hother ↦ ?_⟩
            obtain ⟨rfl, -⟩ := List.cons.inj hrows
            exact absurd ⟨other, hmem, Option.some.inj (hprev.symm.trans hother)⟩ hsentinel

/-! ## Answers -/

/-- Whatever it is given, `verify_rows` answers, and takes nothing but a chain. -/
def FailsClosed (py : Stdlib) (entries : List Row) : Prop :=
  (∃ ok, verifyRows py entries none = .ok ok) ∧
    (verifyRows py entries none = .ok true → ∃ ordered start, seqOrder entries = .ok ordered ∧
      start ∈ genesisSentinels py ∧ Chain py start ordered)

theorem meets_selected_iff {rows : List Row} {start : String} (hstart : start ∈ genesisSentinels py)
    (hselect : ∀ other ∈ genesisSentinels py, ∀ row rest, rows = row :: rest →
      row.lookup "prev_hash" = some (.str other) → other = start) :
    (∃ other ∈ genesisSentinels py, Meets py other rows) ↔ Meets py start rows := by
  refine ⟨?_, fun h ↦ ⟨start, hstart, h⟩⟩
  rintro ⟨other, hother, before, bad, after, hrows, hchain, hbad⟩
  cases before with
  | nil => exact ⟨[], bad, after, hrows, trivial, hbad⟩
  | cons first before =>
      obtain ⟨hash, hmatches, -⟩ := id hchain
      obtain rfl := hselect other hother first _ hrows hmatches.prev
      exact ⟨first :: before, bad, after, hrows, hchain, hbad⟩

theorem verifyRows_of_error {entries : List Row} {exc : Exception}
    (h : verifyChain py entries none = .error exc) :
    ((∃ ok, verifyRows py entries none = .ok ok) ↔ Unreadable exc) ∧
      verifyRows py entries none ≠ .ok true := by
  rw [verifyRows, h]
  by_cases hkind : Unreadable exc
  · simp [hkind]
  · simp [hkind]

/-- A walk fails closed just when it meets no row that cannot be linked. -/
theorem failsClosed_of_order {entries ordered : List Row} (h : seqOrder entries = .ok ordered) :
    FailsClosed py entries ↔ ¬∃ start ∈ genesisSentinels py, Meets py start ordered := by
  obtain ⟨start, hstart, hselected, hselect⟩ := @selectGenesis_spec py ordered
  have hverify : verifyChain py entries none = walk py entries.length 0 (.str start) ordered := by
    rw [verifyChain_none, h, Outcome.ok_bind, hselected]
  rw [meets_selected_iff hstart hselect]
  rcases @walk_spec py entries.length 0 start ordered with
    ⟨verdict, hwalk, hchain, hmeets⟩ | ⟨exc, hwalk, -, hmeets⟩
  · refine iff_of_true ?_ hmeets
    rw [FailsClosed, verifyRows, hverify, hwalk]
    refine ⟨⟨verdict.ok, rfl⟩, fun hok ↦ ⟨ordered, start, h, hstart, ?_⟩⟩
    exact hchain.mp (Except.ok.inj hok)
  · obtain ⟨hanswers, hfalse⟩ := verifyRows_of_error (hverify.trans hwalk)
    rw [FailsClosed, hanswers, ← hmeets]
    exact and_iff_left fun htrue ↦ absurd htrue hfalse

end Verify

end AgenticSDLC.AuditVerify
