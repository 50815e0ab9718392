import AgenticSDLC.Store.AtomicWrites

/-!
# The run state of a session

`load_run_state` reads back the row that `save_run_state` last put for the session.  A
column gives back the value that was saved, or its default.  The column of the token cost
holds reals: an integer there comes back as the real that the engine converts it to.
-/

namespace AgenticSDLC.Store

open Python (Exception Stdlib)
open Sql

/-! ## Loading -/

def valueOf : Value → Json
  | .null => .null
  | .integer n => .int n
  | .real x => .float x
  | .text s => .str s

def rowToDict (row : Row) : List (String × Json) := row.map fun item ↦ (item.1, valueOf item.2)

/-- A boolean column comes back as a boolean, where it is set. -/
def surfaced (column : String) (value : Json) : Json :=
  if column ∈ runStateBoolColumns ∧ value ≠ .null then .bool (Python.truthy value) else value

/-- The dictionary of a row of the run states. -/
def record (row : Row) : List (String × Json) :=
  (rowToDict row).map fun item ↦ (item.1, surfaced item.1 item.2)

def loadRunState (sessionId : Option String) (store : Tables) :
    Except Exception (Option (List (String × Json))) :=
  match sessionId with
  | none =>
      match store.runState with
      | [] => .ok none
      | [row] => .ok (some (record row))
      | _ :: _ :: _ => .error (storeError ("load_run_state() called without session_id but " ++
          "multiple run_state rows exist; pass an explicit session_id"))
  | some sessionId =>
      .ok ((rowOf "session_id" (.text sessionId) store.runState).map record)

/-! ## What is saved -/

/-- The value that a state has for a column, or the column's default. -/
def savedValue (state : List (String × Json)) (column : String) : Json :=
  Python.getD state column (Python.get runStateDefaults column)

/-- The value has the type of the column. -/
def hasType (column : Column) (value : Json) : Bool :=
  match column.affinity, value with
  | _, .null => !column.notNull
  | .text, .str _ => true
  | .integer, .bool _ => column.name ∈ runStateBoolColumns
  | .integer, .int _ => column.name ∉ runStateBoolColumns
  | .real, .int _ => true
  | .real, .float _ => true
  | _, _ => false

/-- What a column gives back for a value: a column of reals holds integers as reals. -/
def givenBack (engine : Engine) : Affinity → Json → Json
  | .real, .int n => .float (engine.integerReal n)
  | _, value => value

def TypedState (state : List (String × Json)) : Prop :=
  ∀ column ∈ runState.columns, (state.lookup column.name).all (hasType column) = true

/-- The states that a run saves have the types of the columns. -/
def TypedSave : Operation → Prop
  | .saveRunState (.obj state) _ => TypedState state
  | _ => True

section Saves

variable (py : Stdlib) (engine : Engine)

/-- What a call saves for a session: nothing where it raises. -/
def savedFor (sessionId : String) (store : Tables) : Operation → Option (List (String × Json))
  | .saveRunState (.obj state) now =>
      match saveRunState py engine (.obj state) now store with
      | .ok _ => if Python.get state "session_id" = .str sessionId then some state else none
      | .error _ => none
  | _ => none

/-- The last state that a run saves for the session. -/
def lastSaved (sessionId : String) (operations : List Operation) :
    Option (List (String × Json)) :=
  (operations.foldl (fun last operation ↦
      (last.1.step py engine operation, (savedFor py engine sessionId last.1 operation).or last.2))
    (Tables.empty, none)).2

/-- A loaded row gives back what was saved. -/
structure Loads (state row : List (String × Json)) : Prop where
  columns : ∀ column ∈ runStateColumns, column ≠ "token_cost_usd" →
    Python.get row column = savedValue state column
  cost : Python.get row "token_cost_usd" =
    givenBack engine .real (savedValue state "token_cost_usd")
  /-- The cost itself, unless it is an integer that the engine rounds. -/
  same : (∀ n, savedValue state "token_cost_usd" = .int n → (engine.integerReal n).toRat = n) →
    Python.eq (Python.get row "token_cost_usd") (savedValue state "token_cost_usd") = true
  booleans : ∀ column ∈ runStateBoolColumns,
    Python.get row column = .null ∨ ∃ b, Python.get row column = .bool b

end Saves

/-! ## One row -/

section Rows

variable {py : Stdlib} {engine : Engine}

theorem get_record (row : Row) (column : String) :
    Python.get (record row) column = surfaced column (valueOf (row.get column)) := by
  have hnull : surfaced column .null = .null := if_neg fun h ↦ h.2 rfl
  induction row with
  | nil => exact hnull.symm
  | cons item row ih =>
      rw [Python.get, record, rowToDict, List.map_cons, List.map_cons, Dict.lookup_cons, Row.get,
        Dict.lookup_cons]
      split_ifs with hsame
      · rw [hsame]
        rfl
      · exact ih

theorem lookup_map_self {names : List String} (f : String → Json) {name : String}
    (h : name ∈ names) : (names.map fun other ↦ (other, f other)).lookup name = some (f name) := by
  induction names with
  | nil => cases h
  | cons other names ih =>
      rw [List.map_cons, Dict.lookup_cons]
      split_ifs with hsame
      · rw [hsame]
      · exact ih ((List.mem_cons.mp h).resolve_left hsame)

/-- What a row is made from. -/
theorem runStateRow_spec {state : Json} {now : String} {row : Row}
    (h : runStateRow py engine state now = .ok row) :
    ∃ members sessionId values, state = .obj members ∧
      Python.get members "session_id" = .str sessionId ∧
        bindAll 1 (runStateColumns.map (fun column ↦ (column, runStateValue members column)) ++
          [("updated_at", .str now)]) = .ok values ∧ runState.row engine values = .ok row := by
  cases state with
  | obj members =>
      rw [runStateRow] at h
      split at h
      · rename_i sessionId hsession
        split_ifs at h
        obtain ⟨values, hvalues, hrow⟩ := Outcome.bind_eq_ok_iff.mp h
        exact ⟨members, sessionId, values, rfl, hsession, hvalues, hrow⟩
      · cases h
  | _ => cases h

theorem integer_of_bool {column : Column} (hcolumn : column ∈ runState.columns)
    (hbool : column.name ∈ runStateBoolColumns) : column.affinity = .integer := by
  have hall : ∀ column ∈ runState.columns, column.name ∈ runStateBoolColumns →
      column.affinity = .integer := by
    simp [runState, runStateBoolColumns]
  exact hall column hcolumn hbool

/-- A boolean is stored as an integer, and read as a boolean again. -/
theorem surfaced_of_bool {column : Column} (haffinity : column.affinity = .integer)
    (hbool : column.name ∈ runStateBoolColumns) {value : Json}
    (htype : hasType column value = true) {place : ℕ} {bound : Value}
    (hbind : Sql.bind place (if value ≠ .null then .int (if Python.truthy value then 1 else 0)
      else value) = .ok bound) :
    surfaced column.name (valueOf (column.affinity.apply engine bound)) = value := by
  cases value with
  | null =>
      obtain rfl := Except.ok.inj hbind
      rw [apply_null]
      exact if_neg fun h ↦ h.2 rfl
  | bool b =>
      cases b <;>
        · obtain rfl := Except.ok.inj hbind
          rw [haffinity]
          exact if_pos ⟨hbool, Json.noConfusion⟩
  | int n => simp [hasType, haffinity, hbool] at htype
  | _ => simp [hasType, haffinity] at htype

theorem valueOf_stored {column : Column} (hbool : column.name ∉ runStateBoolColumns) {value : Json}
    (htype : hasType column value = true) {place : ℕ} {bound : Value}
    (hbind : Sql.bind place value = .ok bound) :
    valueOf (column.affinity.apply engine bound) =
      givenBack engine column.affinity value := by
  cases value with
  | null =>
      obtain rfl := Except.ok.inj hbind
      rw [apply_null]
      cases column.affinity <;> rfl
  | bool b => cases haffinity : column.affinity <;> simp [hasType, haffinity, hbool] at htype
  | int n =>
      rw [Sql.bind] at hbind
      split_ifs at hbind
      obtain rfl := Except.ok.inj hbind
      cases haffinity : column.affinity with
      | text => simp [hasType, haffinity] at htype
      | integer => rfl
      | real => rfl
  | float x =>
      obtain rfl := Except.ok.inj hbind
      cases haffinity : column.affinity with
      | real => rfl
      | _ => simp [hasType, haffinity] at htype
  | str s =>
      obtain rfl := Except.ok.inj hbind
      cases haffinity : column.affinity with
      | text => rfl
      | _ => simp [hasType, haffinity] at htype
  | _ => simp [hasType] at htype

/-- A value of the type of its column comes back from the column. -/
theorem surfaced_stored {column : Column} (hcolumn : column ∈ runState.columns) {value : Json}
    (htype : hasType column value = true) {place : ℕ} {bound : Value}
    (hbind : Sql.bind place (if column.name ∈ runStateBoolColumns ∧ value ≠ .null then
      .int (if Python.truthy value then 1 else 0) else value) = .ok bound) :
    surfaced column.name (valueOf (column.affinity.apply engine bound)) =
      givenBack engine column.affinity value := by
  by_cases hbool : column.name ∈ runStateBoolColumns
  · have haffinity := integer_of_bool hcolumn hbool
    simp only [hbool, true_and] at hbind
    rw [surfaced_of_bool haffinity hbool htype hbind, haffinity, givenBack]
    exact nofun
  · rw [if_neg fun h ↦ hbool h.1] at hbind
    rw [surfaced, if_neg fun h ↦ hbool h.1, valueOf_stored hbool htype hbind]

theorem hasType_savedValue {state : List (String × Json)} (h : TypedState state) {column : Column}
    (hcolumn : column ∈ runState.columns) (hname : column.name ∈ runStateColumns) :
    hasType column (savedValue state column.name) = true := by
  have hdefaults : ∀ column ∈ runState.columns, column.name ∈ runStateColumns →
      hasType column (Python.get runStateDefaults column.name) = true := by decide +kernel
  rw [savedValue, Python.getD]
  cases hvalue : state.lookup column.name with
  | none => exact hdefaults column hcolumn hname
  | some value =>
      have hall := h column hcolumn
      rwa [hvalue] at hall

/-- The column of a row that was made from a typed state. -/
theorem get_record_of_row {state : List (String × Json)} {now : String} {row : Row}
    (h : runStateRow py engine (.obj state) now = .ok row) (htyped : TypedState state)
    {column : Column} (hcolumn : column ∈ runState.columns) (hname : column.name ∈ runStateColumns) :
    Python.get (record row) column.name =
      givenBack engine column.affinity (savedValue state column.name) := by
  obtain ⟨members, sessionId, values, hstate, -, hvalues, hrow⟩ := runStateRow_spec h
  obtain rfl := Json.obj.inj hstate
  have hparam : (runStateColumns.map (fun column ↦ (column, runStateValue state column)) ++
      [("updated_at", Json.str now)]).lookup column.name = some (runStateValue state column.name) := by
    rw [List.lookup_append, lookup_map_self _ hname, Option.some_or]
  obtain ⟨place, bound, hbound, hlookup⟩ := lookup_bindAll hvalues hparam
  rw [get_record, get_of_row hrow column hcolumn, Column.stored, hlookup, Option.getD_some]
  exact surfaced_stored hcolumn (hasType_savedValue htyped hcolumn hname) hbound

theorem exists_column {name : String} (h : name ∈ runStateColumns) :
    ∃ column ∈ runState.columns, column.name = name := by
  have hall : ∀ name ∈ runStateColumns, name ∈ runState.columns.map Column.name := by
    decide +kernel
  exact List.mem_map.mp (hall name h)

theorem real_iff {column : Column} (hcolumn : column ∈ runState.columns) :
    column.affinity = .real ↔ column.name = "token_cost_usd" := by
  have hall : ∀ column ∈ runState.columns,
      column.affinity = .real ↔ column.name = "token_cost_usd" := by
    simp [runState]
  exact hall column hcolumn

theorem canonical_real (x : Decimal) (n : ℤ) (h : x.toRat = n) :
    Python.eq (.float x) (.int n) = true := by
  rw [Python.eq_iff, Python.canonical, h, if_pos (Rat.den_intCast n), Rat.num_intCast]
  rfl

theorem loads_of_row {state : List (String × Json)} {now : String} {row : Row}
    (h : runStateRow py engine (.obj state) now = .ok row) (htyped : TypedState state) :
    Loads engine state (record row) := by
  have hcost : Python.get (record row) "token_cost_usd" =
      givenBack engine .real (savedValue state "token_cost_usd") := by
    obtain ⟨column, hcolumn, hname⟩ := @exists_column "token_cost_usd" (by decide)
    have hget := get_record_of_row h htyped hcolumn (hname ▸ by decide)
    rwa [(real_iff hcolumn).mpr hname, hname] at hget
  refine ⟨fun name hname hne ↦ ?_, hcost, fun hexact ↦ ?_, fun name hname ↦ ?_⟩
  · obtain ⟨column, hcolumn, rfl⟩ := exists_column hname
    rw [get_record_of_row h htyped hcolumn hname, givenBack]
    intro n hreal
    exact fun _ ↦ hne ((real_iff hcolumn).mp hreal)
  · rw [hcost]
    cases hvalue : savedValue state "token_cost_usd" with
    | int n => exact canonical_real _ n (hexact n hvalue)
    | _ => exact Python.eq_self _
  · rw [get_record, surfaced]
    split_ifs with hset
    · exact Or.inr ⟨_, rfl⟩
    · exact Or.inl (Classical.not_not.mp fun hne ↦ hset ⟨hname, hne⟩)

theorem session_of_row {state : List (String × Json)} {now : String} {row : Row}
    (h : runStateRow py engine (.obj state) now = .ok row) :
    ∃ sessionId, Python.get state "session_id" = .str sessionId ∧
      row.get "session_id" = .text sessionId := by
  obtain ⟨members, sessionId, values, hstate, hsession, hvalues, hrow⟩ := runStateRow_spec h
  obtain rfl := Json.obj.inj hstate
  have hvalue : runStateValue state "session_id" = .str sessionId := by
    have hlookup := (Python.get_eq_iff_of_ne_null Json.noConfusion).mp hsession
    rw [runStateValue, Python.getD, hlookup]
    rfl
  refine ⟨sessionId, hsession, ?_⟩
  refine get_of_bound hvalues hrow ⟨"session_id", .text, false, .null⟩ List.mem_cons_self rfl ?_
  rw [List.lookup_append, lookup_map_self _ (by decide), Option.some_or, hvalue]

/-- A call that succeeds puts its row under the session. -/
theorem saveRunState_eq_ok_iff {state : List (String × Json)} {now : String}
    {store next : Tables} :
    saveRunState py engine (.obj state) now store = .ok next ↔
      ∃ row, runStateRow py engine (.obj state) now = .ok row ∧
        refers (row.get "current_item_id") "id" store.requirements ∧
          next = { store with runState := Keyed.put (·.get "session_id") row store.runState } := by
  rw [saveRunState]
  cases hrow : runStateRow py engine (.obj state) now with
  | error exc => simp
  | ok row =>
      have hput : upsert "session_id" (runStateColumns.filter (· ≠ "session_id") ++ ["updated_at"])
          row store.runState = Keyed.put (·.get "session_id") row store.runState := by
        obtain ⟨sessionId, -, hsession⟩ := session_of_row hrow
        obtain ⟨members, other, values, -, -, -, htable⟩ := runStateRow_spec hrow
        refine upsert_eq_put htable (by decide) ?_ store.runState
        rw [hsession]
        exact Value.noConfusion
      simp only [hput]
      split_ifs with hrefers
      · simp [hrefers, eq_comm]
      · simp [hrefers]

end Rows

/-! ## Runs -/

section Runs

variable {py : Stdlib} {engine : Engine}

theorem load_put (store : Tables) {row : Row} {sessionId : String}
    (h : row.get "session_id" = .text sessionId) (other : String) :
    loadRunState (some other)
        { store with runState := Keyed.put (·.get "session_id") row store.runState } =
      if other = sessionId then .ok (some (record row)) else loadRunState (some other) store := by
  rw [loadRunState, rowOf, Keyed.find_put, h]
  by_cases hsame : other = sessionId
  · rw [if_pos (congrArg Value.text hsame.symm), if_pos hsame]
    rfl
  · rw [if_neg fun htext ↦ hsame (Value.text.inj htext).symm, if_neg hsame]
    rfl

/-! ## The other calls -/

/-- What two calls in a row leave. -/
theorem runState_bind {runs : List Row} {call : Call} {next : Tables → Call}
    (hcall : call.tables.runState = runs)
    (hnext : ∀ store, store.runState = runs → (next store).tables.runState = runs) :
    (Call.tables (call >>= next)).runState = runs := by
  cases call with
  | error failed => exact hcall
  | ok store => exact hnext store hcall

theorem runState_upsertRequirement (args : Requirement) (store : Tables) :
    (upsertRequirement py engine args store).tables.runState = store.runState := by
  rw [upsertRequirement]
  cases requirementRow py engine args <;> rfl

theorem runState_insertCoverage (row : Row) (updated : List String) (store : Tables) :
    (insertCoverage row updated store).tables.runState = store.runState := by
  rw [insertCoverage]
  split_ifs <;> rfl

theorem runState_storeEvidenceRow (requirementId : String) (record : List (String × Json))
    (commitSha actorAgent : Json) (checked : Bool) (store : Tables) :
    (storeEvidenceRow py engine requirementId record commitSha actorAgent checked
      store).tables.runState = store.runState := by
  rw [storeEvidenceRow]
  split_ifs
  · rfl
  · refine runState_bind (runState_upsertRequirement _ store) fun next hnext ↦ ?_
    cases evidenceRow engine requirementId record commitSha actorAgent with
    | error exc => exact hnext
    | ok row =>
        simp only
        split_ifs <;> exact hnext

theorem runState_upsertCoverageItem (item : Json) (now : String) (store : Tables) :
    (upsertCoverageItem py engine item now store).tables.runState = store.runState := by
  rw [upsertCoverageItem]
  cases checkItem py item with
  | error exc => rfl
  | ok checked =>
      refine runState_bind (runState_upsertRequirement _ store) fun next hnext ↦ ?_
      cases coverageRow engine checked now with
      | error exc => exact hnext
      | ok row =>
          refine runState_bind ((runState_insertCoverage row _ next).trans hnext)
            fun covered hcovered ↦ ?_
          split_ifs
          · split
            · exact (runState_storeEvidenceRow _ _ _ _ _ covered).trans hcovered
            · exact hcovered
          · exact hcovered

theorem runState_storeEvidence (requirementId record commitSha actorAgent : Json)
    (flipToProven : Bool) (now : String) (store : Tables) :
    (storeEvidence py engine requirementId record commitSha actorAgent flipToProven now
      store).tables.runState = store.runState := by
  rw [storeEvidence]
  cases checkSubmission py requirementId record actorAgent with
  | error exc => rfl
  | ok submission =>
      simp only
      split_ifs
      · rfl
      · rfl
      · refine runState_bind (runState_storeEvidenceRow _ _ _ _ _ store) fun next hnext ↦ ?_
        cases flipRow engine submission.requirementId now with
        | error exc => exact hnext
        | ok row => exact (runState_insertCoverage row _ next).trans hnext
      · refine runState_bind (runState_storeEvidenceRow _ _ _ _ _ store) fun next hnext ↦ ?_
        exact hnext

/-! ## Runs of calls -/

theorem loadRunState_congr {store next : Tables} (h : next.runState = store.runState)
    (sessionId : Option String) : loadRunState sessionId next = loadRunState sessionId store := by
  cases sessionId <;> rw [loadRunState, loadRunState, h]

/-- A call leaves a session alone that it saves nothing for. -/
theorem load_step_of_none {store : Tables} {operation : Operation} {sessionId : String}
    (h : savedFor py engine sessionId store operation = none) :
    loadRunState (some sessionId) (store.step py engine operation) =
      loadRunState (some sessionId) store := by
  rw [step_eq_tables]
  cases operation with
  | upsertRequirement args => exact loadRunState_congr (runState_upsertRequirement args store) _
  | upsertCoverageItem item now =>
      exact loadRunState_congr (runState_upsertCoverageItem item now store) _
  | storeEvidence requirementId record commitSha actorAgent flip now =>
      exact loadRunState_congr (runState_storeEvidence _ _ _ _ _ now store) _
  | saveRunState state now =>
      rw [Tables.call]
      cases state with
      | obj state =>
          rw [savedFor] at h
          cases hcall : saveRunState py engine (.obj state) now store with
          | error failed =>
              obtain ⟨exc, next⟩ := failed
              rw [Call.tables, atomic_saveRunState (.obj state) now exc next hcall]
          | ok next =>
              obtain ⟨row, hrow, -, rfl⟩ := saveRunState_eq_ok_iff.mp hcall
              obtain ⟨other, hother, hsession⟩ := session_of_row hrow
              simp only [hcall] at h
              split_ifs at h with hsame
              rw [Call.tables, load_put store hsession, if_neg]
              rintro rfl
              exact hsame hother
      | _ => rfl

/-- What a session loads that a call saves a state for. -/
theorem load_step_of_some {store : Tables} {operation : Operation} {sessionId : String}
    {state : List (String × Json)} (htyped : TypedSave operation)
    (h : savedFor py engine sessionId store operation = some state) :
    ∃ row, loadRunState (some sessionId) (store.step py engine operation) = .ok (some row) ∧
      Loads engine state row := by
  rw [step_eq_tables]
  cases operation with
  | saveRunState saved now =>
      cases saved with
      | obj saved =>
          rw [savedFor] at h
          cases hcall : saveRunState py engine (.obj saved) now store with
          | error failed => simp [hcall] at h
          | ok next =>
              obtain ⟨row, hrow, -, rfl⟩ := saveRunState_eq_ok_iff.mp hcall
              obtain ⟨other, hother, hsession⟩ := session_of_row hrow
              simp only [hcall] at h
              split_ifs at h with hsame
              obtain rfl := Option.some.inj h
              have hid : sessionId = other := Json.str.inj (hsame.symm.trans hother)
              refine ⟨record row, ?_, loads_of_row hrow htyped⟩
              rw [Tables.call, hcall, Call.tables, load_put store hsession, if_pos hid]
      | _ => cases h
  | _ => cases h

variable (py engine) in
theorem lastSaved_append_singleton (sessionId : String) (operations : List Operation)
    (operation : Operation) :
    lastSaved py engine sessionId (operations ++ [operation]) =
      (savedFor py engine sessionId (Tables.run py engine operations) operation).or
        (lastSaved py engine sessionId operations) := by
  have htables : ∀ (operations : List Operation) (store : Tables) (last),
      (operations.foldl (fun last operation ↦ (last.1.step py engine operation,
        (savedFor py engine sessionId last.1 operation).or last.2)) (store, last)).1 =
        operations.foldl (Tables.step py engine) store := by
    intro operations
    induction operations with
    | nil => exact fun _ _ ↦ rfl
    | cons first operations ih => exact fun store last ↦ ih _ _
  rw [lastSaved, List.foldl_append, List.foldl_cons, List.foldl_nil, htables]
  rfl

/-- What a session loads after a run. -/
theorem load_run {operations : List Operation}
    (htyped : ∀ operation ∈ operations, TypedSave operation) (sessionId : String) :
    match lastSaved py engine sessionId operations with
    | none => loadRunState (some sessionId) (Tables.run py engine operations) = .ok none
    | some state => ∃ row,
        loadRunState (some sessionId) (Tables.run py engine operations) = .ok (some row) ∧
          Loads engine state row := by
  induction operations using List.reverseRecOn with
  | nil => rfl
  | append_singleton operations operation ih =>
      have hbefore := ih fun other hother ↦ htyped other (List.mem_append_left _ hother)
      have hlast := htyped operation (List.mem_append_right _ List.mem_cons_self)
      rw [lastSaved_append_singleton, run_append_singleton]
      cases hsaved : savedFor py engine sessionId (Tables.run py engine operations) operation with
      | some state => exact load_step_of_some hlast hsaved
      | none =>
          rw [Option.none_or, load_step_of_none hsaved]
          exact hbefore

/-- A session loads what was saved for it last, and no call for another one changes that. -/
theorem run_state_round_trip (py : Stdlib) (engine : Engine) (operations : List Operation)
    (htyped : ∀ operation ∈ operations, TypedSave operation) :
    (∀ sessionId, match lastSaved py engine sessionId operations with
      | none => loadRunState (some sessionId) (Tables.run py engine operations) = .ok none
      | some state => ∃ row,
          loadRunState (some sessionId) (Tables.run py engine operations) = .ok (some row) ∧
            Loads engine state row) ∧
      ∀ store state now sessionId,
        (∀ members, state = .obj members → Python.get members "session_id" ≠ .str sessionId) →
          loadRunState (some sessionId) (Tables.step py engine store (.saveRunState state now)) =
            loadRunState (some sessionId) store := by
  refine ⟨fun sessionId ↦ load_run htyped sessionId, fun store state now sessionId hother ↦ ?_⟩
  apply load_step_of_none
  cases state with
  | obj members =>
      rw [savedFor]
      split
      · exact if_neg (hother members rfl)
      · rfl
  | _ => rfl

end Runs

/-! ## Runs on fixed states -/

/-- An engine that rounds as doubles do. -/
def roundingEngine : Engine :=
  { sampleEngine with
    integerReal := fun n ↦
      if n = 9007199254740993 then ⟨false, 9007199254740992, 0, by decide⟩ else Decimal.zero }

def costState (sessionId : String) (cost : Json) : List (String × Json) :=
  [("session_id", .str sessionId), ("is_resume", .bool true), ("token_cost_usd", cost)]

def costSave (sessionId : String) (cost : Json) : Operation :=
  .saveRunState (.obj (costState sessionId cost)) "2026-01-05T10:00:00+00:00"

def halfDollar : Json := .float ⟨false, 5, -1, by decide⟩

theorem run_state_round_trip_two_sessions :
    ∃ row, loadRunState (some "s1") (Tables.run sampleLibrary roundingEngine
        [costSave "s1" halfDollar, costSave "s2" (.int 0)]) = .ok (some row) ∧
      Loads roundingEngine (costState "s1" halfDollar) row := by
  have hlast : lastSaved sampleLibrary roundingEngine "s1"
      [costSave "s1" halfDollar, costSave "s2" (.int 0)] = some (costState "s1" halfDollar) := by
    decide +kernel
  have htyped : ∀ operation ∈ [costSave "s1" halfDollar, costSave "s2" (.int 0)],
      TypedSave operation := by
    intro operation hoperation
    rcases List.mem_pair.mp hoperation with rfl | rfl <;>
      · unfold costSave TypedSave TypedState
        decide
  have hload := (run_state_round_trip sampleLibrary roundingEngine _ htyped).1 "s1"
  rwa [hlast] at hload

/-- No double is the integer above `2 ^ 53`. -/
theorem large_cost_is_rounded :
    TypedState (costState "s1" (.int 9007199254740993)) ∧
      lastSaved sampleLibrary roundingEngine "s1" [costSave "s1" (.int 9007199254740993)] =
        some (costState "s1" (.int 9007199254740993)) ∧
      ∃ row, loadRunState (some "s1") (Tables.run sampleLibrary roundingEngine
          [costSave "s1" (.int 9007199254740993)]) = .ok (some row) ∧
        Python.eq (Python.get row "token_cost_usd")
          (savedValue (costState "s1" (.int 9007199254740993)) "token_cost_usd") = false := by
  refine ⟨by unfold TypedState; decide, by decide +kernel, _, rfl, by decide +kernel⟩

end AgenticSDLC.Store
