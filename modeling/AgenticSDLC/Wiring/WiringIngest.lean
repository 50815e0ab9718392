import AgenticSDLC.Foundations.Dict
import AgenticSDLC.Foundations.Outcome
import AgenticSDLC.Foundations.Python

/-!
# Ingesting wiring candidates

`tools/wiring_ingest.py` on the model file.  The file is the document that it parses as,
if it is there and parses at all; the schema validator is a predicate on documents, and
whether a write succeeds is an outcome of the call.  A document that fails validation is
dropped with the items appended to it.
-/

namespace AgenticSDLC.WiringIngest

open Python (Exception Key)

/-- The members of the model and its items, if the file holds a model. -/
def loadModel : Option Json → Option (List (String × Json) × List Json)
  | some (.obj members) =>
      match Python.get members "items" with
      | .arr items => some (members, items)
      | _ => none
  | _ => none

/-- `_qualname`. -/
def qualnameOf : Json → Except Exception Json
  | .obj members =>
      let wiring := Python.get members "wiring"
      if Python.truthy wiring then do
        let fields ← Python.asDict wiring
        return Python.get fields "qualname"
      else return .null
  | _ => return .null

def normalizeItem (item : List (String × Json)) : List (String × Json) :=
  let item := Dict.setDefault "status" (.str "unproven") item
  let item := Dict.setDefault "in_scope" (.bool true) item
  let item := Dict.setDefault "dependencies" (.arr []) item
  let item := Dict.setDefault "acceptance_criteria" (.arr []) item
  Dict.setDefault "priority" (.int 999) item

/-- The key of an item's qualified name, if it has one. -/
def qualKey (item : Json) : Except Exception (Option Key) := do
  let qual ← qualnameOf item
  if qual = .null then return none
  else
    let key ← Python.hashKey qual
    return some key

/-- The key of an item's id, if it is a dictionary that has one. -/
def idKey : Json → Except Exception (Option Key)
  | .obj members =>
      match members.lookup "id" with
      | some id => do
          let key ← Python.hashKey id
          return some key
      | none => return none
  | _ => return none

def existingKeys (key : Json → Except Exception (Option Key)) (items : List Json) :
    Except Exception (List Key) := do
  let keys ← items.mapM key
  return keys.filterMap id

/-- What the loop over the candidates goes on with. -/
structure Selection where
  appended : List Json
  quals : List Key
  ids : List Key

/-- The keys by which a candidate is known: already, or once it has been appended. -/
def Selection.take (selection : Selection) (candidate : Json) : Except Exception Selection := do
  let qual ← qualKey candidate
  let members ← Python.asDict candidate
  let id := Python.get members "id"
  let known ← match qual with
    | some key => pure (decide (key ∈ selection.quals))
    | none =>
        if id = .null then pure true
        else do
          let key ← Python.hashKey id
          pure (decide (key ∈ selection.ids))
  if known then return selection
  else
    let ids ← if id = .null then pure selection.ids
      else do
        let key ← Python.hashKey id
        pure (key :: selection.ids)
    return ⟨selection.appended ++ [.obj (normalizeItem members)], qual.toList ++ selection.quals, ids⟩

/-- The candidates that are appended, normalized. -/
def selectNewCandidates (candidates items : List Json) : Except Exception (List Json) := do
  let quals ← existingKeys qualKey items
  let ids ← existingKeys idKey items
  let selection ← candidates.foldlM Selection.take ⟨[], quals, ids⟩
  return selection.appended

/-- The document with items appended. -/
def extend (members : List (String × Json)) (items appended : List Json) : Json :=
  .obj (Dict.set "items" (.arr (items ++ appended)) members)

/-- `ingest_wiring_candidates`: the number of items written, and the file afterwards. -/
def ingestWiringCandidates (valid : Json → Bool) (candidates : List Json) (written : Bool)
    (file : Option Json) : Except Exception ℕ × Option Json :=
  if candidates = [] then (.ok 0, file)
  else
    match loadModel file with
    | none => (.ok 0, file)
    | some (members, items) =>
        match selectNewCandidates candidates items with
        | .error exc => (.error exc, file)
        | .ok appended =>
            if appended = [] then (.ok 0, file)
            else
              let content := extend members items appended
              if !valid content then (.ok 0, file)
              else if written then (.ok appended.length, some content)
              else (.ok 0, file)

/-! ## The model in a file -/

theorem loadModel_inj {file : Option Json} {members members' : List (String × Json)}
    {items items' : List Json} (h : loadModel file = some (members, items))
    (h' : loadModel file = some (members', items')) : members = members' ∧ items = items' :=
  Prod.mk.inj (Option.some.inj (h.symm.trans h'))

theorem loadModel_set (members : List (String × Json)) (items : List Json) :
    loadModel (some (.obj (Dict.set "items" (.arr items) members))) =
      some (Dict.set "items" (.arr items) members, items) := by
  simp [loadModel, Python.get, Dict.lookup_set]

theorem loadModel_extend (members : List (String × Json)) (items appended : List Json) :
    loadModel (some (extend members items appended)) =
      some (Dict.set "items" (.arr (items ++ appended)) members, items ++ appended) :=
  loadModel_set members (items ++ appended)

end AgenticSDLC.WiringIngest
