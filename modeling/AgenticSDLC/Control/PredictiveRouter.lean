import AgenticSDLC.Foundations.Dict
import AgenticSDLC.Foundations.FirstBest
import AgenticSDLC.Foundations.Outcome
import AgenticSDLC.Foundations.Python
import AgenticSDLC.Foundations.Rounding
import Mathlib.Algebra.Group.Prod
import Mathlib.Data.Prod.Lex

/-!
# Predictive routing

`predict_route` of `tools/predictive_router.py`: the candidates' outcomes are tallied for the
signature of the features and for all records, and the best of the candidates is advised.
-/

namespace AgenticSDLC.PredictiveRouter

open Python (Exception Key hashKey Hashable)
open FirstBest

abbrev Fields := List (String × Json)

/-! ## Records -/

def signatureFields : List String := ["type", "nfr_subtype", "priority", "phase", "baseline"]

abbrev Signature := List (String × Json)

/-- `None` for the features is the same as none of them; the signature `()` is the empty list. -/
def signature (features : Fields) : Signature :=
  if features = [] then [] else signatureFields.map fun k ↦ (k, Python.get features k)

def recordSignature (record : Fields) : Signature :=
  match Python.get record "features" with
  | .obj feats => signature feats
  | _ => signature record

/-- `==` on the tuples of pairs. -/
def sameSignature (sig other : Signature) : Bool :=
  Python.eq (.arr (sig.map fun pair ↦ .arr [.str pair.1, pair.2]))
    (.arr (other.map fun pair ↦ .arr [.str pair.1, pair.2]))

/-- The candidate that a record routed to. -/
def recordChoice (record : Fields) : Json :=
  (["choice", "candidate", "agent", "model", "route"].findSome? fun key ↦
    record.lookup key).getD .null

/-- The numbers of successes and of records, by candidate. -/
abbrev Stats := List (Key × ℕ × ℕ)

def countsOf (stats : Stats) (key : Key) : ℕ × ℕ := (stats.lookup key).getD (0, 0)

def addOutcome (key : Key) (ok : Bool) (stats : Stats) : Stats :=
  let counts := countsOf stats key
  Dict.set key (counts.1 + ok.toNat, counts.2 + 1) stats

def rateOf (stats : Stats) (key : Key) : ℚ × ℕ :=
  let (succ, total) := countsOf stats key
  if total = 0 then (0, 0) else (succ / total, total)

structure Tally where
  sigStats : Stats
  globalStats : Stats

inductive Scope where
  | signature
  | global
  deriving DecidableEq

def Scope.text : Scope → String
  | .signature => "signature"
  | .global => "global"

structure Scored where
  cand : Json
  confidence : ℚ
  rate : ℚ
  total : ℕ
  scope : Scope

/-- The success rate, damped by the number of samples. -/
def score (tally : Tally) (cand : Json) (key : Key) : Scored :=
  let (sigRate, sigTotal) := rateOf tally.sigStats key
  let (globalRate, globalTotal) := rateOf tally.globalStats key
  let (rate, total, scope) :=
    if sigTotal = 0 then (globalRate, globalTotal, Scope.global)
    else (sigRate, sigTotal, Scope.signature)
  let confidence := if total = 0 then 0 else rate * (total / (total + 1))
  { cand, confidence, rate, total, scope }

def scoreCandidate (tally : Tally) (cand : Json) : Except Exception Scored := do
  return score tally cand (← hashKey cand)

/-- What two candidates are compared by. -/
def Scored.rank (scored : Scored) : ℚ ×ₗ ℕ := toLex (scored.confidence, scored.total)

def keepBest (tally : Tally) (best : Scored) (cand : Json) : Except Exception Scored := do
  let scored ← scoreCandidate tally cand
  return if best.rank < scored.rank then scored else best

structure Prediction where
  choice : String
  confidence : ℚ
  rationale : String
  deriving DecidableEq

section Route

variable (repr : Json → String) (lower : String → String)

def isSuccess (record : Fields) : Bool :=
  match record.lookup "success" with
  | some success => Python.truthy success
  | none =>
      let outcome := lower (Python.str repr (Python.getD record "outcome" (.str "")))
      ["proven", "success", "pass", "passed", "allow", "complete"].contains outcome

def tallyRecord (sig : Signature) (tally : Tally) : Json → Except Exception Tally
  | .obj record =>
      let choice := recordChoice record
      if choice = .null then return tally
      else do
        let ok := isSuccess repr lower record
        let key ← hashKey choice
        let globalStats := addOutcome key ok tally.globalStats
        if sig ≠ [] && sameSignature (recordSignature record) sig then
          return ⟨addOutcome key ok tally.sigStats, globalStats⟩
        else return ⟨tally.sigStats, globalStats⟩
  | _ => return tally

/-- The best of the candidates, the first of those that are as good. -/
def bestOf (history : List Json) (first : Json) (rest : List Json) (sig : Signature) :
    Except Exception Scored := do
  let tally ← history.foldlM (tallyRecord repr lower sig) ⟨[], []⟩
  let best ← scoreCandidate tally first
  rest.foldlM (keepBest tally) best

def signatureText (sig : Signature) : String :=
  let pairs := sig.map fun pair ↦ "(" ++ repr (.str pair.1) ++ ", " ++ repr pair.2 ++ ")"
  "(" ++ ", ".intercalate pairs ++ ")"

def advice (sig : Signature) (first : Json) (best : Scored) : Prediction :=
  if best.total = 0 then
    { choice := Python.str repr first
      confidence := 0
      rationale := "advisory: no historical outcomes for these candidates" ++
        (if sig ≠ [] then " at signature " ++ signatureText repr sig else "") ++
        "; defaulting to first candidate " ++ repr first ++ " (advisory only, off-gate)" }
  else
    { choice := Python.str repr best.cand
      confidence := Rounding.round best.confidence 6
      rationale := "advisory: " ++ repr best.cand ++ " has the best " ++ best.scope.text ++
        " success rate " ++ Rounding.percent best.rate ++ " over " ++ toString best.total ++
        " prior route(s)" ++
        (if best.scope = .signature then " matching signature " ++ signatureText repr sig
          else "") ++
        "; advisory only, never gates (Property 4 / REQ-19.2)" }

def predictRoute (history candidates : List Json) (features : Fields) :
    Except Exception Prediction := do
  match candidates with
  | [] => return ⟨"", 0, "no candidates supplied; nothing to advise"⟩
  | first :: rest =>
      let sig := signature features
      let best ← bestOf repr lower history first rest sig
      return advice repr sig first best

/-- The candidate whose text is the choice. -/
def chosen (history candidates : List Json) (features : Fields) :
    Except Exception (Option Json) := do
  match candidates with
  | [] => return none
  | first :: rest =>
      let best ← bestOf repr lower history first rest (signature features)
      return some (if best.total = 0 then first else best.cand)

/-- A failed record for the candidate. -/
def IsFailureOf (cand record : Json) : Prop :=
  ∃ fields, record = .obj fields ∧ hashKey (recordChoice fields) = hashKey cand ∧
    isSuccess repr lower fields = false

/-- The choice is one of the candidates, with a confidence between zero and one, and one more
failed record for a candidate, anywhere in the history, never makes it the choice.  Values that
are one dictionary key are one candidate. -/
def NeverRewardsFailure (history candidates : List Json) (features : Fields) : Prop :=
  (∃ prediction, predictRoute repr lower history candidates features = .ok prediction ∧
    (∃ cand ∈ candidates, chosen repr lower history candidates features = .ok (some cand) ∧
      prediction.choice = Python.str repr cand) ∧
    0 ≤ prediction.confidence ∧ prediction.confidence ≤ 1) ∧
  ∀ cand ∈ candidates, ∀ front record back, history = front ++ back →
    IsFailureOf repr lower cand record →
    ∀ before after, chosen repr lower history candidates features = .ok (some before) →
      chosen repr lower (front ++ record :: back) candidates features = .ok (some after) →
      hashKey after = hashKey cand → hashKey before = hashKey cand

/-! ## Samples -/

def succeeds : Json → Bool
  | .obj record => isSuccess repr lower record
  | _ => false

end Route

/-- The record is tallied for the candidate of this key. -/
def isFor (key : Key) : Json → Bool
  | .obj record => recordChoice record ≠ .null && (hashKey (recordChoice record)).toOption = some key
  | _ => false

def isOf (sig : Signature) : Json → Bool
  | .obj record => sig ≠ [] && sameSignature (recordSignature record) sig
  | _ => false

/-- The key of a value that has one. -/
def keyOf (value : Json) : Key := (hashKey value).toOption.getD .none

theorem hashKey_eq_keyOf {value : Json} (h : Hashable value) : hashKey value = .ok (keyOf value) := by
  obtain ⟨key, hkey⟩ := h
  rw [keyOf, hkey]
  rfl

theorem keyOf_eq_iff {a b : Json} (ha : Hashable a) (hb : Hashable b) :
    keyOf a = keyOf b ↔ hashKey a = hashKey b := by
  rw [hashKey_eq_keyOf ha, hashKey_eq_keyOf hb, Except.ok.injEq]

theorem hashKey_eq_none_iff {value : Json} : hashKey value = .ok .none ↔ value = .null := by
  cases value <;> simp [hashKey]

section Counts

variable (repr : Json → String) (lower : String → String)

/-- The successes and all of the candidate's records in scope. -/
def tallied (scope : Json → Bool) (history : List Json) (key : Key) : ℕ × ℕ :=
  (history.countP fun record ↦ scope record && isFor key record && succeeds repr lower record,
    history.countP fun record ↦ scope record && isFor key record)

/-- The counts that the candidate is scored by. -/
def samples (sig : Signature) (history : List Json) (key : Key) : ℕ × ℕ :=
  let sigCounts := tallied repr lower (isOf sig) history key
  if sigCounts.2 = 0 then tallied repr lower (fun _ ↦ true) history key else sigCounts

/-- What one record adds to the counts. -/
def outcomeOf (scope : Json → Bool) (record : Json) (key : Key) : ℕ × ℕ :=
  if scope record && isFor key record then ((succeeds repr lower record).toNat, 1) else 0

variable {repr lower}

theorem tallied_cons (scope : Json → Bool) (record : Json) (history : List Json) (key : Key) :
    tallied repr lower scope (record :: history) key =
      outcomeOf repr lower scope record key + tallied repr lower scope history key := by
  simp only [tallied, outcomeOf, List.countP_cons]
  cases scope record && isFor key record <;> cases succeeds repr lower record <;>
    simp [Nat.add_comm]

theorem tallied_perm (scope : Json → Bool) {history history' : List Json}
    (h : history.Perm history') (key : Key) :
    tallied repr lower scope history key = tallied repr lower scope history' key := by
  rw [tallied, tallied, h.countP_eq, h.countP_eq]

theorem tallied_le (scope : Json → Bool) (history : List Json) (key : Key) :
    (tallied repr lower scope history key).1 ≤ (tallied repr lower scope history key).2 :=
  List.countP_mono_left fun _ _ h ↦ ((Bool.and_eq_true _ _).mp h).1

theorem samples_le (sig : Signature) (history : List Json) (key : Key) :
    (samples repr lower sig history key).1 ≤ (samples repr lower sig history key).2 := by
  simp only [samples]
  split_ifs
  · exact tallied_le _ _ _
  · exact tallied_le _ _ _

theorem samples_perm (sig : Signature) {history history' : List Json}
    (h : history.Perm history') (key : Key) :
    samples repr lower sig history key = samples repr lower sig history' key := by
  simp only [samples, tallied_perm _ h]

/-! ## The tally -/

theorem countsOf_addOutcome (key other : Key) (ok : Bool) (stats : Stats) :
    countsOf (addOutcome key ok stats) other =
      (if other = key then (ok.toNat, 1) else 0) + countsOf stats other := by
  rw [countsOf, addOutcome, Dict.lookup_set]
  split_ifs with h
  · rw [h, Option.getD_some, Prod.mk_add_mk, Nat.add_comm, Nat.add_comm 1]
  · rw [zero_add, countsOf]

theorem tallyRecord_of_null {sig : Signature} {tally : Tally} {record : Fields}
    (h : recordChoice record = .null) :
    tallyRecord repr lower sig tally (.obj record) = .ok tally := by
  rw [tallyRecord, if_pos h]
  rfl

theorem tallyRecord_of_key {sig : Signature} {tally : Tally} {record : Fields} {key : Key}
    (hnull : recordChoice record ≠ .null) (hkey : hashKey (recordChoice record) = .ok key) :
    tallyRecord repr lower sig tally (.obj record) =
      .ok ⟨if isOf sig (.obj record) then
          addOutcome key (isSuccess repr lower record) tally.sigStats else tally.sigStats,
        addOutcome key (isSuccess repr lower record) tally.globalStats⟩ := by
  rw [tallyRecord, if_neg hnull, hkey, isOf]
  simp only [Outcome.ok_bind]
  split_ifs <;> rfl

theorem isFor_obj {record : Fields} {key : Key} (hnull : recordChoice record ≠ .null)
    (hkey : hashKey (recordChoice record) = .ok key) (other : Key) :
    isFor other (.obj record) = decide (other = key) := by
  rw [isFor, hkey]
  simp [hnull, Except.toOption, eq_comm]

/-- A record either counts for one candidate, or for none. -/
theorem tallyRecord_cases {sig : Signature} {tally tally' : Tally} {record : Json}
    (h : tallyRecord repr lower sig tally record = .ok tally') :
    ((∀ key, isFor key record = false) ∧ tally' = tally) ∨
      ∃ key, (∀ other, isFor other record = decide (other = key)) ∧
        tally' = ⟨if isOf sig record then
            addOutcome key (succeeds repr lower record) tally.sigStats else tally.sigStats,
          addOutcome key (succeeds repr lower record) tally.globalStats⟩ := by
  cases record with
  | obj record =>
      by_cases hnull : recordChoice record = .null
      · rw [tallyRecord_of_null hnull] at h
        exact Or.inl ⟨fun key ↦ by simp [isFor, hnull], (Except.ok.inj h).symm⟩
      · right
        cases hkey : hashKey (recordChoice record) with
        | error e =>
            rw [tallyRecord, if_neg hnull, hkey] at h
            cases h
        | ok key =>
            rw [tallyRecord_of_key hnull hkey] at h
            exact ⟨key, isFor_obj hnull hkey, (Except.ok.inj h).symm⟩
  | _ =>
      left
      exact ⟨fun key ↦ rfl, (Except.ok.inj h).symm⟩

theorem exists_tallyRecord_iff {sig : Signature} {tally : Tally} {record : Json} :
    (∃ tally', tallyRecord repr lower sig tally record = .ok tally') ↔
      ∀ fields, record = .obj fields → Hashable (recordChoice fields) := by
  cases record with
  | obj record =>
      simp only [Json.obj.injEq, forall_eq']
      by_cases hnull : recordChoice record = .null
      · rw [tallyRecord_of_null hnull, hnull]
        exact ⟨fun _ ↦ ⟨.none, rfl⟩, fun _ ↦ ⟨tally, rfl⟩⟩
      · cases hkey : hashKey (recordChoice record) with
        | error e =>
            rw [tallyRecord, if_neg hnull, hkey]
            constructor
            · rintro ⟨_, ⟨⟩⟩
            · rintro ⟨key, hother⟩
              exact nomatch hkey.symm.trans hother
        | ok key =>
            rw [tallyRecord_of_key hnull hkey]
            exact ⟨fun _ ↦ ⟨key, hkey⟩, fun _ ↦ ⟨_, rfl⟩⟩
  | _ =>
      constructor
      · rintro - fields ⟨⟩
      · exact fun _ ↦ ⟨tally, rfl⟩

theorem tallyRecord_counts {sig : Signature} {tally tally' : Tally} {record : Json}
    (h : tallyRecord repr lower sig tally record = .ok tally') (key : Key) :
    countsOf tally'.sigStats key =
        outcomeOf repr lower (isOf sig) record key + countsOf tally.sigStats key ∧
      countsOf tally'.globalStats key =
        outcomeOf repr lower (fun _ ↦ true) record key + countsOf tally.globalStats key := by
  rcases tallyRecord_cases h with ⟨hnone, rfl⟩ | ⟨choice, hfor, rfl⟩
  · simp [outcomeOf, hnone]
  · simp only [outcomeOf, hfor, Bool.true_and, decide_eq_true_eq]
    constructor
    · by_cases hscope : isOf sig record = true
      · simp [hscope, countsOf_addOutcome]
      · simp [hscope]
    · exact countsOf_addOutcome _ _ _ _

/-- The tally of a run over the records is their counts. -/
theorem tally_counts {sig : Signature} {history : List Json} {tally tally' : Tally}
    (h : history.foldlM (tallyRecord repr lower sig) tally = .ok tally') (key : Key) :
    countsOf tally'.sigStats key =
        tallied repr lower (isOf sig) history key + countsOf tally.sigStats key ∧
      countsOf tally'.globalStats key =
        tallied repr lower (fun _ ↦ true) history key + countsOf tally.globalStats key := by
  induction history generalizing tally with
  | nil =>
      obtain rfl := Except.ok.inj h
      simp [tallied]
  | cons record history ih =>
      obtain ⟨next, hnext, hrest⟩ := Outcome.foldlM_cons_eq_ok_iff.mp h
      obtain ⟨hsig, hglobal⟩ := tallyRecord_counts hnext key
      obtain ⟨hsigs, hglobals⟩ := ih hrest
      rw [hsigs, hglobals, hsig, hglobal, tallied_cons, tallied_cons]
      constructor
      · rw [add_left_comm, add_assoc]
      · rw [add_left_comm, add_assoc]

theorem exists_tally_iff {sig : Signature} {history : List Json} {tally : Tally} :
    (∃ tally', history.foldlM (tallyRecord repr lower sig) tally = .ok tally') ↔
      ∀ fields, .obj fields ∈ history → Hashable (recordChoice fields) := by
  induction history generalizing tally with
  | nil => exact ⟨fun _ _ h ↦ absurd h List.not_mem_nil, fun _ ↦ ⟨tally, rfl⟩⟩
  | cons record history ih =>
      simp only [Outcome.foldlM_cons_eq_ok_iff, List.mem_cons, or_imp, forall_and]
      constructor
      · rintro ⟨tally', next, hnext, hrest⟩
        exact ⟨fun fields h ↦ exists_tallyRecord_iff.mp ⟨next, hnext⟩ fields h.symm,
          ih.mp ⟨tally', hrest⟩⟩
      · rintro ⟨hrecord, hhistory⟩
        obtain ⟨next, hnext⟩ := exists_tallyRecord_iff.mpr fun fields h ↦ hrecord fields h.symm
        obtain ⟨tally', hrest⟩ := ih.mpr hhistory
        exact ⟨tally', next, hnext, hrest⟩

/-! ## The ranking -/

/-- A success counts one in one more than the samples. -/
def rankOf (counts : ℕ × ℕ) : ℚ ×ₗ ℕ := toLex (counts.1 / (counts.2 + 1), counts.2)

theorem rankOf_mono {counts : ℕ × ℕ} (h : counts.1 = 0) {total : ℕ} (hle : counts.2 ≤ total) :
    rankOf counts ≤ rankOf (0, total) := by
  rw [rankOf, rankOf, h, Nat.cast_zero, zero_div, zero_div, Prod.Lex.toLex_le_toLex]
  exact Or.inr ⟨rfl, hle⟩

theorem rankOf_lt_of_pos {counts : ℕ × ℕ} (h : 0 < counts.1) (total : ℕ) :
    rankOf (0, total) < rankOf counts := by
  rw [rankOf, rankOf, Nat.cast_zero, zero_div, Prod.Lex.toLex_lt_toLex]
  left
  positivity

/-- One more failure lowers the rank, unless there is no success. -/
theorem rankOf_failure (counts : ℕ × ℕ) :
    rankOf (counts.1, counts.2 + 1) ≤ rankOf counts ∨ counts.1 = 0 := by
  rcases Nat.eq_zero_or_pos counts.1 with hzero | hpos
  · exact Or.inr hzero
  · left
    rw [rankOf, rankOf, Prod.Lex.toLex_le_toLex]
    left
    push_cast
    gcongr
    · linarith

theorem damped_rate {succ total : ℕ} (h : succ ≤ total) :
    (if total = 0 then 0 else (succ / total : ℚ) * (total / (total + 1))) = succ / (total + 1) := by
  split_ifs with hzero
  · simp [Nat.le_zero.mp (hzero ▸ h)]
  · have hne : (total : ℚ) ≠ 0 := Nat.cast_ne_zero.mpr hzero
    field_simp

theorem score_spec {tally : Tally} {cand : Json} {key : Key} {counts : ℕ × ℕ}
    (hcounts : counts = if (countsOf tally.sigStats key).2 = 0 then countsOf tally.globalStats key
      else countsOf tally.sigStats key) (hle : counts.1 ≤ counts.2) :
    (score tally cand key).cand = cand ∧ (score tally cand key).rank = rankOf counts := by
  refine ⟨rfl, ?_⟩
  rw [rankOf, ← damped_rate hle, hcounts]
  simp only [Scored.rank, score, rateOf]
  split_ifs <;> simp_all

/-- Every candidate, and every choice on record, is a dictionary key. -/
structure AllHashable (history candidates : List Json) : Prop where
  choices : ∀ fields, .obj fields ∈ history → Hashable (recordChoice fields)
  candidates : ∀ cand ∈ candidates, Hashable cand

/-- The rank of a candidate, by its records. -/
def candRank (repr : Json → String) (lower : String → String) (sig : Signature)
    (history : List Json) (key : Key) : ℚ ×ₗ ℕ :=
  rankOf (samples repr lower sig history key)

theorem score_rank {sig : Signature} {history : List Json} {tally : Tally}
    (h : history.foldlM (tallyRecord repr lower sig) ⟨[], []⟩ = .ok tally) (cand : Json) (key : Key) :
    (score tally cand key).rank = candRank repr lower sig history key := by
  obtain ⟨hsig, hglobal⟩ := tally_counts h key
  refine (score_spec ?_ (samples_le sig history key)).2
  rw [hsig, hglobal]
  rfl

theorem foldlM_keepBest {tally : Tally} {rank : Key → ℚ ×ₗ ℕ}
    (hrank : ∀ cand key, (score tally cand key).rank = rank key) (first : Json) {rest : List Json}
    (hrest : ∀ cand ∈ rest, Hashable cand) :
    ∃ cand, (first :: rest).argmax (rank ∘ keyOf) = some cand ∧
      rest.foldlM (keepBest tally) (score tally first (keyOf first)) =
        .ok (score tally cand (keyOf cand)) := by
  refine ⟨_, FirstBest.foldl_eq_argmax _ _ _, ?_⟩
  induction rest generalizing first with
  | nil => rfl
  | cons cand rest ih =>
      obtain ⟨hcand, hrest⟩ := List.forall_mem_cons.mp hrest
      rw [List.foldlM_cons, keepBest, scoreCandidate, hashKey_eq_keyOf hcand, List.foldl_cons]
      simp only [Outcome.ok_bind, hrank, pure, Except.pure, Function.comp_apply] at ih ⊢
      split_ifs
      · exact ih cand hrest
      · exact ih first hrest

theorem bestOf_eq {history : List Json} {first : Json} {rest : List Json}
    (h : AllHashable history (first :: rest)) (sig : Signature) :
    ∃ best, bestOf repr lower history first rest sig = .ok best ∧
      (first :: rest).argmax (candRank repr lower sig history ∘ keyOf) = some best.cand ∧
      best.rank = candRank repr lower sig history (keyOf best.cand) := by
  obtain ⟨tally, htally⟩ := exists_tally_iff.mpr h.choices
  obtain ⟨hfirst, hrest⟩ := List.forall_mem_cons.mp h.candidates
  obtain ⟨cand, hargmax, hfold⟩ := foldlM_keepBest (score_rank htally) first hrest
  refine ⟨score tally cand (keyOf cand), ?_, hargmax, score_rank htally _ _⟩
  rw [bestOf, htally, Outcome.ok_bind, scoreCandidate, hashKey_eq_keyOf hfirst]
  exact hfold

theorem allHashable_of_bestOf {history : List Json} {first : Json} {rest : List Json}
    {sig : Signature} {best : Scored}
    (h : bestOf repr lower history first rest sig = .ok best) :
    AllHashable history (first :: rest) := by
  obtain ⟨tally, htally, hloop⟩ := Outcome.bind_eq_ok_iff.mp h
  obtain ⟨head, hhead, hrest⟩ := Outcome.bind_eq_ok_iff.mp hloop
  have hhashable {cand : Json} {scored : Scored} (hscored : scoreCandidate tally cand = .ok scored) :
      Hashable cand := by
    obtain ⟨key, hkey, -⟩ := Outcome.bind_eq_ok_iff.mp hscored
    exact ⟨key, hkey⟩
  refine ⟨exists_tally_iff.mp ⟨tally, htally⟩, List.forall_mem_cons.mpr ⟨hhashable hhead, ?_⟩⟩
  clear h hloop hhead
  induction rest generalizing head with
  | nil => exact fun _ hcand ↦ absurd hcand List.not_mem_nil
  | cons cand rest ih =>
      obtain ⟨next, hnext, hrest⟩ := Outcome.foldlM_cons_eq_ok_iff.mp hrest
      obtain ⟨scored, hscored, -⟩ := Outcome.bind_eq_ok_iff.mp hnext
      exact List.forall_mem_cons.mpr ⟨hhashable hscored, ih next hrest⟩

/-- Without a sample for the best of the candidates, that is the first of them. -/
theorem argmax_of_zero {rank : Json → ℚ ×ₗ ℕ} {first best : Json} {rest : List Json}
    (hargmax : (first :: rest).argmax rank = some best) (h : rank best ≤ rank first) :
    best = first := by
  have hidx := List.index_of_argmax hargmax List.mem_cons_self h
  rw [List.idxOf_cons_self, Nat.le_zero] at hidx
  exact (List.idxOf_inj (List.argmax_mem hargmax)).mp (hidx.trans List.idxOf_cons_self.symm)

theorem rankOf_zero_le {counts : ℕ × ℕ} (other : ℕ × ℕ) (hle : counts.1 ≤ counts.2)
    (h : counts.2 = 0) : rankOf counts ≤ rankOf other := by
  have hzero : counts.1 = 0 := Nat.le_zero.mp (h ▸ hle)
  rcases Nat.eq_zero_or_pos other.1 with hother | hpos
  · calc
      rankOf counts ≤ rankOf (0, other.2) := rankOf_mono hzero (h ▸ Nat.zero_le _)
      _ = rankOf other := by rw [← hother]
  · exact (rankOf_mono hzero le_rfl).trans (rankOf_lt_of_pos hpos _).le

/-- The choice is the first of the candidates with the best records. -/
theorem chosen_eq {history candidates : List Json} (h : AllHashable history candidates)
    (features : Fields) :
    chosen repr lower history candidates features =
      .ok (candidates.argmax (candRank repr lower (signature features) history ∘ keyOf)) := by
  cases candidates with
  | nil => rfl
  | cons first rest =>
      obtain ⟨best, hbest, hargmax, hrank⟩ := bestOf_eq h (signature features)
      rw [chosen, hbest, Outcome.ok_bind, hargmax]
      split_ifs with htotal
      · have hsamples : (samples repr lower (signature features) history (keyOf best.cand)).2 = 0 :=
          (congrArg (fun rank ↦ (ofLex rank).2) hrank).symm.trans htotal
        rw [argmax_of_zero hargmax (rankOf_zero_le _ (samples_le _ _ _) hsamples)]
        rfl
      · rfl

theorem confidence_mem_unit {counts : ℕ × ℕ} (hle : counts.1 ≤ counts.2) :
    0 ≤ (counts.1 / (counts.2 + 1) : ℚ) ∧ (counts.1 / (counts.2 + 1) : ℚ) ≤ 1 := by
  constructor
  · positivity
  · rw [div_le_one (by positivity)]
    exact_mod_cast hle.trans (Nat.le_succ _)

theorem advice_choice (sig : Signature) (first : Json) (best : Scored) :
    (advice repr sig first best).choice =
      Python.str repr (if best.total = 0 then first else best.cand) := by
  rw [advice]
  by_cases h : best.total = 0
  · rw [if_pos h, if_pos h]
  · rw [if_neg h, if_neg h]

theorem advice_confidence (sig : Signature) (first : Json) (best : Scored) :
    (advice repr sig first best).confidence =
      if best.total = 0 then 0 else Rounding.round best.confidence 6 := by
  rw [advice]
  by_cases h : best.total = 0
  · rw [if_pos h, if_pos h]
  · rw [if_neg h, if_neg h]

theorem predictRoute_spec {history candidates : List Json} (h : AllHashable history candidates)
    (hne : candidates ≠ []) (features : Fields) :
    ∃ prediction, predictRoute repr lower history candidates features = .ok prediction ∧
      (∃ cand ∈ candidates, chosen repr lower history candidates features = .ok (some cand) ∧
        prediction.choice = Python.str repr cand) ∧
      0 ≤ prediction.confidence ∧ prediction.confidence ≤ 1 := by
  obtain ⟨first, rest, rfl⟩ := List.exists_cons_of_ne_nil hne
  obtain ⟨best, hbest, hargmax, hrank⟩ := bestOf_eq h (signature features)
  have hconfidence : best.confidence = _ := congrArg (fun rank ↦ (ofLex rank).1) hrank
  have hle : (samples repr lower (signature features) history (keyOf best.cand)).1 ≤ _ :=
    samples_le _ _ _
  have hunit := confidence_mem_unit hle
  rw [predictRoute, chosen, hbest]
  refine ⟨advice repr (signature features) first best, rfl,
    ⟨if best.total = 0 then first else best.cand, ?_, rfl, advice_choice _ _ _⟩, ?_⟩
  · split_ifs
    · exact List.mem_cons_self
    · exact List.argmax_mem hargmax
  · rw [advice_confidence, hconfidence]
    split_ifs
    · exact ⟨le_rfl, zero_le_one⟩
    · exact Rounding.round_mem_unit hunit.1 hunit.2 6

/-! ## One more failure -/

theorem isFor_none (record : Json) : isFor .none record = false := by
  cases record with
  | obj record =>
      by_cases hnull : recordChoice record = .null
      · simp [isFor, hnull]
      · cases hkey : hashKey (recordChoice record) with
        | error e => simp [isFor, hkey, Except.toOption]
        | ok key =>
            rw [isFor_obj hnull hkey, decide_eq_false_iff_not]
            rintro rfl
            exact hnull (hashKey_eq_none_iff.mp hkey)
  | _ => rfl

theorem samples_none (sig : Signature) (history : List Json) :
    samples repr lower sig history .none = (0, 0) := by
  simp [samples, tallied, isFor_none]

theorem isFor_of_failure {cand record : Json} (h : IsFailureOf repr lower cand record)
    (hcand : Hashable cand) (hkey : keyOf cand ≠ .none) : isFor (keyOf cand) record = true := by
  obtain ⟨fields, rfl, hchoice, -⟩ := h
  rw [hashKey_eq_keyOf hcand] at hchoice
  rw [isFor_obj ?_ hchoice, decide_eq_true rfl]
  intro hnull
  rw [hashKey_eq_none_iff.mpr hnull] at hchoice
  exact hkey (Except.ok.inj hchoice).symm

theorem not_isFor_of_failure {cand record : Json} (h : IsFailureOf repr lower cand record)
    (hcand : Hashable cand) {key : Key} (hne : key ≠ keyOf cand) : isFor key record = false := by
  obtain ⟨fields, rfl, hchoice, -⟩ := h
  simp [isFor, hchoice, hashKey_eq_keyOf hcand, Except.toOption, hne.symm]

theorem samples_cons_of_not_isFor {record : Json} {key : Key} (h : isFor key record = false)
    (sig : Signature) (history : List Json) :
    samples repr lower sig (record :: history) key = samples repr lower sig history key := by
  simp [samples, tallied_cons, outcomeOf, h]

/-- A failure is another sample, or the first one of its signature. -/
theorem samples_cons_failure {cand record : Json} (h : IsFailureOf repr lower cand record)
    (hcand : Hashable cand) (hkey : keyOf cand ≠ .none) (sig : Signature) (history : List Json) :
    let counts := samples repr lower sig history (keyOf cand)
    samples repr lower sig (record :: history) (keyOf cand) =
      if isOf sig record then
        if (tallied repr lower (isOf sig) history (keyOf cand)).2 = 0 then (0, 1)
        else (counts.1, counts.2 + 1)
      else if (tallied repr lower (isOf sig) history (keyOf cand)).2 = 0 then
        (counts.1, counts.2 + 1)
      else counts := by
  have hfor := isFor_of_failure h hcand hkey
  have hfails : succeeds repr lower record = false := by
    obtain ⟨fields, rfl, -, hfails⟩ := h
    exact hfails
  have hle : (tallied repr lower (isOf sig) history (keyOf cand)).1 ≤ _ := tallied_le _ _ _
  simp only [samples, tallied_cons, outcomeOf, hfor, hfails, Bool.and_true, Bool.toNat_false]
  by_cases hzero : (tallied repr lower (isOf sig) history (keyOf cand)).2 = 0
  · rw [hzero, Nat.le_zero] at hle
    by_cases hof : isOf sig record = true
    · simp [hof, hzero, hle, Prod.ext_iff]
    · simp [hof, hzero, Prod.ext_iff, Nat.add_comm]
  · by_cases hof : isOf sig record = true
    · simp [hof, hzero, Prod.ext_iff, Nat.add_comm]
    · simp [hof, hzero]

/-- The samples of a candidate, if one more failure is counted; a record without a choice never
is. -/
def withFailure (total : Key → ℕ) (key : Key) : ℕ := if key = .none then 0 else total key + 1

theorem candRank_failure {cand record : Json} (h : IsFailureOf repr lower cand record)
    (hcand : Hashable cand) (sig : Signature) (history : List Json) :
    candRank repr lower sig (record :: history) (keyOf cand) ≤
        candRank repr lower sig history (keyOf cand) ∨
      candRank repr lower sig (record :: history) (keyOf cand) ≤
        rankOf (0, withFailure (fun key ↦ (samples repr lower sig history key).2) (keyOf cand)) := by
  by_cases hkey : keyOf cand = .none
  · left
    rw [hkey, candRank, candRank, samples_none, samples_none]
  · have hmore := rankOf_failure (samples repr lower sig history (keyOf cand))
    rw [candRank, candRank, samples_cons_failure h hcand hkey, withFailure, if_neg hkey]
    split_ifs
    · exact Or.inr (rankOf_mono rfl (Nat.le_add_left 1 _))
    · exact hmore.imp_right fun hzero ↦ rankOf_mono hzero le_rfl
    · exact hmore.imp_right fun hzero ↦ rankOf_mono hzero le_rfl
    · exact Or.inl le_rfl

/-- A failed record with these features. -/
def failedRecord (cand : Json) (features : Fields) : Fields :=
  [("choice", cand), ("success", .bool false), ("features", .obj features)]

theorem isFailureOf_failedRecord (cand : Json) (features : Fields) :
    IsFailureOf repr lower cand (.obj (failedRecord cand features)) := by
  refine ⟨_, rfl, ?_, ?_⟩
  · simp [failedRecord, recordChoice, Dict.lookup_cons]
  · simp [failedRecord, isSuccess, Dict.lookup_cons, Python.truthy]

theorem recordSignature_failedRecord (cand : Json) (features : Fields) :
    recordSignature (failedRecord cand features) = signature features := by
  simp [failedRecord, recordSignature, Python.get, Dict.lookup_cons]

theorem isOf_failedRecord_self {cand : Json} {features : Fields} (h : signature features ≠ []) :
    isOf (signature features) (.obj (failedRecord cand features)) = true := by
  simp [isOf, recordSignature_failedRecord, sameSignature, h]

theorem isOf_failedRecord_nil (sig : Signature) (cand : Json) :
    isOf sig (.obj (failedRecord cand [])) = false := by
  rw [isOf, recordSignature_failedRecord]
  cases sig with
  | nil => rfl
  | cons pair sig => simp [signature, sameSignature, Python.eq, Python.canonical,
      Python.canonicalItems]

theorem isOf_nil (record : Json) : isOf [] record = false := by
  cases record <;> rfl

/-- Some failure counts as one more sample. -/
theorem exists_counted_failure {cand : Json} (hcand : Hashable cand) (features : Fields)
    (history : List Json)
    (hzero : (samples repr lower (signature features) history (keyOf cand)).1 = 0) :
    ∃ record, IsFailureOf repr lower cand record ∧
      samples repr lower (signature features) (record :: history) (keyOf cand) =
        (0, withFailure (fun key ↦ (samples repr lower (signature features) history key).2)
          (keyOf cand)) := by
  by_cases hkey : keyOf cand = .none
  · refine ⟨_, isFailureOf_failedRecord cand [], ?_⟩
    rw [hkey, samples_none, withFailure, if_pos rfl]
  · rw [withFailure, if_neg hkey]
    by_cases hnone : (tallied repr lower (isOf (signature features)) history (keyOf cand)).2 = 0
    -- no signature is that of an empty record, which counts among all records only
    · refine ⟨_, isFailureOf_failedRecord cand [], ?_⟩
      rw [samples_cons_failure (isFailureOf_failedRecord cand []) hcand hkey,
        isOf_failedRecord_nil, if_neg Bool.false_ne_true, if_pos hnone, hzero]
    · have hsig : signature features ≠ [] := by
        intro hsig
        rw [hsig] at hnone
        simp [tallied, isOf_nil] at hnone
      refine ⟨_, isFailureOf_failedRecord cand features, ?_⟩
      rw [samples_cons_failure (isFailureOf_failedRecord cand features) hcand hkey,
        isOf_failedRecord_self hsig, if_pos rfl, if_neg hnone, hzero]

/-! ## The choice after one more failure -/

theorem rankOf_zero_lt_iff {m n : ℕ} : rankOf (0, m) < rankOf (0, n) ↔ m < n := by
  rw [rankOf, rankOf, Nat.cast_zero, zero_div, zero_div, Prod.Lex.toLex_lt_toLex]
  exact (or_iff_right (lt_irrefl 0)).trans (and_iff_right rfl)

theorem rankOf_zero_inj {m n : ℕ} : rankOf (0, m) = rankOf (0, n) ↔ m = n := by
  constructor
  · exact fun h ↦ congrArg (fun rank ↦ (ofLex rank).2) h
  · rintro rfl
    rfl

theorem candRank_of_zero {sig : Signature} {history : List Json} {key : Key}
    (h : (samples repr lower sig history key).1 = 0) :
    candRank repr lower sig history key = rankOf (0, (samples repr lower sig history key).2) := by
  rw [candRank, ← h]

/-- Without a success the ranking is by the number of samples. -/
theorem overtakes_candRank_iff {sig : Signature} {history : List Json} {keys : List Key}
    {best key : Key} {total : ℕ} (h : (samples repr lower sig history best).1 = 0) :
    Overtakes (candRank repr lower sig history) keys best key (rankOf (0, total)) ↔
      Overtakes (fun key ↦ (samples repr lower sig history key).2) keys best key total := by
  rw [Overtakes, Overtakes, candRank_of_zero h, rankOf_zero_lt_iff, rankOf_zero_inj]

variable (repr lower) in
/-- Some candidate has a success, or one has so many samples that no other comes before it with
one more. -/
def LeadIsSafe (sig : Signature) (history : List Json) (keys : List Key) : Prop :=
  let total := fun key ↦ (samples repr lower sig history key).2
  (∃ key ∈ keys, 0 < (samples repr lower sig history key).1) ∨
    ∃ leader ∈ keys, ∀ key ∈ keys, key ≠ leader →
      ¬Overtakes total keys leader key (withFailure total key)

theorem le_withFailure (sig : Signature) (history : List Json) (key : Key) :
    (samples repr lower sig history key).2 ≤
      withFailure (fun key ↦ (samples repr lower sig history key).2) key := by
  rw [withFailure]
  split_ifs with hkey
  · rw [hkey, samples_none]
  · exact Nat.le_succ _

theorem samples_of_no_success {sig : Signature} {history : List Json} {keys : List Key}
    (h : ¬∃ key ∈ keys, 0 < (samples repr lower sig history key).1) :
    ∀ key ∈ keys, (samples repr lower sig history key).1 = 0 := by
  intro key hkey
  by_contra hne
  exact h ⟨key, hkey, Nat.pos_of_ne_zero hne⟩

/-- The failure of another candidate does not overtake a safe lead. -/
theorem LeadIsSafe.not_overtakes {sig : Signature} {history : List Json} {keys : List Key}
    {best key : Key} (h : LeadIsSafe repr lower sig history keys)
    (hbest : best ∈ keys.argmax (candRank repr lower sig history)) (hkey : key ∈ keys)
    (hne : key ≠ best) :
    ¬Overtakes (candRank repr lower sig history) keys best key
      (rankOf (0, withFailure (fun key ↦ (samples repr lower sig history key).2) key)) := by
  by_cases hwin : ∃ key ∈ keys, 0 < (samples repr lower sig history key).1
  · obtain ⟨winner, hwinner, hpos⟩ := hwin
    -- one success ranks above any number of failures
    intro hover
    exact ((List.le_of_mem_argmax hwinner hbest).trans hover.le).not_gt (rankOf_lt_of_pos hpos _)
  · obtain ⟨leader, hleader, hlead⟩ := h.resolve_left hwin
    have hzero := samples_of_no_success hwin
    -- the leader of the statement is the choice before the failure
    have hleads : leader ∈ keys.argmax (candRank repr lower sig history) := by
      rw [mem_argmax_iff_not_overtakes]
      refine ⟨hleader, fun other hother hother_ne hover ↦ hlead other hother hother_ne ?_⟩
      rw [candRank_of_zero (hzero other hother)] at hover
      exact ((overtakes_candRank_iff (hzero leader hleader)).mp hover).mono (le_withFailure _ _ _)
    obtain rfl := Option.mem_unique hbest hleads
    rw [overtakes_candRank_iff (hzero best hleader)]
    exact hlead key hkey hne

theorem keyOf_mem_argmax {history candidates : List Json} {features : Fields} {cand : Json}
    (h : AllHashable history candidates)
    (hchosen : chosen repr lower history candidates features = .ok (some cand)) :
    keyOf cand ∈ (candidates.map keyOf).argmax (candRank repr lower (signature features) history) := by
  rw [chosen_eq h] at hchosen
  rw [argmax_map, Except.ok.inj hchosen]
  rfl

theorem allHashable_of_predictRoute {history candidates : List Json} {features : Fields}
    {prediction : Prediction} (hne : candidates ≠ [])
    (h : predictRoute repr lower history candidates features = .ok prediction) :
    AllHashable history candidates := by
  obtain ⟨first, rest, rfl⟩ := List.exists_cons_of_ne_nil hne
  obtain ⟨best, hbest, -⟩ := Outcome.bind_eq_ok_iff.mp h
  exact allHashable_of_bestOf hbest

theorem AllHashable.insert {front back candidates : List Json} {cand record : Json}
    (h : AllHashable (front ++ back) candidates) (hcand : Hashable cand)
    (hrecord : IsFailureOf repr lower cand record) :
    AllHashable (front ++ record :: back) candidates := by
  refine ⟨fun fields hfields ↦ ?_, h.candidates⟩
  rcases List.mem_cons.mp (List.perm_middle.mem_iff.mp hfields) with hsame | hold
  · obtain ⟨fields', rfl, hchoice, -⟩ := hrecord
    obtain rfl := Json.obj.inj hsame
    obtain ⟨key, hkey⟩ := hcand
    exact ⟨key, hchoice.trans hkey⟩
  · exact h.choices fields hold

theorem candRank_insert (sig : Signature) (front back : List Json) (record : Json) :
    candRank repr lower sig (front ++ record :: back) =
      candRank repr lower sig (record :: (front ++ back)) := by
  funext key
  rw [candRank, candRank, samples_perm sig List.perm_middle]

theorem candRank_cons_of_ne {cand record : Json} (h : IsFailureOf repr lower cand record)
    (hcand : Hashable cand) (sig : Signature) (history : List Json) {key : Key}
    (hne : key ≠ keyOf cand) :
    candRank repr lower sig (record :: history) key = candRank repr lower sig history key := by
  rw [candRank, candRank, samples_cons_of_not_isFor (not_isFor_of_failure h hcand hne)]

/-- A failure that changes the choice to its own candidate overtakes the lead. -/
theorem LeadIsSafe.choice_of_failure {sig : Signature} {history : List Json} {keys : List Key}
    {best : Key} {cand record : Json} (h : LeadIsSafe repr lower sig history keys)
    (hcand : Hashable cand) (hfailure : IsFailureOf repr lower cand record)
    (hbest : best ∈ keys.argmax (candRank repr lower sig history))
    (hafter : keyOf cand ∈ keys.argmax (candRank repr lower sig (record :: history))) :
    best = keyOf cand := by
  have hkey := List.argmax_mem hafter
  by_contra hne
  have hover := (mem_argmax_iff_overtakes hbest hkey (Ne.symm hne) fun other hother ↦
    candRank_cons_of_ne hfailure hcand sig history hother).mp hafter
  rcases candRank_failure hfailure hcand sig history with hle | hle
  · exact not_overtakes_of_le hbest hkey (Ne.symm hne) hle hover
  · exact h.not_overtakes hbest hkey (Ne.symm hne) (hover.mono hle)

/-- If no failure can change the choice, the lead is safe. -/
theorem leadIsSafe_of_choice {history : List Json} {features : Fields} {candidates : List Json}
    {best : Key} (hcandidates : ∀ cand ∈ candidates, Hashable cand)
    (hbest : best ∈ (candidates.map keyOf).argmax
      (candRank repr lower (signature features) history))
    (hkeeps : ∀ cand ∈ candidates, ∀ record, IsFailureOf repr lower cand record →
      keyOf cand ∈ (candidates.map keyOf).argmax
        (candRank repr lower (signature features) (record :: history)) → best = keyOf cand) :
    LeadIsSafe repr lower (signature features) history (candidates.map keyOf) := by
  by_cases hwin : ∃ key ∈ candidates.map keyOf,
      0 < (samples repr lower (signature features) history key).1
  · exact Or.inl hwin
  · have hzero := samples_of_no_success hwin
    refine Or.inr ⟨best, List.argmax_mem hbest, fun key hkey hne hover ↦ ?_⟩
    obtain ⟨cand, hcand, rfl⟩ := List.mem_map.mp hkey
    have hhashable := hcandidates cand hcand
    obtain ⟨record, hfailure, hsamples⟩ :=
      exists_counted_failure hhashable features history (hzero _ hkey)
    apply hne
    refine (hkeeps cand hcand record hfailure ?_).symm
    rw [mem_argmax_iff_overtakes hbest hkey hne fun other hother ↦
        candRank_cons_of_ne hfailure hhashable _ history hother, candRank, hsamples,
      overtakes_candRank_iff (hzero best (List.argmax_mem hbest))]
    exact hover

/-- A failure is never rewarded if and only if there is a candidate, everything is hashable, and
no candidate without a success can come first by its number of samples. -/
theorem neverRewardsFailure_iff (repr : Json → String) (lower : String → String)
    (history candidates : List Json) (features : Fields) :
    NeverRewardsFailure repr lower history candidates features ↔
      candidates ≠ [] ∧ AllHashable history candidates ∧
        LeadIsSafe repr lower (signature features) history (candidates.map keyOf) := by
  constructor
  · rintro ⟨⟨prediction, hprediction, ⟨before, hbefore, hchosen, -⟩, -⟩, hkeeps⟩
    have hne : candidates ≠ [] := List.ne_nil_of_mem hbefore
    have hall := allHashable_of_predictRoute hne hprediction
    refine ⟨hne, hall, leadIsSafe_of_choice hall.candidates (keyOf_mem_argmax hall hchosen) ?_⟩
    intro cand hcand record hfailure hafter
    have hhashable := hall.candidates cand hcand
    have hall' : AllHashable (record :: history) candidates :=
      AllHashable.insert (show AllHashable ([] ++ history) candidates from hall) hhashable hfailure
    rw [argmax_map] at hafter
    obtain ⟨after, hargmax, hkey⟩ := Option.map_eq_some_iff.mp hafter
    have hafter_mem := List.argmax_mem hargmax
    have hsame := (keyOf_eq_iff (hall.candidates after hafter_mem) hhashable).mp hkey
    have hkept := hkeeps cand hcand [] record history rfl hfailure before after hchosen
      ((chosen_eq hall' features).trans (congrArg Except.ok hargmax)) hsame
    exact (keyOf_eq_iff (hall.candidates before hbefore) hhashable).mpr hkept
  · rintro ⟨hne, hall, hsafe⟩
    refine ⟨predictRoute_spec hall hne features, ?_⟩
    rintro cand hcand front record back rfl hfailure before after hbefore hafter hsame
    have hhashable := hall.candidates cand hcand
    have hall' := hall.insert hhashable hfailure
    have hbest := keyOf_mem_argmax hall hbefore
    have hbest' := keyOf_mem_argmax hall' hafter
    have hafter_mem := List.argmax_mem (Except.ok.inj ((chosen_eq hall' features).symm.trans hafter))
    have hbefore_mem := List.argmax_mem (Except.ok.inj ((chosen_eq hall features).symm.trans hbefore))
    rw [candRank_insert,
      (keyOf_eq_iff (hall.candidates after hafter_mem) hhashable).mpr hsame] at hbest'
    rw [← keyOf_eq_iff (hall.candidates before hbefore_mem) hhashable]
    exact hsafe.choice_of_failure hhashable hfailure hbest hbest'

end Counts

/-! ## A reward -/

def sampleRepr : Json → String
  | .str s => "'" ++ s ++ "'"
  | .bool b => if b then "True" else "False"
  | .null => "None"
  | _ => "..."

def sampleCandidates : List Json := [.str "a", .str "b"]

def sampleFailure : Json := .obj [("choice", .str "b"), ("success", .bool false)]

/-- Neither candidate has a success, and the first record of a failure decides for `b`. -/
theorem failure_is_rewarded :
    chosen sampleRepr Text.asciiLower [] sampleCandidates [] = .ok (some (.str "a")) ∧
      chosen sampleRepr Text.asciiLower [sampleFailure] sampleCandidates [] =
        .ok (some (.str "b")) ∧
      ¬NeverRewardsFailure sampleRepr Text.asciiLower [] sampleCandidates [] := by
  have hbefore : chosen sampleRepr Text.asciiLower [] sampleCandidates [] =
      .ok (some (.str "a")) := by decide +kernel
  have hafter : chosen sampleRepr Text.asciiLower [sampleFailure] sampleCandidates [] =
      .ok (some (.str "b")) := by decide +kernel
  refine ⟨hbefore, hafter, fun h ↦ ?_⟩
  have hsame := h.2 (.str "b") (by simp [sampleCandidates]) [] sampleFailure [] rfl
    ⟨_, rfl, rfl, rfl⟩ _ _ hbefore hafter rfl
  exact absurd hsame (by decide)

end AgenticSDLC.PredictiveRouter
