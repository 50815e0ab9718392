import Mathlib.Algebra.Order.Ring.Int
import AgenticSDLC.Foundations.Blocks

/-!
# Reasoning loops

`tools/observability.py`: an agent loops when it makes one call over and over.  The detector
scans the signatures of the calls from left to right, from the start of one run of equal
signatures to the start of the next.
-/

namespace AgenticSDLC.ReasoningLoop

def reasoningLoopK : ℤ := 3

structure Report where
  loop : Bool
  signature : Option String
  count : ℕ
deriving DecidableEq, Repr

/-- The inner loop: the first place from `j` on whose signature is not the one at `i`. -/
def runEnd (signatures : List String) (i j : ℕ) : ℕ :=
  if j < signatures.length ∧ signatures[j]? = signatures[i]? then
    runEnd signatures i (j + 1)
  else j
termination_by signatures.length - j

theorem le_runEnd (signatures : List String) (i j : ℕ) : j ≤ runEnd signatures i j := by
  fun_induction runEnd signatures i j with
  | case1 j _ ih => omega
  | case2 j _ => exact le_rfl

/-- The inner loop moves on from the place that it starts at. -/
theorem lt_runEnd {signatures : List String} {i : ℕ} (h : i < signatures.length) :
    i < runEnd signatures i i := by
  have hnext := le_runEnd signatures i (i + 1)
  rw [runEnd, if_pos ⟨h, rfl⟩]
  omega

/-- The outer loop, from the place `i` on. -/
def scanFrom (signatures : List String) (threshold : ℤ) (i : ℕ) : Report :=
  if h : i < signatures.length then
    let j := runEnd signatures i i
    let runLen := j - i
    if threshold ≤ runLen then
      { loop := true, signature := some signatures[i], count := runLen }
    else scanFrom signatures threshold j
  else { loop := false, signature := none, count := 0 }
termination_by signatures.length - i
decreasing_by
  have := lt_runEnd h
  omega

def detectReasoningLoop (signatures : List String) (k : ℤ := reasoningLoopK) : Report :=
  scanFrom signatures (max 1 k) 0

/-! ## One run -/

theorem getElem?_of_lt_runEnd (signatures : List String) (i j n : ℕ) (hj : j ≤ n)
    (hn : n < runEnd signatures i j) : signatures[n]? = signatures[i]? := by
  fun_induction runEnd signatures i j with
  | case1 j hsame ih =>
      rcases hj.eq_or_lt with rfl | hlt
      · exact hsame.2
      · exact ih hlt hn
  | case2 j _ => omega

theorem getElem?_runEnd_ne (signatures : List String) (i j : ℕ) (hi : i < signatures.length) :
    signatures[runEnd signatures i j]? ≠ signatures[i]? := by
  fun_induction runEnd signatures i j with
  | case1 j _ ih => exact ih
  | case2 j hstop =>
      intro hsame
      have hsome : signatures[j]? = some signatures[i] := by
        rw [hsame, List.getElem?_eq_getElem hi]
      exact hstop ⟨(List.getElem?_eq_some_iff.mp hsome).1, hsame⟩

/-- The run that starts at the place `i`. -/
def runAt (signatures : List String) (i : ℕ) (hi : i < signatures.length) :
    Block signatures where
  start := i
  size := runEnd signatures i i - i
  value := signatures[i]
  size_pos := Nat.sub_pos_of_lt (lt_runEnd hi)
  repeats n hstart hstop := by
    have hle := le_runEnd signatures i i
    rw [getElem?_of_lt_runEnd signatures i i n hstart (by omega), List.getElem?_eq_getElem hi]

theorem runAt_stop (signatures : List String) (i : ℕ) (hi : i < signatures.length) :
    (runAt signatures i hi).stop = runEnd signatures i i := by
  have hle := le_runEnd signatures i i
  simp only [Block.stop, runAt]
  omega

/-! ## The scan -/

/-- Where the outer loop stands: at the start of a run, with no block of the threshold's size
behind it. -/
structure Scanned (signatures : List String) (threshold : ℤ) (i : ℕ) : Prop where
  boundary : ∀ n, n + 1 = i → signatures[n]? ≠ signatures[i]?
  short : ∀ b : Block signatures, b.start < i → b.size < threshold

theorem scanned_zero (signatures : List String) (threshold : ℤ) :
    Scanned signatures threshold 0 where
  boundary n hn := by omega
  short b hb := by omega

theorem Scanned.runAt_maximal {signatures : List String} {threshold : ℤ} {i : ℕ}
    (h : Scanned signatures threshold i) (hi : i < signatures.length) :
    (runAt signatures i hi).Maximal where
  before n hn := by
    have hne := h.boundary n hn
    rwa [List.getElem?_eq_getElem hi] at hne
  after := by
    have hne := getElem?_runEnd_ne signatures i i hi
    rwa [← runAt_stop signatures i hi, List.getElem?_eq_getElem hi] at hne

/-- A run shorter than the threshold is passed over. -/
theorem Scanned.next {signatures : List String} {threshold : ℤ} {i : ℕ}
    (h : Scanned signatures threshold i) (hi : i < signatures.length)
    (hshort : (runAt signatures i hi).size < threshold) :
    Scanned signatures threshold (runEnd signatures i i) where
  boundary n hn := by
    have hlt := lt_runEnd hi
    have hlast := getElem?_of_lt_runEnd signatures i i n (by omega) (by omega)
    rw [hlast]
    exact (getElem?_runEnd_ne signatures i i hi).symm
  short b hb := by
    by_cases hold : b.start < i
    · exact h.short b hold
    · have hrun := runAt_stop signatures i hi
      have hinside := (h.runAt_maximal hi).stop_le b (not_lt.mp hold) (by omega)
      have hstart : (runAt signatures i hi).start = i := rfl
      unfold Block.stop at hinside
      omega

/-- What the scan reports: the earliest maximal run that reaches the threshold, or that every
block is shorter. -/
theorem scanFrom_spec (signatures : List String) (threshold : ℤ) (i : ℕ)
    (h : Scanned signatures threshold i) :
    (∃ run : Block signatures, run.Maximal ∧ threshold ≤ run.size ∧
      (∀ b : Block signatures, threshold ≤ b.size → run.start ≤ b.start) ∧
      scanFrom signatures threshold i =
        { loop := true, signature := some run.value, count := run.size }) ∨
    (∀ b : Block signatures, b.size < threshold) ∧
      scanFrom signatures threshold i = { loop := false, signature := none, count := 0 } := by
  fun_induction scanFrom signatures threshold i with
  | case1 i hi j runLen hlong =>
      refine Or.inl ⟨runAt signatures i hi, h.runAt_maximal hi, hlong, ?_, rfl⟩
      intro b hb
      by_contra hearlier
      have hshort := h.short b (not_le.mp hearlier)
      omega
  | case2 i hi j runLen hshort ih => exact ih (h.next hi (not_le.mp hshort))
  | case3 i hi =>
      refine Or.inr ⟨?_, rfl⟩
      intro b
      have hstart := b.start_lt_length
      exact h.short b (by omega)

/-- A loop is reported exactly when some block of equal signatures reaches the threshold, and
the report is then that of the earliest maximal one. -/
theorem detectReasoningLoop_exact (signatures : List String) (k : ℤ) :
    ((detectReasoningLoop signatures k).loop = true ↔
      ∃ b : Block signatures, max 1 k ≤ b.size) ∧
    ((detectReasoningLoop signatures k).loop = true →
      ∃ run : Block signatures, run.Maximal ∧ max 1 k ≤ run.size ∧
        (∀ b : Block signatures, max 1 k ≤ b.size → run.start ≤ b.start) ∧
        (detectReasoningLoop signatures k).signature = some run.value ∧
        (detectReasoningLoop signatures k).count = run.size) ∧
    ((detectReasoningLoop signatures k).loop = false →
      (detectReasoningLoop signatures k).signature = none ∧
        (detectReasoningLoop signatures k).count = 0) := by
  have hspec := scanFrom_spec signatures (max 1 k) 0 (scanned_zero signatures (max 1 k))
  rcases hspec with ⟨run, hmaximal, hsize, hearliest, hreport⟩ | ⟨hshort, hreport⟩
  · rw [detectReasoningLoop, hreport]
    refine ⟨⟨fun _ ↦ ⟨run, hsize⟩, fun _ ↦ rfl⟩, ?_, fun h ↦ (nomatch h)⟩
    intro _
    exact ⟨run, hmaximal, hsize, hearliest, rfl, rfl⟩
  · rw [detectReasoningLoop, hreport]
    refine ⟨⟨fun h ↦ (nomatch h), ?_⟩, fun h ↦ (nomatch h), fun _ ↦ ⟨rfl, rfl⟩⟩
    rintro ⟨b, hb⟩
    have hlt := hshort b
    omega

end AgenticSDLC.ReasoningLoop
