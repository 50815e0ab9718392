import Mathlib.Data.List.Basic

/-!
# Blocks of equal elements

A block is a stretch of a list in which every place holds the same value.  It is maximal
when neither the place before it nor the place after it holds that value.
-/

variable {α : Type*}

/-- A nonempty stretch of `xs` with one value. -/
structure Block (xs : List α) where
  start : ℕ
  size : ℕ
  value : α
  size_pos : 0 < size
  repeats : ∀ n, start ≤ n → n < start + size → xs[n]? = some value

namespace Block

variable {xs : List α}

def stop (b : Block xs) : ℕ := b.start + b.size

structure Maximal (b : Block xs) : Prop where
  before : ∀ n, n + 1 = b.start → xs[n]? ≠ some b.value
  after : xs[b.stop]? ≠ some b.value

theorem start_lt_stop (b : Block xs) : b.start < b.stop := by
  have := b.size_pos
  unfold stop
  omega

theorem start_lt_length (b : Block xs) : b.start < xs.length := by
  have hvalue := b.repeats b.start (Nat.le_refl _) b.start_lt_stop
  exact (List.getElem?_eq_some_iff.mp hvalue).1

/-- A block that starts inside a maximal one has its value. -/
theorem value_eq (b c : Block xs) (hstart : b.start ≤ c.start) (hstop : c.start < b.stop) :
    c.value = b.value := by
  have hb := b.repeats c.start hstart hstop
  have hc := c.repeats c.start (Nat.le_refl _) c.start_lt_stop
  exact Option.some.inj (hc.symm.trans hb)

/-- A block that starts inside a maximal one ends inside it. -/
theorem Maximal.stop_le {b : Block xs} (hb : b.Maximal) (c : Block xs)
    (hstart : b.start ≤ c.start) (hstop : c.start < b.stop) : c.stop ≤ b.stop := by
  by_contra hlong
  apply hb.after
  have hc := c.repeats b.stop (by omega) (by unfold stop at hlong ⊢; omega)
  rw [hc, b.value_eq c hstart hstop]

/-- What stands before a block, in it and after it. -/
theorem eq_append (b : Block xs) :
    xs = xs.take b.start ++ List.replicate b.size b.value ++ xs.drop b.stop := by
  have hstretch : (xs.drop b.start).take b.size = List.replicate b.size b.value := by
    refine List.ext_getElem? fun n ↦ ?_
    rw [List.getElem?_take, List.getElem?_drop, List.getElem?_replicate]
    split_ifs with hn
    · exact b.repeats _ (by omega) (by omega)
    · rfl
  have hrest : (xs.drop b.start).drop b.size = xs.drop b.stop := List.drop_drop
  rw [List.append_assoc, ← hstretch, ← hrest, List.take_append_drop, List.take_append_drop]

/-- A block for a stretch of one value. -/
def ofAppend (front back : List α) (value : α) (size : ℕ) (hsize : 0 < size) :
    Block (front ++ List.replicate size value ++ back) where
  start := front.length
  size := size
  value := value
  size_pos := hsize
  repeats n hstart hstop := by
    rw [List.append_assoc, List.getElem?_append_right hstart, List.getElem?_append_left
      (by rw [List.length_replicate]; omega), List.getElem?_replicate, if_pos (by omega)]

end Block
