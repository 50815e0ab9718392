import Mathlib.Data.List.Induction

/-!
# Hash chains

A list of rows, each of which names the hash of the row before it.  What the hash
of a row is made of does not matter here: only that different rows have different
hashes, which makes the last hash stand for all rows.
-/

namespace HashChain

variable {ρ η : Type} (prev hash : ρ → η)

/-- Every row names the hash of the one before it, and the first one names `start`. -/
def Linked : η → List ρ → Prop
  | _, [] => True
  | start, row :: rows => prev row = start ∧ Linked (hash row) rows

/-- The hash that the next row has to name. -/
def tip : η → List ρ → η
  | start, [] => start
  | _, row :: rows => tip (hash row) rows

variable {prev hash}

theorem tip_append (start : η) (rows more : List ρ) :
    tip hash start (rows ++ more) = tip hash (tip hash start rows) more := by
  induction rows generalizing start with
  | nil => rfl
  | cons row rows ih => exact ih (hash row)

theorem linked_append {start : η} {rows more : List ρ} :
    Linked prev hash start (rows ++ more) ↔
      Linked prev hash start rows ∧ Linked prev hash (tip hash start rows) more := by
  induction rows generalizing start with
  | nil => simp [Linked, tip]
  | cons row rows ih => simp [Linked, tip, ih, and_assoc]

theorem tip_append_singleton (start : η) (rows : List ρ) (row : ρ) :
    tip hash start (rows ++ [row]) = hash row :=
  tip_append start rows [row]

theorem linked_append_singleton {start : η} {rows : List ρ} {row : ρ} :
    Linked prev hash start (rows ++ [row]) ↔
      Linked prev hash start rows ∧ prev row = tip hash start rows := by
  rw [linked_append]
  simp [Linked]

theorem tip_of_getLast? {start : η} {rows : List ρ} {row : ρ} (h : rows.getLast? = some row) :
    tip hash start rows = hash row := by
  obtain ⟨front, rfl⟩ := List.getLast?_eq_some_iff.mp h
  exact tip_append_singleton start front row

/-- The last hash of a chain of known length stands for all of its rows. -/
theorem eq_of_tip_eq {start other : η} {rows more : List ρ}
    (hinj : ∀ row ∈ rows, ∀ another ∈ more, hash row = hash another → row = another)
    (hlength : rows.length = more.length) (hrows : Linked prev hash start rows)
    (hmore : Linked prev hash other more)
    (htip : rows ≠ [] → tip hash start rows = tip hash other more) : rows = more := by
  induction rows using List.reverseRecOn generalizing more with
  | nil => exact (List.length_eq_zero_iff.mp hlength.symm).symm
  | append_singleton rows row ih =>
      rcases List.eq_nil_or_concat more with rfl | ⟨front, last, rfl⟩
      · simp at hlength
      · rw [List.concat_eq_append] at *
        obtain ⟨hfront, hrow⟩ := linked_append_singleton.mp hrows
        obtain ⟨hother, hlast⟩ := linked_append_singleton.mp hmore
        have hends := htip (by simp)
        rw [tip_append_singleton, tip_append_singleton] at hends
        obtain rfl := hinj row (by simp) last (by simp) hends
        have hfronts : rows = front := by
          apply ih
          · exact fun one hone two htwo ↦ hinj one (by simp [hone]) two (by simp [htwo])
          · simpa using hlength
          · exact hfront
          · exact hother
          · exact fun _ ↦ hrow.symm.trans hlast
        rw [hfronts]

/-- In a chain none of whose hashes is the link, one row at most names it. -/
theorem length_filter_le_one [DecidableEq η] {start link : η} {rows : List ρ}
    (hlinked : Linked prev hash start rows) (hhash : ∀ row ∈ rows, hash row ≠ link) :
    (rows.filter fun row ↦ prev row = link).length ≤ 1 := by
  cases rows with
  | nil => simp
  | cons first rows =>
      have hrest : ∀ row ∈ rows, prev row ≠ link := by
        have hnext := hlinked.2
        have hfirst := hhash first List.mem_cons_self
        have hothers : ∀ row ∈ rows, hash row ≠ link := fun row hrow ↦
          hhash row (List.mem_cons_of_mem first hrow)
        clear hlinked hhash
        generalize hash first = before at hnext hfirst
        induction rows generalizing before with
        | nil => simp
        | cons row rows ih =>
            intro other hother
            rcases List.mem_cons.mp hother with rfl | htail
            · rw [hnext.1]
              exact hfirst
            · exact ih (fun another hanother ↦ hothers another (List.mem_cons_of_mem row hanother))
                (hash row) hnext.2 (hothers row List.mem_cons_self) other htail
      have hnone : (rows.filter fun row ↦ prev row = link) = [] := by
        rw [List.filter_eq_nil_iff]
        intro row hrow
        simpa using hrest row hrow
      rw [List.filter_cons]
      split_ifs
      · simp [hnone]
      · simp [hnone]

end HashChain
