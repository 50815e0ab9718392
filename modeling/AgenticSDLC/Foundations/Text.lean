import Mathlib.Data.List.DropRight

/-!
# Trimming text

Host languages differ in what they call white space, so trimming takes the
class of characters it removes.  The lemmas compare the trims of one text by
two classes, and of two texts that differ in the case of letters or at the ends.
-/

namespace Text

/-- A statement on the elements of a list, evaluated on these alone. -/
theorem forall_mem_of_all {α : Type} {p : α → Prop} [DecidablePred p] {xs : List α}
    (h : xs.all (fun a ↦ decide (p a)) = true) : ∀ a ∈ xs, p a := by
  simpa using h

/-- Remove the longest prefix and the longest suffix inside the class `p`. -/
def trimEnds (p : Char → Bool) (cs : List Char) : List Char :=
  (cs.dropWhile p).rdropWhile p

def trim (p : Char → Bool) (s : String) : String :=
  String.ofList (trimEnds p s.toList)

def isAscii (s : String) : Bool := s.toList.all fun c ↦ c.toNat < 128

/-- Lower-case the letters `A` to `Z`. -/
def asciiLower (s : String) : String := String.ofList (s.toList.map Char.toLower)

theorem trimEnds_eq_nil_iff (p : Char → Bool) (cs : List Char) :
    trimEnds p cs = [] ↔ ∀ c ∈ cs, p c = true := by
  constructor
  · intro h
    have hdrop : ∀ c ∈ cs.dropWhile p, p c = true := List.rdropWhile_eq_nil_iff.mp h
    have hnil : cs.dropWhile p = [] := by
      cases hcs : cs.dropWhile p with
      | nil => rfl
      | cons c rest =>
          have hhead := List.head_dropWhile_not p (l := cs) (by simp [hcs])
          have hc := hdrop c (by simp [hcs])
          simp [hcs, hc] at hhead
    exact List.dropWhile_eq_nil_iff.mp hnil
  · intro h
    simp [trimEnds, List.dropWhile_eq_nil_iff.mpr h]

theorem trim_eq_empty_iff (p : Char → Bool) (s : String) :
    trim p s = "" ↔ ∀ c ∈ s.toList, p c = true := by
  rw [← trimEnds_eq_nil_iff, trim, String.ofList_eq_empty_iff]

theorem trim_eq_empty_of_imp {p q : Char → Bool} {s : String}
    (hpq : ∀ c, p c = true → q c = true) (h : trim p s = "") : trim q s = "" :=
  (trim_eq_empty_iff q s).mpr fun c hc ↦ hpq c ((trim_eq_empty_iff p s).mp h c hc)

theorem trimEnds_surround {p : Char → Bool} {left right : List Char}
    (hleft : ∀ c ∈ left, p c = true) (hright : ∀ c ∈ right, p c = true) (cs : List Char) :
    trimEnds p (left ++ cs ++ right) = trimEnds p cs := by
  rw [trimEnds, trimEnds, List.append_assoc, List.dropWhile_append_of_pos hleft,
    List.dropWhile_append]
  split_ifs with hempty
  · rw [List.isEmpty_iff.mp hempty, List.dropWhile_eq_nil_iff.mpr hright]
  · rw [List.rdropWhile, List.rdropWhile, List.reverse_append,
      List.dropWhile_append_of_pos fun c hc ↦ hright c (List.mem_reverse.mp hc)]

/-- What trimming leaves, between what it removes. -/
theorem exists_trimEnds (p : Char → Bool) (cs : List Char) : ∃ left right,
    cs = left ++ trimEnds p cs ++ right ∧ (∀ c ∈ left, p c = true) ∧ ∀ c ∈ right, p c = true := by
  refine ⟨cs.takeWhile p, ((cs.dropWhile p).reverse.takeWhile p).reverse, ?_, ?_, ?_⟩
  · rw [trimEnds, List.rdropWhile, List.append_assoc, ← List.reverse_append,
      List.takeWhile_append_dropWhile, List.reverse_reverse, List.takeWhile_append_dropWhile]
  · exact fun c ↦ List.mem_takeWhile_imp
  · exact fun c hc ↦ List.mem_takeWhile_imp (List.mem_reverse.mp hc)

theorem trimEnds_map {p : Char → Bool} {f : Char → Char} (hf : ∀ c, p (f c) = p c) (cs : List Char) :
    trimEnds p (cs.map f) = (trimEnds p cs).map f := by
  have hp : p ∘ f = p := funext hf
  simp only [trimEnds, List.rdropWhile, List.dropWhile_map, hp, ← List.map_reverse]

/-- Text of the class `p` at the ends is trimmed away. -/
theorem trim_append {p : Char → Bool} {left right : String}
    (hleft : ∀ c ∈ left.toList, p c = true) (hright : ∀ c ∈ right.toList, p c = true) (s : String) :
    trim p (left ++ s ++ right) = trim p s := by
  rw [trim, trim, String.toList_append, String.toList_append, trimEnds_surround hleft hright]

/-! ## Letter case -/

theorem toNat_toLower (c : Char) :
    c.toLower.toNat = if 65 ≤ c.toNat ∧ c.toNat ≤ 90 then c.toNat + 32 else c.toNat := by
  have hupper : (c.val ≥ 'A'.val ∧ c.val ≤ 'Z'.val) ↔ 65 ≤ c.toNat ∧ c.toNat ≤ 90 := by
    rw [ge_iff_le, UInt32.le_iff_toNat_le, UInt32.le_iff_toNat_le]
    rfl
  by_cases h : 65 ≤ c.toNat ∧ c.toNat ≤ 90
  · delta Char.toLower
    rw [if_pos h, dif_pos (hupper.mpr h)]
    change (c.val + ('a'.val - 'A'.val)).toNat = _
    rw [UInt32.toNat_add]
    change (c.toNat + 32) % 4294967296 = _
    omega
  · delta Char.toLower
    rw [if_neg h, dif_neg (mt hupper.mp h)]

/-- Trimming by a class without a letter goes before or after the change of case. -/
theorem trim_asciiLower {p : Char → Bool} (hp : ∀ c : Char, p c.toLower = p c) (s : String) :
    trim p (asciiLower s) = asciiLower (trim p s) := by
  rw [trim, trim, asciiLower, asciiLower, String.toList_ofList, String.toList_ofList,
    trimEnds_map hp]

@[simp] theorem isAscii_asciiLower (s : String) : isAscii (asciiLower s) = isAscii s := by
  rw [isAscii, isAscii, asciiLower, String.toList_ofList, List.all_map]
  congr 1
  funext c
  have hlower := toNat_toLower c
  split_ifs at hlower with hupper
  · simp only [Function.comp_apply, hlower]
    exact decide_eq_decide.mpr (by omega)
  · simp only [Function.comp_apply, hlower]

@[simp] theorem asciiLower_eq_empty_iff (s : String) : asciiLower s = "" ↔ s = "" := by
  rw [asciiLower, String.ofList_eq_empty_iff, List.map_eq_nil_iff, String.toList_eq_nil_iff]

end Text
