import AgenticSDLC.Foundations.JsonCanonical

/-!
# Floats in JSON text

A float is written as a literal that has a fraction or an exponent, and the reader takes
such a literal as a whole.  One way of writing decimals so that they read back is given at
the end.
-/

namespace Json

/-! ## Literals -/

def IsDigits (digits : List Char) : Prop := digits ≠ [] ∧ ∀ c ∈ digits, c.isDigit = true

structure IsWhole (whole : List Char) : Prop where
  digits : IsDigits whole
  zero : whole.head? = some '0' → whole = ['0']

def IsFraction (fraction : List Char) : Prop :=
  fraction = [] ∨ ∃ digits, IsDigits digits ∧ fraction = '.' :: digits

def IsExponent (exponent : List Char) : Prop :=
  exponent = [] ∨ ∃ mark sign digits, (mark = 'e' ∨ mark = 'E') ∧
    (sign = [] ∨ sign = ['+'] ∨ sign = ['-']) ∧ IsDigits digits ∧ exponent = mark :: sign ++ digits

/-- A literal of a float: a sign, digits, a fraction and an exponent. -/
def IsFloatLiteral (text : List Char) : Prop :=
  ∃ sign whole fraction exponent, (sign = [] ∨ sign = ['-']) ∧ IsWhole whole ∧
    IsFraction fraction ∧ IsExponent exponent ∧ ¬(fraction = [] ∧ exponent = []) ∧
      text = sign ++ whole ++ fraction ++ exponent

section Literals

variable {digits whole fraction exponent rest : List Char}

theorem IsDigits.takeWhile (h : IsDigits digits) (hrest : rest.takeWhile Char.isDigit = []) :
    (digits ++ rest).takeWhile Char.isDigit = digits := by
  rw [List.takeWhile_append_of_pos h.2, hrest, List.append_nil]

theorem IsDigits.head (h : IsDigits digits) :
    ∃ c others, digits = c :: others ∧ c.isDigit = true := by
  obtain ⟨c, others, rfl⟩ := List.exists_cons_of_ne_nil h.1
  exact ⟨c, others, rfl, h.2 c List.mem_cons_self⟩

theorem takeWhile_exponent (h : IsExponent exponent) (hrest : Ends rest) :
    (exponent ++ rest).takeWhile Char.isDigit = [] := by
  rcases h with rfl | ⟨mark, sign, digits, hmark, -, -, rfl⟩
  · exact hrest.takeWhile
  · have hdigit : mark.isDigit = false := by
      rcases hmark with rfl | rfl <;> decide
    rw [List.cons_append, List.cons_append, List.takeWhile_cons, if_neg (by simp [hdigit])]

theorem takeWhile_fraction (h : IsFraction fraction) (hexponent : IsExponent exponent)
    (hrest : Ends rest) : (fraction ++ (exponent ++ rest)).takeWhile Char.isDigit = [] := by
  rcases h with rfl | ⟨digits, -, rfl⟩
  · rw [List.nil_append]
    exact takeWhile_exponent hexponent hrest
  · rw [List.cons_append, List.takeWhile_cons, if_neg (by decide)]

theorem fractionOf_literal (h : IsFraction fraction) (hexponent : IsExponent exponent)
    (hrest : Ends rest) : fractionOf (fraction ++ (exponent ++ rest)) = fraction := by
  rcases h with rfl | ⟨digits, hdigits, rfl⟩
  · refine if_neg fun hpoint ↦ ?_
    rcases hexponent with rfl | ⟨mark, sign, digits, hmark, -, -, rfl⟩
    · exact (hrest '.' hpoint.1).2.1 rfl
    · obtain rfl := Option.some.inj hpoint.1
      revert hmark
      decide
  · have htake := hdigits.takeWhile (takeWhile_exponent hexponent hrest)
    rw [List.cons_append, fractionOf]
    simp only [List.tail_cons, List.head?_cons, htake]
    exact if_pos ⟨trivial, hdigits.1⟩

theorem exponentOf_literal (h : IsExponent exponent) (hrest : Ends rest) :
    exponentOf (exponent ++ rest) = exponent := by
  rcases h with rfl | ⟨mark, sign, digits, hmark, hsign, hdigits, rfl⟩
  · exact hrest.exponentOf
  · have htake := hdigits.takeWhile hrest.takeWhile
    obtain ⟨c, others, hhead, hdigit⟩ := hdigits.head
    have hplus : c ≠ '+' := by
      rintro rfl
      exact absurd hdigit (by decide)
    have hminus : c ≠ '-' := by
      rintro rfl
      exact absurd hdigit (by decide)
    rcases hsign with rfl | rfl | rfl
    · have hnone : ¬((digits ++ rest).head? = some '+' ∨ (digits ++ rest).head? = some '-') := by
        simp [hhead, hplus, hminus]
      simp only [List.cons_append, List.nil_append, exponentOf, if_neg hnone, List.length_nil,
        List.drop_zero, htake]
      exact if_pos ⟨hmark, hdigits.1⟩
    · simp only [List.cons_append, List.nil_append, exponentOf, List.head?_cons, true_or, if_true,
        List.take_succ_cons, List.take_zero, List.length_cons, List.length_nil, Nat.zero_add,
        List.drop_succ_cons, List.drop_zero, htake]
      exact if_pos ⟨hmark, hdigits.1⟩
    · simp only [List.cons_append, List.nil_append, exponentOf, List.head?_cons, or_true, if_true,
        List.take_succ_cons, List.take_zero, List.length_cons, List.length_nil, Nat.zero_add,
        List.drop_succ_cons, List.drop_zero, htake]
      exact if_pos ⟨hmark, hdigits.1⟩

/-- The reader takes a literal as a whole. -/
theorem readUnsigned_literal (toFloat : String → Json) (sign : List Char) (hwhole : IsWhole whole)
    (hfraction : IsFraction fraction) (hexponent : IsExponent exponent)
    (hfloat : ¬(fraction = [] ∧ exponent = [])) (hrest : Ends rest) :
    readUnsigned toFloat sign (whole ++ (fraction ++ (exponent ++ rest))) =
      some (toFloat (String.ofList (sign ++ whole ++ fraction ++ exponent)), rest) := by
  have htake := hwhole.digits.takeWhile (takeWhile_fraction hfraction hexponent hrest)
  have hdigits : (if whole.head? = some '0' then ['0'] else whole) = whole := by
    split_ifs with hzero
    · exact (hwhole.zero hzero).symm
    · rfl
  simp only [readUnsigned, htake, hdigits]
  rw [List.drop_left, fractionOf_literal hfraction hexponent hrest, ← List.length_append,
    ← List.append_assoc whole, List.drop_left, exponentOf_literal hexponent hrest,
    ← List.length_append, ← List.append_assoc (whole ++ fraction), List.drop_left,
    if_neg hwhole.digits.1, if_neg hfloat]

theorem IsFloatLiteral.readsNumber {text : List Char} (h : IsFloatLiteral text)
    {toFloat : String → Json} {value : Json} (hvalue : toFloat (String.ofList text) = value) :
    ReadsNumber toFloat text value := by
  obtain ⟨sign, whole, fraction, exponent, hsign, hwhole, hfraction, hexponent, hfloat, rfl⟩ := h
  obtain ⟨c, others, hhead, hdigit⟩ := hwhole.digits.head
  refine ⟨?_, fun rest hrest ↦ ?_⟩
  · rcases hsign with rfl | rfl
    · exact ⟨c, others ++ fraction ++ exponent, by simp [hhead], Or.inl hdigit⟩
    · exact ⟨'-', whole ++ fraction ++ exponent, rfl, Or.inr rfl⟩
  · have hread := readUnsigned_literal toFloat sign hwhole hfraction hexponent hfloat hrest
    have hminus : c ≠ '-' := by
      rintro rfl
      exact absurd hdigit (by decide)
    rw [hvalue] at hread
    rcases hsign with rfl | rfl
    · rw [readNumber, if_neg (by simp [hhead, hminus])]
      simpa using hread
    · rw [readNumber, if_pos (by simp)]
      simpa using hread

end Literals

/-- Floats are written as literals, and read back from them. -/
structure FloatTexts (repr : Json → String) (toFloat : String → Json) : Prop where
  literal : ∀ x, IsFloatLiteral (repr (.float x)).toList
  value : ∀ x, toFloat (repr (.float x)) = .float x
  native : ∀ text, (toFloat text).Native fun _ ↦ True

theorem FloatTexts.readsFloat {repr : Json → String} {toFloat : String → Json}
    (h : FloatTexts repr toFloat) (x : Decimal) : ReadsFloat repr toFloat x := by
  apply (h.literal x).readsNumber
  rw [String.ofList_toList, h.value]

/-! ## Scientific notation -/

/-- A decimal by its digits and its exponent. -/
def scientific (x : Decimal) : List Char :=
  (if x.negative then ['-'] else []) ++ Nat.toDigits 10 x.digits ++ 'e' :: (toString x.exponent).toList

def decimal? (negative : Bool) (digits : ℕ) (exponent : ℤ) : Json :=
  if h : if digits = 0 then exponent = 0 else digits % 10 ≠ 0 then
    .float ⟨negative, digits, exponent, h⟩
  else .null

def readScientific (text : List Char) : Json :=
  let negative := text.head? = some '-'
  let text := if negative then text.tail else text
  let digits := text.takeWhile Char.isDigit
  match readNumber (fun _ ↦ .null) (text.drop (digits.length + 1)) with
  | some (.int exponent, _) => decimal? negative (Nat.ofDigitChars 10 digits 0) exponent
  | _ => .null

theorem isDigits_toDigits (n : ℕ) : IsDigits (Nat.toDigits 10 n) :=
  ⟨Nat.toDigits_ne_nil, fun _ hc ↦ Nat.isDigit_of_mem_toDigits (by decide) (by decide) hc⟩

theorem isExponent_toString (n : ℤ) : IsExponent ('e' :: (toString n).toList) := by
  cases n with
  | ofNat n =>
      have htext : (toString (Int.ofNat n)).toList = Nat.toDigits 10 n := Nat.toList_repr
      rw [htext]
      exact Or.inr ⟨'e', [], _, Or.inl rfl, Or.inl rfl, isDigits_toDigits n, rfl⟩
  | negSucc n =>
      have htext : (toString (Int.negSucc n)).toList = '-' :: Nat.toDigits 10 (n + 1) := by
        rw [← Nat.toList_repr]
        exact String.toList_append
      rw [htext]
      exact Or.inr ⟨'e', ['-'], _, Or.inl rfl, Or.inr (Or.inr rfl), isDigits_toDigits (n + 1), rfl⟩

theorem isFloatLiteral_scientific (x : Decimal) : IsFloatLiteral (scientific x) := by
  have hwhole : IsWhole (Nat.toDigits 10 x.digits) := by
    refine ⟨isDigits_toDigits x.digits, fun hzero ↦ ?_⟩
    rw [eq_zero_of_head_toDigits hzero, Nat.toDigits_zero]
  refine ⟨if x.negative then ['-'] else [], _, [], _, ?_, hwhole, Or.inl rfl,
    isExponent_toString x.exponent, by simp, by rw [List.append_nil]; rfl⟩
  cases x.negative <;> simp

theorem readScientific_scientific (x : Decimal) : readScientific (scientific x) = .float x := by
  obtain ⟨negative, digits, exponent, hreduced⟩ := x
  obtain ⟨c, others, hhead, hdigit⟩ := (isDigits_toDigits digits).head
  have hminus : c ≠ '-' := by
    rintro rfl
    exact absurd hdigit (by decide)
  have htake : (Nat.toDigits 10 digits ++ 'e' :: (toString exponent).toList).takeWhile Char.isDigit =
      Nat.toDigits 10 digits := by
    apply (isDigits_toDigits digits).takeWhile
    rw [List.takeWhile_cons, if_neg (by decide)]
  have hdrop : (Nat.toDigits 10 digits ++ 'e' :: (toString exponent).toList).drop
      ((Nat.toDigits 10 digits).length + 1) = (toString exponent).toList := by
    rw [List.append_cons]
    exact List.drop_left' (by simp)
  have hread : readNumber (fun _ ↦ .null) (toString exponent).toList = some (.int exponent, []) := by
    have hends : Ends [] := by simp [Ends]
    simpa only [List.append_nil] using readNumber_toString (fun _ ↦ .null) exponent hends
  have hdecimal : decimal? negative (Nat.ofDigitChars 10 (Nat.toDigits 10 digits) 0) exponent =
      .float ⟨negative, digits, exponent, hreduced⟩ := by
    rw [Nat.ofDigitChars_ten_toDigits]
    exact dif_pos hreduced
  cases negative with
  | false =>
      have hsign : ¬(Nat.toDigits 10 digits ++ 'e' :: (toString exponent).toList).head? = some '-' := by
        simp [hhead, hminus]
      simp only [scientific, readScientific, Bool.false_eq_true, if_false, List.nil_append, hsign,
        decide_false, htake, hdrop, hread, hdecimal]
  | true =>
      simp only [scientific, readScientific, if_true, List.cons_append, List.nil_append,
        List.head?_cons, List.tail_cons, decide_true, htake, hdrop, hread, hdecimal]

theorem native_readScientific (text : List Char) : (readScientific text).Native fun _ ↦ True := by
  rw [readScientific]
  split
  · rw [decimal?]
    split_ifs <;> trivial
  · trivial

/-- A `repr` that writes every float in scientific notation. -/
def scientificRepr : Json → String
  | .float x => String.ofList (scientific x)
  | _ => ""

/-- A library with these texts, in which each text is its own digest. -/
def scientificStdlib : Python.Stdlib where
  repr := scientificRepr
  sha256 text := text
  fromisoformat _ := none

theorem floatTexts_scientific :
    FloatTexts scientificRepr fun text ↦ readScientific text.toList where
  literal x := by
    rw [scientificRepr, String.toList_ofList]
    exact isFloatLiteral_scientific x
  value x := by
    rw [scientificRepr, String.toList_ofList]
    exact readScientific_scientific x
  native text := native_readScientific text.toList

end Json
