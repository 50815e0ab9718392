import AgenticSDLC.Foundations.JsonLineBreaks

/-!
# Colons in compact JSON text

In the text of an object without gaps two colons never come together outside a string.  So a
text that ends in `::` and an object's text does so in one way only, whatever it begins with.
-/

namespace Json

/-- Where a scan of compact text stands; `stuck` is where no text of a value leads. -/
inductive Mark where
  | outside
  | colon
  | string
  | escape
  | stuck
  deriving DecidableEq

namespace Mark

def next : Mark → Char → Mark
  | outside, c =>
      if c = '"' then string else if c = '\\' then stuck else if c = ':' then colon else outside
  | colon, c =>
      if c = '"' then string else if c = '\\' ∨ c = ':' then stuck else outside
  | string, c => if c = '"' then outside else if c = '\\' then escape else string
  | escape, c => if c = ':' then stuck else string
  | stuck, _ => stuck

def after (mark : Mark) (text : List Char) : Mark := text.foldl next mark

@[simp] theorem after_nil (mark : Mark) : mark.after [] = mark := rfl

@[simp] theorem after_cons (mark : Mark) (c : Char) (text : List Char) :
    mark.after (c :: text) = (mark.next c).after text := rfl

@[simp] theorem after_append (mark : Mark) (text more : List Char) :
    mark.after (text ++ more) = (mark.after text).after more :=
  List.foldl_append

@[simp] theorem after_stuck (text : List Char) : stuck.after text = stuck := by
  induction text with
  | nil => rfl
  | cons c text ih => exact ih

/-- Outside of strings, after a colon or not. -/
def IsOutside (mark : Mark) : Prop := mark = outside ∨ mark = colon

theorem next_plain {mark : Mark} (h : mark.IsOutside) {c : Char} (hquote : c ≠ '"')
    (hslash : c ≠ '\\') (hcolon : c ≠ ':') : mark.next c = outside := by
  rcases h with rfl | rfl
  · rw [next, if_neg hquote, if_neg hslash, if_neg hcolon]
  · rw [next, if_neg hquote, if_neg (by simp [hslash, hcolon])]

theorem next_quote {mark : Mark} (h : mark.IsOutside) : mark.next '"' = string := by
  rcases h with rfl | rfl <;> rfl

/-- Two scans of a text, one of them inside a string where the other one is outside. -/
def Opposed (mark other : Mark) : Prop :=
  mark.IsOutside ∧ other = string ∨ mark = string ∧ other.IsOutside

/-- Opposed scans stay so, or one of them is stuck. -/
theorem Opposed.next {mark other : Mark} (h : Opposed mark other) (c : Char) :
    Opposed (mark.next c) (other.next c) ∨ mark.next c = stuck ∨ other.next c = stuck := by
  rcases h with ⟨rfl | rfl, rfl⟩ | ⟨rfl, rfl | rfl⟩ <;>
    simp only [Mark.next, Opposed, IsOutside] <;> split_ifs <;> simp_all

theorem Opposed.after {mark other : Mark} (h : Opposed mark other) (text : List Char) :
    Opposed (mark.after text) (other.after text) ∨ mark.after text = stuck ∨
      other.after text = stuck := by
  induction text generalizing mark other with
  | nil => exact Or.inl h
  | cons c text ih =>
      rcases h.next c with hnext | hstuck | hstuck
      · exact ih hnext
      · exact Or.inr (Or.inl (by rw [after_cons, hstuck, after_stuck]))
      · exact Or.inr (Or.inr (by rw [after_cons, hstuck, after_stuck]))

/-- After two colons a scan is stuck, or inside a string. -/
theorem after_colons (mark : Mark) : mark.after [':', ':'] = stuck ∨ mark.after [':', ':'] = string := by
  cases mark <;> decide

/-! ## Texts -/

def IsPlain (c : Char) : Prop := c ≠ '"' ∧ c ≠ '\\' ∧ c ≠ ':'

instance : DecidablePred IsPlain :=
  fun c ↦ inferInstanceAs (Decidable (c ≠ '"' ∧ c ≠ '\\' ∧ c ≠ ':'))

theorem after_plain {mark : Mark} (h : mark.IsOutside) {text : List Char} (hne : text ≠ [])
    (hplain : ∀ c ∈ text, IsPlain c) : mark.after text = outside := by
  induction text generalizing mark with
  | nil => exact absurd rfl hne
  | cons c text ih =>
      obtain ⟨⟨hquote, hslash, hcolon⟩, hrest⟩ := List.forall_mem_cons.mp hplain
      rw [after_cons, next_plain h hquote hslash hcolon]
      cases text with
      | nil => rfl
      | cons d text => exact ih (Or.inl rfl) (List.cons_ne_nil d text) hrest

theorem after_escapeChar (c : Char) : string.after (escapeChar c).toList = string := by
  have hcontrol : ∀ n < 32, string.after (escapeChar (Char.ofNat n)).toList = string := by decide
  by_cases hcode : c.toNat < 32
  · have h := hcontrol c.toNat hcode
    rwa [Char.ofNat_toNat] at h
  · by_cases hquote : c = '"'
    · rw [hquote]
      decide
    · by_cases hslash : c = '\\'
      · rw [hslash]
        decide
      · rw [escapeChar_of_plain hquote hslash (by omega), after_cons, after_nil, next, if_neg hquote,
          if_neg hslash]

theorem after_body (s : String) : string.after (canonicalQuoting.body s) = outside := by
  have hchars : ∀ chars : List Char,
      string.after (chars.flatMap (fun c ↦ (escapeChar c).toList) ++ ['"']) = outside := by
    intro chars
    induction chars with
    | nil => rfl
    | cons c chars ih => rw [List.flatMap_cons, List.append_assoc, after_append, after_escapeChar, ih]
  exact hchars s.toList

end Mark

theorem IsNumeric.isPlain {c : Char} (h : IsNumeric c) : Mark.IsPlain c := by
  rcases h with hdigit | hmem
  · refine ⟨?_, ?_, ?_⟩ <;>
      · rintro rfl
        exact absurd hdigit (by decide)
  · have hall : ∀ c ∈ ['.', 'e', 'E', '+', '-'], c ≠ '"' ∧ c ≠ '\\' ∧ c ≠ ':' := by simp
    exact hall c hmem

theorem isPlain_toString (n : ℤ) : ∀ c ∈ (toString n).toList, Mark.IsPlain c := by
  have hdigits : ∀ n, ∀ c ∈ Nat.toDigits 10 n, Mark.IsPlain c := fun n c hc ↦
    IsNumeric.isPlain (Or.inl (Nat.isDigit_of_mem_toDigits (by decide) (by decide) hc))
  cases n with
  | ofNat n =>
      have htext : (toString (Int.ofNat n)).toList = Nat.toDigits 10 n := Nat.toList_repr
      rw [htext]
      exact hdigits n
  | negSucc n =>
      have htext : (toString (Int.negSucc n)).toList = '-' :: Nat.toDigits 10 (n + 1) := by
        rw [← Nat.toList_repr]
        exact String.toList_append
      rw [htext]
      exact List.forall_mem_cons.mpr ⟨by decide, hdigits (n + 1)⟩

section Compact

open Mark (outside string stuck)

variable {repr : Json → String} {toFloat : String → Json}

mutual

/-- The text of a value is passed from outside to outside. -/
theorem after_written (hfloats : FloatTexts repr toFloat) : ∀ (value : Json) {mark : Mark}, mark.IsOutside →
    mark.after (written canonicalQuoting repr value) = outside
  | .null, mark, h | .bool true, mark, h | .bool false, mark, h | .arr [], mark, h
  | .obj [], mark, h => by
      rw [written]
      exact Mark.after_plain h (by simp) (by simp [Mark.IsPlain])
  | .int n, mark, h => by
      obtain ⟨c, text, htext, -⟩ := head_toString n
      have hne : (toString n).toList ≠ [] := by
        rw [htext]
        exact List.cons_ne_nil c text
      rw [written]
      exact Mark.after_plain h hne (isPlain_toString n)
  | .float x, mark, h => by
      have hliteral := hfloats.literal x
      obtain ⟨c, text, htext, -⟩ := (hfloats.readsFloat x).head
      rw [written]
      exact Mark.after_plain h (by simp [htext]) fun c hc ↦ (hliteral.numeric c hc).isPlain
  | .str s, mark, h => by
      rw [written, Mark.after_cons, Mark.next_quote h, Mark.after_body]
  | .arr (item :: items), mark, h => by
      rw [written, List.cons_append, Mark.after_cons,
        Mark.next_plain h (by decide) (by decide) (by decide), Mark.after_append,
        after_written hfloats item (Or.inl rfl), after_writtenItems hfloats items]
  | .obj ((key, value) :: members), mark, h => by
      have hcolon : outside.next ':' = .colon := rfl
      rw [written]
      simp only [List.cons_append, Mark.after_cons, Mark.after_append]
      rw [Mark.next_plain h (by decide) (by decide) (by decide), Mark.next_quote (Or.inl rfl),
        Mark.after_body, hcolon, after_written hfloats value (Or.inr rfl), after_writtenMembers hfloats members]

theorem after_writtenItems (hfloats : FloatTexts repr toFloat) : ∀ items : List Json,
    outside.after (writtenItems canonicalQuoting repr items) = outside
  | [] => rfl
  | item :: items => by
      rw [writtenItems, List.cons_append, Mark.after_cons, Mark.after_append]
      have hcomma : outside.next ',' = outside := rfl
      rw [hcomma, after_written hfloats item (Or.inl rfl), after_writtenItems hfloats items]

theorem after_writtenMembers (hfloats : FloatTexts repr toFloat) : ∀ members : List (String × Json),
    outside.after (writtenMembers canonicalQuoting repr members) = outside
  | [] => rfl
  | (key, value) :: members => by
      have hcomma : (outside.next ',').next '"' = string := rfl
      have hcolon : outside.next ':' = .colon := rfl
      rw [writtenMembers]
      simp only [List.cons_append, Mark.after_cons, Mark.after_append]
      rw [hcomma, Mark.after_body, hcolon, after_written hfloats value (Or.inr rfl), after_writtenMembers hfloats members]

end

/-- The text of no value ends in two colons and the text of another one. -/
theorem written_ne_colons (hfloats : FloatTexts repr toFloat) (value other : Json)
    (front : List Char) :
    written canonicalQuoting repr value ≠
      front ++ [':', ':'] ++ written canonicalQuoting repr other := by
  intro htext
  have houtside : Mark.IsOutside outside := Or.inl rfl
  have hvalue := after_written hfloats value houtside
  have hother := after_written hfloats other houtside
  rw [htext, Mark.after_append, Mark.after_append] at hvalue
  rcases Mark.after_colons (outside.after front) with hstuck | hstring
  · rw [hstuck, Mark.after_stuck] at hvalue
    cases hvalue
  · rw [hstring] at hvalue
    have hopposed := Mark.Opposed.after (Or.inl ⟨Or.inl rfl, rfl⟩ : Mark.Opposed outside string)
      (written canonicalQuoting repr other)
    rw [hvalue, hother] at hopposed
    revert hopposed
    simp [Mark.Opposed, Mark.IsOutside]

theorem head?_written_obj (repr : Json → String) (members : List (String × Json)) :
    (written canonicalQuoting repr (.obj members)).head? = some '\x7b' := by
  cases members <;> rw [written] <;> rfl

/-- What stands before the two colons and an object is determined by the whole text. -/
theorem append_colons_inj (hfloats : FloatTexts repr toFloat) {front front' : List Char}
    {members members' : List (String × Json)}
    (h : front ++ ([':', ':'] ++ written canonicalQuoting repr (.obj members)) =
      front' ++ ([':', ':'] ++ written canonicalQuoting repr (.obj members'))) :
    front = front' ∧ written canonicalQuoting repr (.obj members) =
      written canonicalQuoting repr (.obj members') := by
  have hsplit : ∀ (gap : List Char) (members members' : List (String × Json)),
      [':', ':'] ++ written canonicalQuoting repr (.obj members) =
        gap ++ ([':', ':'] ++ written canonicalQuoting repr (.obj members')) → gap = [] := by
    intro gap members members' hgap
    match gap with
    | [] => rfl
    | [c] =>
        have hhead := head?_written_obj repr members
        simp only [List.cons_append, List.nil_append, List.cons.injEq] at hgap
        rw [hgap.2.2] at hhead
        cases hhead
    | c :: d :: gap =>
        simp only [List.cons_append, List.nil_append, List.cons.injEq] at hgap
        refine absurd ?_ (written_ne_colons hfloats (.obj members) (.obj members') gap)
        rw [hgap.2.2, List.append_assoc]
        rfl
  rcases List.append_eq_append_iff.mp h with ⟨gap, hfront, hrest⟩ | ⟨gap, hfront, hrest⟩
  · obtain rfl := hsplit gap _ _ hrest
    exact ⟨by simp [hfront], List.append_cancel_left hrest⟩
  · obtain rfl := hsplit gap _ _ hrest
    exact ⟨by simp [hfront], (List.append_cancel_left hrest).symm⟩

end Compact

end Json
