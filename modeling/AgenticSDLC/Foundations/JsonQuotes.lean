import AgenticSDLC.Foundations.JsonFloats
import AgenticSDLC.Foundations.Lines

/-!
# The quotes of JSON text

A reader from the left is outside of every string, in one, or behind a backslash in one.
A text that reads as a value ends outside, and so a text that is cut inside of a string is
no value.
-/

namespace Json

/-- Where the next character of a text stands. -/
inductive Place where
  | outside
  | string
  | escape
  deriving DecidableEq

namespace Place

def next : Place → Char → Place
  | .outside, c => if c = '"' then .string else .outside
  | .string, c => if c = '"' then .outside else if c = '\\' then .escape else .string
  | .escape, _ => .string

def after (place : Place) (text : List Char) : Place := text.foldl next place

theorem after_cons (place : Place) (c : Char) (text : List Char) :
    place.after (c :: text) = (place.next c).after text := rfl

theorem after_append (place : Place) (text more : List Char) :
    place.after (text ++ more) = (place.after text).after more :=
  List.foldl_append

theorem next_outside {c : Char} (h : c ≠ '"') : outside.next c = outside := if_neg h

theorem next_string {c : Char} (hquote : c ≠ '"') (hslash : c ≠ '\\') : string.next c = string := by
  rw [next, if_neg hquote, if_neg hslash]

theorem after_outside {text : List Char} (h : ∀ c ∈ text, c ≠ '"') : outside.after text = outside := by
  induction text with
  | nil => rfl
  | cons c text ih =>
      rw [after_cons, next_outside (h c List.mem_cons_self)]
      exact ih fun d hd ↦ h d (List.mem_cons_of_mem c hd)

/-- The characters between a text and its rest lead out of every string. -/
def Passes (place : Place) (text rest : List Char) : Prop :=
  ∃ used, text = used ++ rest ∧ place.after used = outside

variable {place : Place} {text middle rest : List Char}

theorem Passes.refl (text : List Char) : Passes outside text text := ⟨[], rfl, rfl⟩

theorem Passes.trans (h : Passes place text middle) (hrest : Passes outside middle rest) :
    Passes place text rest := by
  obtain ⟨used, rfl, hused⟩ := h
  obtain ⟨more, rfl, hmore⟩ := hrest
  exact ⟨used ++ more, (List.append_assoc _ _ _).symm, by rw [after_append, hused, hmore]⟩

theorem Passes.cons {c : Char} (h : Passes (place.next c) text rest) :
    Passes place (c :: text) rest := by
  obtain ⟨used, rfl, hused⟩ := h
  exact ⟨c :: used, rfl, hused⟩

theorem Passes.of_not_quote {c : Char} (hc : c ≠ '"') (h : Passes outside text rest) :
    Passes outside (c :: text) rest := by
  apply Passes.cons
  rwa [next_outside hc]

theorem Passes.after (h : Passes place (text ++ rest) rest) : place.after text = outside := by
  obtain ⟨used, heq, hused⟩ := h
  rwa [List.append_cancel_right heq]

theorem passes_of_start {used : List Char} (hused : used <+: text) (hquote : ∀ c ∈ used, c ≠ '"') :
    Passes outside text (text.drop used.length) := by
  obtain ⟨rest, rfl⟩ := hused
  rw [List.drop_left]
  exact ⟨used, rfl, after_outside hquote⟩

theorem passes_skipBlanks (text : List Char) : Passes outside text (skipBlanks text) := by
  refine ⟨text.takeWhile isBlank, List.takeWhile_append_dropWhile.symm, after_outside ?_⟩
  intro c hc
  have hblank := List.mem_takeWhile_imp hc
  rintro rfl
  exact absurd hblank (by decide)

end Place

/-! ## Texts that are read -/

open Place

theorem hexDigitValue_quote : hexDigitValue '"' = none := by decide

theorem hexDigitValue_slash : hexDigitValue '\\' = none := by decide

theorem next_hexDigit {c : Char} {n : ℕ} (h : hexDigitValue c = some n) :
    Place.string.next c = .string := by
  apply next_string
  · rintro rfl
    rw [hexDigitValue_quote] at h
    cases h
  · rintro rfl
    rw [hexDigitValue_slash] at h
    cases h

theorem passes_readUnits {text rest : List Char} {units : List ℕ}
    (h : readUnits text = some (units, rest)) : Passes .string text rest := by
  induction text using readUnits.induct generalizing units with
  | case1 => cases h
  | case2 text =>
      rw [readUnits_quote] at h
      cases h
      exact Passes.cons (Passes.refl _)
  | case3 => cases h
  | case4 a b c d text _ ih =>
      rw [readUnits, if_neg (by decide), if_pos rfl, if_pos rfl] at h
      obtain ⟨_, ha, h⟩ := Option.bind_eq_some_iff.mp h
      obtain ⟨_, hb, h⟩ := Option.bind_eq_some_iff.mp h
      obtain ⟨_, hc, h⟩ := Option.bind_eq_some_iff.mp h
      obtain ⟨_, hd, h⟩ := Option.bind_eq_some_iff.mp h
      obtain ⟨⟨read, after⟩, hread, heq⟩ := Option.bind_eq_some_iff.mp h
      cases heq
      have hafter : Place.string.after [a, b, c, d] = .string := by
        rw [after_cons, next_hexDigit ha, after_cons, next_hexDigit hb, after_cons, next_hexDigit hc,
          after_cons, next_hexDigit hd]
        rfl
      obtain ⟨used, rfl, hused⟩ := ih hread
      refine ⟨'\\' :: 'u' :: ([a, b, c, d] ++ used), rfl, ?_⟩
      rw [after_cons, after_cons, after_append]
      change (Place.string.after [a, b, c, d]).after used = _
      rw [hafter, hused]
  | case5 text hshort =>
      rw [readUnits, if_neg (by decide), if_pos rfl, if_pos rfl] at h
      · cases h
      · exact hshort
  | case6 e text he _ ih =>
      rw [readUnits.eq_def] at h
      simp only [if_neg he, Char.reduceEq, if_true, if_false] at h
      obtain ⟨_, -, h⟩ := Option.bind_eq_some_iff.mp h
      obtain ⟨⟨read, after⟩, hread, heq⟩ := Option.bind_eq_some_iff.mp h
      cases heq
      exact Passes.cons (Passes.cons (ih hread))
  | case7 c text hquote hslash hcontrol =>
      rw [readUnits.eq_def] at h
      simp only [if_neg hquote, if_neg hslash, if_pos hcontrol] at h
      cases h
  | case8 c text hquote hslash hcontrol ih =>
      rw [readUnits_char hquote hslash (Nat.le_of_not_lt hcontrol)] at h
      obtain ⟨⟨read, after⟩, hread, heq⟩ := Option.map_eq_some_iff.mp h
      cases heq
      apply Passes.cons
      rw [next_string hquote hslash]
      exact ih hread

theorem passes_readString {text rest : List Char} {s : String}
    (h : readString text = some (s, rest)) : Passes .string text rest := by
  obtain ⟨⟨units, after⟩, hunits, h⟩ := Option.bind_eq_some_iff.mp h
  obtain ⟨chars, -, heq⟩ := Option.bind_eq_some_iff.mp h
  cases heq
  exact passes_readUnits hunits

/-! ### Numbers -/

theorem prefix_fractionOf (text : List Char) : fractionOf text <+: text := by
  rw [fractionOf]
  split_ifs with hpoint
  · cases text with
    | nil => cases hpoint.1
    | cons c text =>
        obtain rfl := Option.some.inj hpoint.1
        exact (List.prefix_cons_inj _).mpr (List.takeWhile_prefix _)
  · exact List.nil_prefix

theorem prefix_exponentOf (text : List Char) : exponentOf text <+: text := by
  cases text with
  | nil => exact List.nil_prefix
  | cons e text =>
      rw [exponentOf]
      generalize hsign : (if text.head? = some '+' ∨ text.head? = some '-' then text.take 1
        else []) = sign
      have hprefix : sign <+: text := by
        rw [← hsign]
        split_ifs
        · exact List.take_prefix 1 text
        · exact List.nil_prefix
      obtain ⟨more, rfl⟩ := hprefix
      simp only [List.drop_left]
      split_ifs
      · rw [List.cons_append, List.prefix_cons_inj, List.prefix_append_right_inj]
        exact List.takeWhile_prefix _
      · exact List.nil_prefix

/-- A digit or another character of a number. -/
def IsNumeric (c : Char) : Prop := c.isDigit = true ∨ c ∈ ['.', 'e', 'E', '+', '-']

theorem IsNumeric.ne_quote {c : Char} (h : IsNumeric c) : c ≠ '"' := by
  rintro rfl
  revert h
  simp [IsNumeric]

theorem numeric_takeWhile (text : List Char) : ∀ c ∈ text.takeWhile Char.isDigit, IsNumeric c :=
  fun _ hc ↦ Or.inl (List.mem_takeWhile_imp hc)

theorem numeric_fractionOf (text : List Char) : ∀ c ∈ fractionOf text, IsNumeric c := by
  rw [fractionOf]
  split_ifs
  · exact List.forall_mem_cons.mpr ⟨Or.inr (by simp), numeric_takeWhile _⟩
  · simp

theorem numeric_exponentOf (text : List Char) : ∀ c ∈ exponentOf text, IsNumeric c := by
  cases text with
  | nil => simp [exponentOf]
  | cons e text =>
      rw [exponentOf]
      generalize hsign : (if text.head? = some '+' ∨ text.head? = some '-' then text.take 1
        else []) = sign
      have hnumeric : ∀ c ∈ sign, IsNumeric c := by
        rw [← hsign]
        split_ifs with hhead
        · intro c hc
          cases text with
          | nil => cases hc
          | cons d text =>
              obtain rfl := List.mem_singleton.mp hc
              rcases hhead with hhead | hhead
              · obtain rfl := Option.some.inj hhead
                exact Or.inr (by simp)
              · obtain rfl := Option.some.inj hhead
                exact Or.inr (by simp)
        · simp
      split_ifs with hmark
      · rw [List.cons_append, List.forall_mem_cons, List.forall_mem_append]
        refine ⟨?_, hnumeric, numeric_takeWhile _⟩
        rcases hmark.1 with rfl | rfl
        · exact Or.inr (by simp)
        · exact Or.inr (by simp)
      · simp

theorem passes_numeric {text used : List Char} (hused : used <+: text)
    (hnumeric : ∀ c ∈ used, IsNumeric c) : Passes .outside text (text.drop used.length) :=
  passes_of_start hused fun c hc ↦ (hnumeric c hc).ne_quote

theorem passes_readUnsigned {toFloat : String → Json} {sign text rest : List Char} {value : Json}
    (h : readUnsigned toFloat sign text = some (value, rest)) : Passes .outside text rest := by
  simp only [readUnsigned] at h
  generalize hwhole : (if (text.takeWhile Char.isDigit).head? = some '0' then ['0']
    else text.takeWhile Char.isDigit) = whole at h
  have hdigits : whole <+: text ∧ ∀ c ∈ whole, IsNumeric c := by
    rw [← hwhole]
    split_ifs with hzero
    · refine ⟨?_, List.forall_mem_singleton.mpr (Or.inl rfl)⟩
      apply List.IsPrefix.trans _ (List.takeWhile_prefix Char.isDigit)
      obtain ⟨others, hothers⟩ := List.head?_eq_some_iff.mp hzero
      exact ⟨others, hothers.symm⟩
    · exact ⟨List.takeWhile_prefix _, numeric_takeWhile text⟩
  have hpasses : ∀ text, Passes .outside text (text.drop ((fractionOf text).length +
      (exponentOf (text.drop (fractionOf text).length)).length)) := by
    intro text
    rw [← List.drop_drop]
    exact (passes_numeric (prefix_fractionOf text) (numeric_fractionOf text)).trans
      (passes_numeric (prefix_exponentOf _) (numeric_exponentOf _))
  have hnumber := (passes_numeric hdigits.1 hdigits.2).trans (hpasses _)
  rw [List.drop_drop, List.drop_drop, ← Nat.add_assoc] at hnumber
  split at h
  · cases h
  · split at h
    · cases h
      exact hnumber
    · cases h
      exact hnumber

theorem passes_drop {text word : List Char} (h : word.isPrefixOf text = true)
    (hquote : ∀ c ∈ word, c ≠ '"') : Passes .outside text (text.drop word.length) :=
  passes_of_start (List.isPrefixOf_iff_prefix.mp h) hquote

theorem passes_readWord {toFloat : String → Json} {text rest : List Char} {value : Json}
    (h : readWord toFloat text = some (value, rest)) : Passes .outside text rest := by
  rw [readWord] at h
  split_ifs at h with hnull htrue hfalse
  · cases h
    exact passes_drop hnull (Text.forall_mem_of_all (by decide))
  · cases h
    exact passes_drop htrue (Text.forall_mem_of_all (by decide))
  · cases h
    exact passes_drop hfalse (Text.forall_mem_of_all (by decide))
  · rw [readNumber] at h
    split_ifs at h with hminus
    · cases text with
      | nil => cases hminus
      | cons c text =>
          obtain rfl := Option.some.inj hminus
          exact (passes_readUnsigned h).of_not_quote (by decide)
    · exact passes_readUnsigned h

theorem passes_skipped {c : Char} {text rest : List Char} (h : skipBlanks text = c :: rest)
    (hc : c ≠ '"') : Passes .outside text rest := by
  apply (passes_skipBlanks text).trans
  rw [h]
  exact (Passes.refl rest).of_not_quote hc

theorem passes_end {mark : Char} {text : List Char} (h : (skipBlanks text).head? = some mark)
    (hmark : mark ≠ '"') : Passes .outside text (skipBlanks text).tail := by
  obtain ⟨rest, hrest⟩ := List.head?_eq_some_iff.mp h
  rw [hrest, List.tail_cons]
  exact passes_skipped hrest hmark

theorem skipBlanks_of_readMark {mark : Char} {text rest : List Char}
    (h : readMark mark text = some rest) : skipBlanks text = mark :: rest := by
  rw [readMark] at h
  split at h
  · cases h
  · next c after hskip =>
    split_ifs at h with hc
    rw [hskip, hc, Option.some.inj h]

mutual

/-- What is read of a text leads out of every string. -/
theorem passes_readValue (toFloat : String → Json) : ∀ (fuel : ℕ) (text : List Char) {value : Json}
    {rest : List Char}, readValue toFloat fuel text = some (value, rest) → Passes .outside text rest
  | 0, _, _, _, h => by cases h
  | fuel + 1, text, value, rest, h => by
      rw [readValue] at h
      split at h
      · cases h
      · next c text' hskip =>
        split_ifs at h with hquote harray hend hobject hend
        · obtain ⟨⟨s, after⟩, hs, heq⟩ := Option.bind_eq_some_iff.mp h
          cases heq
          apply (passes_skipBlanks text).trans
          rw [hskip, hquote]
          exact Passes.cons (passes_readString hs)
        · cases h
          exact (passes_skipped hskip hquote).trans (passes_end hend (by decide))
        · obtain ⟨⟨items, after⟩, hitems, heq⟩ := Option.bind_eq_some_iff.mp h
          cases heq
          exact (passes_skipped hskip hquote).trans (passes_readItems toFloat fuel _ hitems)
        · cases h
          exact (passes_skipped hskip hquote).trans (passes_end hend (by decide))
        · obtain ⟨⟨members, after⟩, hmembers, heq⟩ := Option.bind_eq_some_iff.mp h
          cases heq
          exact (passes_skipped hskip hquote).trans (passes_readMembers toFloat fuel _ hmembers)
        · apply (passes_skipBlanks text).trans
          rw [hskip]
          exact passes_readWord h

theorem passes_readItems (toFloat : String → Json) : ∀ (fuel : ℕ) (text : List Char)
    {items : List Json} {rest : List Char},
    readItems toFloat fuel text = some (items, rest) → Passes .outside text rest
  | 0, _, _, _, h => by cases h
  | fuel + 1, text, items, rest, h => by
      rw [readItems] at h
      obtain ⟨⟨item, after⟩, hitem, hafter⟩ := Option.bind_eq_some_iff.mp h
      apply (passes_readValue toFloat fuel text hitem).trans
      simp only at hafter
      split at hafter
      · cases hafter
      · next c after' hskip =>
        split_ifs at hafter with hend hcomma
        · cases hafter
          exact passes_skipped hskip (by rw [hend]; decide)
        · obtain ⟨⟨others, last⟩, hothers, heq⟩ := Option.bind_eq_some_iff.mp hafter
          cases heq
          exact (passes_skipped hskip (by rw [hcomma]; decide)).trans
            (passes_readItems toFloat fuel _ hothers)

theorem passes_readMembers (toFloat : String → Json) : ∀ (fuel : ℕ) (text : List Char)
    {members : List (String × Json)} {rest : List Char},
    readMembers toFloat fuel text = some (members, rest) → Passes .outside text rest
  | 0, _, _, _, h => by cases h
  | fuel + 1, text, members, rest, h => by
      rw [readMembers] at h
      obtain ⟨afterQuote, hopen, h⟩ := Option.bind_eq_some_iff.mp h
      obtain ⟨⟨key, afterKey⟩, hkey, h⟩ := Option.bind_eq_some_iff.mp h
      obtain ⟨afterColon, hcolon, h⟩ := Option.bind_eq_some_iff.mp h
      obtain ⟨⟨value, after⟩, hvalue, hafter⟩ := Option.bind_eq_some_iff.mp h
      have hmember : Passes .outside text after := by
        apply (passes_skipBlanks text).trans
        rw [skipBlanks_of_readMark hopen]
        apply Passes.cons
        apply (passes_readString hkey).trans
        exact (passes_skipped (skipBlanks_of_readMark hcolon) (by decide)).trans
          (passes_readValue toFloat fuel afterColon hvalue)
      apply hmember.trans
      simp only at hafter
      split at hafter
      · cases hafter
      · next c after' hskip =>
        split_ifs at hafter with hend hcomma
        · cases hafter
          exact passes_skipped hskip (by rw [hend]; decide)
        · obtain ⟨⟨others, last⟩, hothers, heq⟩ := Option.bind_eq_some_iff.mp hafter
          cases heq
          exact (passes_skipped hskip (by rw [hcomma]; decide)).trans
            (passes_readMembers toFloat fuel _ hothers)

end

/-- A text that is a value ends outside of its strings. -/
theorem after_of_loads {toFloat : String → Json} {text : String} {value : Json}
    (h : loads toFloat text = some value) : Place.outside.after text.toList = .outside := by
  obtain ⟨⟨read, rest⟩, hread, hvalue⟩ := Option.bind_eq_some_iff.mp h
  simp only at hvalue
  split_ifs at hvalue with hblank
  have hpasses := (passes_readValue toFloat _ _ hread).trans (passes_skipBlanks rest)
  rw [hblank, ← List.append_nil text.toList] at hpasses
  exact hpasses.after

end Json
