import Mathlib.Data.List.Basic

/-!
# Escaping text for HTML
-/

namespace Html

def escapeChar : Char → String
  | '&' => "&amp;"
  | '<' => "&lt;"
  | '>' => "&gt;"
  | '"' => "&quot;"
  | '\'' => "&#x27;"
  | c => c.toString

/-- `html.escape(text)`: the text with no character of markup left in it. -/
def escape (text : String) : String := String.join (text.toList.map escapeChar)

/-- The characters that tags and character references are made of. -/
def isMarkup (c : Char) : Bool := c == '&' || c == '<' || c == '>'

/-- `html.escape(text, quote=False)`, one character at a time. -/
def escapeMarkup : Char → List Char
  | '&' => ['&', 'a', 'm', 'p', ';']
  | '<' => ['&', 'l', 't', ';']
  | '>' => ['&', 'g', 't', ';']
  | c => [c]

theorem escapeMarkup_of_not_isMarkup {c : Char} (h : isMarkup c = false) : escapeMarkup c = [c] := by
  unfold escapeMarkup
  split <;> simp_all [isMarkup]

/-! ## Escaped text -/

/-- The characters that `html.escape` replaces. -/
def isSpecial (c : Char) : Bool := isMarkup c || c == '"' || c == '\''

theorem toList_escape (text : String) :
    (escape text).toList = text.toList.flatMap fun c ↦ (escapeChar c).toList := by
  rw [escape, String.toList_join, List.flatMap_map]

theorem escapeChar_of_not_isSpecial {c : Char} (h : isSpecial c = false) :
    escapeChar c = c.toString := by
  unfold escapeChar
  split <;> simp_all [isSpecial, isMarkup]

theorem two_le_length_escapeChar {c : Char} (h : isSpecial c = true) :
    2 ≤ (escapeChar c).toList.length := by
  simp only [isSpecial, isMarkup, Bool.or_eq_true, beq_iff_eq] at h
  rcases h with (((rfl | rfl) | rfl) | rfl) | rfl <;> decide

theorem escape_eq_self {text : String} (h : ∀ c ∈ text.toList, isSpecial c = false) :
    escape text = text := by
  have hsame : ∀ c ∈ text.toList, (escapeChar c).toList = [c] := by
    intro c hc
    rw [escapeChar_of_not_isSpecial (h c hc), Char.toString, String.toList_singleton]
  rw [← String.toList_inj, toList_escape, List.flatMap_congr hsame, List.flatMap_singleton']

/-- Every character that is replaced makes the text longer. -/
theorem length_add_countP_le_escape (text : String) :
    text.length + text.toList.countP isSpecial ≤ (escape text).length := by
  rw [← String.length_toList, ← String.length_toList, toList_escape]
  induction text.toList with
  | nil => exact Nat.le_refl 0
  | cons c cs ih =>
      rw [List.flatMap_cons, List.length_append, List.length_cons]
      by_cases hc : isSpecial c = true
      · have htwo := two_le_length_escapeChar hc
        rw [List.countP_cons_of_pos hc]
        omega
      · rw [List.countP_cons_of_neg hc, escapeChar_of_not_isSpecial (Bool.not_eq_true _ ▸ hc),
          Char.toString, String.toList_singleton, List.length_singleton]
        omega

theorem length_le_escape (text : String) : text.length ≤ (escape text).length :=
  Nat.le_trans (Nat.le_add_right _ _) (length_add_countP_le_escape text)

theorem not_isSpecial_of_length_escape {text : String} (h : (escape text).length = text.length) :
    ∀ c ∈ text.toList, isSpecial c = false := by
  have hzero : text.toList.countP isSpecial = 0 := by
    have hle := length_add_countP_le_escape text
    omega
  simpa using List.countP_eq_zero.mp hzero

theorem lt_notMem_escape (text : String) : '<' ∉ (escape text).toList := by
  rw [toList_escape, List.mem_flatMap]
  rintro ⟨c, -, hc⟩
  by_cases hspecial : isSpecial c = true
  · simp only [isSpecial, isMarkup, Bool.or_eq_true, beq_iff_eq] at hspecial
    rcases hspecial with (((rfl | rfl) | rfl) | rfl) | rfl <;> exact absurd hc (by decide)
  · rw [Bool.not_eq_true] at hspecial
    rw [escapeChar_of_not_isSpecial hspecial, Char.toString, String.toList_singleton,
      List.mem_singleton] at hc
    rw [← hc] at hspecial
    exact absurd hspecial (by decide)

/-! ## Tags -/

/-- The tags of a text, each without its brackets, and the tag that is left open at its end. -/
def readTags : Option (List Char) → List Char → List (List Char) × Option (List Char)
  | tag, [] => ([], tag)
  | none, c :: text => readTags (if c = '<' then some [] else none) text
  | some tag, c :: text =>
      if c = '>' then (tag :: (readTags none text).1, (readTags none text).2)
      else readTags (some (tag ++ [c])) text

def tags (text : String) : List (List Char) := (readTags none text.toList).1

/-- No tag is left open at the end of the text. -/
def Closed (text : String) : Prop := (readTags none text.toList).2 = none

instance (text : String) : Decidable (Closed text) := inferInstanceAs (Decidable (_ = none))

theorem readTags_append (tag : Option (List Char)) (text more : List Char) :
    readTags tag (text ++ more) = ((readTags tag text).1 ++ (readTags (readTags tag text).2 more).1,
      (readTags (readTags tag text).2 more).2) := by
  induction text generalizing tag with
  | nil => cases tag <;> simp [readTags]
  | cons c text ih =>
      cases tag with
      | none => rw [List.cons_append, readTags, readTags, ih]
      | some tag =>
          rw [List.cons_append, readTags, readTags]
          split_ifs
          · rw [ih, List.cons_append]
          · rw [ih]

theorem tags_append {text : String} (h : Closed text) (more : String) :
    tags (text ++ more) = tags text ++ tags more := by
  rw [Closed] at h
  rw [tags, String.toList_append, readTags_append, h, tags, tags]

theorem readTags_plain {text : List Char} (h : '<' ∉ text) : readTags none text = ([], none) := by
  induction text with
  | nil => rfl
  | cons c text ih =>
      rw [List.mem_cons, not_or] at h
      rw [readTags, if_neg (Ne.symm h.1), ih h.2]

theorem tags_escape (text : String) : tags (escape text) = [] := by
  rw [tags, readTags_plain (lt_notMem_escape text)]

theorem closed_escape (text : String) : Closed (escape text) := by
  rw [Closed, readTags_plain (lt_notMem_escape text)]

/-! ## Frames -/

/-- A frame with values in its gaps. -/
def fill : List String → List String → String
  | text :: frame, value :: values => text ++ value ++ fill frame values
  | frame, _ => String.join frame

theorem length_fill_le (frame values : List String) :
    (fill frame values).length ≤ (fill frame (values.map escape)).length := by
  induction frame generalizing values with
  | nil => exact Nat.le_refl _
  | cons text frame ih =>
      cases values with
      | nil => exact Nat.le_refl _
      | cons value values =>
          have hvalue := length_le_escape value
          have hvalues := ih values
          simp only [List.map_cons, fill, String.length_append]
          omega

/-- Escaping the values changes nothing exactly where there is nothing to escape. -/
theorem fill_escape_iff {frame values : List String} (h : values.length ≤ frame.length) :
    fill frame (values.map escape) = fill frame values ↔
      ∀ value ∈ values, ∀ c ∈ value.toList, isSpecial c = false := by
  constructor
  · intro hfill
    replace hfill := congrArg String.length hfill
    induction frame generalizing values with
    | nil => simp [List.eq_nil_of_length_eq_zero (Nat.le_zero.mp h)]
    | cons text frame ih =>
        cases values with
        | nil => simp
        | cons value values =>
            have hvalue := length_le_escape value
            have hvalues := length_fill_le frame values
            simp only [List.map_cons, fill, String.length_append] at hfill
            refine List.forall_mem_cons.mpr ⟨not_isSpecial_of_length_escape (by omega), ?_⟩
            exact ih (Nat.le_of_succ_le_succ h) (by omega)
  · intro hplain
    have hsame : ∀ value ∈ values, escape value = value :=
      fun value hvalue ↦ escape_eq_self (hplain value hvalue)
    rw [List.map_congr_left hsame, List.map_id']

/-- Values without tags leave those of the frame. -/
theorem tags_fill {frame values : List String} (hframe : ∀ text ∈ frame, Closed text)
    (hvalues : ∀ value ∈ values, Closed value ∧ tags value = []) :
    tags (fill frame values) = frame.flatMap tags := by
  induction frame generalizing values with
  | nil => cases values <;> rfl
  | cons text frame ih =>
      obtain ⟨htext, hframe⟩ := List.forall_mem_cons.mp hframe
      cases values with
      | nil =>
          have hrest := ih hframe (List.forall_mem_nil _)
          rw [show fill (text :: frame) [] = text ++ fill frame [] by cases frame <;> simp [fill],
            tags_append htext, hrest, List.flatMap_cons]
      | cons value values =>
          obtain ⟨hvalue, hvalues⟩ := List.forall_mem_cons.mp hvalues
          rw [fill, String.append_assoc, tags_append htext, tags_append hvalue.1, hvalue.2,
            ih hframe hvalues, List.nil_append, List.flatMap_cons]

end Html
