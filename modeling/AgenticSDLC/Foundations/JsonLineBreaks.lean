import AgenticSDLC.Foundations.JsonQuotes

/-!
# Line breaks in JSON text

`json.dumps` with `ensure_ascii=False` escapes the control characters below the space, and no
others.  Three characters at which `str.splitlines` ends a line are above it, and stand in the
text as they stand in the strings of the value.
-/

namespace Json

open Text (isLineBreak)

/-- NEXT LINE, LINE SEPARATOR and PARAGRAPH SEPARATOR. -/
def isSeparator (c : Char) : Bool := c.toNat == 0x85 || c.toNat == 0x2028 || c.toNat == 0x2029

mutual

/-- The strings of a value and the keys of its objects. -/
def strings : Json → List String
  | .str s => [s]
  | .arr items => stringsItems items
  | .obj members => stringsMembers members
  | _ => []

def stringsItems : List Json → List String
  | [] => []
  | item :: items => strings item ++ stringsItems items

def stringsMembers : List (String × Json) → List String
  | [] => []
  | (key, value) :: members => key :: (strings value ++ stringsMembers members)

end

def Separated (text : List Char) : Prop := ∃ c ∈ text, isSeparator c = true

instance (text : List Char) : Decidable (Separated text) :=
  List.decidableBEx _ text

/-! ## Characters of a class that stand in strings only -/

/-- Every character of the class stands inside of a string. -/
def Place.Within (p : Char → Bool) : Place → List Char → Prop
  | _, [] => True
  | place, c :: text => (p c = true → place = .string) ∧ Place.Within p (place.next c) text

namespace Place

variable {p : Char → Bool}

theorem within_append {place : Place} {text more : List Char} :
    place.Within p (text ++ more) ↔ place.Within p text ∧ (place.after text).Within p more := by
  induction text generalizing place with
  | nil => simp [Within, after]
  | cons c text ih => rw [List.cons_append, Within, Within, ih, and_assoc, after_cons]

theorem within_of_none {place : Place} {text : List Char} (h : ∀ c ∈ text, p c = false) :
    place.Within p text := by
  induction text generalizing place with
  | nil => trivial
  | cons c text ih =>
      refine ⟨fun hc ↦ ?_, ih fun d hd ↦ h d (List.mem_cons_of_mem c hd)⟩
      rw [h c List.mem_cons_self] at hc
      cases hc

/-- A text is cut inside of a string where it is cut before a character of the class. -/
theorem Within.after_eq {place : Place} {text rest : List Char} {c : Char}
    (h : place.Within p (text ++ c :: rest)) (hc : p c = true) : place.after text = string :=
  (within_append.mp h).2.1 hc

end Place

/-! ## The escapes -/

open Place

theorem isLineBreak_eq {c : Char} (h : 32 ≤ c.toNat) : isLineBreak c = isSeparator c := by
  have hlow : (10 ≤ c.toNat && c.toNat ≤ 13) = false := by simp; omega
  have hhigh : (28 ≤ c.toNat && c.toNat ≤ 30) = false := by simp; omega
  rw [isLineBreak, isSeparator]
  simp only [hlow, hhigh, Bool.false_or]

/-- An escape without a line break, of a character that is none. -/
structure Escapes (c : Char) : Prop where
  after : string.after (escapeChar c).toList = string
  unbroken : ∀ d ∈ (escapeChar c).toList, isLineBreak d = false
  plain : isSeparator c = false

theorem isSeparator_eq_false {c : Char} (h : c.toNat < 0x85) : isSeparator c = false := by
  simp only [isSeparator, Bool.or_eq_false_iff, beq_eq_false_iff_ne]
  omega

theorem escapes_control : ∀ n < 32, string.after (escapeChar (Char.ofNat n)).toList = string ∧
    ∀ d ∈ (escapeChar (Char.ofNat n)).toList, isLineBreak d = false := by
  have hall : ∀ n < 32, string.after (escapeChar (Char.ofNat n)).toList = string ∧
      ((escapeChar (Char.ofNat n)).toList.all fun d ↦ decide (isLineBreak d = false)) = true := by
    decide
  exact fun n hn ↦ ⟨(hall n hn).1, Text.forall_mem_of_all (hall n hn).2⟩

theorem escapeChar_of_plain {c : Char} (hquote : c ≠ '"') (hslash : c ≠ '\\') (h : 32 ≤ c.toNat) :
    (escapeChar c).toList = [c] := by
  have hne : ∀ n : ℕ, c.toNat = n → c = Char.ofNat n := by
    rintro n rfl
    exact (Char.ofNat_toNat c).symm
  unfold escapeChar
  split
  case h_8 => rw [if_neg (by omega)]; simp
  case h_1 hcode => exact absurd (hne 34 hcode) hquote
  case h_2 hcode => exact absurd (hne 92 hcode) hslash
  all_goals omega

/-- A character is escaped without a line break, or stands for itself. -/
theorem escapeChar_cases (c : Char) :
    Escapes c ∨ ((escapeChar c).toList = [c] ∧ string.next c = string ∧ 32 ≤ c.toNat) := by
  by_cases hcontrol : c.toNat < 32
  · obtain ⟨hafter, hunbroken⟩ := escapes_control c.toNat hcontrol
    rw [Char.ofNat_toNat] at hafter hunbroken
    exact Or.inl ⟨hafter, hunbroken, isSeparator_eq_false (by omega)⟩
  · by_cases hquote : c = '"'
    · rw [hquote]
      exact Or.inl ⟨by decide, Text.forall_mem_of_all (by decide), by decide⟩
    · by_cases hslash : c = '\\'
      · rw [hslash]
        exact Or.inl ⟨by decide, Text.forall_mem_of_all (by decide), by decide⟩
      · exact Or.inr ⟨escapeChar_of_plain hquote hslash (by omega), next_string hquote hslash, by omega⟩

theorem within_escapeChar (c : Char) : string.Within isLineBreak (escapeChar c).toList := by
  rcases escapeChar_cases c with h | ⟨htext, -, -⟩
  · exact within_of_none h.unbroken
  · rw [htext]
    exact ⟨fun _ ↦ rfl, trivial⟩

theorem after_escapeChar (c : Char) : string.after (escapeChar c).toList = string := by
  rcases escapeChar_cases c with h | ⟨htext, hnext, -⟩
  · exact h.after
  · rw [htext]
    exact hnext

theorem lineBreak_escapeChar (c : Char) :
    (∃ d ∈ (escapeChar c).toList, isLineBreak d = true) ↔ isSeparator c = true := by
  rcases escapeChar_cases c with h | ⟨htext, -, hcontrol⟩
  · rw [h.plain]
    constructor
    · rintro ⟨d, hd, hbreak⟩
      rw [h.unbroken d hd] at hbreak
      exact hbreak
    · intro hfalse
      cases hfalse
  · simp [htext, isLineBreak_eq hcontrol]

theorem within_body (s : String) : string.Within isLineBreak (canonicalQuoting.body s) := by
  have hchars : ∀ chars : List Char, string.Within isLineBreak
      (chars.flatMap (fun c ↦ (escapeChar c).toList) ++ ['"']) := by
    intro chars
    induction chars with
    | nil => exact ⟨fun _ ↦ rfl, trivial⟩
    | cons c chars ih =>
        rw [List.flatMap_cons, List.append_assoc, within_append, after_escapeChar]
        exact ⟨within_escapeChar c, ih⟩
  exact hchars s.toList

theorem lineBreak_body (s : String) :
    (∃ c ∈ canonicalQuoting.body s, isLineBreak c = true) ↔ Separated s.toList := by
  have hquote : isLineBreak '"' = false := by decide
  simp only [canonicalQuoting, Separated, List.mem_append, List.mem_flatMap, List.mem_singleton]
  constructor
  · rintro ⟨d, ⟨c, hc, hd⟩ | rfl, hbreak⟩
    · exact ⟨c, hc, (lineBreak_escapeChar c).mp ⟨d, hd, hbreak⟩⟩
    · rw [hquote] at hbreak
      cases hbreak
  · rintro ⟨c, hc, hseparator⟩
    obtain ⟨d, hd, hbreak⟩ := (lineBreak_escapeChar c).mpr hseparator
    exact ⟨d, Or.inl ⟨c, hc, hd⟩, hbreak⟩

theorem after_body (quoting : Quoting) (s : String) : string.after (quoting.body s) = outside := by
  have hread := quoting.readString_body s []
  exact (passes_readString hread).after

/-! ## The text of a value -/

theorem IsNumeric.unbroken {c : Char} (h : IsNumeric c) : isLineBreak c = false := by
  rcases h with hdigit | hmem
  · have hrange : 48 ≤ c.toNat ∧ c.toNat ≤ 57 := by
      rw [Char.isDigit, Bool.and_eq_true, decide_eq_true_eq, decide_eq_true_eq] at hdigit
      exact ⟨UInt32.le_iff_toNat_le.mp hdigit.1, UInt32.le_iff_toNat_le.mp hdigit.2⟩
    rw [isLineBreak_eq (by omega)]
    exact isSeparator_eq_false (by omega)
  · have hall : ∀ c ∈ ['.', 'e', 'E', '+', '-'], isLineBreak c = false :=
      Text.forall_mem_of_all (by decide)
    exact hall c hmem

theorem IsFloatLiteral.numeric {text : List Char} (h : IsFloatLiteral text) :
    ∀ c ∈ text, IsNumeric c := by
  obtain ⟨sign, whole, fraction, exponent, hsign, hwhole, hfraction, hexponent, -, rfl⟩ := h
  have hdigits : ∀ {digits : List Char}, IsDigits digits → ∀ c ∈ digits, IsNumeric c :=
    fun h c hc ↦ Or.inl (h.2 c hc)
  simp only [List.forall_mem_append]
  refine ⟨⟨⟨?_, hdigits hwhole.digits⟩, ?_⟩, ?_⟩
  · rcases hsign with rfl | rfl
    · simp
    · exact List.forall_mem_singleton.mpr (Or.inr (by simp))
  · rcases hfraction with rfl | ⟨digits, hall, rfl⟩
    · simp
    · exact List.forall_mem_cons.mpr ⟨Or.inr (by simp), hdigits hall⟩
  · rcases hexponent with rfl | ⟨mark, sign, digits, hmark, hsign, hall, rfl⟩
    · simp
    · rw [List.cons_append, List.forall_mem_cons, List.forall_mem_append]
      refine ⟨?_, ?_, hdigits hall⟩
      · rcases hmark with rfl | rfl
        · exact Or.inr (by simp)
        · exact Or.inr (by simp)
      · rcases hsign with rfl | rfl | rfl
        · simp
        · exact List.forall_mem_singleton.mpr (Or.inr (by simp))
        · exact List.forall_mem_singleton.mpr (Or.inr (by simp))

theorem unbroken_toString (n : ℤ) : ∀ c ∈ (toString n).toList, isLineBreak c = false := by
  intro c hc
  have hprintable := printable_toString n c hc
  rw [isPrintable, Bool.and_eq_true, decide_eq_true_eq, decide_eq_true_eq] at hprintable
  rw [isLineBreak_eq hprintable.1]
  exact isSeparator_eq_false (by omega)

/-- A text whose line breaks stand in strings, and come from the separators of these strings. -/
structure Carries (place : Place) (text : List Char) (strs : List String) : Prop where
  within : place.Within isLineBreak text
  broken : (∃ c ∈ text, isLineBreak c = true) ↔ ∃ s ∈ strs, Separated s.toList

namespace Carries

variable {place : Place} {text more : List Char} {strs others : List String}

theorem of_unbroken (h : ∀ c ∈ text, isLineBreak c = false) : Carries place text [] where
  within := within_of_none h
  broken := by
    simp only [List.not_mem_nil, false_and, exists_false, iff_false, not_exists, not_and]
    intro c hc
    rw [h c hc]
    exact Bool.false_ne_true

theorem append (h : Carries place text strs) (hafter : place.after text = outside)
    (hmore : Carries outside more others) : Carries place (text ++ more) (strs ++ others) where
  within := within_append.mpr ⟨h.within, hafter ▸ hmore.within⟩
  broken := by
    simp only [List.mem_append, or_and_right, exists_or]
    exact or_congr h.broken hmore.broken

theorem cons {c : Char} (hc : isLineBreak c = false) (h : Carries (place.next c) text strs) :
    Carries place (c :: text) strs where
  within := by
    refine ⟨fun hbreak ↦ ?_, h.within⟩
    rw [hc] at hbreak
    cases hbreak
  broken := by
    rw [← h.broken]
    simp [hc]

theorem body (s : String) : Carries .string (canonicalQuoting.body s) [s] where
  within := within_body s
  broken := by
    rw [lineBreak_body]
    simp

end Carries

section LaidOut

variable {repr : Json → String} {toFloat : String → Json}

theorem after_laidOut {value : Json} (h : value.Native (ReadsFloat repr toFloat)) :
    outside.after (laidOut canonicalQuoting repr .space value) = outside := by
  have hread := readValue_laidOut canonicalQuoting repr .space toFloat value value.size [] h
    (Nat.le_refl _) fun _ _ hc ↦ (by cases hc)
  exact (passes_readValue toFloat _ _ hread).after

mutual

/-- The line breaks of a text are the separators of its strings. -/
theorem carries_laidOut (hfloats : FloatTexts repr toFloat) : ∀ value : Json,
    value.Native (ReadsFloat repr toFloat) →
      Carries .outside (laidOut canonicalQuoting repr .space value) value.strings
  | .null, _ | .bool true, _ | .bool false, _ | .arr [], _ | .obj [], _ => by
      rw [laidOut]
      exact .of_unbroken (Text.forall_mem_of_all (by decide))
  | .int n, _ => by
      rw [laidOut]
      exact .of_unbroken (unbroken_toString n)
  | .float x, _ => by
      rw [laidOut]
      exact .of_unbroken fun c hc ↦ ((hfloats.literal x).numeric c hc).unbroken
  | .str s, _ => by
      rw [laidOut]
      exact (Carries.body s).cons (by decide)
  | .arr (item :: items), h => by
      rw [laidOut]
      apply Carries.cons (by decide)
      exact (carries_laidOut hfloats item h.1).append (after_laidOut h.1)
        (carries_laidOutItems hfloats items h.2)
  | .obj ((key, value) :: members), h => by
      rw [laidOut]
      apply Carries.cons (by decide)
      apply Carries.cons (by decide)
      apply (Carries.body key).append (after_body _ key)
      apply Carries.cons (by decide)
      apply Carries.cons (by decide)
      exact (carries_laidOut hfloats value h.2.1).append (after_laidOut h.2.1)
        (carries_laidOutMembers hfloats members h.2.2)

theorem carries_laidOutItems (hfloats : FloatTexts repr toFloat) : ∀ items : List Json,
    NativeItems (ReadsFloat repr toFloat) items →
      Carries .outside (laidOutItems canonicalQuoting repr .space items) (stringsItems items)
  | [], _ => by
      rw [laidOutItems]
      exact .of_unbroken (Text.forall_mem_of_all (by decide))
  | item :: items, h => by
      rw [laidOutItems]
      apply Carries.cons (by decide)
      apply Carries.cons (by decide)
      exact (carries_laidOut hfloats item h.1).append (after_laidOut h.1)
        (carries_laidOutItems hfloats items h.2)

theorem carries_laidOutMembers (hfloats : FloatTexts repr toFloat) : ∀ members : List (String × Json),
    NativeMembers (ReadsFloat repr toFloat) members →
      Carries .outside (laidOutMembers canonicalQuoting repr .space members) (stringsMembers members)
  | [], _ => by
      rw [laidOutMembers]
      exact .of_unbroken (Text.forall_mem_of_all (by decide))
  | (key, value) :: members, h => by
      rw [laidOutMembers]
      apply Carries.cons (by decide)
      apply Carries.cons (by decide)
      apply Carries.cons (by decide)
      apply (Carries.body key).append (after_body _ key)
      apply Carries.cons (by decide)
      apply Carries.cons (by decide)
      exact (carries_laidOut hfloats value h.1).append (after_laidOut h.1)
        (carries_laidOutMembers hfloats members h.2)

end

theorem getLast?_laidOutMembers (quoting : Quoting) (gap : Gap) (members : List (String × Json)) :
    (laidOutMembers quoting repr gap members).getLast? = some '\x7d' := by
  induction members with
  | nil => rfl
  | cons member members ih =>
      obtain ⟨key, value⟩ := member
      rw [laidOutMembers]
      simp [List.getLast?_append, List.getLast?_cons, ih]

/-- An object begins and ends with its braces, and has no white space to strip. -/
theorem strip_laidOut (quoting : Quoting) (gap : Gap) (members : List (String × Json)) :
    Python.strip (String.ofList (laidOut quoting repr gap (.obj members))) =
      String.ofList (laidOut quoting repr gap (.obj members)) := by
  have hends : (laidOut quoting repr gap (.obj members)).head? = some '\x7b' ∧
      (laidOut quoting repr gap (.obj members)).getLast? = some '\x7d' := by
    rcases members with _ | ⟨⟨key, value⟩, members⟩
    · exact ⟨rfl, rfl⟩
    · rw [laidOut]
      refine ⟨rfl, ?_⟩
      simp [List.getLast?_append, List.getLast?_cons, getLast?_laidOutMembers]
  have hne : laidOut quoting repr gap (.obj members) ≠ [] := by
    intro hnil
    rw [hnil] at hends
    cases hends.1
  have hbrace : ∀ c ∈ ['\x7b', '\x7d'], Python.isspace c = false :=
    Text.forall_mem_of_all (by decide)
  have htrim := Text.trimEnds_append
    (fun c hc ↦ hbrace c (by simp [← Option.some.inj (hends.1.symm.trans hc)]))
    (fun c hc ↦ hbrace c (by simp [← Option.some.inj (hends.2.symm.trans hc)])) hne
    (List.forall_mem_nil fun c ↦ Python.isspace c = true)
  rw [List.append_nil] at htrim
  rw [Python.strip, Text.trim, String.toList_ofList, htrim]

end LaidOut

end Json
