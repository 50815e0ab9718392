import AgenticSDLC.Foundations.Dict
import AgenticSDLC.Foundations.JsonAscii

/-!
# Reading JSON text

`json.loads`: white space, the escapes of strings, numbers, and objects in which the
last value of a key counts.  A text written by `asciiText` reads back as the value
it was written from, whatever follows it.  A lone surrogate and the words for
infinities and NaN stand for nothing here and are refused.
-/

namespace Json

/-! ## Strings -/

def hexDigitValue (c : Char) : Option ℕ :=
  if '0' ≤ c ∧ c ≤ '9' then some (c.toNat - 48)
  else if 'a' ≤ c ∧ c ≤ 'f' then some (c.toNat - 87)
  else if 'A' ≤ c ∧ c ≤ 'F' then some (c.toNat - 55)
  else none

def escapeValue (c : Char) : Option ℕ :=
  [('"', 34), ('\\', 92), ('/', 47), ('b', 8), ('f', 12), ('n', 10), ('r', 13),
    ('t', 9)].lookup c

/-- The code units of a string up to its closing quote, and the text after it; a
character that is not escaped stands for itself. -/
def readUnits : List Char → Option (List ℕ × List Char)
  | [] => none
  | c :: text =>
      if c = '"' then some ([], text)
      else if c = '\\' then
        match text with
        | [] => none
        | e :: text =>
            if e = 'u' then
              match text with
              | a :: b :: c :: d :: text => do
                  let a ← hexDigitValue a
                  let b ← hexDigitValue b
                  let c ← hexDigitValue c
                  let d ← hexDigitValue d
                  let (units, rest) ← readUnits text
                  return ((a * 4096 + b * 256 + c * 16 + d) :: units, rest)
              | _ => none
            else do
              let unit ← escapeValue e
              let (units, rest) ← readUnits text
              return (unit :: units, rest)
      else if c.toNat < 32 then none
      else do
        let (units, rest) ← readUnits text
        return (c.toNat :: units, rest)

def isHigh (n : ℕ) : Bool := 0xD800 ≤ n && n < 0xDC00

def isLow (n : ℕ) : Bool := 0xDC00 ≤ n && n < 0xE000

/-- The characters that code units stand for, two surrogates for one. -/
def joinUnits : List ℕ → Option (List Char)
  | [] => some []
  | n :: units =>
      if isHigh n then
        match units with
        | [] => none
        | low :: units =>
            if isLow low then do
              let chars ← joinUnits units
              return Char.ofNat (0x10000 + (n - 0xD800) * 0x400 + (low - 0xDC00)) :: chars
            else none
      else if isLow n then none
      else do
        let chars ← joinUnits units
        return Char.ofNat n :: chars

/-- A string after its opening quote. -/
def readString (text : List Char) : Option (String × List Char) := do
  let (units, rest) ← readUnits text
  let chars ← joinUnits units
  return (String.ofList chars, rest)

/-! ## Numbers -/

def fractionOf (text : List Char) : List Char :=
  let digits := text.tail.takeWhile Char.isDigit
  if text.head? = some '.' ∧ digits ≠ [] then '.' :: digits else []

def exponentOf : List Char → List Char
  | [] => []
  | e :: text =>
      let sign := if text.head? = some '+' ∨ text.head? = some '-' then text.take 1 else []
      let digits := (text.drop sign.length).takeWhile Char.isDigit
      if (e = 'e' ∨ e = 'E') ∧ digits ≠ [] then e :: sign ++ digits else []

/-- A number after its sign: digits, and a fraction and an exponent where they are.
The float that a decimal rounds to is `toFloat` of its text. -/
def readUnsigned (toFloat : String → Json) (sign text : List Char) : Option (Json × List Char) :=
  let digits := text.takeWhile Char.isDigit
  let whole := if digits.head? = some '0' then ['0'] else digits
  let fraction := fractionOf (text.drop whole.length)
  let exponent := exponentOf (text.drop (whole.length + fraction.length))
  let rest := text.drop (whole.length + fraction.length + exponent.length)
  if whole = [] then none
  else if fraction = [] ∧ exponent = [] then
    let value : ℕ := Nat.ofDigitChars 10 whole 0
    some (.int (if sign = [] then value else -value), rest)
  else some (toFloat (String.ofList (sign ++ whole ++ fraction ++ exponent)), rest)

def readNumber (toFloat : String → Json) (text : List Char) : Option (Json × List Char) :=
  if text.head? = some '-' then readUnsigned toFloat ['-'] text.tail
  else readUnsigned toFloat [] text

/-! ## Values -/

def isBlank (c : Char) : Bool := c = ' ' || c = '\t' || c = '\n' || c = '\r'

def skipBlanks (text : List Char) : List Char := text.dropWhile isBlank

/-- The text after a mark that has to come next. -/
def readMark (mark : Char) (text : List Char) : Option (List Char) :=
  match skipBlanks text with
  | [] => none
  | c :: rest => if c = mark then some rest else none

def readWord (toFloat : String → Json) (text : List Char) : Option (Json × List Char) :=
  if ['n', 'u', 'l', 'l'].isPrefixOf text then some (.null, text.drop 4)
  else if ['t', 'r', 'u', 'e'].isPrefixOf text then some (.bool true, text.drop 4)
  else if ['f', 'a', 'l', 's', 'e'].isPrefixOf text then some (.bool false, text.drop 5)
  else readNumber toFloat text

section Read

variable (toFloat : String → Json)

mutual

/-- A value and the text after it; `fuel` bounds the values it is made of. -/
def readValue : ℕ → List Char → Option (Json × List Char)
  | 0, _ => none
  | fuel + 1, text =>
      match skipBlanks text with
      | [] => none
      | c :: text =>
          if c = '"' then do
            let (s, rest) ← readString text
            return (.str s, rest)
          else if c = '[' then
            if (skipBlanks text).head? = some ']' then some (.arr [], (skipBlanks text).tail)
            else do
              let (items, rest) ← readItems fuel text
              return (.arr items, rest)
          else if c = '\x7b' then
            if (skipBlanks text).head? = some '\x7d' then some (.obj [], (skipBlanks text).tail)
            else do
              let (members, rest) ← readMembers fuel text
              return (.obj (Dict.ofItems members), rest)
          else readWord toFloat (c :: text)

/-- The items of a list that has some, up to its end. -/
def readItems : ℕ → List Char → Option (List Json × List Char)
  | 0, _ => none
  | fuel + 1, text => do
      let (item, rest) ← readValue fuel text
      match skipBlanks rest with
      | [] => none
      | c :: rest =>
          if c = ']' then some ([item], rest)
          else if c = ',' then do
            let (items, rest) ← readItems fuel rest
            return (item :: items, rest)
          else none

def readMembers : ℕ → List Char → Option (List (String × Json) × List Char)
  | 0, _ => none
  | fuel + 1, text => do
      let text ← readMark '"' text
      let (key, rest) ← readString text
      let rest ← readMark ':' rest
      let (value, rest) ← readValue fuel rest
      match skipBlanks rest with
      | [] => none
      | c :: rest =>
          if c = '\x7d' then some ([(key, value)], rest)
          else if c = ',' then do
            let (members, rest) ← readMembers fuel rest
            return ((key, value) :: members, rest)
          else none

end

/-- `json.loads`, or nothing where it raises. -/
def loads (text : String) : Option Json := do
  let (value, rest) ← readValue toFloat (text.toList.length + 1) text.toList
  if skipBlanks rest = [] then some value else none

end Read

/-! ## Reading back strings -/

theorem hexDigitValue_hexDigit : ∀ n < 16, hexDigitValue (hexDigit n) = some n := by decide

theorem toNat_ofNat {n : ℕ} (h : n < 0xD800) : (Char.ofNat n).toNat = n := by
  rw [Char.ofNat, dif_pos (Or.inl h)]
  rfl

/-- A read that goes on after one code unit. -/
def consUnit (n : ℕ) (read : List ℕ × List Char) : List ℕ × List Char := (n :: read.1, read.2)

theorem readUnits_quote (text : List Char) : readUnits ('"' :: text) = some ([], text) := by
  rw [readUnits.eq_def]
  simp only [if_pos]

theorem readUnits_char {c : Char} (hquote : c ≠ '"') (hslash : c ≠ '\\') (hprintable : 32 ≤ c.toNat)
    (text : List Char) : readUnits (c :: text) = (readUnits text).map (consUnit c.toNat) := by
  rw [readUnits.eq_def]
  simp only
  rw [if_neg hquote, if_neg hslash, if_neg (by omega)]
  cases readUnits text <;> rfl

theorem readUnits_escape {e : Char} {n : ℕ} (he : e ≠ 'u') (hvalue : escapeValue e = some n)
    (text : List Char) :
    readUnits ('\\' :: e :: text) = (readUnits text).map (consUnit n) := by
  rw [readUnits.eq_def]
  simp only
  rw [if_neg (by decide), if_pos trivial, if_neg he, hvalue]
  cases readUnits text <;> rfl

theorem readUnits_hexUnit {n : ℕ} (h : n < 65536) (text : List Char) :
    readUnits ('\\' :: 'u' :: (hexUnit n ++ text)) = (readUnits text).map (consUnit n) := by
  have hdigits : n / 4096 * 4096 + n / 256 % 16 * 256 + n / 16 % 16 * 16 + n % 16 = n := by omega
  have hfirst := hexDigitValue_hexDigit (n / 4096) (by omega)
  have hsecond := hexDigitValue_hexDigit (n / 256 % 16) (by omega)
  have hthird := hexDigitValue_hexDigit (n / 16 % 16) (by omega)
  have hfourth := hexDigitValue_hexDigit (n % 16) (by omega)
  rw [readUnits.eq_def]
  simp only [hexUnit, List.cons_append, List.nil_append]
  rw [if_neg (by decide), if_pos trivial, if_pos trivial, hfirst, hsecond, hthird, hfourth]
  simp only [Option.bind_eq_bind, Option.bind_some, hdigits]
  cases readUnits text <;> rfl

theorem readUnits_escapeUnit {n : ℕ} (h : n < 65536) (text : List Char) :
    readUnits (escapeUnit n ++ text) = (readUnits text).map (consUnit n) := by
  unfold escapeUnit
  split
  case h_8 hquote hslash _ _ _ _ _ =>
    split_ifs with hprintable
    · have hchar : (Char.ofNat n).toNat = n := toNat_ofNat (by omega)
      have hne : ∀ c : Char, n ≠ c.toNat → Char.ofNat n ≠ c := by
        rintro c hc rfl
        exact hc hchar.symm
      have hread := readUnits_char (hne '"' hquote) (hne '\\' hslash) (by omega) text
      rwa [hchar] at hread
    · exact readUnits_hexUnit h text
  all_goals exact readUnits_escape (by decide) rfl text

/-- Code units read back from their escapes. -/
theorem readUnits_escaped {units : List ℕ} (h : ∀ n ∈ units, n < 65536) (text : List Char) :
    readUnits (units.flatMap escapeUnit ++ '"' :: text) = some (units, text) := by
  induction units with
  | nil => exact readUnits_quote text
  | cons n units ih =>
      rw [List.flatMap_cons, List.append_assoc,
        readUnits_escapeUnit (h n List.mem_cons_self),
        ih fun m hm ↦ h m (List.mem_cons_of_mem n hm)]
      rfl

theorem toNat_valid (c : Char) : c.toNat < 0xD800 ∨ 0xDFFF < c.toNat ∧ c.toNat < 0x110000 :=
  c.valid

theorem utf16_lt (c : Char) : ∀ n ∈ utf16 c, n < 65536 := by
  have hvalid := toNat_valid c
  intro n hn
  unfold utf16 at hn
  split_ifs at hn
  · rw [List.mem_singleton.mp hn]
    omega
  · rcases List.mem_cons.mp hn with rfl | htail
    · omega
    · rw [List.mem_singleton.mp htail]
      omega

theorem joinUnits_utf16 (c : Char) (units : List ℕ) :
    joinUnits (utf16 c ++ units) = (joinUnits units).map (c :: ·) := by
  have hvalid := toNat_valid c
  unfold utf16
  split_ifs with hbasic
  · have hhigh : isHigh c.toNat = false := by
      simp only [isHigh, Bool.and_eq_false_iff, decide_eq_false_iff_not]
      omega
    have hlow : isLow c.toNat = false := by
      simp only [isLow, Bool.and_eq_false_iff, decide_eq_false_iff_not]
      omega
    rw [List.cons_append, List.nil_append, joinUnits.eq_def]
    simp only [hhigh, hlow, Char.ofNat_toNat]
    cases joinUnits units <;> rfl
  · have hhigh : isHigh (0xD800 + (c.toNat - 0x10000) / 0x400) = true := by
      simp only [isHigh, Bool.and_eq_true, decide_eq_true_eq]
      omega
    have hlow : isLow (0xDC00 + (c.toNat - 0x10000) % 0x400) = true := by
      simp only [isLow, Bool.and_eq_true, decide_eq_true_eq]
      omega
    have hchar : 0x10000 + (0xD800 + (c.toNat - 0x10000) / 0x400 - 0xD800) * 0x400 +
        (0xDC00 + (c.toNat - 0x10000) % 0x400 - 0xDC00) = c.toNat := by omega
    rw [List.cons_append, List.cons_append, List.nil_append, joinUnits.eq_def]
    simp only [hhigh, hlow, hchar, if_pos, Char.ofNat_toNat]
    cases joinUnits units <;> rfl

theorem joinUnits_flatMap (chars : List Char) : joinUnits (chars.flatMap utf16) = some chars := by
  induction chars with
  | nil => rfl
  | cons c chars ih => rw [List.flatMap_cons, joinUnits_utf16, ih, Option.map_some]

/-- A string reads back from its quoted text. -/
theorem readString_asciiQuote (s : String) (text : List Char) :
    readString ((s.toList.flatMap utf16).flatMap escapeUnit ++ '"' :: text) = some (s, text) := by
  have hunits : ∀ n ∈ s.toList.flatMap utf16, n < 65536 := by
    intro n hn
    obtain ⟨c, -, hc⟩ := List.mem_flatMap.mp hn
    exact utf16_lt c n hc
  rw [readString, readUnits_escaped hunits]
  simp only [Option.bind_eq_bind, Option.bind_some, joinUnits_flatMap, String.ofList_toList]
  rfl

/-! ## Reading back numbers -/

/-- No number goes on in the text. -/
def Ends (text : List Char) : Prop :=
  ∀ c, text.head? = some c → c.isDigit = false ∧ c ≠ '.' ∧ c ≠ 'e' ∧ c ≠ 'E'

theorem ends_cons {c : Char} {text : List Char}
    (h : c.isDigit = false ∧ c ≠ '.' ∧ c ≠ 'e' ∧ c ≠ 'E') : Ends (c :: text) := by
  rintro other hother
  obtain rfl := Option.some.inj hother
  exact h

theorem Ends.takeWhile {text : List Char} (h : Ends text) :
    text.takeWhile Char.isDigit = [] := by
  cases text with
  | nil => rfl
  | cons c text =>
      have hdigit := (h c rfl).1
      rw [List.takeWhile_cons, if_neg (by simp [hdigit])]

theorem Ends.fractionOf {text : List Char} (h : Ends text) : Json.fractionOf text = [] := by
  refine if_neg fun hpoint ↦ ?_
  exact (h '.' hpoint.1).2.1 rfl

theorem Ends.exponentOf {text : List Char} (h : Ends text) : Json.exponentOf text = [] := by
  cases text with
  | nil => rfl
  | cons c text =>
      refine if_neg fun hmark ↦ ?_
      rcases hmark.1 with he | he
      · exact (h c rfl).2.2.1 he
      · exact (h c rfl).2.2.2 he

/-- Only the digits of zero begin with a zero. -/
theorem eq_zero_of_head_toDigits {n : ℕ} (h : (Nat.toDigits 10 n).head? = some '0') : n = 0 := by
  induction n using Nat.strong_induction_on with
  | _ n ih =>
      by_cases hsmall : n < 10
      · have hdigit : ∀ m < 10, [Nat.digitChar m].head? = some '0' → m = 0 := by decide
        rw [Nat.toDigits_of_lt_base hsmall] at h
        exact hdigit n hsmall h
      · have hquotient : (Nat.toDigits 10 (n / 10)).head? = some '0' := by
          rw [Nat.toDigits_of_base_le (by decide) (by omega)] at h
          rwa [List.head?_append_of_ne_nil _ Nat.toDigits_ne_nil] at h
        have hzero := ih (n / 10) (by omega) hquotient
        omega

theorem readUnsigned_toDigits (toFloat : String → Json) (sign : List Char) (n : ℕ)
    {text : List Char} (h : Ends text) :
    readUnsigned toFloat sign (Nat.toDigits 10 n ++ text) =
      some (.int (if sign = [] then n else -n), text) := by
  have hdigits : (Nat.toDigits 10 n ++ text).takeWhile Char.isDigit = Nat.toDigits 10 n := by
    rw [List.takeWhile_append_of_pos fun c hc ↦
      Nat.isDigit_of_mem_toDigits (by decide) (by decide) hc, h.takeWhile, List.append_nil]
  have hwhole : (if (Nat.toDigits 10 n).head? = some '0' then ['0'] else Nat.toDigits 10 n) =
      Nat.toDigits 10 n := by
    split_ifs with hzero
    · rw [eq_zero_of_head_toDigits hzero, Nat.toDigits_zero]
    · rfl
  simp only [readUnsigned, hdigits, hwhole]
  rw [List.drop_left, h.fractionOf, List.length_nil, Nat.add_zero, List.drop_left, h.exponentOf,
    List.length_nil, Nat.add_zero, List.drop_left, if_neg Nat.toDigits_ne_nil,
    if_pos ⟨rfl, rfl⟩, Nat.ofDigitChars_ten_toDigits]

theorem readNumber_toString (toFloat : String → Json) (n : ℤ) {text : List Char} (h : Ends text) :
    readNumber toFloat ((toString n).toList ++ text) = some (.int n, text) := by
  cases n with
  | ofNat n =>
      have htext : (toString (Int.ofNat n)).toList = Nat.toDigits 10 n := Nat.toList_repr
      have hhead : (Nat.toDigits 10 n ++ text).head? ≠ some '-' := by
        rw [List.head?_append_of_ne_nil _ Nat.toDigits_ne_nil]
        intro hminus
        have hdigit := Nat.isDigit_of_mem_toDigits (by decide) (by decide)
          (List.mem_of_mem_head? hminus)
        exact absurd hdigit (by decide)
      rw [htext, readNumber, if_neg hhead, readUnsigned_toDigits toFloat [] n h]
      rfl
  | negSucc n =>
      have htext : (toString (Int.negSucc n)).toList = '-' :: Nat.toDigits 10 (n + 1) := by
        have happend : toString (Int.negSucc n) = "-" ++ toString (n + 1) := rfl
        rw [happend, String.toList_append]
        exact congrArg _ Nat.toList_repr
      rw [htext, List.cons_append, readNumber, List.head?_cons, if_pos rfl, List.tail_cons,
        readUnsigned_toDigits toFloat ['-'] (n + 1) h]
      rfl

/-! ## Reading back values -/

/-- A number's text, whatever comes after it. -/
structure ReadsNumber (toFloat : String → Json) (text : List Char) (value : Json) : Prop where
  head : ∃ c rest, text = c :: rest ∧ (c.isDigit = true ∨ c = '-')
  read : ∀ rest, Ends rest → readNumber toFloat (text ++ rest) = some (value, rest)

mutual

/-- No object has a key twice, and `P` holds of the floats. -/
def Native (P : Decimal → Prop) : Json → Prop
  | .float x => P x
  | .arr items => NativeItems P items
  | .obj members => (members.map Prod.fst).Nodup ∧ NativeMembers P members
  | _ => True

def NativeItems (P : Decimal → Prop) : List Json → Prop
  | [] => True
  | item :: items => item.Native P ∧ NativeItems P items

def NativeMembers (P : Decimal → Prop) : List (String × Json) → Prop
  | [] => True
  | (_, value) :: members => value.Native P ∧ NativeMembers P members

end

mutual

/-- No float, and no object with a key twice. -/
def Plain : Json → Prop
  | .float _ => False
  | .arr items => PlainItems items
  | .obj members => (members.map Prod.fst).Nodup ∧ PlainMembers members
  | _ => True

def PlainItems : List Json → Prop
  | [] => True
  | item :: items => item.Plain ∧ PlainItems items

def PlainMembers : List (String × Json) → Prop
  | [] => True
  | (_, value) :: members => value.Plain ∧ PlainMembers members

end

mutual

theorem Plain.native (P : Decimal → Prop) : ∀ value : Json, value.Plain → value.Native P
  | .null, _ | .bool _, _ | .int _, _ | .str _, _ => trivial
  | .float _, h => absurd h id
  | .arr items, h => PlainItems.native P items h
  | .obj members, h => ⟨h.1, PlainMembers.native P members h.2⟩

theorem PlainItems.native (P : Decimal → Prop) :
    ∀ items : List Json, PlainItems items → NativeItems P items
  | [], _ => trivial
  | item :: items, h => ⟨Plain.native P item h.1, PlainItems.native P items h.2⟩

theorem PlainMembers.native (P : Decimal → Prop) :
    ∀ members : List (String × Json), PlainMembers members → NativeMembers P members
  | [], _ => trivial
  | (_, value) :: members, h => ⟨Plain.native P value h.1, PlainMembers.native P members h.2⟩

end

mutual

/-- The fuel that reads the value. -/
def size : Json → ℕ
  | .arr items => 1 + sizeItems items
  | .obj members => 1 + sizeMembers members
  | _ => 1

def sizeItems : List Json → ℕ
  | [] => 0
  | item :: items => 1 + item.size + sizeItems items

def sizeMembers : List (String × Json) → ℕ
  | [] => 0
  | (_, value) :: members => 1 + value.size + sizeMembers members

end

def isNumber : Json → Bool
  | .int _ | .float _ => true
  | _ => false

theorem skipBlanks_cons {c : Char} (h : isBlank c = false) (text : List Char) :
    skipBlanks (c :: text) = c :: text := by
  rw [skipBlanks, List.dropWhile_cons, if_neg (by simp [h])]

theorem readMark_cons {mark : Char} (h : isBlank mark = false) (text : List Char) :
    readMark mark (mark :: text) = some text := by
  rw [readMark, skipBlanks_cons h]
  exact if_pos rfl

/-- A number begins with a digit or a sign. -/
theorem head_toString (n : ℤ) :
    ∃ c text, (toString n).toList = c :: text ∧ (c.isDigit = true ∨ c = '-') := by
  cases n with
  | ofNat n =>
      have htext : (toString (Int.ofNat n)).toList = Nat.toDigits 10 n := Nat.toList_repr
      cases hdigits : Nat.toDigits 10 n with
      | nil => exact absurd hdigits Nat.toDigits_ne_nil
      | cons c text =>
          refine ⟨c, text, htext.trans hdigits, Or.inl ?_⟩
          exact Nat.isDigit_of_mem_toDigits (by decide) (by decide) (hdigits ▸ List.mem_cons_self)
  | negSucc n =>
      have happend : toString (Int.negSucc n) = "-" ++ toString (n + 1) := rfl
      exact ⟨'-', (toString (n + 1)).toList, by rw [happend, String.toList_append]; rfl, Or.inr rfl⟩

theorem readsNumber_toString (toFloat : String → Json) (n : ℤ) :
    ReadsNumber toFloat (toString n).toList (.int n) :=
  ⟨head_toString n, fun _ hrest ↦ readNumber_toString toFloat n hrest⟩

theorem ne_of_isDigit_or_minus {c other : Char} (h : c.isDigit = true ∨ c = '-')
    (hother : other.isDigit = false ∧ other ≠ '-') : c ≠ other := by
  rintro rfl
  rcases h with hdigit | hminus
  · exact absurd (hdigit.symm.trans hother.1) (by decide)
  · exact hother.2 hminus

theorem isBlank_eq_false {c : Char} (h : c.isDigit = true ∨ c = '-') : isBlank c = false := by
  simp only [isBlank, Bool.or_eq_false_iff, decide_eq_false_iff_not]
  exact ⟨⟨⟨ne_of_isDigit_or_minus h (by decide), ne_of_isDigit_or_minus h (by decide)⟩,
    ne_of_isDigit_or_minus h (by decide)⟩, ne_of_isDigit_or_minus h (by decide)⟩

theorem ReadsNumber.readWord {toFloat : String → Json} {number : List Char} {value : Json}
    (h : ReadsNumber toFloat number value) {text : List Char} (hends : Ends text) :
    readWord toFloat (number ++ text) = some (value, text) := by
  obtain ⟨c, digits, htext, hc⟩ := h.head
  have hword : ∀ first word, first.isDigit = false ∧ first ≠ '-' →
      (first :: word).isPrefixOf (number ++ text) = false := by
    intro first word hfirst
    have hne : (first == c) = false := beq_false_of_ne (ne_of_isDigit_or_minus hc hfirst).symm
    rw [htext, List.cons_append, List.isPrefixOf, hne, Bool.false_and]
  have hnull := hword 'n' ['u', 'l', 'l'] (by decide)
  have htrue := hword 't' ['r', 'u', 'e'] (by decide)
  have hfalse := hword 'f' ['a', 'l', 's', 'e'] (by decide)
  rw [Json.readWord, if_neg (Bool.eq_false_iff.mp hnull), if_neg (Bool.eq_false_iff.mp htrue),
    if_neg (Bool.eq_false_iff.mp hfalse)]
  exact h.read text hends

/-- A number's text is read as a value of its own. -/
theorem ReadsNumber.readValue {toFloat : String → Json} {number : List Char} {value : Json}
    (h : ReadsNumber toFloat number value) (fuel : ℕ) {text : List Char} (hends : Ends text) :
    readValue toFloat (fuel + 1) (number ++ text) = some (value, text) := by
  have hread := h.readWord hends
  obtain ⟨c, digits, htext, hc⟩ := h.head
  rw [htext, List.cons_append] at hread ⊢
  rw [Json.readValue, skipBlanks_cons (isBlank_eq_false hc)]
  simp only
  rw [if_neg (ne_of_isDigit_or_minus hc (by decide)),
    if_neg (ne_of_isDigit_or_minus hc (by decide)),
    if_neg (ne_of_isDigit_or_minus hc (by decide)), hread]

/-! ## Texts that are written from the left -/

/-- A way to write strings: what comes after the opening quote, which reads back. -/
structure Quoting where
  body : String → List Char
  readString_body : ∀ s text, readString (body s ++ text) = some (s, text)

/-- What stands after each comma and colon. -/
structure Gap where
  chars : List Char
  blank : ∀ c ∈ chars, isBlank c = true

def Gap.none : Gap := ⟨[], by simp⟩

def Gap.space : Gap := ⟨[' '], List.all_eq_true.mp (by decide)⟩

section Writing

variable (quoting : Quoting) (repr : Json → String)

mutual

def written : Json → List Char
  | .null => ['n', 'u', 'l', 'l']
  | .bool true => ['t', 'r', 'u', 'e']
  | .bool false => ['f', 'a', 'l', 's', 'e']
  | .int n => (toString n).toList
  | .float x => (repr (.float x)).toList
  | .str s => '"' :: quoting.body s
  | .arr [] => ['[', ']']
  | .arr (item :: items) => '[' :: written item ++ writtenItems items
  | .obj [] => ['\x7b', '\x7d']
  | .obj ((key, value) :: members) =>
      '\x7b' :: '"' :: quoting.body key ++ ':' :: written value ++ writtenMembers members

/-- The items after the first one, and the end of their list. -/
def writtenItems : List Json → List Char
  | [] => [']']
  | item :: items => ',' :: written item ++ writtenItems items

def writtenMembers : List (String × Json) → List Char
  | [] => ['\x7d']
  | (key, value) :: members =>
      ',' :: '"' :: quoting.body key ++ ':' :: written value ++ writtenMembers members

end

variable (gap : Gap)

mutual

/-- The text with a gap after each comma and colon. -/
def laidOut : Json → List Char
  | .null => ['n', 'u', 'l', 'l']
  | .bool true => ['t', 'r', 'u', 'e']
  | .bool false => ['f', 'a', 'l', 's', 'e']
  | .int n => (toString n).toList
  | .float x => (repr (.float x)).toList
  | .str s => '"' :: quoting.body s
  | .arr [] => ['[', ']']
  | .arr (item :: items) => '[' :: (laidOut item ++ laidOutItems items)
  | .obj [] => ['\x7b', '\x7d']
  | .obj ((key, value) :: members) =>
      '\x7b' :: '"' :: (quoting.body key ++ ':' :: (gap.chars ++ (laidOut value ++ laidOutMembers members)))

def laidOutItems : List Json → List Char
  | [] => [']']
  | item :: items => ',' :: (gap.chars ++ (laidOut item ++ laidOutItems items))

def laidOutMembers : List (String × Json) → List Char
  | [] => ['\x7d']
  | (key, value) :: members =>
      ',' :: (gap.chars ++ '"' :: (quoting.body key ++
        ':' :: (gap.chars ++ (laidOut value ++ laidOutMembers members))))

end

mutual

theorem written_eq_laidOut : ∀ value : Json, written quoting repr value = laidOut quoting repr .none value
  | .null | .bool true | .bool false | .int _ | .float _ | .str _ | .arr [] | .obj [] => rfl
  | .arr (item :: items) => by
      rw [written, laidOut, written_eq_laidOut item, writtenItems_eq_laidOut items, List.cons_append]
  | .obj ((key, value) :: members) => by
      rw [written, laidOut, written_eq_laidOut value, writtenMembers_eq_laidOut members]
      simp [Gap.none]

theorem writtenItems_eq_laidOut : ∀ items : List Json,
    writtenItems quoting repr items = laidOutItems quoting repr .none items
  | [] => rfl
  | item :: items => by
      rw [writtenItems, laidOutItems, written_eq_laidOut item, writtenItems_eq_laidOut items]
      simp [Gap.none]

theorem writtenMembers_eq_laidOut : ∀ members : List (String × Json),
    writtenMembers quoting repr members = laidOutMembers quoting repr .none members
  | [] => rfl
  | (key, value) :: members => by
      rw [writtenMembers, laidOutMembers, written_eq_laidOut value,
        writtenMembers_eq_laidOut members]
      simp [Gap.none]

end

variable (toFloat : String → Json)

/-- The text of a float reads back. -/
def ReadsFloat (x : Decimal) : Prop := ReadsNumber toFloat (repr (.float x)).toList (.float x)

/-- The text of a value begins with a character of its own. -/
theorem head_laidOut {value : Json} (h : value.Native (ReadsFloat repr toFloat)) :
    ∃ c text, laidOut quoting repr gap value = c :: text ∧ isBlank c = false ∧ c ≠ ']' := by
  cases value with
  | null => exact ⟨_, _, rfl, by decide, by decide⟩
  | bool b => cases b <;> exact ⟨_, _, rfl, by decide, by decide⟩
  | int n =>
      obtain ⟨c, text, htext, hc⟩ := head_toString n
      exact ⟨c, text, htext, isBlank_eq_false hc, ne_of_isDigit_or_minus hc (by decide)⟩
  | float x =>
      obtain ⟨c, text, htext, hc⟩ := h.head
      exact ⟨c, text, htext, isBlank_eq_false hc, ne_of_isDigit_or_minus hc (by decide)⟩
  | str s => exact ⟨_, _, rfl, by decide, by decide⟩
  | arr items => cases items <;> exact ⟨_, _, rfl, by decide, by decide⟩
  | obj members =>
      cases members <;> exact ⟨_, _, by rw [laidOut], by decide, by decide⟩

theorem ends_laidOutItems (items : List Json) (text : List Char) :
    Ends (laidOutItems quoting repr gap items ++ text) := by
  cases items <;> exact ends_cons (by decide)

theorem ends_laidOutMembers (members : List (String × Json)) (text : List Char) :
    Ends (laidOutMembers quoting repr gap members ++ text) := by
  rcases members with _ | ⟨⟨key, value⟩, members⟩ <;> exact ends_cons (by decide)

theorem skipBlanks_gap (text : List Char) : skipBlanks (gap.chars ++ text) = skipBlanks text :=
  List.dropWhile_append_of_pos gap.blank

theorem readMark_gap (mark : Char) (text : List Char) :
    readMark mark (gap.chars ++ text) = readMark mark text := by
  rw [readMark, readMark, skipBlanks_gap]

theorem readValue_gap (fuel : ℕ) (text : List Char) :
    readValue toFloat fuel (gap.chars ++ text) = readValue toFloat fuel text := by
  cases fuel with
  | zero => rw [readValue, readValue]
  | succ fuel => rw [readValue, readValue, skipBlanks_gap]

theorem readItems_gap (fuel : ℕ) (text : List Char) :
    readItems toFloat fuel (gap.chars ++ text) = readItems toFloat fuel text := by
  cases fuel with
  | zero => rw [readItems, readItems]
  | succ fuel => rw [readItems, readItems, readValue_gap]

theorem readMembers_gap (fuel : ℕ) (text : List Char) :
    readMembers toFloat fuel (gap.chars ++ text) = readMembers toFloat fuel text := by
  cases fuel with
  | zero => rw [readMembers, readMembers]
  | succ fuel => rw [readMembers, readMembers, readMark_gap]

mutual

/-- A value reads back from its text, whatever comes after it. -/
theorem readValue_laidOut : ∀ (value : Json) (fuel : ℕ) (text : List Char),
    value.Native (ReadsFloat repr toFloat) → value.size ≤ fuel →
      (value.isNumber = true → Ends text) →
        readValue toFloat fuel (laidOut quoting repr gap value ++ text) = some (value, text)
  | value, 0, _, _, hfuel, _ => by cases value <;> simp [size] at hfuel
  | .null, fuel + 1, text, _, _, _ => by
      rw [laidOut, readValue, List.cons_append, skipBlanks_cons (by decide)]
      rfl
  | .bool true, fuel + 1, text, _, _, _ => by
      rw [laidOut, readValue, List.cons_append, skipBlanks_cons (by decide)]
      rfl
  | .bool false, fuel + 1, text, _, _, _ => by
      rw [laidOut, readValue, List.cons_append, skipBlanks_cons (by decide)]
      rfl
  | .int n, fuel + 1, _, _, _, hends => by
      rw [laidOut]
      exact (readsNumber_toString toFloat n).readValue fuel (hends rfl)
  | .float x, fuel + 1, _, hfloat, _, hends => by
      rw [laidOut]
      exact ReadsNumber.readValue hfloat fuel (hends rfl)
  | .str s, fuel + 1, text, _, _, _ => by
      rw [laidOut, List.cons_append, readValue, skipBlanks_cons (by decide)]
      simp only [if_pos, quoting.readString_body]
      rfl
  | .arr [], fuel + 1, text, _, _, _ => by
      rw [laidOut, readValue, List.cons_append, skipBlanks_cons (by decide)]
      rfl
  | .arr (item :: items), fuel + 1, text, hnative, hfuel, _ => by
      obtain ⟨hitem, hitems⟩ := hnative
      have hsize : 1 + item.size + sizeItems items ≤ fuel := by
        rw [size, sizeItems] at hfuel
        omega
      have hread := readItems_laidOut item items fuel text hitem hitems hsize
      have hhead : (skipBlanks (laidOut quoting repr gap item ++
          (laidOutItems quoting repr gap items ++ text))).head? ≠ some ']' := by
        obtain ⟨c, rest, htext, hblank, hne⟩ := head_laidOut quoting repr gap toFloat hitem
        rw [htext, List.cons_append, skipBlanks_cons hblank]
        simpa using hne
      rw [laidOut, List.cons_append, List.append_assoc, readValue, skipBlanks_cons (by decide)]
      simp only
      rw [if_neg (by decide), if_pos trivial, if_neg hhead, hread]
      rfl
  | .obj [], fuel + 1, text, _, _, _ => by
      rw [laidOut, readValue, List.cons_append, skipBlanks_cons (by decide)]
      rfl
  | .obj ((key, value) :: members), fuel + 1, text, hnative, hfuel, _ => by
      obtain ⟨hnodup, hvalue, hmembers⟩ := hnative
      have hsize : 1 + value.size + sizeMembers members ≤ fuel := by
        rw [size, sizeMembers] at hfuel
        omega
      have hread := readMembers_laidOut key value members fuel text hvalue hmembers hsize
      have hhead : (skipBlanks ('"' :: (quoting.body key ++ ':' :: (gap.chars ++
          (laidOut quoting repr gap value ++ (laidOutMembers quoting repr gap members ++
            text)))))).head? ≠ some '\x7d' := by
        rw [skipBlanks_cons (by decide)]
        simp
      have htext : laidOut quoting repr gap (.obj ((key, value) :: members)) ++ text =
          '\x7b' :: '"' :: (quoting.body key ++ ':' :: (gap.chars ++ (laidOut quoting repr gap value ++
            (laidOutMembers quoting repr gap members ++ text)))) := by
        simp [laidOut]
      rw [htext, readValue, skipBlanks_cons (by decide)]
      simp only
      rw [if_neg (by decide), if_neg (by decide), if_pos trivial, if_neg hhead, hread]
      simp only [Option.bind_eq_bind, Option.bind_some, Dict.ofItems_of_nodup hnodup]
      rfl

theorem readItems_laidOut : ∀ (item : Json) (items : List Json) (fuel : ℕ) (text : List Char),
    item.Native (ReadsFloat repr toFloat) → NativeItems (ReadsFloat repr toFloat) items →
      1 + item.size + sizeItems items ≤ fuel →
        readItems toFloat fuel
            (laidOut quoting repr gap item ++ (laidOutItems quoting repr gap items ++ text)) =
          some (item :: items, text)
  | _, _, 0, _, _, _, hfuel => by omega
  | item, [], fuel + 1, text, hitem, _, hfuel => by
      have hread := readValue_laidOut item fuel (laidOutItems quoting repr gap [] ++ text) hitem
        (by omega) fun _ ↦ ends_laidOutItems quoting repr gap [] text
      rw [readItems, hread, laidOutItems, List.cons_append, List.nil_append]
      simp only [Option.bind_eq_bind, Option.bind_some]
      rfl
  | item, next :: items, fuel + 1, text, hitem, hitems, hfuel => by
      have hread := readValue_laidOut item fuel
        (laidOutItems quoting repr gap (next :: items) ++ text)
        hitem (by omega) fun _ ↦ ends_laidOutItems quoting repr gap (next :: items) text
      have hrest := readItems_laidOut next items fuel text hitems.1 hitems.2 (by
        rw [sizeItems] at hfuel
        omega)
      rw [readItems, hread, laidOutItems, List.cons_append, List.append_assoc, List.append_assoc]
      simp only [Option.bind_eq_bind, Option.bind_some]
      rw [skipBlanks_cons (by decide)]
      simp only
      rw [if_neg (by decide), if_pos trivial, readItems_gap gap toFloat, hrest]
      rfl

theorem readMembers_laidOut : ∀ (key : String) (value : Json) (members : List (String × Json))
    (fuel : ℕ) (text : List Char), value.Native (ReadsFloat repr toFloat) →
      NativeMembers (ReadsFloat repr toFloat) members →
        1 + value.size + sizeMembers members ≤ fuel →
          readMembers toFloat fuel ('"' :: (quoting.body key ++ ':' :: (gap.chars ++
              (laidOut quoting repr gap value ++
                (laidOutMembers quoting repr gap members ++ text))))) =
            some ((key, value) :: members, text)
  | _, _, _, 0, _, _, _, hfuel => by omega
  | key, value, [], fuel + 1, text, hvalue, _, hfuel => by
      have hread := readValue_laidOut value fuel (laidOutMembers quoting repr gap [] ++ text) hvalue
        (by omega) fun _ ↦ ends_laidOutMembers quoting repr gap [] text
      rw [readMembers, readMark_cons (by decide)]
      simp only [Option.bind_eq_bind, Option.bind_some, quoting.readString_body]
      rw [readMark_cons (by decide)]
      simp only [Option.bind_some, readValue_gap gap toFloat, hread]
      rw [laidOutMembers, List.cons_append, List.nil_append, skipBlanks_cons (by decide)]
      rfl
  | key, value, (next, other) :: members, fuel + 1, text, hvalue, hmembers, hfuel => by
      have hread := readValue_laidOut value fuel
        (laidOutMembers quoting repr gap ((next, other) :: members) ++ text) hvalue (by omega)
        fun _ ↦ ends_laidOutMembers quoting repr gap ((next, other) :: members) text
      have hrest := readMembers_laidOut next other members fuel text hmembers.1 hmembers.2 (by
        rw [sizeMembers] at hfuel
        omega)
      have htext : laidOutMembers quoting repr gap ((next, other) :: members) ++ text =
          ',' :: (gap.chars ++ '"' :: (quoting.body next ++ ':' :: (gap.chars ++
            (laidOut quoting repr gap other ++
              (laidOutMembers quoting repr gap members ++ text))))) := by
        simp [laidOutMembers]
      rw [readMembers, readMark_cons (by decide)]
      simp only [Option.bind_eq_bind, Option.bind_some, quoting.readString_body]
      rw [readMark_cons (by decide)]
      simp only [Option.bind_some, readValue_gap gap toFloat, hread]
      rw [htext, skipBlanks_cons (by decide)]
      simp only
      rw [if_neg (by decide), if_pos trivial, readMembers_gap gap toFloat, hrest]
      rfl

end

mutual

theorem size_le_length : ∀ value : Json, value.Native (ReadsFloat repr toFloat) →
    value.size ≤ (laidOut quoting repr gap value).length
  | .null, _ | .bool true, _ | .bool false, _ | .arr [], _ | .obj [], _ => by
      simp [size, sizeItems, sizeMembers, laidOut]
  | .int n, _ => by
      obtain ⟨c, digits, htext, -⟩ := head_toString n
      rw [laidOut, htext]
      exact Nat.succ_le_succ (Nat.zero_le _)
  | .float x, h => by
      obtain ⟨c, digits, htext, -⟩ := h.head
      rw [laidOut, htext]
      exact Nat.succ_le_succ (Nat.zero_le _)
  | .str s, _ => by simp [size, laidOut]
  | .arr (item :: items), h => by
      have hitem := size_le_length item h.1
      have hitems := sizeItems_le_length items h.2
      simp only [size, sizeItems, laidOut, List.length_append, List.length_cons]
      omega
  | .obj ((key, value) :: members), h => by
      have hvalue := size_le_length value h.2.1
      have hmembers := sizeMembers_le_length members h.2.2
      simp only [size, sizeMembers, laidOut, List.length_append, List.length_cons]
      omega

theorem sizeItems_le_length : ∀ items : List Json, NativeItems (ReadsFloat repr toFloat) items →
    sizeItems items + 1 ≤ (laidOutItems quoting repr gap items).length
  | [], _ => by simp [sizeItems, laidOutItems]
  | item :: items, h => by
      have hitem := size_le_length item h.1
      have hitems := sizeItems_le_length items h.2
      simp only [sizeItems, laidOutItems, List.length_append, List.length_cons]
      omega

theorem sizeMembers_le_length : ∀ members : List (String × Json),
    NativeMembers (ReadsFloat repr toFloat) members →
      sizeMembers members + 1 ≤ (laidOutMembers quoting repr gap members).length
  | [], _ => by simp [sizeMembers, laidOutMembers]
  | (key, value) :: members, h => by
      have hvalue := size_le_length value h.1
      have hmembers := sizeMembers_le_length members h.2
      simp only [sizeMembers, laidOutMembers, List.length_append, List.length_cons]
      omega

end

theorem loads_laidOut {value : Json} (h : value.Native (ReadsFloat repr toFloat)) :
    loads toFloat (String.ofList (laidOut quoting repr gap value)) = some value := by
  have hfuel := (size_le_length quoting repr gap toFloat value h).trans (Nat.le_succ _)
  have hread := readValue_laidOut quoting repr gap toFloat value _ [] h hfuel
    fun _ _ hc ↦ (by cases hc)
  rw [List.append_nil] at hread
  rw [loads, String.toList_ofList, hread]
  rfl

/-- No two values have one text. -/
theorem laidOut_inj {value other : Json} (hvalue : value.Native (ReadsFloat repr toFloat))
    (hother : other.Native (ReadsFloat repr toFloat))
    (h : laidOut quoting repr gap value = laidOut quoting repr gap other) : value = other := by
  have hread := loads_laidOut quoting repr gap toFloat hvalue
  rw [h, loads_laidOut quoting repr gap toFloat hother] at hread
  exact (Option.some.inj hread).symm

/-- A text is a value and what comes after it in one way only. -/
theorem written_append_inj {value other : Json} (hvalue : value.Native (ReadsFloat repr toFloat))
    (hother : other.Native (ReadsFloat repr toFloat)) {text rest : List Char}
    (htext : value.isNumber = true → Ends text) (hrest : other.isNumber = true → Ends rest)
    (h : written quoting repr value ++ text = written quoting repr other ++ rest) :
    value = other ∧ text = rest := by
  have hfirst := readValue_laidOut quoting repr .none toFloat value
    (value.size + other.size) text hvalue (Nat.le_add_right _ _) htext
  have hsecond := readValue_laidOut quoting repr .none toFloat other
    (value.size + other.size) rest hother (Nat.le_add_left _ _) hrest
  rw [← written_eq_laidOut, h, written_eq_laidOut] at hfirst
  exact Prod.mk.inj (Option.some.inj (hfirst.symm.trans hsecond))

theorem loads_written {value : Json} (h : value.Native (ReadsFloat repr toFloat)) :
    loads toFloat (String.ofList (written quoting repr value)) = some value := by
  rw [written_eq_laidOut]
  exact loads_laidOut quoting repr .none toFloat h

end Writing

/-! ## The text in ASCII -/

def asciiQuoting : Quoting where
  body s := (s.toList.flatMap utf16).flatMap escapeUnit ++ ['"']
  readString_body s text := by
    rw [List.append_assoc]
    exact readString_asciiQuote s text

section RoundTrip

variable (repr : Json → String)

mutual

theorem asciiText_eq_written :
    ∀ value : Json, asciiText repr value = written asciiQuoting repr value
  | .null | .bool true | .bool false | .int _ | .float _ | .str _ | .arr [] | .obj [] => rfl
  | .arr (item :: items) => by
      rw [asciiText, written, asciiText_eq_written item, asciiItems_eq_written items]
  | .obj ((key, value) :: members) => by
      rw [asciiText, written, asciiText_eq_written value, asciiMembers_eq_written members]
      rfl

theorem asciiItems_eq_written :
    ∀ items : List Json, asciiItems repr items = writtenItems asciiQuoting repr items
  | [] => rfl
  | item :: items => by
      rw [asciiItems, writtenItems, asciiText_eq_written item, asciiItems_eq_written items]

theorem asciiMembers_eq_written : ∀ members : List (String × Json),
    asciiMembers repr members = writtenMembers asciiQuoting repr members
  | [] => rfl
  | (key, value) :: members => by
      rw [asciiMembers, writtenMembers, asciiText_eq_written value, asciiMembers_eq_written members]
      rfl

end

theorem asciiText_append_inj {value other : Json} (hvalue : value.Plain) (hother : other.Plain)
    {text rest : List Char} (htext : ∀ n, value = .int n → Ends text)
    (hrest : ∀ n, other = .int n → Ends rest)
    (h : asciiText repr value ++ text = asciiText repr other ++ rest) :
    value = other ∧ text = rest := by
  have hends : ∀ {value : Json} {text : List Char}, value.Plain →
      (∀ n, value = .int n → Ends text) → value.isNumber = true → Ends text := by
    intro value text hplain hint hnumber
    cases value with
    | int n => exact hint n rfl
    | float x => exact absurd hplain id
    | _ => cases hnumber
  rw [asciiText_eq_written, asciiText_eq_written] at h
  exact written_append_inj asciiQuoting repr Json.str (hvalue.native _) (hother.native _)
    (hends hvalue htext) (hends hother hrest) h

theorem loads_asciiText (toFloat : String → Json) {value : Json} (h : value.Plain) :
    loads toFloat (String.ofList (asciiText repr value)) = some value := by
  rw [asciiText_eq_written]
  exact loads_written asciiQuoting repr toFloat (h.native _)

/-- `json.loads(json.dumps(value))`, for a plain value whose keys are in order. -/
theorem loads_asciiDumps (toFloat : String → Json) {value : Json} (h : value.sortKeys.Plain) :
    loads toFloat (asciiDumps repr value) = some value.sortKeys :=
  loads_asciiText repr toFloat h

end RoundTrip

/-! ## The text as one line -/

def isPrintable (c : Char) : Bool := 32 ≤ c.toNat && c.toNat ≤ 126

theorem printable_toDigits {n : ℕ} : ∀ c ∈ Nat.toDigits 10 n, isPrintable c = true := by
  intro c hc
  have hdigit := Nat.isDigit_of_mem_toDigits (by decide) (by decide) hc
  simp only [Char.isDigit, Bool.and_eq_true, decide_eq_true_eq, ge_iff_le, UInt32.le_iff_toNat_le]
    at hdigit
  simp only [isPrintable, Bool.and_eq_true, decide_eq_true_eq]
  exact ⟨Nat.le_trans (by decide) hdigit.1, Nat.le_trans hdigit.2 (by decide)⟩

theorem printable_toString (n : ℤ) : ∀ c ∈ (toString n).toList, isPrintable c = true := by
  cases n with
  | ofNat n =>
      have htext : (toString (Int.ofNat n)).toList = Nat.toDigits 10 n := Nat.toList_repr
      rw [htext]
      exact printable_toDigits
  | negSucc n =>
      have htext : (toString (Int.negSucc n)).toList = '-' :: Nat.toDigits 10 (n + 1) := by
        rw [← Nat.toList_repr]
        exact String.toList_append
      rw [htext]
      intro c hc
      rcases List.mem_cons.mp hc with rfl | hdigit
      · decide
      · exact printable_toDigits c hdigit

theorem printable_escapeUnit {n : ℕ} (h : n < 65536) :
    ∀ c ∈ escapeUnit n, isPrintable c = true := by
  have hdigit : ∀ m < 16, isPrintable (hexDigit m) = true := by decide
  have hfirst := hdigit (n / 4096) (by omega)
  have hsecond := hdigit (n / 256 % 16) (by omega)
  have hthird := hdigit (n / 16 % 16) (by omega)
  have hfourth := hdigit (n % 16) (by omega)
  unfold escapeUnit
  split
  case h_8 =>
    split_ifs with hprintable
    · have hchar : (Char.ofNat n).toNat = n := toNat_ofNat (by omega)
      simp [isPrintable, hchar, hprintable]
    · have hmarks : isPrintable '\\' = true ∧ isPrintable 'u' = true := by decide
      simp [hexUnit, hmarks, hfirst, hsecond, hthird, hfourth]
  all_goals exact List.all_eq_true.mp (by decide)

theorem printable_asciiQuote (s : String) : ∀ c ∈ asciiQuote s, isPrintable c = true := by
  intro c hc
  simp only [asciiQuote, List.cons_append, List.mem_cons, List.mem_append, List.mem_flatMap,
    List.not_mem_nil, or_false] at hc
  rcases hc with rfl | ⟨n, ⟨d, -, hn⟩, hc⟩ | rfl
  · decide
  · exact printable_escapeUnit (utf16_lt d n hn) c hc
  · decide

section Line

variable (repr : Json → String)

theorem printable_cons_append {mark : Char} {text rest : List Char} (hmark : isPrintable mark = true)
    (htext : ∀ c ∈ text, isPrintable c = true) (hrest : ∀ c ∈ rest, isPrintable c = true) :
    ∀ c ∈ mark :: text ++ rest, isPrintable c = true := by
  intro c hc
  rcases List.mem_append.mp hc with hfront | hback
  · rcases List.mem_cons.mp hfront with rfl | hmem
    · exact hmark
    · exact htext c hmem
  · exact hrest c hback

mutual

theorem printable_asciiText : ∀ value : Json, value.Plain →
    ∀ c ∈ asciiText repr value, isPrintable c = true
  | .null, _ | .bool true, _ | .bool false, _ | .arr [], _ | .obj [], _ => by
      simp only [asciiText]
      exact List.all_eq_true.mp (by decide)
  | .int n, _ => printable_toString n
  | .float _, h => absurd h id
  | .str s, _ => printable_asciiQuote s
  | .arr (item :: items), h => by
      rw [asciiText]
      exact printable_cons_append (by decide) (printable_asciiText item h.1)
        (printable_asciiItems items h.2)
  | .obj ((key, value) :: members), h => by
      have hcolon : isPrintable ':' = true := by decide
      have hvalue := printable_cons_append hcolon (printable_asciiText value h.2.1)
        (printable_asciiMembers members h.2.2)
      rw [asciiText, List.append_assoc]
      exact printable_cons_append (by decide) (printable_asciiQuote key) hvalue

theorem printable_asciiItems : ∀ items : List Json, PlainItems items →
    ∀ c ∈ asciiItems repr items, isPrintable c = true
  | [], _ => by
      simp only [asciiItems]
      exact List.all_eq_true.mp (by decide)
  | item :: items, h => by
      rw [asciiItems]
      exact printable_cons_append (by decide) (printable_asciiText item h.1)
        (printable_asciiItems items h.2)

theorem printable_asciiMembers : ∀ members : List (String × Json), PlainMembers members →
    ∀ c ∈ asciiMembers repr members, isPrintable c = true
  | [], _ => by
      simp only [asciiMembers]
      exact List.all_eq_true.mp (by decide)
  | (key, value) :: members, h => by
      have hcolon : isPrintable ':' = true := by decide
      have hvalue := printable_cons_append hcolon (printable_asciiText value h.1)
        (printable_asciiMembers members h.2)
      rw [asciiMembers, List.append_assoc]
      exact printable_cons_append (by decide) (printable_asciiQuote key) hvalue

end

theorem getLast?_asciiMembers (members : List (String × Json)) :
    (asciiMembers repr members).getLast? = some '\x7d' := by
  induction members with
  | nil => rfl
  | cons member members ih =>
      obtain ⟨key, value⟩ := member
      rw [asciiMembers, List.getLast?_append, ih, Option.some_or]

/-- An object ends with its closing brace. -/
theorem getLast?_asciiText_obj (members : List (String × Json)) :
    (asciiText repr (.obj members)).getLast? = some '\x7d' := by
  rcases members with _ | ⟨⟨key, value⟩, members⟩
  · rfl
  · rw [asciiText, List.getLast?_append, getLast?_asciiMembers, Option.some_or]

end Line

end Json
