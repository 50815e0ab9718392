import AgenticSDLC.Foundations.JsonLineBreaks

/-!
# Layouts of JSON text

`json.dumps` puts blanks around the parts of a list or an object, which depend on how deep it
lies.  Whatever the layout is, the text reads back, and what all its pieces have in common
holds of the whole.
-/

namespace Json

/-- The blanks inside a list or an object of each depth: after its bracket, after a comma,
after a colon and before the end. -/
structure Layout where
  opening : ℕ → Gap
  comma : ℕ → Gap
  colon : Gap
  closing : ℕ → Gap

/-- One gap after each comma and colon. -/
def Layout.flat (gap : Gap) : Layout where
  opening _ := .none
  comma _ := gap
  colon := gap
  closing _ := .none

/-- A new line that begins with so many spaces. -/
def Gap.newline (spaces : ℕ) : Gap where
  chars := '\n' :: List.replicate spaces ' '
  blank c hc := by
    rcases List.mem_cons.mp hc with rfl | hspace
    · rfl
    · rw [List.eq_of_mem_replicate hspace]
      rfl

/-- `json.dumps(value, indent=width)`. -/
def Layout.indented (width : ℕ) : Layout where
  opening depth := .newline (width * (depth + 1))
  comma depth := .newline (width * (depth + 1))
  colon := .space
  closing depth := .newline (width * depth)

section Arranged

variable (quoting : Quoting) (repr : Json → String) (layout : Layout)

mutual

/-- The text of a value that lies so deep. -/
def arranged : ℕ → Json → List Char
  | _, .null => ['n', 'u', 'l', 'l']
  | _, .bool true => ['t', 'r', 'u', 'e']
  | _, .bool false => ['f', 'a', 'l', 's', 'e']
  | _, .int n => (toString n).toList
  | _, .float x => (repr (.float x)).toList
  | _, .str s => '"' :: quoting.body s
  | _, .arr [] => ['[', ']']
  | depth, .arr (item :: items) =>
      '[' :: ((layout.opening depth).chars ++
        (arranged (depth + 1) item ++ arrangedItems depth items))
  | _, .obj [] => ['\x7b', '\x7d']
  | depth, .obj ((key, value) :: members) =>
      '\x7b' :: ((layout.opening depth).chars ++ '"' :: (quoting.body key ++
        ':' :: (layout.colon.chars ++
          (arranged (depth + 1) value ++ arrangedMembers depth members))))

/-- The items after the first one, and the end of their list. -/
def arrangedItems : ℕ → List Json → List Char
  | depth, [] => (layout.closing depth).chars ++ [']']
  | depth, item :: items =>
      ',' :: ((layout.comma depth).chars ++
        (arranged (depth + 1) item ++ arrangedItems depth items))

def arrangedMembers : ℕ → List (String × Json) → List Char
  | depth, [] => (layout.closing depth).chars ++ ['\x7d']
  | depth, (key, value) :: members =>
      ',' :: ((layout.comma depth).chars ++ '"' :: (quoting.body key ++
        ':' :: (layout.colon.chars ++
          (arranged (depth + 1) value ++ arrangedMembers depth members))))

end

/-! ## Flat texts -/

mutual

theorem arranged_flat (gap : Gap) : ∀ (depth : ℕ) (value : Json),
    arranged quoting repr (.flat gap) depth value = laidOut quoting repr gap value
  | _, .null | _, .bool true | _, .bool false | _, .int _ | _, .float _ | _, .str _ | _, .arr []
  | _, .obj [] => by rw [arranged, laidOut]
  | depth, .arr (item :: items) => by
      rw [arranged, laidOut, arranged_flat gap (depth + 1) item, arrangedItems_flat gap depth items]
      rfl
  | depth, .obj ((key, value) :: members) => by
      rw [arranged, laidOut, arranged_flat gap (depth + 1) value,
        arrangedMembers_flat gap depth members]
      rfl

theorem arrangedItems_flat (gap : Gap) : ∀ (depth : ℕ) (items : List Json),
    arrangedItems quoting repr (.flat gap) depth items = laidOutItems quoting repr gap items
  | _, [] => by
      rw [arrangedItems, laidOutItems]
      rfl
  | depth, item :: items => by
      rw [arrangedItems, laidOutItems, arranged_flat gap (depth + 1) item,
        arrangedItems_flat gap depth items]
      rfl

theorem arrangedMembers_flat (gap : Gap) : ∀ (depth : ℕ) (members : List (String × Json)),
    arrangedMembers quoting repr (.flat gap) depth members = laidOutMembers quoting repr gap members
  | _, [] => by
      rw [arrangedMembers, laidOutMembers]
      rfl
  | depth, (key, value) :: members => by
      rw [arrangedMembers, laidOutMembers, arranged_flat gap (depth + 1) value,
        arrangedMembers_flat gap depth members]
      rfl

end

/-! ## Reading back -/

section Reading

variable {repr} {toFloat : String → Json}

/-- The text of a value begins with a character of its own. -/
theorem head_arranged {value : Json} (h : value.Native (ReadsFloat repr toFloat)) (depth : ℕ) :
    ∃ c text, arranged quoting repr layout depth value = c :: text ∧ isBlank c = false ∧
      c ≠ ']' := by
  cases value with
  | null => exact ⟨_, _, rfl, by decide, by decide⟩
  | bool b => cases b <;> exact ⟨_, _, rfl, by decide, by decide⟩
  | int n =>
      obtain ⟨c, text, htext, hc⟩ := head_toString n
      exact ⟨c, text, htext, isBlank_eq_false hc, ne_of_isDigit_or_minus hc (by decide)⟩
  | float x =>
      obtain ⟨c, text, htext, hc⟩ := h.head
      exact ⟨c, text, htext, isBlank_eq_false hc, ne_of_isDigit_or_minus hc (by decide)⟩
  | str s => exact ⟨_, _, rfl, by decide, by decide⟩
  | arr items => cases items <;> exact ⟨_, _, rfl, by decide, by decide⟩
  | obj members => cases members <;> exact ⟨_, _, by rw [arranged], by decide, by decide⟩

/-- A number ends where a blank comes. -/
theorem ends_gap (gap : Gap) {text : List Char} (h : Ends text) : Ends (gap.chars ++ text) := by
  obtain ⟨chars, hblank⟩ := gap
  cases chars with
  | nil => exact h
  | cons c chars =>
      have hc : ∀ c, isBlank c = true → c.isDigit = false ∧ c ≠ '.' ∧ c ≠ 'e' ∧ c ≠ 'E' := by
        intro c hc
        simp only [isBlank, Bool.or_eq_true, decide_eq_true_eq] at hc
        rcases hc with ((rfl | rfl) | rfl) | rfl <;> decide
      exact ends_cons (hc c (hblank c List.mem_cons_self))

theorem ends_arrangedItems (depth : ℕ) (items : List Json) (text : List Char) :
    Ends (arrangedItems quoting repr layout depth items ++ text) := by
  cases items with
  | nil =>
      rw [arrangedItems, List.append_assoc]
      exact ends_gap _ (ends_cons (by decide))
  | cons item items => exact ends_cons (by decide)

theorem ends_arrangedMembers (depth : ℕ) (members : List (String × Json)) (text : List Char) :
    Ends (arrangedMembers quoting repr layout depth members ++ text) := by
  rcases members with _ | ⟨⟨key, value⟩, members⟩
  · rw [arrangedMembers, List.append_assoc]
    exact ends_gap _ (ends_cons (by decide))
  · exact ends_cons (by decide)

mutual

/-- A value reads back from its text, whatever comes after it. -/
theorem readValue_arranged : ∀ (value : Json) (depth fuel : ℕ) (text : List Char),
    value.Native (ReadsFloat repr toFloat) → value.size ≤ fuel →
      (value.isNumber = true → Ends text) →
        readValue toFloat fuel (arranged quoting repr layout depth value ++ text) =
          some (value, text)
  | value, _, 0, _, _, hfuel, _ => by cases value <;> simp [size] at hfuel
  | .null, _, fuel + 1, text, _, _, _ => by
      rw [arranged, readValue, List.cons_append, skipBlanks_cons (by decide)]
      rfl
  | .bool true, _, fuel + 1, text, _, _, _ => by
      rw [arranged, readValue, List.cons_append, skipBlanks_cons (by decide)]
      rfl
  | .bool false, _, fuel + 1, text, _, _, _ => by
      rw [arranged, readValue, List.cons_append, skipBlanks_cons (by decide)]
      rfl
  | .int n, _, fuel + 1, _, _, _, hends => by
      rw [arranged]
      exact (readsNumber_toString toFloat n).readValue fuel (hends rfl)
  | .float x, _, fuel + 1, _, hfloat, _, hends => by
      rw [arranged]
      exact ReadsNumber.readValue hfloat fuel (hends rfl)
  | .str s, _, fuel + 1, text, _, _, _ => by
      rw [arranged, List.cons_append, readValue, skipBlanks_cons (by decide)]
      simp only [if_pos, quoting.readString_body]
      rfl
  | .arr [], _, fuel + 1, text, _, _, _ => by
      rw [arranged, readValue, List.cons_append, skipBlanks_cons (by decide)]
      rfl
  | .arr (item :: items), depth, fuel + 1, text, hnative, hfuel, _ => by
      obtain ⟨hitem, hitems⟩ := hnative
      have hsize : 1 + item.size + sizeItems items ≤ fuel := by
        rw [size, sizeItems] at hfuel
        omega
      have hread := readItems_arranged item items depth fuel text hitem hitems hsize
      have hhead : (skipBlanks ((layout.opening depth).chars ++
          (arranged quoting repr layout (depth + 1) item ++
            (arrangedItems quoting repr layout depth items ++ text)))).head? ≠ some ']' := by
        obtain ⟨c, rest, htext, hblank, hne⟩ := head_arranged quoting layout hitem (depth + 1)
        rw [skipBlanks_gap, htext, List.cons_append, skipBlanks_cons hblank]
        simpa using hne
      rw [arranged, List.cons_append, List.append_assoc, List.append_assoc, readValue,
        skipBlanks_cons (by decide)]
      simp only
      rw [if_neg (by decide), if_pos trivial, if_neg hhead, readItems_gap, hread]
      rfl
  | .obj [], _, fuel + 1, text, _, _, _ => by
      rw [arranged, readValue, List.cons_append, skipBlanks_cons (by decide)]
      rfl
  | .obj ((key, value) :: members), depth, fuel + 1, text, hnative, hfuel, _ => by
      obtain ⟨hnodup, hvalue, hmembers⟩ := hnative
      have hsize : 1 + value.size + sizeMembers members ≤ fuel := by
        rw [size, sizeMembers] at hfuel
        omega
      have hread := readMembers_arranged key value members depth fuel text hvalue hmembers hsize
      have hhead : (skipBlanks ((layout.opening depth).chars ++ '"' :: (quoting.body key ++
          ':' :: (layout.colon.chars ++ (arranged quoting repr layout (depth + 1) value ++
            (arrangedMembers quoting repr layout depth members ++ text)))))).head? ≠
              some '\x7d' := by
        rw [skipBlanks_gap, skipBlanks_cons (by decide)]
        simp
      have htext : arranged quoting repr layout depth (.obj ((key, value) :: members)) ++ text =
          '\x7b' :: ((layout.opening depth).chars ++ '"' :: (quoting.body key ++
            ':' :: (layout.colon.chars ++ (arranged quoting repr layout (depth + 1) value ++
              (arrangedMembers quoting repr layout depth members ++ text))))) := by
        simp [arranged]
      rw [htext, readValue, skipBlanks_cons (by decide)]
      simp only
      rw [if_neg (by decide), if_neg (by decide), if_pos trivial, if_neg hhead, readMembers_gap,
        hread]
      simp only [Option.bind_eq_bind, Option.bind_some, Dict.ofItems_of_nodup hnodup]
      rfl

theorem readItems_arranged : ∀ (item : Json) (items : List Json) (depth fuel : ℕ)
    (text : List Char), item.Native (ReadsFloat repr toFloat) →
      NativeItems (ReadsFloat repr toFloat) items → 1 + item.size + sizeItems items ≤ fuel →
        readItems toFloat fuel (arranged quoting repr layout (depth + 1) item ++
            (arrangedItems quoting repr layout depth items ++ text)) =
          some (item :: items, text)
  | _, _, _, 0, _, _, _, hfuel => by omega
  | item, [], depth, fuel + 1, text, hitem, _, hfuel => by
      have hread := readValue_arranged item (depth + 1) fuel
        (arrangedItems quoting repr layout depth [] ++ text) hitem (by omega)
        fun _ ↦ ends_arrangedItems quoting layout depth [] text
      rw [readItems, hread, arrangedItems, List.append_assoc]
      simp only [Option.bind_eq_bind, Option.bind_some]
      rw [skipBlanks_gap, List.cons_append, List.nil_append, skipBlanks_cons (by decide)]
      rfl
  | item, next :: items, depth, fuel + 1, text, hitem, hitems, hfuel => by
      have hread := readValue_arranged item (depth + 1) fuel
        (arrangedItems quoting repr layout depth (next :: items) ++ text) hitem (by omega)
        fun _ ↦ ends_arrangedItems quoting layout depth (next :: items) text
      have hrest := readItems_arranged next items depth fuel text hitems.1 hitems.2 (by
        rw [sizeItems] at hfuel
        omega)
      rw [readItems, hread, arrangedItems, List.cons_append, List.append_assoc, List.append_assoc]
      simp only [Option.bind_eq_bind, Option.bind_some]
      rw [skipBlanks_cons (by decide)]
      simp only
      rw [if_neg (by decide), if_pos trivial, readItems_gap, hrest]
      rfl

theorem readMembers_arranged : ∀ (key : String) (value : Json) (members : List (String × Json))
    (depth fuel : ℕ) (text : List Char), value.Native (ReadsFloat repr toFloat) →
      NativeMembers (ReadsFloat repr toFloat) members →
        1 + value.size + sizeMembers members ≤ fuel →
          readMembers toFloat fuel ('"' :: (quoting.body key ++ ':' :: (layout.colon.chars ++
              (arranged quoting repr layout (depth + 1) value ++
                (arrangedMembers quoting repr layout depth members ++ text))))) =
            some ((key, value) :: members, text)
  | _, _, _, _, 0, _, _, _, hfuel => by omega
  | key, value, [], depth, fuel + 1, text, hvalue, _, hfuel => by
      have hread := readValue_arranged value (depth + 1) fuel
        (arrangedMembers quoting repr layout depth [] ++ text) hvalue (by omega)
        fun _ ↦ ends_arrangedMembers quoting layout depth [] text
      rw [readMembers, readMark_cons (by decide)]
      simp only [Option.bind_eq_bind, Option.bind_some, quoting.readString_body]
      rw [readMark_cons (by decide)]
      simp only [Option.bind_some, readValue_gap, hread]
      rw [arrangedMembers, List.append_assoc, skipBlanks_gap, List.cons_append, List.nil_append,
        skipBlanks_cons (by decide)]
      rfl
  | key, value, (next, other) :: members, depth, fuel + 1, text, hvalue, hmembers, hfuel => by
      have hread := readValue_arranged value (depth + 1) fuel
        (arrangedMembers quoting repr layout depth ((next, other) :: members) ++ text) hvalue
        (by omega) fun _ ↦ ends_arrangedMembers quoting layout depth ((next, other) :: members) text
      have hrest := readMembers_arranged next other members depth fuel text hmembers.1 hmembers.2
        (by
          rw [sizeMembers] at hfuel
          omega)
      have htext : arrangedMembers quoting repr layout depth ((next, other) :: members) ++ text =
          ',' :: ((layout.comma depth).chars ++ '"' :: (quoting.body next ++
            ':' :: (layout.colon.chars ++ (arranged quoting repr layout (depth + 1) other ++
              (arrangedMembers quoting repr layout depth members ++ text))))) := by
        simp [arrangedMembers]
      rw [readMembers, readMark_cons (by decide)]
      simp only [Option.bind_eq_bind, Option.bind_some, quoting.readString_body]
      rw [readMark_cons (by decide)]
      simp only [Option.bind_some, readValue_gap, hread]
      rw [htext, skipBlanks_cons (by decide)]
      simp only
      rw [if_neg (by decide), if_pos trivial, readMembers_gap, hrest]
      rfl

end

mutual

theorem size_le_length_arranged : ∀ (depth : ℕ) (value : Json),
    value.Native (ReadsFloat repr toFloat) →
      value.size ≤ (arranged quoting repr layout depth value).length
  | _, .null, _ | _, .bool true, _ | _, .bool false, _ | _, .arr [], _ | _, .obj [], _ => by
      simp [size, sizeItems, sizeMembers, arranged]
  | _, .int n, _ => by
      obtain ⟨c, digits, htext, -⟩ := head_toString n
      rw [arranged, htext]
      exact Nat.succ_le_succ (Nat.zero_le _)
  | _, .float x, h => by
      obtain ⟨c, digits, htext, -⟩ := h.head
      rw [arranged, htext]
      exact Nat.succ_le_succ (Nat.zero_le _)
  | _, .str s, _ => by simp [size, arranged]
  | depth, .arr (item :: items), h => by
      have hitem := size_le_length_arranged (depth + 1) item h.1
      have hitems := sizeItems_le_length_arranged depth items h.2
      simp only [size, sizeItems, arranged, List.length_append, List.length_cons]
      omega
  | depth, .obj ((key, value) :: members), h => by
      have hvalue := size_le_length_arranged (depth + 1) value h.2.1
      have hmembers := sizeMembers_le_length_arranged depth members h.2.2
      simp only [size, sizeMembers, arranged, List.length_append, List.length_cons]
      omega

theorem sizeItems_le_length_arranged : ∀ (depth : ℕ) (items : List Json),
    NativeItems (ReadsFloat repr toFloat) items →
      sizeItems items + 1 ≤ (arrangedItems quoting repr layout depth items).length
  | _, [], _ => by simp [sizeItems, arrangedItems]
  | depth, item :: items, h => by
      have hitem := size_le_length_arranged (depth + 1) item h.1
      have hitems := sizeItems_le_length_arranged depth items h.2
      simp only [sizeItems, arrangedItems, List.length_append, List.length_cons]
      omega

theorem sizeMembers_le_length_arranged : ∀ (depth : ℕ) (members : List (String × Json)),
    NativeMembers (ReadsFloat repr toFloat) members →
      sizeMembers members + 1 ≤ (arrangedMembers quoting repr layout depth members).length
  | _, [], _ => by simp [sizeMembers, arrangedMembers]
  | depth, (key, value) :: members, h => by
      have hvalue := size_le_length_arranged (depth + 1) value h.1
      have hmembers := sizeMembers_le_length_arranged depth members h.2
      simp only [sizeMembers, arrangedMembers, List.length_append, List.length_cons]
      omega

end

/-- A value reads back from its text, also when the text ends in blanks. -/
theorem loads_arranged {value : Json} (h : value.Native (ReadsFloat repr toFloat)) (depth : ℕ)
    (gap : Gap) :
    loads toFloat (String.ofList (arranged quoting repr layout depth value ++ gap.chars)) =
      some value := by
  have hsize := size_le_length_arranged quoting layout depth value h
  have hfuel : value.size ≤ (arranged quoting repr layout depth value ++ gap.chars).length + 1 := by
    rw [List.length_append]
    omega
  have hends : Ends gap.chars := by
    have hnone : Ends [] := fun _ hc ↦ by cases hc
    have hnil := ends_gap gap hnone
    rwa [List.append_nil] at hnil
  have hblank : skipBlanks gap.chars = [] := by
    have hgap := skipBlanks_gap gap []
    rwa [List.append_nil] at hgap
  rw [loads, String.toList_ofList,
    readValue_arranged quoting layout value depth _ gap.chars h hfuel fun _ ↦ hends]
  simp only [Option.bind_eq_bind, Option.bind_some, hblank]
  rfl

end Reading

/-! ## The characters of a text -/

/-- Every piece that a text is made of has only characters of one kind. -/
structure MadeOf (p : Char → Prop) : Prop where
  marks : ∀ c ∈ "nulltruefalse[]\x7b\x7d,:\"".toList, p c
  number : ∀ n : ℤ, ∀ c ∈ (toString n).toList, p c
  float : ∀ x, ∀ c ∈ (repr (.float x)).toList, p c
  body : ∀ s, ∀ c ∈ quoting.body s, p c
  gaps : ∀ depth, ∀ gap ∈ [layout.opening depth, layout.comma depth, layout.colon,
    layout.closing depth], ∀ c ∈ gap.chars, p c

section Characters

variable {quoting repr layout} {p : Char → Prop}

theorem MadeOf.mark (h : MadeOf quoting repr layout p) {c : Char}
    (hc : "nulltruefalse[]\x7b\x7d,:\"".toList.contains c = true) : p c :=
  h.marks c (by simpa using hc)

mutual

theorem MadeOf.arranged (h : MadeOf quoting repr layout p) : ∀ (depth : ℕ) (value : Json),
    ∀ c ∈ arranged quoting repr layout depth value, p c
  | _, .null | _, .bool true | _, .bool false | _, .arr [] | _, .obj [] => by
      rw [Json.arranged]
      simp only [List.forall_mem_cons]
      repeat' apply And.intro
      all_goals first | exact List.forall_mem_nil _ | exact h.mark (by decide)
  | _, .int n => by
      rw [Json.arranged]
      exact h.number n
  | _, .float x => by
      rw [Json.arranged]
      exact h.float x
  | _, .str s => by
      rw [Json.arranged, List.forall_mem_cons]
      exact ⟨h.mark (by decide), h.body s⟩
  | depth, .arr (item :: items) => by
      rw [Json.arranged]
      simp only [List.forall_mem_cons, List.forall_mem_append]
      exact ⟨h.mark (by decide), h.gaps depth _ (by simp), h.arranged (depth + 1) item,
        h.arrangedItems depth items⟩
  | depth, .obj ((key, value) :: members) => by
      rw [Json.arranged]
      simp only [List.forall_mem_cons, List.forall_mem_append]
      exact ⟨h.mark (by decide), h.gaps depth _ (by simp), h.mark (by decide), h.body key,
        h.mark (by decide), h.gaps depth _ (by simp), h.arranged (depth + 1) value,
        h.arrangedMembers depth members⟩

theorem MadeOf.arrangedItems (h : MadeOf quoting repr layout p) :
    ∀ (depth : ℕ) (items : List Json), ∀ c ∈ arrangedItems quoting repr layout depth items, p c
  | depth, [] => by
      rw [Json.arrangedItems]
      simp only [List.forall_mem_cons, List.forall_mem_append]
      exact ⟨h.gaps depth _ (by simp), h.mark (by decide), List.forall_mem_nil _⟩
  | depth, item :: items => by
      rw [Json.arrangedItems]
      simp only [List.forall_mem_cons, List.forall_mem_append]
      exact ⟨h.mark (by decide), h.gaps depth _ (by simp), h.arranged (depth + 1) item,
        h.arrangedItems depth items⟩

theorem MadeOf.arrangedMembers (h : MadeOf quoting repr layout p) :
    ∀ (depth : ℕ) (members : List (String × Json)),
      ∀ c ∈ arrangedMembers quoting repr layout depth members, p c
  | depth, [] => by
      rw [Json.arrangedMembers]
      simp only [List.forall_mem_cons, List.forall_mem_append]
      exact ⟨h.gaps depth _ (by simp), h.mark (by decide), List.forall_mem_nil _⟩
  | depth, (key, value) :: members => by
      rw [Json.arrangedMembers]
      simp only [List.forall_mem_cons, List.forall_mem_append]
      exact ⟨h.mark (by decide), h.gaps depth _ (by simp), h.mark (by decide), h.body key,
        h.mark (by decide), h.gaps depth _ (by simp), h.arranged (depth + 1) value,
        h.arrangedMembers depth members⟩

end

end Characters

end Arranged

/-! ## A value on each line -/

section Stream

variable {repr : Json → String} {toFloat : String → Json}

theorem unbroken_asciiBody (s : String) : ∀ c ∈ asciiQuoting.body s, Text.isLineBreak c = false := by
  intro c hc
  have hprintable := printable_asciiQuote s c (List.mem_cons_of_mem _ hc)
  rw [isPrintable, Bool.and_eq_true, decide_eq_true_eq, decide_eq_true_eq] at hprintable
  rw [isLineBreak_eq hprintable.1]
  exact isSeparator_eq_false (by omega)

/-- `json.dumps(value)` is a line. -/
theorem madeOf_ascii (hfloats : FloatTexts repr toFloat) :
    MadeOf asciiQuoting repr (.flat .space) fun c ↦ Text.isLineBreak c = false where
  marks := Text.forall_mem_of_all (by decide)
  number n := unbroken_toString n
  float x c hc := ((hfloats.literal x).numeric c hc).unbroken
  body s := unbroken_asciiBody s
  gaps depth := by
    simp [Layout.flat, Gap.none, Gap.space]
    decide

/-- The lines of a file of values are their texts. -/
theorem splitlines_values (hfloats : FloatTexts repr toFloat) (values : List Json) :
    Text.splitlines (Text.unlines (values.map (laidOut asciiQuoting repr .space))) =
      values.map (laidOut asciiQuoting repr .space) := by
  induction values with
  | nil => rfl
  | cons value values ih =>
      have hline := (madeOf_ascii hfloats).arranged 0 value
      rw [arranged_flat] at hline
      have htext : Text.unlines ((value :: values).map (laidOut asciiQuoting repr .space)) =
          laidOut asciiQuoting repr .space value ++
            '\n' :: Text.unlines (values.map (laidOut asciiQuoting repr .space)) := by
        simp [Text.unlines]
      rw [htext, Text.splitlines_append_newline hline, ih, List.map_cons]

/-- A reader of the lines finds the values. -/
theorem loads_splitlines (hfloats : FloatTexts repr toFloat) {values : List Json}
    (h : ∀ value ∈ values, value.Native fun _ ↦ True) :
    (Text.splitlines (Text.unlines (values.map (laidOut asciiQuoting repr .space)))).map
        (fun line ↦ loads toFloat (String.ofList line)) = values.map some := by
  rw [splitlines_values hfloats, List.map_map]
  refine List.map_congr_left fun value hvalue ↦ ?_
  have hreads : value.Native (ReadsFloat repr toFloat) :=
    (h value hvalue).imp (fun x _ ↦ hfloats.readsFloat x) value
  exact loads_laidOut asciiQuoting repr .space toFloat hreads

end Stream

/-- What is read from an object is what an interpreter holds. -/
theorem native_get {P : Decimal → Prop} {fields : List (String × Json)}
    (h : (Json.obj fields).Native P) (key : String) : (Python.get fields key).Native P := by
  rw [Python.get]
  cases hlookup : fields.lookup key with
  | none => trivial
  | some value => exact nativeMembers_iff.mp h.2 _ (Dict.mem_of_lookup hlookup)

end Json
