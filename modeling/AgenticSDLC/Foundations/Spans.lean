import AgenticSDLC.Foundations.Patterns

/-!
# Text between two markers

A rule finds a text without marks between two markers of some marks each.  What it finds is
given by the marks alone: each other character may be written as a text without marks, and
the rule finds the same.
-/

namespace Spans

open Patterns

variable {α β γ : Type}

/-- How many marks a marker has, and whether it stands next to no other mark. -/
structure Rule where
  width : ℕ
  alone : Bool
  pos : 0 < width

def Rule.guard (rule : Rule) (test : Option α → Option α → Bool) : List (Item α) :=
  if rule.alone then [.look test] else []

def Rule.marker (rule : Rule) (isMark : α → Bool) : List (Item α) :=
  List.replicate rule.width (.one isMark)

def Rule.pattern (rule : Rule) (isMark : α → Bool) : List (Item α) :=
  rule.guard (fun prev _ ↦ !prev.any isMark) ++ (rule.marker isMark ++
    (.one (fun a ↦ !isMark a) :: .many (fun a ↦ !isMark a) ::
      (rule.marker isMark ++ rule.guard fun _ next ↦ !next.any isMark)))

/-- What a match has between its markers. -/
def Rule.body (rule : Rule) (matched : List α) : List α :=
  (matched.drop rule.width).take (matched.length - 2 * rule.width)

theorem Rule.mem_of_mem_body {rule : Rule} {matched : List α} {a : α}
    (h : a ∈ rule.body matched) : a ∈ matched :=
  List.mem_of_mem_drop (List.mem_of_mem_take h)

/-- The parts of a match, and the text after it. -/
structure IsSpan (rule : Rule) (isMark : α → Bool) (prev : Option α)
    (opening body closing rest : List α) : Prop where
  opening_length : opening.length = rule.width
  opening_marks : ∀ a ∈ opening, isMark a = true
  body_ne : body ≠ []
  body_plain : ∀ a ∈ body, isMark a = false
  closing_length : closing.length = rule.width
  closing_marks : ∀ a ∈ closing, isMark a = true
  before : rule.alone = true → prev.any isMark = false
  after : rule.alone = true → rest.head?.any isMark = false

theorem Rule.body_eq (rule : Rule) {opening body closing : List α}
    (hopening : opening.length = rule.width) (hclosing : closing.length = rule.width) :
    rule.body (opening ++ body ++ closing) = body := by
  have hlength : (opening ++ body ++ closing).length - 2 * rule.width = body.length := by
    simp only [List.length_append]
    omega
  rw [Rule.body, hlength, List.append_assoc, ← hopening, List.drop_left, List.take_left]

/-! ## The pattern of a rule -/

theorem generates_append (items items' : List (Item α)) (prev : Option α)
    (matched rest : List α) :
    Generates (items ++ items') prev matched rest ↔ ∃ first more, matched = first ++ more ∧
      Generates items prev first (more ++ rest) ∧
      Generates items' (lastOr prev first) more rest := by
  induction items generalizing prev matched with
  | nil => simp [Generates]
  | cons item items ih =>
      cases item with
      | one p =>
          simp only [List.cons_append, Generates, ih]
          constructor
          · rintro ⟨c, _, rfl, hc, first, more, rfl, hfirst, hmore⟩
            exact ⟨c :: first, more, rfl, ⟨c, first, rfl, hc, hfirst⟩, by rwa [lastOr_cons]⟩
          · rintro ⟨_, more, rfl, ⟨c, first, rfl, hc, hfirst⟩, hmore⟩
            rw [lastOr_cons] at hmore
            exact ⟨c, first ++ more, rfl, hc, first, more, rfl, hfirst, hmore⟩
      | many p =>
          simp only [List.cons_append, Generates, ih]
          constructor
          · rintro ⟨stretch, _, rfl, hstretch, first, more, rfl, hfirst, hmore⟩
            refine ⟨stretch ++ first, more, (List.append_assoc _ _ _).symm,
              ⟨stretch, first, rfl, hstretch, hfirst⟩, ?_⟩
            rwa [lastOr_append]
          · rintro ⟨_, more, rfl, ⟨stretch, first, rfl, hstretch, hfirst⟩, hmore⟩
            rw [lastOr_append] at hmore
            exact ⟨stretch, first ++ more, List.append_assoc _ _ _, hstretch, first, more, rfl,
              hfirst, hmore⟩
      | look test =>
          simp only [List.cons_append, Generates, ih]
          constructor
          · rintro ⟨htest, first, more, rfl, hfirst, hmore⟩
            exact ⟨first, more, rfl, ⟨by rwa [← List.append_assoc], hfirst⟩, hmore⟩
          · rintro ⟨first, more, rfl, ⟨htest, hfirst⟩, hmore⟩
            exact ⟨by rwa [List.append_assoc], first, more, rfl, hfirst, hmore⟩

theorem generates_replicate (p : α → Bool) (n : ℕ) (prev : Option α) (matched rest : List α) :
    Generates (List.replicate n (.one p)) prev matched rest ↔
      matched.length = n ∧ ∀ a ∈ matched, p a = true := by
  induction n generalizing prev matched with
  | zero =>
      simp only [List.replicate_zero, Generates, List.length_eq_zero_iff]
      constructor
      · rintro rfl
        simp
      · exact fun h ↦ h.1
  | succ n ih =>
      simp only [List.replicate_succ, Generates, ih]
      constructor
      · rintro ⟨c, more, rfl, hc, hlength, hmore⟩
        exact ⟨by rw [List.length_cons, hlength], List.forall_mem_cons.mpr ⟨hc, hmore⟩⟩
      · rintro ⟨hlength, hmarks⟩
        obtain ⟨c, more, rfl⟩ := List.exists_cons_of_length_eq_add_one hlength
        obtain ⟨hc, hmore⟩ := List.forall_mem_cons.mp hmarks
        exact ⟨c, more, rfl, hc, Nat.succ.inj hlength, hmore⟩

theorem generates_guard (rule : Rule) (test : Option α → Option α → Bool) (prev : Option α)
    (matched rest : List α) : Generates (rule.guard test) prev matched rest ↔
      matched = [] ∧ (rule.alone = true → test prev rest.head? = true) := by
  rw [Rule.guard]
  split_ifs with halone
  · simp only [Generates, halone, forall_const]
    constructor
    · rintro ⟨htest, rfl⟩
      exact ⟨rfl, htest⟩
    · rintro ⟨rfl, htest⟩
      exact ⟨htest, rfl⟩
  · simp [Generates, halone]

/-- A nonempty text of plain characters. -/
theorem generates_body (p : α → Bool) (items : List (Item α)) (prev : Option α)
    (matched rest : List α) : Generates (.one p :: .many p :: items) prev matched rest ↔
      ∃ body more, matched = body ++ more ∧ body ≠ [] ∧ (∀ a ∈ body, p a = true) ∧
        Generates items (lastOr prev body) more rest := by
  simp only [Generates]
  constructor
  · rintro ⟨c, _, rfl, hc, stretch, more, rfl, hstretch, hmore⟩
    exact ⟨c :: stretch, more, rfl, List.cons_ne_nil _ _,
      List.forall_mem_cons.mpr ⟨hc, hstretch⟩, by rwa [lastOr_cons]⟩
  · rintro ⟨body, more, rfl, hne, hbody, hmore⟩
    obtain ⟨c, stretch, rfl⟩ := List.exists_cons_of_ne_nil hne
    obtain ⟨hc, hstretch⟩ := List.forall_mem_cons.mp hbody
    rw [lastOr_cons] at hmore
    exact ⟨c, stretch ++ more, rfl, hc, stretch, more, rfl, hstretch, hmore⟩

theorem generates_pattern_iff (rule : Rule) (isMark : α → Bool) (prev : Option α)
    (matched rest : List α) : Generates (rule.pattern isMark) prev matched rest ↔
      ∃ opening body closing, matched = opening ++ body ++ closing ∧
        IsSpan rule isMark prev opening body closing rest := by
  simp only [Rule.pattern, Rule.marker, generates_append, generates_guard, generates_replicate,
    generates_body]
  constructor
  · rintro ⟨_, _, rfl, ⟨rfl, hbefore⟩, opening, _, rfl, ⟨hopening, hopens⟩, body, _, rfl, hne,
      hbody, closing, _, rfl, ⟨hclosing, hcloses⟩, rfl, hafter⟩
    refine ⟨opening, body, closing, by simp, hopening, hopens, hne, ?_, hclosing, hcloses, ?_, ?_⟩
    · exact fun a ha ↦ by simpa using hbody a ha
    · exact fun halone ↦ by simpa using hbefore halone
    · exact fun halone ↦ by simpa using hafter halone
  · rintro ⟨opening, body, closing, rfl, h⟩
    refine ⟨[], opening ++ body ++ closing, rfl, ⟨rfl, fun halone ↦ ?_⟩, opening, body ++ closing,
      List.append_assoc _ _ _, ⟨h.opening_length, h.opening_marks⟩, body, closing, rfl, h.body_ne,
      fun a ha ↦ ?_, closing, [], by simp, ⟨h.closing_length, h.closing_marks⟩, rfl,
      fun halone ↦ ?_⟩
    · simpa using h.before halone
    · simpa using h.body_plain a ha
    · simpa using h.after halone

/-! ## Matches -/

/-- Plain text up to a mark. -/
theorem takeWhile_plain {isMark : α → Bool} {plain rest : List α}
    (hplain : ∀ a ∈ plain, isMark a = false) (hrest : rest.head?.any isMark = true) :
    (plain ++ rest).takeWhile (fun a ↦ !isMark a) = plain := by
  cases rest with
  | nil => exact nomatch hrest
  | cons a rest =>
      have ha : isMark a = true := hrest
      rw [List.takeWhile_append_of_pos fun b hb ↦ by simp [hplain b hb],
        List.takeWhile_cons_of_neg (by simp [ha]), List.append_nil]

theorem head?_any_of_marks {isMark : α → Bool} {marks : List α} (hpos : 0 < marks.length)
    (hmarks : ∀ a ∈ marks, isMark a = true) (rest : List α) :
    (marks ++ rest).head?.any isMark = true := by
  cases marks with
  | nil => exact absurd hpos (Nat.lt_irrefl 0)
  | cons a marks => exact hmarks a List.mem_cons_self

section IsSpan

variable {rule : Rule} {isMark : α → Bool} {prev : Option α} {opening body closing rest : List α}

theorem IsSpan.head?_any_opening (h : IsSpan rule isMark prev opening body closing rest)
    (more : List α) : (opening ++ more).head?.any isMark = true := by
  apply head?_any_of_marks _ h.opening_marks
  rw [h.opening_length]
  exact rule.pos

theorem IsSpan.head?_any_closing (h : IsSpan rule isMark prev opening body closing rest) :
    (closing ++ rest).head?.any isMark = true := by
  apply head?_any_of_marks _ h.closing_marks
  rw [h.closing_length]
  exact rule.pos

/-- At one place of a text a rule has one match. -/
theorem IsSpan.unique {prev' : Option α} {opening' body' closing' rest' : List α}
    (h : IsSpan rule isMark prev opening body closing rest)
    (h' : IsSpan rule isMark prev' opening' body' closing' rest')
    (heq : opening ++ body ++ closing ++ rest = opening' ++ body' ++ closing' ++ rest') :
    opening = opening' ∧ body = body' ∧ closing = closing' ∧ rest = rest' := by
  simp only [List.append_assoc] at heq
  obtain ⟨rfl, htail⟩ := List.append_inj heq (h.opening_length.trans h'.opening_length.symm)
  have hmark := h.head?_any_closing
  have hmark' := h'.head?_any_closing
  have hbody := congrArg (List.takeWhile fun a ↦ !isMark a) htail
  rw [takeWhile_plain h.body_plain hmark, takeWhile_plain h'.body_plain hmark'] at hbody
  subst hbody
  obtain ⟨hclosing, hrest⟩ := List.append_inj (List.append_cancel_left htail)
    (h.closing_length.trans h'.closing_length.symm)
  exact ⟨rfl, rfl, hclosing, hrest⟩

theorem matchAt_eq_some_iff (rule : Rule) (isMark : α → Bool) (prev : Option α)
    (text matched : List α) : matchAt (rule.pattern isMark) prev text = some matched ↔
      ∃ opening body closing rest, matched = opening ++ body ++ closing ∧
        text = matched ++ rest ∧ IsSpan rule isMark prev opening body closing rest := by
  constructor
  · intro hmatch
    obtain ⟨rest, rfl, hgen⟩ := matchAt_sound hmatch
    obtain ⟨opening, body, closing, rfl, hspan⟩ := (generates_pattern_iff ..).mp hgen
    exact ⟨opening, body, closing, rest, rfl, rfl, hspan⟩
  · rintro ⟨opening, body, closing, rest, rfl, rfl, hspan⟩
    have hsome := (isSome_matchAt_iff (rule.pattern isMark) prev _).mpr
      ⟨_, rest, rfl, (generates_pattern_iff ..).mpr ⟨opening, body, closing, rfl, hspan⟩⟩
    obtain ⟨found, hfound⟩ := Option.isSome_iff_exists.mp hsome
    obtain ⟨rest', htext, hgen⟩ := matchAt_sound hfound
    obtain ⟨opening', body', closing', rfl, hspan'⟩ := (generates_pattern_iff ..).mp hgen
    obtain ⟨rfl, rfl, rfl, -⟩ := hspan.unique hspan' htext
    exact hfound

theorem IsSpan.ne_nil (h : IsSpan rule isMark prev opening body closing rest) :
    opening ++ body ++ closing ≠ [] := by
  have := h.body_ne
  simp [this]

/-- What a scan finds is a span somewhere in the text. -/
theorem exists_isSpan_of_found {text matched : List α}
    (h : Piece.found matched ∈ pieces (rule.pattern isMark) 0 prev text) :
    ∃ before opening body closing rest, text = before ++ (opening ++ body ++ closing ++ rest) ∧
      matched = opening ++ body ++ closing ∧
      IsSpan rule isMark (lastOr prev before) opening body closing rest := by
  obtain ⟨-, before, rest, rfl, hgen⟩ := occurs_of_found prev text h
  obtain ⟨opening, body, closing, rfl, hspan⟩ := (generates_pattern_iff ..).mp hgen
  exact ⟨before, opening, body, closing, rest, List.append_assoc _ _ _, rfl, hspan⟩

end IsSpan

/-! ## Writing the characters out -/

/-- How a character is written: a mark as one mark, another character as plain text. -/
structure Spells (isMark : α → Bool) (isMark' : β → Bool) (written : α → List β) (a : α) :
    Prop where
  mark : isMark a = true → ∃ b, written a = [b] ∧ isMark' b = true
  plain : isMark a = false → written a ≠ [] ∧ ∀ b ∈ written a, isMark' b = false

section Written

variable {rule : Rule} {isMark : α → Bool} {isMark' : β → Bool} {written : α → List β}

theorem Spells.ne_nil {a : α} (h : Spells isMark isMark' written a) : written a ≠ [] := by
  cases ha : isMark a with
  | true =>
      obtain ⟨b, hb, -⟩ := h.mark ha
      simp [hb]
  | false => exact (h.plain ha).1

theorem head?_any_flatMap {xs : List α} (h : ∀ a ∈ xs, Spells isMark isMark' written a) :
    (xs.flatMap written).head?.any isMark' = xs.head?.any isMark := by
  cases xs with
  | nil => rfl
  | cons a xs =>
      have hspells := h a List.mem_cons_self
      obtain ⟨b, more, hmore⟩ := List.exists_cons_of_ne_nil hspells.ne_nil
      rw [List.flatMap_cons, hmore]
      cases ha : isMark a with
      | true =>
          obtain ⟨b', hb', hmark⟩ := hspells.mark ha
          obtain ⟨rfl, -⟩ := List.cons.inj (hmore.symm.trans hb')
          simp [ha, hmark]
      | false =>
          have hb := (hspells.plain ha).2 b (by simp [hmore])
          simp [ha, hb]

theorem flatMap_marks {marks : List α} (h : ∀ a ∈ marks, Spells isMark isMark' written a)
    (hmarks : ∀ a ∈ marks, isMark a = true) :
    (marks.flatMap written).length = marks.length ∧
      ∀ b ∈ marks.flatMap written, isMark' b = true := by
  induction marks with
  | nil => simp
  | cons a marks ih =>
      obtain ⟨ha, hmarks⟩ := List.forall_mem_cons.mp hmarks
      obtain ⟨hspells, hmore⟩ := List.forall_mem_cons.mp h
      obtain ⟨b, hb, hmark⟩ := hspells.mark ha
      obtain ⟨hlength, hall⟩ := ih hmore hmarks
      rw [List.flatMap_cons, hb]
      exact ⟨by simp [hlength], List.forall_mem_cons.mpr ⟨hmark, hall⟩⟩

theorem flatMap_plain {plain : List α} (h : ∀ a ∈ plain, Spells isMark isMark' written a)
    (hplain : ∀ a ∈ plain, isMark a = false) : ∀ b ∈ plain.flatMap written, isMark' b = false := by
  intro b hb
  obtain ⟨a, ha, hba⟩ := List.mem_flatMap.mp hb
  exact ((h a ha).plain (hplain a ha)).2 b hba

theorem flatMap_ne_nil {xs : List α} (h : ∀ a ∈ xs, Spells isMark isMark' written a)
    (hne : xs ≠ []) : xs.flatMap written ≠ [] := by
  obtain ⟨a, xs, rfl⟩ := List.exists_cons_of_ne_nil hne
  simp [(h a List.mem_cons_self).ne_nil]

/-- Marks at the start of a written text are the marks at the start of the text. -/
theorem exists_marks {xs : List α} (h : ∀ a ∈ xs, Spells isMark isMark' written a)
    {marks rest : List β} (hmarks : ∀ b ∈ marks, isMark' b = true)
    (heq : xs.flatMap written = marks ++ rest) : ∃ first more, xs = first ++ more ∧
      first.flatMap written = marks ∧ more.flatMap written = rest ∧
      first.length = marks.length ∧ ∀ a ∈ first, isMark a = true := by
  induction marks generalizing xs with
  | nil => exact ⟨[], xs, rfl, rfl, heq, rfl, List.forall_mem_nil _⟩
  | cons b marks ih =>
      obtain ⟨hb, htailMarks⟩ := List.forall_mem_cons.mp hmarks
      cases xs with
      | nil => exact nomatch heq
      | cons a xs =>
          obtain ⟨hspells, hmore⟩ := List.forall_mem_cons.mp h
          have hhead := head?_any_flatMap h
          rw [heq] at hhead
          have ha : isMark a = true := by simpa [hb] using hhead.symm
          obtain ⟨b', hb', -⟩ := hspells.mark ha
          rw [List.flatMap_cons, hb'] at heq
          obtain ⟨rfl, htail⟩ := List.cons.inj heq
          obtain ⟨first, more, rfl, hfirst, hrest, hlength, hall⟩ := ih hmore htailMarks htail
          exact ⟨a :: first, more, rfl, by rw [List.flatMap_cons, hb', hfirst]; rfl, hrest,
            by rw [List.length_cons, hlength, List.length_cons], List.forall_mem_cons.mpr ⟨ha, hall⟩⟩

/-- Plain text at the start of a text goes no further than the first mark. -/
theorem exists_gap {first more plain rest : List β} (hfirst : ∀ b ∈ first, isMark' b = false)
    (hrest : rest.head?.any isMark' = true) (heq : first ++ more = plain ++ rest) :
    ∃ gap, plain = first ++ gap ∧ more = gap ++ rest := by
  rcases List.append_eq_append_iff.mp heq with ⟨gap, hplain, hmore⟩ | ⟨gap, hsplit, htail⟩
  · exact ⟨gap, hplain, hmore⟩
  · cases gap with
    | nil =>
        rw [List.append_nil] at hsplit
        exact ⟨[], by rw [hsplit, List.append_nil], htail.symm⟩
    | cons c gap =>
        have hc := hfirst c (by simp [hsplit])
        rw [htail] at hrest
        exact absurd (hc.symm.trans hrest) (by decide)

/-- Plain text before a mark of a written text is the plain text before a mark of the text. -/
theorem exists_plain {xs : List α} (h : ∀ a ∈ xs, Spells isMark isMark' written a)
    {plain rest : List β} (hplain : ∀ b ∈ plain, isMark' b = false)
    (hrest : rest.head?.any isMark' = true) (heq : xs.flatMap written = plain ++ rest) :
    ∃ first more, xs = first ++ more ∧ first.flatMap written = plain ∧
      more.flatMap written = rest ∧ ∀ a ∈ first, isMark a = false := by
  induction xs generalizing plain with
  | nil =>
      obtain ⟨rfl, rfl⟩ := List.append_eq_nil_iff.mp heq.symm
      exact nomatch hrest
  | cons a xs ih =>
      obtain ⟨hspells, hmore⟩ := List.forall_mem_cons.mp h
      have hhead := head?_any_flatMap h
      cases plain with
      | nil => exact ⟨[], a :: xs, rfl, rfl, heq, List.forall_mem_nil _⟩
      | cons b plain =>
          have hb := hplain b List.mem_cons_self
          rw [heq] at hhead
          have ha : isMark a = false := by simpa [hb] using hhead.symm
          rw [List.flatMap_cons] at heq
          obtain ⟨gap, hgap, htail⟩ := exists_gap (hspells.plain ha).2 hrest heq
          rw [hgap] at hplain
          obtain ⟨first, more, rfl, hfirst, hrest', hall⟩ :=
            ih hmore (fun c hc ↦ hplain c (List.mem_append_right _ hc)) htail
          exact ⟨a :: first, more, rfl, by rw [List.flatMap_cons, hfirst, hgap], hrest',
            List.forall_mem_cons.mpr ⟨ha, hall⟩⟩

theorem IsSpan.flatMap {prev : Option α} {prev' : Option β} {opening body closing rest : List α}
    (hspan : IsSpan rule isMark prev opening body closing rest)
    (hprev : prev'.any isMark' = prev.any isMark)
    (h : ∀ a ∈ opening ++ body ++ closing ++ rest, Spells isMark isMark' written a) :
    IsSpan rule isMark' prev' (opening.flatMap written) (body.flatMap written)
      (closing.flatMap written) (rest.flatMap written) := by
  simp only [List.forall_mem_append] at h
  obtain ⟨⟨⟨hopening, hbody⟩, hclosing⟩, hrest⟩ := h
  obtain ⟨hopens, hopeningMarks⟩ := flatMap_marks hopening hspan.opening_marks
  obtain ⟨hcloses, hclosingMarks⟩ := flatMap_marks hclosing hspan.closing_marks
  exact
    { opening_length := hopens.trans hspan.opening_length
      opening_marks := hopeningMarks
      body_ne := flatMap_ne_nil hbody hspan.body_ne
      body_plain := flatMap_plain hbody hspan.body_plain
      closing_length := hcloses.trans hspan.closing_length
      closing_marks := hclosingMarks
      before := fun halone ↦ hprev.trans (hspan.before halone)
      after := fun halone ↦ (head?_any_flatMap hrest).trans (hspan.after halone) }

/-- A match in a written text is a match in the text, written. -/
theorem IsSpan.exists_of_flatMap {xs : List α} {prev : Option α} {prev' : Option β}
    {opening body closing rest : List β}
    (h : ∀ a ∈ xs, Spells isMark isMark' written a)
    (hprev : prev'.any isMark' = prev.any isMark)
    (hspan : IsSpan rule isMark' prev' opening body closing rest)
    (heq : xs.flatMap written = opening ++ body ++ closing ++ rest) :
    ∃ opening₀ body₀ closing₀ rest₀, xs = opening₀ ++ body₀ ++ closing₀ ++ rest₀ ∧
      IsSpan rule isMark prev opening₀ body₀ closing₀ rest₀ := by
  simp only [List.append_assoc] at heq
  obtain ⟨opening₀, xs, rfl, -, hxs, hopens, hopening⟩ :=
    exists_marks h hspan.opening_marks heq
  obtain ⟨-, h⟩ := List.forall_mem_append.mp h
  obtain ⟨body₀, xs, rfl, hwritten, hxs, hbody⟩ :=
    exists_plain h hspan.body_plain hspan.head?_any_closing hxs
  obtain ⟨-, h⟩ := List.forall_mem_append.mp h
  obtain ⟨closing₀, rest₀, rfl, -, rfl, hcloses, hclosing⟩ :=
    exists_marks h hspan.closing_marks hxs
  obtain ⟨-, h⟩ := List.forall_mem_append.mp h
  refine ⟨opening₀, body₀, closing₀, rest₀, by simp only [List.append_assoc], ?_⟩
  exact
    { opening_length := hopens.trans hspan.opening_length
      opening_marks := hopening
      body_ne := fun hempty ↦ hspan.body_ne (by rw [← hwritten, hempty, List.flatMap_nil])
      body_plain := hbody
      closing_length := hcloses.trans hspan.closing_length
      closing_marks := hclosing
      before := fun halone ↦ hprev.symm.trans (hspan.before halone)
      after := fun halone ↦ (head?_any_flatMap h).symm.trans (hspan.after halone) }

/-- What is written for a piece: a match stays a match. -/
def writtenPiece (written : α → List β) : Piece α → List (Piece β)
  | .char a => (written a).map .char
  | .found matched => [.found (matched.flatMap written)]

/-- No match starts in plain text. -/
theorem pieces_plain (rule : Rule) {plain : List β} (hplain : ∀ b ∈ plain, isMark' b = false)
    (prev : Option β) (rest : List β) :
    pieces (rule.pattern isMark') 0 prev (plain ++ rest) =
      plain.map .char ++ pieces (rule.pattern isMark') 0 (lastOr prev plain) rest := by
  induction plain generalizing prev with
  | nil => rfl
  | cons b plain ih =>
      obtain ⟨hb, hmore⟩ := List.forall_mem_cons.mp hplain
      rw [List.cons_append, pieces_of_not_match, ih hmore, lastOr_cons]
      · rfl
      · intro d matched hmatch
        obtain ⟨opening, body, closing, rest', hmatched, htext, hspan⟩ :=
          (matchAt_eq_some_iff ..).mp hmatch
        have hhead := hspan.head?_any_opening (body ++ closing)
        rw [← List.append_assoc, ← hmatched] at hhead
        obtain ⟨rfl, -⟩ := List.cons.inj htext
        exact absurd (hb.symm.trans hhead) (by decide)

theorem any_lastOr_flatMap {xs : List α} (h : ∀ a ∈ xs, Spells isMark isMark' written a)
    {prev : Option α} {prev' : Option β} (hprev : prev'.any isMark' = prev.any isMark) :
    (lastOr prev' (xs.flatMap written)).any isMark' = (lastOr prev xs).any isMark := by
  induction xs generalizing prev prev' with
  | nil => exact hprev
  | cons a xs ih =>
      obtain ⟨hspells, hmore⟩ := List.forall_mem_cons.mp h
      rw [List.flatMap_cons, lastOr_append, lastOr_cons]
      apply ih hmore
      cases ha : isMark a with
      | true =>
          obtain ⟨b, hb, hmark⟩ := hspells.mark ha
          simp [hb, ha, hmark]
      | false =>
          obtain ⟨hne, hplain⟩ := hspells.plain ha
          have hlast := hplain _ (List.getLast_mem hne)
          rw [lastOr, List.getLast?_eq_some_getLast hne]
          simp [ha, hlast]

theorem match_flatMap {xs matched : List α} (h : ∀ a ∈ xs, Spells isMark isMark' written a)
    {prev : Option α} {prev' : Option β} (hprev : prev'.any isMark' = prev.any isMark)
    (hmatch : matchAt (rule.pattern isMark) prev xs = some matched) :
    matchAt (rule.pattern isMark') prev' (xs.flatMap written) = some (matched.flatMap written) := by
  obtain ⟨opening, body, closing, rest, rfl, rfl, hspan⟩ := (matchAt_eq_some_iff ..).mp hmatch
  rw [matchAt_eq_some_iff]
  refine ⟨_, _, _, _, ?_, ?_, hspan.flatMap hprev h⟩ <;> simp only [List.flatMap_append]

theorem not_match_flatMap {xs : List α} (h : ∀ a ∈ xs, Spells isMark isMark' written a)
    {prev : Option α} {prev' : Option β} (hprev : prev'.any isMark' = prev.any isMark)
    (hmatch : ∀ a matched, matchAt (rule.pattern isMark) prev xs ≠ some (a :: matched)) :
    ∀ b matched, matchAt (rule.pattern isMark') prev' (xs.flatMap written) ≠
      some (b :: matched) := by
  intro b matched hfound
  obtain ⟨opening, body, closing, rest, hsplit, htext, hspan⟩ := (matchAt_eq_some_iff ..).mp hfound
  rw [hsplit] at htext
  obtain ⟨opening₀, body₀, closing₀, rest₀, hxs, hspan₀⟩ := hspan.exists_of_flatMap h hprev htext
  obtain ⟨first, more, hfirst⟩ := List.exists_cons_of_ne_nil hspan₀.ne_nil
  apply hmatch first more
  rw [matchAt_eq_some_iff]
  exact ⟨opening₀, body₀, closing₀, rest₀, hfirst.symm, by rw [← hfirst, hxs], hspan₀⟩

/-- A rule finds the same in a text and in the text as it is written. -/
theorem pieces_flatMap (rule : Rule) {xs : List α}
    (h : ∀ a ∈ xs, Spells isMark isMark' written a) {prev : Option α} {prev' : Option β}
    (hprev : prev'.any isMark' = prev.any isMark) :
    pieces (rule.pattern isMark') 0 prev' (xs.flatMap written) =
      (pieces (rule.pattern isMark) 0 prev xs).flatMap (writtenPiece written) := by
  induction prev, xs using scan_induction (rule.pattern isMark) generalizing prev' with
  | nil prev => rfl
  | found prev c matched rest hmatch ih =>
      have hmatch' := match_flatMap h hprev hmatch
      obtain ⟨hmatched, hrest⟩ := List.forall_mem_append.mp h
      obtain ⟨b, more, hmore⟩ := List.exists_cons_of_ne_nil
        (flatMap_ne_nil hmatched (List.cons_ne_nil c matched))
      rw [pieces_of_match hmatch, List.flatMap_cons (f := writtenPiece written),
        ← ih hrest (any_lastOr_flatMap hmatched hprev), writtenPiece]
      rw [List.flatMap_append, hmore] at hmatch' ⊢
      rw [pieces_of_match hmatch']
      rfl
  | char prev c text hmatch ih =>
      have hnone := not_match_flatMap h hprev hmatch
      obtain ⟨hspells, hmore⟩ := List.forall_mem_cons.mp h
      have hstep : (lastOr prev' (written c)).any isMark' = (lastOr prev [c]).any isMark := by
        have hsingle : ∀ a ∈ [c], Spells isMark isMark' written a := by simpa using hspells
        simpa only [List.flatMap_singleton] using any_lastOr_flatMap hsingle hprev
      have hnext := ih hmore hstep
      rw [pieces_of_not_match hmatch, List.flatMap_cons (f := writtenPiece written), ← hnext,
        writtenPiece]
      rw [List.flatMap_cons] at hnone ⊢
      cases hc : isMark c with
      | false => rw [pieces_plain rule (hspells.plain hc).2]
      | true =>
          obtain ⟨b, hb, -⟩ := hspells.mark hc
          rw [hb, List.singleton_append] at hnone ⊢
          rw [pieces_of_not_match hnone]
          rfl

theorem IsSpan.body_flatMap {prev : Option α} {opening body closing rest : List α}
    (hspan : IsSpan rule isMark prev opening body closing rest)
    (h : ∀ a ∈ opening ++ body ++ closing, Spells isMark isMark' written a) :
    rule.body ((opening ++ body ++ closing).flatMap written) = body.flatMap written := by
  simp only [List.forall_mem_append] at h
  obtain ⟨⟨hopening, -⟩, hclosing⟩ := h
  rw [List.flatMap_append, List.flatMap_append]
  apply rule.body_eq
  · exact (flatMap_marks hopening hspan.opening_marks).1.trans hspan.opening_length
  · exact (flatMap_marks hclosing hspan.closing_marks).1.trans hspan.closing_length

/-- The written text of a piece, where a span stands between two other texts. -/
def betweenTexts (rule : Rule) (left right : List β) (written : α → List β) : Piece α → List β
  | .char a => written a
  | .found matched => left ++ (rule.body matched).flatMap written ++ right

theorem sub_flatMap {xs : List α} (h : ∀ a ∈ xs, Spells isMark isMark' written a)
    (left right : List β) :
    sub (rule.pattern isMark') (fun matched ↦ left ++ rule.body matched ++ right)
        (xs.flatMap written) =
      (pieces (rule.pattern isMark) 0 none xs).flatMap (betweenTexts rule left right written) := by
  have hprev : (none : Option β).any isMark' = (none : Option α).any isMark := rfl
  rw [sub, pieces_flatMap rule h hprev, List.flatMap_assoc]
  apply List.flatMap_congr
  intro piece hpiece
  cases piece with
  | char a => simp [writtenPiece, betweenTexts, List.flatMap_map]
  | found matched =>
      obtain ⟨before, opening, body, closing, rest, rfl, rfl, hspan⟩ :=
        exists_isSpan_of_found hpiece
      have hspells : ∀ a ∈ opening ++ body ++ closing, Spells isMark isMark' written a := by
        intro a ha
        apply h
        rw [List.mem_append, List.mem_append]
        exact Or.inr (Or.inl ha)
      rw [writtenPiece, List.flatMap_singleton]
      change left ++ rule.body ((opening ++ body ++ closing).flatMap written) ++ right = _
      rw [hspan.body_flatMap hspells, betweenTexts,
        rule.body_eq hspan.opening_length hspan.closing_length]

end Written

end Spans
