import Mathlib.Data.List.Basic
import Mathlib.Data.List.Infix

/-!
# Patterns

Regular expressions that are sequences of characters of a class, greedy stars of a class and
tests of the two neighbours of a place.  A matcher tries them as a backtracking engine does.
The characters are of any type.
`Generates` says which texts a pattern stands for, and the scan over a text finds the first
match at each place, without overlaps.
-/

namespace Patterns

inductive Item (α : Type) where
  | one (p : α → Bool)
  /-- As many characters of the class as possible, fewer where what follows asks for it. -/
  | many (p : α → Bool)
  /-- A test of the characters before and after a place, which takes no text. -/
  | look (test : Option α → Option α → Bool)

variable {α : Type}

def literal [DecidableEq α] (word : List α) : List (Item α) := word.map fun c ↦ .one (· == c)

/-- From the character before a place and the text after it, the text that is matched. -/
abbrev Matcher (α : Type) := Option α → List α → Option (List α)

def tryMany (p : α → Bool) (next : Matcher α) : Matcher α
  | prev, [] => next prev []
  | prev, c :: text =>
      if p c then
        match tryMany p next (some c) text with
        | some matched => some (c :: matched)
        | none => next prev (c :: text)
      else next prev (c :: text)

def Item.try (next : Matcher α) : Item α → Matcher α
  | .one p, _, c :: text => if p c then (next (some c) text).map (c :: ·) else none
  | .one _, _, [] => none
  | .many p, prev, text => tryMany p next prev text
  | .look test, prev, text => if test prev text.head? then next prev text else none

def matchAt : List (Item α) → Matcher α
  | [] => fun _ _ ↦ some []
  | item :: items => item.try (matchAt items)

/-- The character before what follows `text`. -/
def lastOr (prev : Option α) (text : List α) : Option α := text.getLast?.or prev

@[simp] theorem lastOr_nil (prev : Option α) : lastOr prev [] = prev := rfl

@[simp] theorem lastOr_cons (prev : Option α) (c : α) (text : List α) :
    lastOr prev (c :: text) = lastOr (some c) text := by
  cases h : text.getLast? <;> simp [lastOr, List.getLast?_cons, h]

theorem lastOr_append (prev : Option α) (text more : List α) :
    lastOr prev (text ++ more) = lastOr (lastOr prev text) more := by
  simp [lastOr, Option.or_assoc]

/-- The pattern stands for `matched`, between the character `prev` and the text `rest`. -/
def Generates : List (Item α) → Option α → List α → List α → Prop
  | [], _, matched, _ => matched = []
  | .one p :: items, _, matched, rest =>
      ∃ c more, matched = c :: more ∧ p c = true ∧ Generates items (some c) more rest
  | .many p :: items, prev, matched, rest =>
      ∃ stretch more, matched = stretch ++ more ∧ (∀ c ∈ stretch, p c = true) ∧
        Generates items (lastOr prev stretch) more rest
  | .look test :: items, prev, matched, rest =>
      test prev (matched ++ rest).head? = true ∧ Generates items prev matched rest

/-! ## The matcher -/

/-- What a matcher finds is what a relation says, and it finds something where it can. -/
structure Decides (next : Matcher α) (P : Option α → List α → List α → Prop) : Prop where
  sound : ∀ {prev text matched}, next prev text = some matched →
    ∃ rest, text = matched ++ rest ∧ P prev matched rest
  complete : ∀ {prev matched rest}, P prev matched rest → (next prev (matched ++ rest)).isSome

/-- A stretch of the class, and then what `P` says. -/
def Starred (p : α → Bool) (P : Option α → List α → List α → Prop) (prev : Option α)
    (matched rest : List α) : Prop :=
  ∃ stretch more, matched = stretch ++ more ∧ (∀ c ∈ stretch, p c = true) ∧
    P (lastOr prev stretch) more rest

section Star

variable {next : Matcher α} {P : Option α → List α → List α → Prop} {p : α → Bool}

theorem Starred.cons {prev : Option α} {c : α} {matched rest : List α} (hc : p c = true)
    (h : Starred p P (some c) matched rest) : Starred p P prev (c :: matched) rest := by
  obtain ⟨stretch, more, rfl, hstretch, hP⟩ := h
  refine ⟨c :: stretch, more, rfl, List.forall_mem_cons.mpr ⟨hc, hstretch⟩, ?_⟩
  rwa [lastOr_cons]

theorem Decides.sound_tryMany (h : Decides next P) {prev : Option α} {text matched : List α}
    (hfound : tryMany p next prev text = some matched) :
    ∃ rest, text = matched ++ rest ∧ Starred p P prev matched rest := by
  have hstop : ∀ {prev text matched}, next prev text = some matched →
      ∃ rest, text = matched ++ rest ∧ Starred p P prev matched rest := by
    intro prev text matched hnext
    obtain ⟨rest, htext, hP⟩ := h.sound hnext
    exact ⟨rest, htext, [], matched, rfl, by simp, hP⟩
  induction text generalizing prev matched with
  | nil => exact hstop hfound
  | cons c text ih =>
      rw [tryMany] at hfound
      split_ifs at hfound with hc
      · cases hmore : tryMany p next (some c) text with
        | none =>
            rw [hmore] at hfound
            exact hstop hfound
        | some more =>
            rw [hmore] at hfound
            obtain rfl : c :: more = matched := Option.some.inj hfound
            obtain ⟨rest, htext, hstarred⟩ := ih hmore
            exact ⟨rest, by rw [htext, List.cons_append], hstarred.cons hc⟩
      · exact hstop hfound

theorem Decides.complete_tryMany (h : Decides next P) {prev : Option α} {matched rest : List α}
    (hstarred : Starred p P prev matched rest) :
    (tryMany p next prev (matched ++ rest)).isSome := by
  obtain ⟨stretch, more, rfl, hstretch, hP⟩ := hstarred
  induction stretch generalizing prev with
  | nil =>
      rw [List.nil_append]
      have hnext := h.complete hP
      rw [lastOr_nil] at hnext
      cases htext : more ++ rest with
      | nil => rwa [htext] at hnext
      | cons c text =>
          rw [htext] at hnext
          rw [tryMany]
          split_ifs
          · cases tryMany p next (some c) text with
            | none => exact hnext
            | some found => rfl
          · exact hnext
  | cons c stretch ih =>
      rw [lastOr_cons] at hP
      have htail := ih (fun d hd ↦ hstretch d (List.mem_cons_of_mem c hd)) hP
      rw [List.cons_append, List.cons_append, tryMany, if_pos (hstretch c List.mem_cons_self)]
      cases hmore : tryMany p next (some c) (stretch ++ more ++ rest) with
      | none =>
          rw [hmore] at htail
          exact absurd htail (by simp)
      | some found => rfl

theorem Decides.tryMany (h : Decides next P) : Decides (tryMany p next) (Starred p P) :=
  ⟨h.sound_tryMany, h.complete_tryMany⟩

end Star

theorem decides_matchAt (items : List (Item α)) : Decides (matchAt items) (Generates items) := by
  induction items with
  | nil =>
      refine ⟨?_, fun _ ↦ rfl⟩
      intro prev text matched hfound
      exact ⟨text, by rw [← Option.some.inj hfound, List.nil_append], (Option.some.inj hfound).symm⟩
  | cons item items ih =>
      cases item with
      | many p => exact ih.tryMany
      | one p =>
          constructor
          · intro prev text matched hfound
            cases text with
            | nil => exact nomatch hfound
            | cons c text =>
                rw [matchAt, Item.try] at hfound
                split_ifs at hfound with hc
                obtain ⟨more, hmore, rfl⟩ := Option.map_eq_some_iff.mp hfound
                obtain ⟨rest, rfl, hgen⟩ := ih.sound hmore
                exact ⟨rest, rfl, c, more, rfl, hc, hgen⟩
          · rintro prev matched rest ⟨c, more, rfl, hc, hgen⟩
            rw [matchAt, List.cons_append, Item.try, if_pos hc, Option.isSome_map]
            exact ih.complete hgen
      | look test =>
          constructor
          · intro prev text matched hfound
            rw [matchAt, Item.try] at hfound
            split_ifs at hfound with htest
            obtain ⟨rest, rfl, hgen⟩ := ih.sound hfound
            exact ⟨rest, rfl, htest, hgen⟩
          · rintro prev matched rest ⟨htest, hgen⟩
            rw [matchAt, Item.try, if_pos htest]
            exact ih.complete hgen

theorem matchAt_sound {items : List (Item α)} {prev : Option α} {text matched : List α}
    (h : matchAt items prev text = some matched) :
    ∃ rest, text = matched ++ rest ∧ Generates items prev matched rest :=
  (decides_matchAt items).sound h

/-- A pattern matches at a place when it stands for a prefix of the text there. -/
theorem isSome_matchAt_iff (items : List (Item α)) (prev : Option α) (text : List α) :
    (matchAt items prev text).isSome = true ↔
      ∃ matched rest, text = matched ++ rest ∧ Generates items prev matched rest := by
  constructor
  · intro h
    obtain ⟨matched, hmatched⟩ := Option.isSome_iff_exists.mp h
    exact ⟨matched, matchAt_sound hmatched⟩
  · rintro ⟨matched, rest, rfl, hgen⟩
    exact (decides_matchAt items).complete hgen

/-- `re.fullmatch`. -/
def fullmatch (items : List (Item α)) (text : List α) : Bool :=
  (matchAt (items ++ [.look fun _ next ↦ next.isNone]) none text).isSome

/-- `re.search`, from the place after `prev` on. -/
def searchFrom (items : List (Item α)) : Option α → List α → Bool
  | prev, [] => (matchAt items prev []).isSome
  | prev, c :: text => (matchAt items prev (c :: text)).isSome || searchFrom items (some c) text

def search (items : List (Item α)) (text : List α) : Bool := searchFrom items none text

/-! ## The scan -/

inductive Piece (α : Type) where
  | char (c : α)
  | found (matched : List α)

/-- The matches of a pattern in a text, and the characters between them.  After a match of
more than one character the scan skips the rest of it. -/
def pieces (items : List (Item α)) : ℕ → Option α → List α → List (Piece α)
  | _, _, [] => []
  | skip + 1, _, c :: text => pieces items skip (some c) text
  | 0, prev, c :: text =>
      match matchAt items prev (c :: text) with
      | some (_ :: matched) => .found (c :: matched) :: pieces items matched.length (some c) text
      | _ => .char c :: pieces items 0 (some c) text

def Piece.match? : Piece α → Option (List α)
  | .char _ => none
  | .found matched => some matched

/-- `re.findall`, for a pattern that does not match the empty text. -/
def findall (items : List (Item α)) (text : List α) : List (List α) :=
  (pieces items 0 none text).filterMap Piece.match?

/-- `re.sub`, for a pattern that does not match the empty text. -/
def sub (items : List (Item α)) (replacement : List α → List α) (text : List α) : List α :=
  (pieces items 0 none text).flatMap fun
    | .char c => [c]
    | .found matched => replacement matched

theorem pieces_skip (items : List (Item α)) (prev : Option α) (skipped text : List α) :
    pieces items skipped.length prev (skipped ++ text) =
      pieces items 0 (lastOr prev skipped) text := by
  induction skipped generalizing prev with
  | nil => rfl
  | cons c skipped ih =>
      rw [List.length_cons, List.cons_append, pieces, ih, lastOr_cons]

theorem pieces_of_match {items : List (Item α)} {prev : Option α} {c : α}
    {matched rest : List α} (h : matchAt items prev (c :: matched ++ rest) = some (c :: matched)) :
    pieces items 0 prev (c :: matched ++ rest) =
      .found (c :: matched) :: pieces items 0 (lastOr prev (c :: matched)) rest := by
  rw [List.cons_append] at h ⊢
  rw [pieces, h, lastOr_cons, ← pieces_skip]

theorem pieces_of_not_match {items : List (Item α)} {prev : Option α} {c : α} {text : List α}
    (h : ∀ d matched, matchAt items prev (c :: text) ≠ some (d :: matched)) :
    pieces items 0 prev (c :: text) = .char c :: pieces items 0 (some c) text := by
  rw [pieces]
  split
  · next d matched hmatch => exact absurd hmatch (h d matched)
  · rfl

/-- A scan goes on with a match, or with a character where there is none. -/
theorem scan_induction (items : List (Item α)) {motive : Option α → List α → Prop}
    (nil : ∀ prev, motive prev [])
    (found : ∀ prev c matched rest,
      matchAt items prev (c :: matched ++ rest) = some (c :: matched) →
      motive (lastOr prev (c :: matched)) rest → motive prev (c :: matched ++ rest))
    (char : ∀ prev c text, (∀ d matched, matchAt items prev (c :: text) ≠ some (d :: matched)) →
      motive (some c) text → motive prev (c :: text))
    (prev : Option α) (text : List α) : motive prev text := by
  induction hlength : text.length using Nat.strong_induction_on generalizing prev text with
  | _ n ih =>
      cases text with
      | nil => exact nil prev
      | cons c text =>
          by_cases hmatch : ∃ d matched, matchAt items prev (c :: text) = some (d :: matched)
          · obtain ⟨d, matched, hmatched⟩ := hmatch
            obtain ⟨rest, htext, -⟩ := matchAt_sound hmatched
            rw [List.cons_append] at htext
            obtain ⟨rfl, rfl⟩ := List.cons.inj htext
            refine found prev c matched rest hmatched (ih rest.length ?_ _ rest rfl)
            rw [← hlength, List.length_cons, List.length_append]
            omega
          · push Not at hmatch
            refine char prev c text hmatch (ih text.length ?_ _ text rfl)
            rw [← hlength, List.length_cons]
            omega

/-- The text of a piece. -/
def Piece.text : Piece α → List α
  | .char c => [c]
  | .found matched => matched

theorem pieces_text (items : List (Item α)) (prev : Option α) (text : List α) :
    (pieces items 0 prev text).flatMap Piece.text = text := by
  induction prev, text using scan_induction items with
  | nil prev => rfl
  | found prev c matched rest hmatch ih =>
      rw [pieces_of_match hmatch, List.flatMap_cons, ih, Piece.text]
  | char prev c text hmatch ih =>
      rw [pieces_of_not_match hmatch, List.flatMap_cons, ih, Piece.text, List.singleton_append]

/-! ## Literal text -/

/-- `text.replace(old, new)`, for a nonempty `old`. -/
def replace [DecidableEq α] (old new : List α) (text : List α) : List α :=
  sub (literal old) (fun _ ↦ new) text

theorem matchAt_literal [DecidableEq α] (word : List α) (prev : Option α) (text : List α) :
    matchAt (literal word) prev text = if word <+: text then some word else none := by
  induction word generalizing prev text with
  | nil => simp [literal, matchAt]
  | cons c word ih =>
      cases text with
      | nil => simp [literal, matchAt, Item.try]
      | cons d text =>
          rw [literal, List.map_cons, matchAt, Item.try, ← literal, ih]
          by_cases hd : d = c
          · by_cases hword : word <+: text <;> simp [hd, hword, List.cons_prefix_cons]
          · simp [hd, Ne.symm hd, List.cons_prefix_cons]

/-- What stands before a place does not matter to a literal. -/
theorem pieces_literal [DecidableEq α] (word : List α) (skip : ℕ) (prev prev' : Option α)
    (text : List α) :
    pieces (literal word) skip prev text = pieces (literal word) skip prev' text := by
  cases text with
  | nil => cases skip <;> rfl
  | cons c text =>
      cases skip with
      | zero => simp only [pieces, matchAt_literal]
      | succ skip => rfl

theorem replace_append [DecidableEq α] {old : List α} (hne : old ≠ []) (new rest : List α) :
    replace old new (old ++ rest) = new ++ replace old new rest := by
  cases old with
  | nil => exact absurd rfl hne
  | cons c old =>
      have hmatch : matchAt (literal (c :: old)) none (c :: old ++ rest) = some (c :: old) := by
        rw [matchAt_literal, if_pos (List.prefix_append _ _)]
      rw [replace, sub, pieces_of_match hmatch, List.flatMap_cons,
        pieces_literal (c :: old) 0 _ none]
      rfl

theorem replace_cons_of_not [DecidableEq α] {old : List α} (new : List α) {c : α} {text : List α}
    (h : ¬ old <+: c :: text) : replace old new (c :: text) = c :: replace old new text := by
  have hmatch : ∀ d matched, matchAt (literal old) none (c :: text) ≠ some (d :: matched) := by
    intro d matched
    rw [matchAt_literal, if_neg h]
    exact Option.some_ne_none _ ∘ Eq.symm
  rw [replace, sub, pieces_of_not_match hmatch, List.flatMap_cons, pieces_literal old 0 _ none]
  rfl

/-! ## Occurrences -/

/-- The pattern stands for `matched` somewhere in a text. -/
def Occurs (items : List (Item α)) (prev : Option α) (text matched : List α) : Prop :=
  ∃ before rest, text = before ++ matched ++ rest ∧
    Generates items (lastOr prev before) matched rest

/-- The pattern stands for `matched` at a place of a text. -/
def OccursAt (items : List (Item α)) (prev : Option α) (text : List α) (place : ℕ)
    (matched : List α) : Prop :=
  ∃ before rest, text = before ++ matched ++ rest ∧ before.length = place ∧
    Generates items (lastOr prev before) matched rest

theorem occurs_iff {items : List (Item α)} {prev : Option α} {text matched : List α} :
    Occurs items prev text matched ↔ ∃ place, OccursAt items prev text place matched := by
  constructor
  · rintro ⟨before, rest, htext, hgen⟩
    exact ⟨before.length, before, rest, htext, rfl, hgen⟩
  · rintro ⟨place, before, rest, htext, -, hgen⟩
    exact ⟨before, rest, htext, hgen⟩

theorem OccursAt.append {items : List (Item α)} {prev : Option α} {text matched : List α}
    {place : ℕ} (front : List α) (h : OccursAt items (lastOr prev front) text place matched) :
    OccursAt items prev (front ++ text) (front.length + place) matched := by
  obtain ⟨before, rest, rfl, rfl, hgen⟩ := h
  refine ⟨front ++ before, rest, by simp, List.length_append, ?_⟩
  rwa [lastOr_append]

/-- The matches among the pieces, with the places where they start. -/
def located : ℕ → List (Piece α) → List (ℕ × List α)
  | _, [] => []
  | place, .char _ :: pieces => located (place + 1) pieces
  | place, .found matched :: pieces => (place, matched) :: located (place + matched.length) pieces

/-- `re.finditer`, for a pattern that does not match the empty text. -/
def finditer (items : List (Item α)) (text : List α) : List (ℕ × List α) :=
  located 0 (pieces items 0 none text)

theorem map_located (place : ℕ) (found : List (Piece α)) :
    (located place found).map Prod.snd = found.filterMap Piece.match? := by
  induction found generalizing place with
  | nil => rfl
  | cons piece found ih =>
      cases piece with
      | char c =>
          rw [located, ih]
          rfl
      | found matched =>
          rw [located, List.map_cons, ih]
          rfl

theorem map_finditer (items : List (Item α)) (text : List α) :
    (finditer items text).map Prod.snd = findall items text :=
  map_located 0 _

theorem exists_mem_located_iff (place : ℕ) (found : List (Piece α)) (matched : List α) :
    (∃ start, (start, matched) ∈ located place found) ↔ Piece.found matched ∈ found := by
  have hmatch : ∀ piece : Piece α, piece.match? = some matched ↔ piece = .found matched := by
    intro piece
    cases piece <;> simp [Piece.match?]
  calc (∃ start, (start, matched) ∈ located place found)
      ↔ matched ∈ (located place found).map Prod.snd := by simp
    _ ↔ Piece.found matched ∈ found := by simp [map_located, List.mem_filterMap, hmatch]

theorem le_of_mem_located {place start : ℕ} {found : List (Piece α)} {matched : List α}
    (h : (start, matched) ∈ located place found) : place ≤ start := by
  induction found generalizing place with
  | nil => exact nomatch h
  | cons piece found ih =>
      cases piece with
      | char c => exact (Nat.le_succ place).trans (ih h)
      | found first =>
          rcases List.mem_cons.mp h with heq | hlater
          · exact (Prod.mk.inj heq).1.ge
          · exact (Nat.le_add_right place first.length).trans (ih hlater)

/-- The scan goes forward. -/
theorem pairwise_located (items : List (Item α)) (prev : Option α) (text : List α) (place : ℕ) :
    (located place (pieces items 0 prev text)).Pairwise fun m later ↦ m.1 < later.1 := by
  induction prev, text using scan_induction items generalizing place with
  | nil prev => exact List.Pairwise.nil
  | found prev c matched rest hmatch ih =>
      rw [pieces_of_match hmatch, located, List.pairwise_cons]
      refine ⟨?_, ih _⟩
      rintro ⟨start, later⟩ hlater
      have hle := le_of_mem_located hlater
      rw [List.length_cons] at hle
      change place < start
      omega
  | char prev c text hmatch ih =>
      rw [pieces_of_not_match hmatch, located]
      exact ih _

theorem occursAt_of_mem_located {items : List (Item α)} (prev : Option α) (text : List α)
    {place start : ℕ} {matched : List α}
    (h : (start, matched) ∈ located place (pieces items 0 prev text)) :
    matched ≠ [] ∧ ∃ gap, start = place + gap ∧ OccursAt items prev text gap matched := by
  induction prev, text using scan_induction items generalizing place with
  | nil prev => exact nomatch h
  | found prev c first rest hmatch ih =>
      rw [pieces_of_match hmatch, located] at h
      rcases List.mem_cons.mp h with heq | hlater
      · obtain ⟨rfl, rfl⟩ := Prod.mk.inj heq
        obtain ⟨rest', htext, hgen⟩ := matchAt_sound hmatch
        obtain rfl := List.append_cancel_left htext
        exact ⟨List.cons_ne_nil _ _, 0, rfl, [], rest, rfl, rfl, hgen⟩
      · obtain ⟨hne, gap, rfl, hoccurs⟩ := ih hlater
        exact ⟨hne, _, Nat.add_assoc _ _ _, hoccurs.append (c :: first)⟩
  | char prev c text hmatch ih =>
      rw [pieces_of_not_match hmatch, located] at h
      obtain ⟨hne, gap, rfl, hoccurs⟩ := ih h
      exact ⟨hne, _, Nat.add_assoc _ _ _, hoccurs.append [c]⟩

theorem occurs_of_found {items : List (Item α)} (prev : Option α) (text : List α)
    {matched : List α} (h : Piece.found matched ∈ pieces items 0 prev text) :
    matched ≠ [] ∧ Occurs items prev text matched := by
  obtain ⟨start, hstart⟩ := (exists_mem_located_iff 0 _ matched).mpr h
  obtain ⟨hne, gap, -, hoccurs⟩ := occursAt_of_mem_located prev text hstart
  exact ⟨hne, occurs_iff.mpr ⟨gap, hoccurs⟩⟩

/-- No two matches of the pattern overlap. -/
structure Apart (items : List (Item α)) : Prop where
  unique : ∀ {prev matched rest matched' rest'}, Generates items prev matched rest →
    Generates items prev matched' rest' → matched ++ rest = matched' ++ rest' → matched = matched'
  inside : ∀ {prev before after rest matched rest'}, Generates items prev (before ++ after) rest →
    before ≠ [] → after ≠ [] → Generates items (lastOr prev before) matched rest' →
    matched ++ rest' = after ++ rest → False

/-- Where matches do not overlap the scan finds every occurrence. -/
theorem Apart.mem_located_of_occursAt {items : List (Item α)} (h : Apart items) (prev : Option α)
    (text : List α) (place : ℕ) {gap : ℕ} {matched : List α} (hne : matched ≠ [])
    (hoccurs : OccursAt items prev text gap matched) :
    (place + gap, matched) ∈ located place (pieces items 0 prev text) := by
  induction prev, text using scan_induction items generalizing place gap with
  | nil prev =>
      obtain ⟨before, rest, htext, -⟩ := hoccurs
      simp [hne] at htext
  | found prev c first rest hmatch ih =>
      rw [pieces_of_match hmatch, located]
      obtain ⟨before, after, htext, rfl, hgen⟩ := hoccurs
      obtain ⟨rest', hrest, hfirst⟩ := matchAt_sound hmatch
      obtain rfl := List.append_cancel_left hrest
      -- an occurrence that starts after the match is found in what is left
      have hlater : ∀ tail, before = c :: first ++ tail → rest = tail ++ matched ++ after →
          (place + before.length, matched) ∈
            located (place + (c :: first).length)
              (pieces items 0 (lastOr prev (c :: first)) rest) := by
        rintro tail rfl hrest
        rw [List.length_append, ← Nat.add_assoc]
        refine ih _ ⟨tail, after, hrest, rfl, ?_⟩
        rwa [← lastOr_append]
      rw [List.append_assoc] at htext
      rcases List.append_eq_append_iff.mp htext with ⟨tail, hbefore, hafter⟩ | ⟨inner, hinner, hafter⟩
      · exact List.mem_cons_of_mem _ (hlater tail hbefore (by rw [hafter, List.append_assoc]))
      · cases inner with
        | nil =>
            rw [List.append_nil] at hinner
            exact List.mem_cons_of_mem _
              (hlater [] (by rw [hinner, List.append_nil]) (by simpa using hafter.symm))
        | cons i inner =>
            rw [hinner] at hfirst
            cases before with
            | nil =>
                have hsame := h.unique hgen hfirst (by rw [hafter, List.nil_append])
                rw [hsame, ← hinner]
                exact List.mem_cons_self
            | cons b before =>
                exact absurd hafter fun heq ↦
                  h.inside hfirst (List.cons_ne_nil _ _) (List.cons_ne_nil _ _) hgen heq
  | char prev c text hmatch ih =>
      rw [pieces_of_not_match hmatch, located]
      obtain ⟨before, after, htext, rfl, hgen⟩ := hoccurs
      cases before with
      | nil =>
          have hsome := (isSome_matchAt_iff items prev (c :: text)).mpr ⟨matched, after, htext, hgen⟩
          obtain ⟨found, hfound⟩ := Option.isSome_iff_exists.mp hsome
          cases found with
          | cons d more => exact absurd hfound (hmatch d more)
          | nil =>
              obtain ⟨rest, hrest, hempty⟩ := matchAt_sound hfound
              exact absurd (h.unique hgen hempty (by rw [← hrest, htext, List.nil_append])) hne
      | cons b before =>
          obtain ⟨rfl, rfl⟩ := List.cons.inj htext
          rw [List.length_cons, Nat.add_comm before.length, ← Nat.add_assoc]
          exact ih _ ⟨before, after, rfl, rfl, by rwa [lastOr_cons] at hgen⟩

theorem Apart.mem_finditer_iff {items : List (Item α)} (h : Apart items) (text : List α) (place : ℕ)
    (matched : List α) :
    (place, matched) ∈ finditer items text ↔ matched ≠ [] ∧ OccursAt items none text place matched := by
  constructor
  · intro hmem
    obtain ⟨hne, gap, rfl, hoccurs⟩ := occursAt_of_mem_located none text hmem
    rw [Nat.zero_add]
    exact ⟨hne, hoccurs⟩
  · rintro ⟨hne, hoccurs⟩
    rw [← Nat.zero_add place]
    exact h.mem_located_of_occursAt none text 0 hne hoccurs

theorem Apart.mem_findall_iff {items : List (Item α)} (h : Apart items) (text matched : List α) :
    matched ∈ findall items text ↔ matched ≠ [] ∧ Occurs items none text matched := by
  simp only [← map_finditer, List.mem_map, Prod.exists, exists_eq_right, h.mem_finditer_iff,
    exists_and_left, occurs_iff]

end Patterns
