import AgenticSDLC.Foundations.Spans

/-!
# Well nested tags

A text of characters and tags is read with the stack of the open tags.  In a text where one
tag is opened and closed in turn, another pair of tags nests with it when both its tags stand
in one stretch between the turns, or both outside.
-/

namespace Nesting

open Patterns
open Spans

variable {κ τ α : Type}

inductive Token (κ τ : Type) where
  | char (c : κ)
  | opens (tag : τ)
  | closes (tag : τ)
  deriving DecidableEq

def Token.isTag : Token κ τ → Bool
  | .char _ => false
  | _ => true

section Stack

variable [DecidableEq τ]

def step (stack : List τ) : Token κ τ → Option (List τ)
  | .char _ => some stack
  | .opens tag => some (tag :: stack)
  | .closes tag => if stack.head? = some tag then some stack.tail else none

/-- The open tags after a text, where each closing tag closes the last open one. -/
def run (stack : List τ) (tokens : List (Token κ τ)) : Option (List τ) := tokens.foldlM step stack

def WellNested (tokens : List (Token κ τ)) : Prop := run [] tokens = some []

instance (tokens : List (Token κ τ)) : Decidable (WellNested tokens) :=
  inferInstanceAs (Decidable (run [] tokens = some []))

@[simp] theorem run_nil (stack : List τ) : run stack ([] : List (Token κ τ)) = some stack := rfl

@[simp] theorem run_char (stack : List τ) (c : κ) (tokens : List (Token κ τ)) :
    run stack (.char c :: tokens) = run stack tokens := rfl

@[simp] theorem run_opens (stack : List τ) (tag : τ) (tokens : List (Token κ τ)) :
    run stack (.opens tag :: tokens) = run (tag :: stack) tokens := rfl

@[simp] theorem run_closes (stack : List τ) (tag : τ) (tokens : List (Token κ τ)) :
    run (tag :: stack) (.closes tag :: tokens) = run stack tokens := by
  simp [run, step]

theorem run_append (stack : List τ) (tokens more : List (Token κ τ)) :
    run stack (tokens ++ more) = (run stack tokens).bind fun stack ↦ run stack more :=
  List.foldlM_append

theorem run_append_of_eq_some {stack stack' : List τ} {tokens : List (Token κ τ)}
    (h : run stack tokens = some stack') (more : List (Token κ τ)) :
    run stack (tokens ++ more) = run stack' more := by
  rw [run_append, h, Option.bind_some]

/-- A part of a text that can be read can be read where it stands. -/
theorem exists_run_of_infix {stack stack' : List τ} {part tokens : List (Token κ τ)}
    (h : run stack tokens = some stack') (hpart : part <:+: tokens) :
    ∃ before after, run before part = some after := by
  obtain ⟨first, last, rfl⟩ := hpart
  rw [List.append_assoc, run_append, Option.bind_eq_some_iff] at h
  obtain ⟨before, -, h⟩ := h
  rw [run_append, Option.bind_eq_some_iff] at h
  obtain ⟨after, h, -⟩ := h
  exact ⟨before, after, h⟩

/-- A tag is not closed by a text without it, and not opened again. -/
theorem run_above {tag : τ} {tokens : List (Token κ τ)} (hopens : .opens tag ∉ tokens)
    (hcloses : .closes tag ∉ tokens) {above stack stack' : List τ} (habove : tag ∉ above)
    (h : run (above ++ tag :: stack) tokens = some stack') :
    ∃ above', tag ∉ above' ∧ stack' = above' ++ tag :: stack := by
  induction tokens generalizing above with
  | nil => exact ⟨above, habove, (Option.some.inj h).symm⟩
  | cons token tokens ih =>
      obtain ⟨hopen, hmoreOpens⟩ := not_or.mp (mt List.mem_cons.mpr hopens)
      obtain ⟨hclose, hmoreCloses⟩ := not_or.mp (mt List.mem_cons.mpr hcloses)
      cases token with
      | char c => exact ih hmoreOpens hmoreCloses habove h
      | opens other =>
          have hother : tag ∉ other :: above := by
            rw [List.mem_cons, not_or]
            exact ⟨fun heq ↦ hopen (congrArg Token.opens heq), habove⟩
          exact ih hmoreOpens hmoreCloses hother h
      | closes other =>
          cases above with
          | nil =>
              have hne : tag ≠ other := fun heq ↦ hclose (congrArg Token.closes heq)
              simp [run, step, hne] at h
          | cons first above =>
              by_cases hfirst : first = other
              · subst hfirst
                rw [List.cons_append, run_closes] at h
                exact ih hmoreOpens hmoreCloses (fun hmem ↦ habove (List.mem_cons_of_mem _ hmem)) h
              · simp [run, step, hfirst] at h

/-- A text between two tags that stands for itself leaves the open tags as they were. -/
theorem run_between {tag : τ} {tokens : List (Token κ τ)} (hopens : .opens tag ∉ tokens)
    (hcloses : .closes tag ∉ tokens) {stack stack' : List τ}
    (h : run stack (.opens tag :: tokens ++ [.closes tag]) = some stack') :
    run (tag :: stack) tokens = some (tag :: stack) := by
  rw [List.cons_append, run_opens, run_append, Option.bind_eq_some_iff] at h
  obtain ⟨inner, hinner, hclose⟩ := h
  have hempty : tag ∉ ([] : List τ) := List.not_mem_nil
  obtain ⟨above, habove, rfl⟩ := run_above hopens hcloses hempty hinner
  cases above with
  | nil => exact hinner
  | cons first above =>
      have hne : first ≠ tag := fun heq ↦ habove (heq ▸ List.mem_cons_self)
      simp [run, step, hne] at hclose

theorem run_wrap {tag : τ} {tokens : List (Token κ τ)} {stack : List τ}
    (h : run (tag :: stack) tokens = some (tag :: stack)) :
    run stack (.opens tag :: tokens ++ [.closes tag]) = some stack := by
  rw [List.cons_append, run_opens, run_append_of_eq_some h, run_closes, run_nil]

end Stack

/-! ## One tag that is opened and closed in turn -/

/-- Two places, by the number of turns before them, in one stretch or both outside. -/
def SameZone (m n : ℕ) : Prop := m = n ∨ (m % 2 = 0 ∧ n % 2 = 0)

/-- The tag that is open after `n` turns. -/
def turned (turn : τ) (n : ℕ) : List τ := if n % 2 = 0 then [] else [turn]

/-- A text that leads from one number of turns to another: its other tags come in pairs that
nest with the turns. -/
inductive Follows (turn : τ) : ℕ → List (Token κ τ) → ℕ → Prop
  | nil (n : ℕ) : Follows turn n [] n
  | char (n : ℕ) (c : κ) : Follows turn n [.char c] n
  | opens {n : ℕ} (hn : n % 2 = 0) : Follows turn n [.opens turn] (n + 1)
  | closes {n : ℕ} (hn : n % 2 = 1) : Follows turn n [.closes turn] (n + 1)
  | append {m n k : ℕ} {tokens more : List (Token κ τ)} (hfirst : Follows turn m tokens n)
      (hmore : Follows turn n more k) : Follows turn m (tokens ++ more) k
  | wrap {m n : ℕ} {tokens : List (Token κ τ)} (tag : τ) (hzone : SameZone m n)
      (hinner : Follows turn m tokens n) :
      Follows turn m (.opens tag :: tokens ++ [.closes tag]) n

namespace Follows

variable {turn : τ} {m n : ℕ} {tokens : List (Token κ τ)}

theorem le (h : Follows turn m tokens n) : m ≤ n := by
  induction h with
  | nil n => exact le_refl n
  | char n c => exact le_refl n
  | opens hn => exact Nat.le_succ _
  | closes hn => exact Nat.le_succ _
  | append hfirst hmore ihfirst ihmore => exact ihfirst.trans ihmore
  | wrap tag hzone hinner ih => exact ih

theorem eq_of_chars (h : Follows turn m tokens n) (hchars : ∀ t ∈ tokens, t.isTag = false) :
    m = n := by
  induction h with
  | nil n => rfl
  | char n c => rfl
  | opens hn => exact nomatch hchars _ List.mem_cons_self
  | closes hn => exact nomatch hchars _ List.mem_cons_self
  | append hfirst hmore ihfirst ihmore =>
      obtain ⟨hleft, hright⟩ := List.forall_mem_append.mp hchars
      exact (ihfirst hleft).trans (ihmore hright)
  | wrap tag hzone hinner ih => exact nomatch hchars _ List.mem_cons_self

variable [DecidableEq τ]

/-- Without a turn the open tags stay, whatever they are. -/
theorem run_of_eq (h : Follows turn m tokens n) (heq : m = n) (stack : List τ) :
    run stack tokens = some stack := by
  induction h generalizing stack with
  | nil n => rfl
  | char n c => rfl
  | opens hn => omega
  | closes hn => omega
  | append hfirst hmore ihfirst ihmore =>
      have hle := hfirst.le
      have hle' := hmore.le
      rw [run_append_of_eq_some (ihfirst (by omega) stack), ihmore (by omega)]
  | wrap tag hzone hinner ih => exact run_wrap (ih heq _)

theorem run_turned (h : Follows turn m tokens n) (stack : List τ) :
    run (turned turn m ++ stack) tokens = some (turned turn n ++ stack) := by
  induction h generalizing stack with
  | nil n => rfl
  | char n c => rfl
  | opens hn => simp [turned, hn, Nat.add_mod]
  | closes hn => simp [turned, hn, Nat.add_mod]
  | append hfirst hmore ihfirst ihmore =>
      rw [run_append_of_eq_some (ihfirst stack), ihmore]
  | wrap tag hzone hinner ih =>
      rcases hzone with heq | ⟨hm, hn⟩
      · rw [← heq]
        exact run_wrap (hinner.run_of_eq heq _)
      · simp only [turned, hm, hn, if_true, List.nil_append] at ih ⊢
        exact run_wrap (ih _)

theorem run_of_sameZone (h : Follows turn m tokens n) (hzone : SameZone m n) (stack : List τ) :
    run stack tokens = some stack := by
  rcases hzone with heq | ⟨hm, hn⟩
  · exact h.run_of_eq heq stack
  · simpa [turned, hm, hn] using h.run_turned stack

/-- Under another tag the first turn has to open. -/
theorem run_other (h : Follows turn m tokens n) {stack stack' : List τ}
    (hstack : stack.head? ≠ some turn) (hrun : run stack tokens = some stack') :
    (m = n ∧ stack' = stack) ∨ (m % 2 = 0 ∧ stack' = turned turn n ++ stack) := by
  induction h generalizing stack' with
  | nil n => exact Or.inl ⟨rfl, (Option.some.inj hrun).symm⟩
  | char n c => exact Or.inl ⟨rfl, (Option.some.inj hrun).symm⟩
  | opens hn =>
      refine Or.inr ⟨hn, ?_⟩
      rw [← Option.some.inj hrun]
      simp [turned, Nat.add_mod, hn]
  | closes hn => simp [run, step, hstack] at hrun
  | append hfirst hmore ihfirst ihmore =>
      rw [run_append, Option.bind_eq_some_iff] at hrun
      obtain ⟨middle, hmiddle, hrun⟩ := hrun
      rcases ihfirst hmiddle with ⟨rfl, rfl⟩ | ⟨hm, rfl⟩
      · exact ihmore hrun
      · rw [hmore.run_turned] at hrun
        exact Or.inr ⟨hm, (Option.some.inj hrun).symm⟩
  | wrap tag hzone hinner ih =>
      rw [(wrap tag hzone hinner).run_of_sameZone hzone] at hrun
      rcases hzone with heq | ⟨hm, hn⟩
      · exact Or.inl ⟨heq, (Option.some.inj hrun).symm⟩
      · exact Or.inr ⟨hm, by simp [turned, hn, Option.some.inj hrun]⟩

/-- What stands between the tags of a pair has to be in one zone. -/
theorem sameZone_of_run (h : Follows turn m tokens n) {tag : τ} (htag : tag ≠ turn)
    {stack : List τ} (hrun : run (tag :: stack) tokens = some (tag :: stack)) : SameZone m n := by
  rcases h.run_other (by simpa using htag) hrun with ⟨heq, -⟩ | ⟨hm, hstack⟩
  · exact Or.inl heq
  · refine Or.inr ⟨hm, ?_⟩
    by_contra hn
    simp [turned, hn] at hstack

end Follows

/-! ## Texts with turns -/

/-- A token of a text, with the number of tags before it. -/
structure Placed (κ τ : Type) where
  token : Token κ τ
  zone : ℕ

def place : ℕ → List (Token κ τ) → List (Placed κ τ)
  | _, [] => []
  | n, t :: tokens => ⟨t, n⟩ :: place (n + if t.isTag then 1 else 0) tokens

@[simp] theorem map_token_place (n : ℕ) (tokens : List (Token κ τ)) :
    (place n tokens).map Placed.token = tokens := by
  induction tokens generalizing n with
  | nil => rfl
  | cons t tokens ih => rw [place, List.map_cons, ih]

/-- A text of any alphabet whose characters stand for tokens, read from a number of turns to
another.  A character knows the number before it. -/
inductive Walk (turn : τ) (tokens : α → List (Token κ τ)) (zone : α → ℕ) :
    ℕ → List α → ℕ → Prop
  | nil (n : ℕ) : Walk turn tokens zone n [] n
  | cons {a : α} {m n : ℕ} {xs : List α} (hfirst : Follows turn (zone a) (tokens a) m)
      (hrest : Walk turn tokens zone m xs n) : Walk turn tokens zone (zone a) (a :: xs) n

namespace Walk

variable {turn : τ} {tokens : α → List (Token κ τ)} {zone : α → ℕ} {m n : ℕ}

theorem follows {xs : List α} (h : Walk turn tokens zone m xs n) :
    Follows turn m (xs.flatMap tokens) n := by
  induction h with
  | nil n => exact Follows.nil n
  | cons hfirst hrest ih => exact hfirst.append ih

theorem append {xs ys : List α} {k : ℕ} (h : Walk turn tokens zone m xs n)
    (hmore : Walk turn tokens zone n ys k) : Walk turn tokens zone m (xs ++ ys) k := by
  induction h with
  | nil n => exact hmore
  | cons hfirst hrest ih => exact cons hfirst (ih hmore)

theorem exists_of_append {xs ys : List α} (h : Walk turn tokens zone m (xs ++ ys) n) :
    ∃ k, Walk turn tokens zone m xs k ∧ Walk turn tokens zone k ys n := by
  induction xs generalizing m with
  | nil => exact ⟨m, nil m, h⟩
  | cons a xs ih =>
      cases h with
      | cons hfirst hrest =>
          obtain ⟨k, hxs, hys⟩ := ih hrest
          exact ⟨k, cons hfirst hxs, hys⟩

theorem of_chars {xs : List α} (h : Walk turn tokens zone m xs n)
    (hchars : ∀ a ∈ xs, ∃ c, tokens a = [.char c]) : m = n ∧ ∀ a ∈ xs, zone a = m := by
  induction h with
  | nil n => exact ⟨rfl, List.forall_mem_nil _⟩
  | @cons a m n xs hfirst hrest ih =>
      obtain ⟨⟨c, hc⟩, hmore⟩ := List.forall_mem_cons.mp hchars
      have hstay : zone a = m := by
        apply hfirst.eq_of_chars
        simp [hc, Token.isTag]
      obtain ⟨rfl, hzones⟩ := ih hmore
      exact ⟨hstay, List.forall_mem_cons.mpr ⟨rfl, hstay ▸ hzones⟩⟩

end Walk

/-! ## Spans as tags -/

/-- The tokens of a text in which the spans of a rule stand between tags. -/
def spanTokens (rule : Rule) (tag : τ) (tokens : α → List (Token κ τ)) :
    Piece α → List (Token κ τ)
  | .char a => tokens a
  | .found matched => .opens tag :: (rule.body matched).flatMap tokens ++ [.closes tag]

def pieceZone (zone : α → ℕ) : Piece α → ℕ
  | .char a => zone a
  | .found matched => matched.head?.elim 0 zone

/-- Where the tokens of a text with spans come from. -/
theorem mem_spanTokens {rule : Rule} {tag : τ} {tokens : α → List (Token κ τ)}
    {items : List (Item α)} {prev : Option α} {xs : List α} {piece : Piece α} {t : Token κ τ}
    (hpiece : piece ∈ pieces items 0 prev xs) (ht : t ∈ spanTokens rule tag tokens piece) :
    t = .opens tag ∨ t = .closes tag ∨ ∃ a ∈ xs, t ∈ tokens a := by
  have hmem : ∀ a ∈ piece.text, a ∈ xs := by
    intro a ha
    rw [← pieces_text items prev xs]
    exact List.mem_flatMap.mpr ⟨piece, hpiece, ha⟩
  cases piece with
  | char a => exact Or.inr (Or.inr ⟨a, hmem a List.mem_cons_self, ht⟩)
  | found matched =>
      rw [spanTokens, List.mem_append, List.mem_cons, List.mem_singleton] at ht
      rcases ht with (hopens | hinner) | hcloses
      · exact Or.inl hopens
      · obtain ⟨a, ha, hta⟩ := List.mem_flatMap.mp hinner
        exact Or.inr (Or.inr ⟨a, hmem a (Rule.mem_of_mem_body ha), hta⟩)
      · exact Or.inr (Or.inl hcloses)

/-- The two markers of a span stand in one zone. -/
def Uncut (zone : α → ℕ) (matched : List α) : Prop :=
  ∀ a ∈ matched.head?, ∀ b ∈ matched.getLast?, SameZone (zone a) (zone b)

section Walks

variable {rule : Rule} {isMark : α → Bool} {turn : τ} {tokens : α → List (Token κ τ)}
  {zone : α → ℕ} {m n : ℕ} {prev : Option α}

/-- What a walk does on a span, whose marks are characters of the text. -/
theorem Walk.exists_of_span {opening body closing rest : List α}
    (h : Walk turn tokens zone m (opening ++ body ++ closing ++ rest) n)
    (hchars : ∀ a, isMark a = true → ∃ c, tokens a = [.char c])
    (hspan : IsSpan rule isMark prev opening body closing rest) :
    ∃ k, Walk turn tokens zone m body k ∧ Walk turn tokens zone k rest n ∧
      (Uncut zone (opening ++ body ++ closing) ↔ SameZone m k) ∧
      pieceZone zone (.found (opening ++ body ++ closing)) = m := by
  obtain ⟨k, h, hrest⟩ := h.exists_of_append
  obtain ⟨j, h, hclosing⟩ := h.exists_of_append
  obtain ⟨i, hopening, hbody⟩ := h.exists_of_append
  obtain ⟨rfl, hzones⟩ := hopening.of_chars fun a ha ↦ hchars a (hspan.opening_marks a ha)
  obtain ⟨rfl, hzones'⟩ := hclosing.of_chars fun a ha ↦ hchars a (hspan.closing_marks a ha)
  obtain ⟨first, opens, rfl⟩ := List.exists_cons_of_length_pos
    (hspan.opening_length ▸ rule.pos)
  have hne : closing ≠ [] := List.ne_nil_of_length_pos (hspan.closing_length ▸ rule.pos)
  obtain ⟨closes, last, rfl⟩ := (List.eq_nil_or_concat' closing).resolve_left hne
  have hfirst : zone first = m := hzones first List.mem_cons_self
  refine ⟨j, hbody, hrest, ?_, hfirst⟩
  have hlast : zone last = j := hzones' last (List.mem_append_right _ List.mem_cons_self)
  have hend : (first :: opens ++ body ++ (closes ++ [last])).getLast? = some last := by
    rw [← List.append_assoc, List.getLast?_concat]
  rw [Uncut, hend]
  simp [hfirst, hlast]

/-- Between two tags that are no turns, a span can be read when it is uncut. -/
theorem Walk.uncut_of_run [DecidableEq τ] {tag : τ} {xs matched : List α}
    (h : Walk turn tokens zone m xs n)
    (hchars : ∀ a, isMark a = true → ∃ c, tokens a = [.char c])
    (hmatched : .found matched ∈ pieces (rule.pattern isMark) 0 prev xs) (htag : tag ≠ turn)
    (hfree : ∀ a ∈ xs, .opens tag ∉ tokens a ∧ .closes tag ∉ tokens a) {stack stack' : List τ}
    (hrun : run stack (spanTokens rule tag tokens (.found matched)) = some stack') :
    Uncut zone matched := by
  obtain ⟨before, opening, body, closing, rest, rfl, rfl, hspan⟩ :=
    exists_isSpan_of_found hmatched
  obtain ⟨i, -, h⟩ := h.exists_of_append
  obtain ⟨k, hbody, -, huncut, -⟩ := h.exists_of_span hchars hspan
  rw [spanTokens, rule.body_eq hspan.opening_length hspan.closing_length] at hrun
  have hinside : ∀ a ∈ body, a ∈ before ++ (opening ++ body ++ closing ++ rest) := by
    intro a ha
    simp [ha]
  have hopens : .opens tag ∉ body.flatMap tokens := by
    intro hmem
    obtain ⟨a, ha, hmem⟩ := List.mem_flatMap.mp hmem
    exact (hfree a (hinside a ha)).1 hmem
  have hcloses : .closes tag ∉ body.flatMap tokens := by
    intro hmem
    obtain ⟨a, ha, hmem⟩ := List.mem_flatMap.mp hmem
    exact (hfree a (hinside a ha)).2 hmem
  exact huncut.mpr (hbody.follows.sameZone_of_run htag (run_between hopens hcloses hrun))

/-- A text with uncut spans between tags is a text with turns again. -/
theorem Walk.pieces {xs : List α} (tag : τ) (h : Walk turn tokens zone m xs n)
    (hchars : ∀ a, isMark a = true → ∃ c, tokens a = [.char c])
    (huncut : ∀ matched, .found matched ∈ Patterns.pieces (rule.pattern isMark) 0 prev xs →
      Uncut zone matched) :
    Walk turn (spanTokens rule tag tokens) (pieceZone zone) m
      (Patterns.pieces (rule.pattern isMark) 0 prev xs) n := by
  induction prev, xs using scan_induction (rule.pattern isMark) generalizing m with
  | nil prev =>
      cases h with
      | nil n => exact nil n
  | found prev c matched rest hmatch ih =>
      rw [pieces_of_match hmatch] at huncut ⊢
      obtain ⟨hfirst, hmore⟩ : Uncut zone (c :: matched) ∧ _ :=
        ⟨huncut _ List.mem_cons_self, fun other hother ↦ huncut other (List.mem_cons_of_mem _ hother)⟩
      obtain ⟨opening, body, closing, rest', hsplit, htext, hspan⟩ :=
        (matchAt_eq_some_iff ..).mp hmatch
      obtain rfl := List.append_cancel_left htext
      rw [hsplit] at h hfirst
      obtain ⟨k, hbody, hrest, hzones, hzone⟩ := h.exists_of_span hchars hspan
      rw [← hsplit] at hzone
      rw [← hzone]
      refine cons ?_ (ih hrest hmore)
      rw [hzone, spanTokens, hsplit, rule.body_eq hspan.opening_length hspan.closing_length]
      exact hbody.follows.wrap tag (hzones.mp hfirst)
  | char prev c text hmatch ih =>
      rw [pieces_of_not_match hmatch] at huncut ⊢
      cases h with
      | cons hfirst hrest =>
          apply cons (a := Piece.char c) hfirst
          exact ih hrest fun other hother ↦ huncut other (List.mem_cons_of_mem _ hother)

/-- Plain characters stand for the same tokens beside the spans and inside. -/
theorem infix_of_plain (tag : τ) {xs : List α} {a : α} (ha : a ∈ xs) (hplain : isMark a = false) :
    tokens a <:+:
      (Patterns.pieces (rule.pattern isMark) 0 prev xs).flatMap (spanTokens rule tag tokens) := by
  induction prev, xs using scan_induction (rule.pattern isMark) with
  | nil prev => exact nomatch ha
  | found prev c matched rest hmatch ih =>
      rw [pieces_of_match hmatch, List.flatMap_cons]
      rcases List.mem_append.mp ha with ha | ha
      · apply List.infix_append_of_infix_left
        obtain ⟨opening, body, closing, rest', hsplit, -, hspan⟩ :=
          (matchAt_eq_some_iff ..).mp hmatch
        rw [spanTokens, hsplit, rule.body_eq hspan.opening_length hspan.closing_length]
        have hbody : a ∈ body := by
          rw [hsplit, List.mem_append, List.mem_append] at ha
          rcases ha with (ha | ha) | ha
          · exact absurd (hplain.symm.trans (hspan.opening_marks a ha)) (by decide)
          · exact ha
          · exact absurd (hplain.symm.trans (hspan.closing_marks a ha)) (by decide)
        apply List.infix_append_of_infix_left
        apply List.infix_cons
        exact List.infix_of_mem_flatten (List.mem_map_of_mem hbody)
      · exact List.infix_append_of_infix_right (ih ha)
  | char prev c text hmatch ih =>
      rw [pieces_of_not_match hmatch, List.flatMap_cons]
      rcases List.mem_cons.mp ha with rfl | ha
      · exact (List.prefix_append _ _).isInfix
      · exact List.infix_append_of_infix_right (ih ha)

end Walks

end Nesting
