import AgenticSDLC.Foundations.Html
import AgenticSDLC.Foundations.Nesting
import AgenticSDLC.Foundations.Python

/-!
# Markdown to HTML

`md_to_html` of `plane-integration/apply_delta.py`.  The lines of a text become headings, list
items and paragraphs, and in each of these code, bold and italic spans are substituted one after
another.  A later substitution does not look at the tags of an earlier one.
-/

namespace AgenticSDLC.MarkdownHtml

open Html
open Nesting
open Patterns
open Spans

inductive Tag where
  | ul | ol | li | p | h3 | h4 | h5 | h6 | code | b | i
  deriving DecidableEq

def Tag.name : Tag → List Char
  | .ul => ['u', 'l']
  | .ol => ['o', 'l']
  | .li => ['l', 'i']
  | .p => ['p']
  | .h3 => ['h', '3']
  | .h4 => ['h', '4']
  | .h5 => ['h', '5']
  | .h6 => ['h', '6']
  | .code => ['c', 'o', 'd', 'e']
  | .b => ['b']
  | .i => ['i']

/-- The tag of a heading, whose level is one of 3 to 6. -/
def Tag.ofLevel : ℕ → Tag
  | 3 => .h3
  | 4 => .h4
  | 5 => .h5
  | _ => .h6

def openTag (tag : Tag) : List Char := '<' :: tag.name ++ ['>']

def closeTag (tag : Tag) : List Char := '<' :: '/' :: tag.name ++ ['>']

/-! ## Inline text -/

def backtick : Char := '\x60'

/-- The expression of code spans: a backtick, a text without one, a backtick. -/
def codePattern : List (Item Char) :=
  [.one (· == backtick), .one (· != backtick), .many (· != backtick), .one (· == backtick)]

/-- `\*\*([^*]+)\*\*`. -/
def boldPattern : List (Item Char) :=
  [.one (· == '*'), .one (· == '*'), .one (· != '*'), .many (· != '*'), .one (· == '*'),
    .one (· == '*')]

/-- `(?<!\*)\*([^*]+)\*(?!\*)`. -/
def italicPattern : List (Item Char) :=
  [.look fun prev _ ↦ !prev.any (· == '*'), .one (· == '*'), .one (· != '*'), .many (· != '*'),
    .one (· == '*'), .look fun _ next ↦ !next.any (· == '*')]

def codeRule : Rule := ⟨1, false, by decide⟩

def boldRule : Rule := ⟨2, false, by decide⟩

def italicRule : Rule := ⟨1, true, by decide⟩

/-- The group `\1` of a match, between tags. -/
def substituted (rule : Rule) (tag : Tag) (matched : List Char) : List Char :=
  openTag tag ++ rule.body matched ++ closeTag tag

def esc (s : List Char) : List Char := s.flatMap escapeMarkup

def inline (t : List Char) : List Char :=
  let t := esc t
  let t := sub codePattern (substituted codeRule .code) t
  let t := sub boldPattern (substituted boldRule .b) t
  sub italicPattern (substituted italicRule .i) t

/-! ## Lines -/

/-- The digits of value zero: each begins a run of ten decimal digits. -/
def decimalZeros : List ℕ :=
  [0x30, 0x660, 0x6f0, 0x7c0, 0x966, 0x9e6, 0xa66, 0xae6, 0xb66, 0xbe6, 0xc66, 0xce6, 0xd66, 0xde6,
    0xe50, 0xed0, 0xf20, 0x1040, 0x1090, 0x17e0, 0x1810, 0x1946, 0x19d0, 0x1a80, 0x1a90, 0x1b50,
    0x1bb0, 0x1c40, 0x1c50, 0xa620, 0xa8d0, 0xa900, 0xa9d0, 0xa9f0, 0xaa50, 0xabf0, 0xff10, 0x104a0,
    0x10d30, 0x11066, 0x110f0, 0x11136, 0x111d0, 0x112f0, 0x11450, 0x114d0, 0x11650, 0x116c0,
    0x11730, 0x118e0, 0x11950, 0x11c50, 0x11d50, 0x11da0, 0x11f50, 0x16a60, 0x16ac0, 0x16b50,
    0x1d7ce, 0x1d7d8, 0x1d7e2, 0x1d7ec, 0x1d7f6, 0x1e140, 0x1e2f0, 0x1e4f0, 0x1e950, 0x1fbf0]

/-- The class `\d`. -/
def isDecimal (c : Char) : Bool :=
  decimalZeros.any fun first ↦ first ≤ c.toNat && c.toNat < first + 10

/-- `\s+(.*)$`, by the group. -/
def afterSpace (s : List Char) : Option (List Char) :=
  if s.head?.any Python.isspace then some (s.dropWhile Python.isspace) else none

/-- `^(#{1,6})\s+(.*)$`, by the length of the first group and the second. -/
def heading? (s : List Char) : Option (ℕ × List Char) :=
  let hashes := (s.takeWhile (· == '#')).length
  if 1 ≤ hashes ∧ hashes ≤ 6 then (afterSpace (s.dropWhile (· == '#'))).map (hashes, ·) else none

/-- `^\s*[-*]\s+(.*)$`. -/
def bullet? (s : List Char) : Option (List Char) :=
  match s.dropWhile Python.isspace with
  | c :: rest => if c == '-' || c == '*' then afterSpace rest else none
  | [] => none

/-- `^\s*\d+[.)]\s+(.*)$`. -/
def numbered? (s : List Char) : Option (List Char) :=
  let s := s.dropWhile Python.isspace
  if s.head?.any isDecimal then
    match s.dropWhile isDecimal with
    | c :: rest => if c == '.' || c == ')' then afterSpace rest else none
    | [] => none
  else none

inductive Block where
  | blank
  | heading (lvl : ℕ) (text : List Char)
  | bullet (text : List Char)
  | numbered (text : List Char)
  | paragraph (text : List Char)

def blockOf (ln : List Char) : Block :=
  let s := ln.rdropWhile Python.isspace
  if Text.trimEnds Python.isspace s = [] then .blank
  else
    match heading? s with
    | some (hashes, text) => .heading (min (hashes + 2) 6) text
    | none =>
        match bullet? s with
        | some text => .bullet text
        | none =>
            match numbered? s with
            | some text => .numbered text
            | none => .paragraph s

/-! ## The page -/

structure Page where
  out : List Char
  inUl : Bool
  inOl : Bool

namespace Page

def append (page : Page) (html : List Char) : Page := { page with out := page.out ++ html }

def closeUl (page : Page) : Page :=
  if page.inUl then { page.append (closeTag .ul) with inUl := false } else page

def closeOl (page : Page) : Page :=
  if page.inOl then { page.append (closeTag .ol) with inOl := false } else page

def closeLists (page : Page) : Page := page.closeUl.closeOl

def openUl (page : Page) : Page :=
  if page.inUl then page else { page.append (openTag .ul) with inUl := true }

def openOl (page : Page) : Page :=
  if page.inOl then page else { page.append (openTag .ol) with inOl := true }

def element (page : Page) (tag : Tag) (text : List Char) : Page :=
  page.append (openTag tag ++ inline text ++ closeTag tag)

def addBlock (page : Page) : Block → Page
  | .blank => page.closeLists
  | .heading lvl text => page.closeLists.element (.ofLevel lvl) text
  | .bullet text => page.closeOl.openUl.element .li text
  | .numbered text => page.closeUl.openOl.element .li text
  | .paragraph text => page.closeLists.element .p text

end Page

def linesOf (md : List Char) : List (List Char) := (replace ['\r', '\n'] ['\n'] md).splitOn '\n'

def mdToHtml (md : String) : String :=
  String.ofList
    (if md = "" then openTag .p ++ closeTag .p
    else (((linesOf md.toList).map blockOf).foldl Page.addBlock ⟨[], false, false⟩).closeLists.out)

/-! ## Pages as texts with tags -/

abbrev HtmlToken := Token Char Tag

def renderToken : HtmlToken → List Char
  | .char c => escapeMarkup c
  | .opens tag => openTag tag
  | .closes tag => closeTag tag

def render (tokens : List HtmlToken) : List Char := tokens.flatMap renderToken

@[simp] theorem render_append (tokens more : List HtmlToken) :
    render (tokens ++ more) = render tokens ++ render more := List.flatMap_append

theorem render_flatMap {α : Type} (tokens : α → List HtmlToken) (xs : List α) :
    render (xs.flatMap tokens) = xs.flatMap fun a ↦ render (tokens a) := List.flatMap_assoc

theorem Tag.name_injective : Function.Injective Tag.name := by
  intro tag other h
  cases tag <;> cases other <;> first | rfl | exact absurd h (by decide)

theorem Tag.name_plain (tag : Tag) : ∀ c ∈ tag.name, (c == '>') = false := by
  cases tag <;> exact Text.forall_mem_of_all (by decide)

theorem Tag.name_append_inj {tag other : Tag} {rest rest' : List Char}
    (h : tag.name ++ '>' :: rest = other.name ++ '>' :: rest') : tag = other ∧ rest = rest' := by
  have hend : ∀ text : List Char, ('>' :: text).head?.any (· == '>') = true := fun _ ↦ rfl
  have hnames := congrArg (List.takeWhile fun c ↦ !(c == '>')) h
  rw [takeWhile_plain tag.name_plain (hend _), takeWhile_plain other.name_plain (hend _)] at hnames
  obtain rfl := Tag.name_injective hnames
  exact ⟨rfl, (List.cons.inj (List.append_cancel_left h)).2⟩

theorem Tag.exists_name (tag : Tag) : ∃ c text, tag.name = c :: text ∧ c ≠ '/' := by
  cases tag <;> exact ⟨_, _, rfl, by decide⟩

/-- What the text of a character starts with. -/
theorem exists_escapeMarkup (c : Char) : ∃ first more, escapeMarkup c = first :: more ∧
    first ≠ '<' := by
  cases hc : isMarkup c with
  | false =>
      refine ⟨c, [], escapeMarkup_of_not_isMarkup hc, ?_⟩
      rintro rfl
      exact absurd hc (by decide)
  | true =>
      simp only [isMarkup, Bool.or_eq_true, beq_iff_eq] at hc
      rcases hc with (rfl | rfl) | rfl <;> exact ⟨_, _, rfl, by decide⟩

theorem exists_escapeMarkup_of_isMarkup {c : Char} (h : isMarkup c = true) :
    ∃ text, escapeMarkup c = '&' :: text := by
  simp only [isMarkup, Bool.or_eq_true, beq_iff_eq] at h
  rcases h with (rfl | rfl) | rfl <;> exact ⟨_, rfl⟩

theorem escapeMarkup_append_ne {c d : Char} (hc : isMarkup c = true) (hd : isMarkup d = false)
    (rest rest' : List Char) : escapeMarkup c ++ rest ≠ escapeMarkup d ++ rest' := by
  intro h
  obtain ⟨text, htext⟩ := exists_escapeMarkup_of_isMarkup hc
  rw [htext, escapeMarkup_of_not_isMarkup hd] at h
  obtain ⟨rfl, -⟩ := List.cons.inj h
  exact absurd hd (by decide)

theorem escapeMarkup_append_inj {c d : Char} {rest rest' : List Char}
    (h : escapeMarkup c ++ rest = escapeMarkup d ++ rest') : c = d ∧ rest = rest' := by
  cases hc : isMarkup c with
  | false =>
      cases hd : isMarkup d with
      | false =>
          rw [escapeMarkup_of_not_isMarkup hc, escapeMarkup_of_not_isMarkup hd] at h
          exact List.cons.inj h
      | true => exact absurd h.symm (escapeMarkup_append_ne hd hc _ _)
  | true =>
      cases hd : isMarkup d with
      | false => exact absurd h (escapeMarkup_append_ne hc hd _ _)
      | true =>
          simp only [isMarkup, Bool.or_eq_true, beq_iff_eq] at hc hd
          rcases hc with (rfl | rfl) | rfl <;> rcases hd with (rfl | rfl) | rfl <;>
            simp_all [escapeMarkup]

theorem renderToken_append_inj {t u : HtmlToken} {rest rest' : List Char}
    (h : renderToken t ++ rest = renderToken u ++ rest') : t = u ∧ rest = rest' := by
  have hchar : ∀ (c : Char) (text more more' : List Char),
      escapeMarkup c ++ more ≠ '<' :: text ++ more' := by
    intro c text more more' heq
    obtain ⟨first, tail, hfirst, hne⟩ := exists_escapeMarkup c
    rw [hfirst] at heq
    exact hne (List.cons.inj heq).1
  have hslash : ∀ (tag other : Tag) (more more' : List Char),
      openTag tag ++ more ≠ closeTag other ++ more' := by
    intro tag other more more' heq
    obtain ⟨c, text, hname, hne⟩ := tag.exists_name
    rw [openTag, closeTag, hname] at heq
    exact hne (List.cons.inj (List.cons.inj heq).2).1
  cases t with
  | char c =>
      cases u with
      | char d =>
          obtain ⟨rfl, hrest⟩ := escapeMarkup_append_inj h
          exact ⟨rfl, hrest⟩
      | opens other => exact absurd h (hchar _ _ _ _)
      | closes other => exact absurd h (hchar _ _ _ _)
  | opens tag =>
      cases u with
      | char d => exact absurd h.symm (hchar _ _ _ _)
      | opens other =>
          simp only [renderToken, openTag, List.cons_append, List.append_assoc, List.cons.injEq,
            true_and] at h
          obtain ⟨rfl, hrest⟩ := Tag.name_append_inj h
          exact ⟨rfl, hrest⟩
      | closes other => exact absurd h (hslash _ _ _ _)
  | closes tag =>
      cases u with
      | char d => exact absurd h.symm (hchar _ _ _ _)
      | opens other => exact absurd h.symm (hslash _ _ _ _)
      | closes other =>
          simp only [renderToken, closeTag, List.cons_append, List.append_assoc, List.cons.injEq,
            true_and] at h
          obtain ⟨rfl, hrest⟩ := Tag.name_append_inj h
          exact ⟨rfl, hrest⟩

theorem renderToken_ne_nil (t : HtmlToken) : renderToken t ≠ [] := by
  cases t with
  | char c =>
      obtain ⟨first, more, hfirst, -⟩ := exists_escapeMarkup c
      rw [renderToken, hfirst]
      exact List.cons_ne_nil _ _
  | opens tag => exact List.cons_ne_nil _ _
  | closes tag => exact List.cons_ne_nil _ _

/-- A page can be read back: it is the text of one sequence of tokens. -/
theorem render_injective : Function.Injective render := by
  intro tokens others h
  induction tokens generalizing others with
  | nil =>
      cases others with
      | nil => rfl
      | cons u others => exact absurd (List.append_eq_nil_iff.mp h.symm).1 (renderToken_ne_nil u)
  | cons t tokens ih =>
      cases others with
      | nil => exact absurd (List.append_eq_nil_iff.mp h).1 (renderToken_ne_nil t)
      | cons u others =>
          obtain ⟨rfl, hrest⟩ := renderToken_append_inj h
          rw [ih hrest]

/-! ## Inline text as tokens -/

abbrev Glyph := Placed Char Tag

def isStar (g : Glyph) : Bool := g.token == .char '*'

def isStarPiece : Piece Glyph → Bool
  | .char g => isStar g
  | .found _ => false

def codeTokens (t : List Char) : List HtmlToken :=
  (pieces (codeRule.pattern (· == backtick)) 0 none t).flatMap
    (spanTokens codeRule .code fun c ↦ [.char c])

/-- The text after the first substitution; the turns are the tags of code spans. -/
def glyphs (t : List Char) : List Glyph := place 0 (codeTokens t)

def boldPieces (t : List Char) : List (Piece Glyph) :=
  pieces (boldRule.pattern isStar) 0 none (glyphs t)

def boldTokens : Piece Glyph → List HtmlToken := spanTokens boldRule .b fun g ↦ [g.token]

def italicPieces (t : List Char) : List (Piece (Piece Glyph)) :=
  pieces (italicRule.pattern isStarPiece) 0 none (boldPieces t)

def inlineTokens (t : List Char) : List HtmlToken :=
  (italicPieces t).flatMap (spanTokens italicRule .i boldTokens)

theorem sub_render {α : Type} (rule : Rule) (tag : Tag) {isMark : α → Bool}
    {isMark' : Char → Bool} {tokens : α → List HtmlToken} {xs : List α}
    (h : ∀ a ∈ xs, Spells isMark isMark' (fun a ↦ render (tokens a)) a) :
    sub (rule.pattern isMark') (substituted rule tag) (render (xs.flatMap tokens)) =
      render ((pieces (rule.pattern isMark) 0 none xs).flatMap (spanTokens rule tag tokens)) := by
  rw [render_flatMap, render_flatMap]
  refine (sub_flatMap h (openTag tag) (closeTag tag)).trans ?_
  congr 1
  funext piece
  cases piece with
  | char a => rfl
  | found matched =>
      rw [betweenTexts, ← render_flatMap]
      simp [spanTokens, render, renderToken]

/-- A mark is a character that no escaped character is written with. -/
structure IsMark (mark : Char) : Prop where
  not_markup : isMarkup mark = false
  not_escape : ∀ c ∈ ['&', '<', '>'], (escapeMarkup c).all (fun d ↦ !(d == mark)) = true

theorem isMark_star : IsMark '*' := ⟨by decide, Text.forall_mem_of_all (by decide)⟩

theorem isMark_backtick : IsMark backtick := ⟨by decide, Text.forall_mem_of_all (by decide)⟩

/-- A mark is written as itself, another character without the mark. -/
theorem IsMark.spells {mark : Char} (h : IsMark mark) (c : Char) :
    Spells (· == mark) (· == mark) (fun c ↦ render [.char c]) c where
  mark := by
    intro hc
    obtain rfl := beq_iff_eq.mp hc
    exact ⟨c, by simp [render, renderToken, escapeMarkup_of_not_isMarkup h.not_markup], hc⟩
  plain := by
    intro hc
    have hrender : render [.char c] = escapeMarkup c := by simp [render, renderToken]
    rw [hrender]
    cases hmarkup : isMarkup c with
    | true =>
        obtain ⟨text, htext⟩ := exists_escapeMarkup_of_isMarkup hmarkup
        refine ⟨by simp [htext], ?_⟩
        have hmem : c ∈ ['&', '<', '>'] := by simpa [isMarkup, or_assoc] using hmarkup
        simpa using h.not_escape c hmem
    | false => simpa [escapeMarkup_of_not_isMarkup hmarkup] using hc

theorem renderToken_plain_star {t : HtmlToken} (h : t ≠ .char '*') :
    ∀ d ∈ renderToken t, (d == '*') = false := by
  cases t with
  | char c =>
      have hc : (c == '*') = false := by simpa using fun heq ↦ h (congrArg Token.char heq)
      simpa [render] using ((isMark_star.spells c).plain hc).2
  | opens tag => cases tag <;> exact Text.forall_mem_of_all (by decide)
  | closes tag => cases tag <;> exact Text.forall_mem_of_all (by decide)

theorem spells_glyph (g : Glyph) :
    Spells isStar (· == '*') (fun g ↦ render [g.token]) g where
  mark := by
    intro hg
    have htoken : g.token = .char '*' := by simpa [isStar] using hg
    exact ⟨'*', by rw [htoken]; rfl, rfl⟩
  plain := by
    intro hg
    have htoken : g.token ≠ .char '*' := by simpa [isStar] using hg
    have hrender : render [g.token] = renderToken g.token := by simp [render]
    rw [hrender]
    exact ⟨renderToken_ne_nil _, renderToken_plain_star htoken⟩

theorem spells_piece {t : List Char} {piece : Piece Glyph} (hpiece : piece ∈ boldPieces t) :
    Spells isStarPiece (· == '*') (fun piece ↦ render (boldTokens piece)) piece where
  mark := by
    intro hmark
    cases piece with
    | char g => exact (spells_glyph g).mark hmark
    | found matched => exact nomatch hmark
  plain := by
    intro hplain
    cases piece with
    | char g => exact (spells_glyph g).plain hplain
    | found matched =>
        obtain ⟨before, opening, body, closing, rest, htext, rfl, hspan⟩ :=
          exists_isSpan_of_found hpiece
        have htokens : render (boldTokens (.found (opening ++ body ++ closing))) =
            openTag .b ++ render (body.flatMap fun g ↦ [g.token]) ++ closeTag .b := by
          rw [boldTokens, spanTokens, boldRule.body_eq hspan.opening_length hspan.closing_length]
          simp [render, renderToken]
        rw [htokens, render_flatMap]
        refine ⟨List.append_ne_nil_of_left_ne_nil (List.cons_ne_nil _ _) _, ?_⟩
        simp only [List.forall_mem_append]
        refine ⟨⟨Text.forall_mem_of_all (by decide), ?_⟩, Text.forall_mem_of_all (by decide)⟩
        exact flatMap_plain (fun g _ ↦ spells_glyph g) hspan.body_plain

theorem flatMap_glyphs (t : List Char) : ((glyphs t).flatMap fun g ↦ [g.token]) = codeTokens t := by
  rw [← List.map_eq_flatMap, glyphs, map_token_place]

theorem inline_eq (t : List Char) : inline t = render (inlineTokens t) := by
  have hesc : esc t = render (t.flatMap fun c ↦ [.char c]) := by
    rw [render_flatMap]
    simp [esc, render, renderToken]
  have hcode : sub codePattern (substituted codeRule .code) (esc t) = render (codeTokens t) := by
    rw [hesc]
    apply sub_render
    exact fun c _ ↦ isMark_backtick.spells c
  have hbold : sub boldPattern (substituted boldRule .b) (render (codeTokens t)) =
      render ((boldPieces t).flatMap boldTokens) := by
    rw [← flatMap_glyphs]
    apply sub_render
    exact fun g _ ↦ spells_glyph g
  rw [inline, hcode, hbold]
  apply sub_render
  exact fun piece hpiece ↦ spells_piece hpiece

/-! ## Where inline text nests -/

/-- The two markers of every bold and of every italic span of an inline text stand in one code
span, or both outside of the code spans. -/
structure UncutSpans (t : List Char) : Prop where
  bold : ∀ matched, .found matched ∈ boldPieces t → Uncut Placed.zone matched
  italic : ∀ matched, .found matched ∈ italicPieces t → Uncut (pieceZone Placed.zone) matched

abbrev GlyphWalk := Walk (κ := Char) Tag.code (fun g : Glyph ↦ [g.token]) Placed.zone

theorem walk_cons {t : HtmlToken} {n k : ℕ} {tokens : List HtmlToken}
    (hfirst : Follows Tag.code n [t] (n + if t.isTag then 1 else 0))
    (hrest : GlyphWalk (n + if t.isTag then 1 else 0)
      (place (n + if t.isTag then 1 else 0) tokens) k) :
    GlyphWalk n (place n (t :: tokens)) k :=
  Walk.cons (a := ⟨t, n⟩) hfirst hrest

theorem walk_chars {n k : ℕ} {tokens : List HtmlToken} (h : GlyphWalk n (place n tokens) k)
    (text : List Char) : GlyphWalk n (place n (text.flatMap (fun c ↦ [.char c]) ++ tokens)) k := by
  induction text with
  | nil => exact h
  | cons c text ih => exact walk_cons (Follows.char n c) ih

theorem exists_walk_pieces (ps : List (Piece Char)) {n : ℕ} (hn : n % 2 = 0) :
    ∃ k, k % 2 = 0 ∧ GlyphWalk n
      (place n (ps.flatMap (spanTokens codeRule .code fun c ↦ [.char c]))) k := by
  induction ps generalizing n with
  | nil => exact ⟨n, hn, Walk.nil n⟩
  | cons p ps ih =>
      cases p with
      | char c =>
          obtain ⟨k, hk, hwalk⟩ := ih hn
          exact ⟨k, hk, walk_cons (Follows.char n c) hwalk⟩
      | found matched =>
          have hinside : (n + 1) % 2 = 1 := by omega
          have hafter : (n + 1 + 1) % 2 = 0 := by omega
          obtain ⟨k, hk, hwalk⟩ := ih hafter
          have hcloses := walk_cons (t := .closes Tag.code) (Follows.closes hinside) hwalk
          have hbody := walk_chars hcloses (codeRule.body matched)
          refine ⟨k, hk, ?_⟩
          rw [List.flatMap_cons, spanTokens, List.append_assoc]
          exact walk_cons (Follows.opens hn) hbody

theorem exists_walk_glyphs (t : List Char) : ∃ k, k % 2 = 0 ∧ GlyphWalk 0 (glyphs t) k :=
  exists_walk_pieces _ rfl

theorem isStar_char (g : Glyph) (h : isStar g = true) : ∃ c, [g.token] = [.char c] :=
  ⟨'*', by simpa [isStar] using h⟩

theorem isStarPiece_char (piece : Piece Glyph) (h : isStarPiece piece = true) :
    ∃ c, boldTokens piece = [.char c] := by
  cases piece with
  | char g => exact isStar_char g h
  | found matched => exact nomatch h

theorem exists_walk_boldPieces {t : List Char}
    (h : ∀ matched, .found matched ∈ boldPieces t → Uncut Placed.zone matched) :
    ∃ k, k % 2 = 0 ∧
      Walk Tag.code boldTokens (pieceZone Placed.zone) 0 (boldPieces t) k := by
  obtain ⟨k, hk, hwalk⟩ := exists_walk_glyphs t
  exact ⟨k, hk, hwalk.pieces Tag.b isStar_char h⟩

theorem run_inlineTokens {t : List Char} (h : UncutSpans t) (stack : List Tag) :
    run stack (inlineTokens t) = some stack := by
  obtain ⟨k, hk, hwalk⟩ := exists_walk_boldPieces h.bold
  have hwalk := hwalk.pieces Tag.i isStarPiece_char h.italic
  exact hwalk.follows.run_of_sameZone (Or.inr ⟨rfl, hk⟩) stack

theorem tag_eq_code {t : List Char} {g : Glyph} (hg : g ∈ glyphs t) {tag : Tag}
    (htag : g.token = .opens tag ∨ g.token = .closes tag) : tag = .code := by
  have hmem : g.token ∈ codeTokens t := by
    rw [← map_token_place 0 (codeTokens t)]
    exact List.mem_map_of_mem hg
  obtain ⟨piece, hpiece, htoken⟩ := List.mem_flatMap.mp hmem
  rcases mem_spanTokens hpiece htoken with heq | heq | ⟨c, -, hc⟩
  · simp only [heq, Token.opens.injEq, reduceCtorEq, or_false] at htag
    exact htag.symm
  · simp only [heq, Token.closes.injEq, reduceCtorEq, false_or] at htag
    exact htag.symm
  · simp [List.mem_singleton.mp hc] at htag

theorem glyphs_free {t : List Char} {tag : Tag} (htag : tag ≠ .code) :
    ∀ g ∈ glyphs t, .opens tag ∉ [g.token] ∧ .closes tag ∉ [g.token] := by
  intro g hg
  constructor
  · intro hmem
    exact htag (tag_eq_code hg (Or.inl (List.mem_singleton.mp hmem).symm))
  · intro hmem
    exact htag (tag_eq_code hg (Or.inr (List.mem_singleton.mp hmem).symm))

theorem boldPieces_free {t : List Char} :
    ∀ piece ∈ boldPieces t, .opens .i ∉ boldTokens piece ∧ .closes .i ∉ boldTokens piece := by
  intro piece hpiece
  constructor
  · intro hmem
    rcases mem_spanTokens hpiece hmem with heq | heq | ⟨g, hg, hmem⟩
    · exact nomatch heq
    · exact nomatch heq
    · exact (glyphs_free (by decide) g hg).1 hmem
  · intro hmem
    rcases mem_spanTokens hpiece hmem with heq | heq | ⟨g, hg, hmem⟩
    · exact nomatch heq
    · exact nomatch heq
    · exact (glyphs_free (by decide) g hg).2 hmem

/-- A cut span is not read: its opening tag is still open where the code tag has to close. -/
theorem uncutSpans_of_run {t : List Char} {stack stack' : List Tag}
    (h : run stack (inlineTokens t) = some stack') : UncutSpans t := by
  have hbold : ∀ matched, .found matched ∈ boldPieces t → Uncut Placed.zone matched := by
    intro matched hmatched
    obtain ⟨k, -, hwalk⟩ := exists_walk_glyphs t
    have hplain : isStarPiece (.found matched) = false := rfl
    have hinfix : boldTokens (.found matched) <:+: inlineTokens t :=
      infix_of_plain Tag.i hmatched hplain
    obtain ⟨before, after, hrun⟩ := exists_run_of_infix h hinfix
    exact hwalk.uncut_of_run isStar_char hmatched (by decide) (glyphs_free (by decide)) hrun
  refine ⟨hbold, ?_⟩
  intro matched hmatched
  obtain ⟨k, -, hwalk⟩ := exists_walk_boldPieces hbold
  have hinfix : spanTokens italicRule .i boldTokens (.found matched) <:+: inlineTokens t :=
    List.infix_of_mem_flatten (List.mem_map_of_mem hmatched)
  obtain ⟨before, after, hrun⟩ := exists_run_of_infix h hinfix
  exact hwalk.uncut_of_run isStarPiece_char hmatched (by decide) boldPieces_free hrun

/-! ## What is kept of the text -/

/-- A text without some of its characters, none of them markup. -/
structure Keeps (kept text : List Char) : Prop where
  sublist : kept.Sublist text
  markup : kept.filter isMarkup = text.filter isMarkup

namespace Keeps

theorem refl (text : List Char) : Keeps text text := ⟨List.Sublist.refl text, rfl⟩

theorem trans {xs ys zs : List Char} (h : Keeps xs ys) (h' : Keeps ys zs) : Keeps xs zs :=
  ⟨h.sublist.trans h'.sublist, h.markup.trans h'.markup⟩

theorem append {xs ys xs' ys' : List Char} (h : Keeps xs ys) (h' : Keeps xs' ys') :
    Keeps (xs ++ xs') (ys ++ ys') :=
  ⟨h.sublist.append h'.sublist, by rw [List.filter_append, List.filter_append, h.markup, h'.markup]⟩

theorem nil_of_plain {text : List Char} (h : ∀ c ∈ text, isMarkup c = false) : Keeps [] text := by
  refine ⟨List.nil_sublist text, ?_⟩
  rw [List.filter_nil, eq_comm, List.filter_eq_nil_iff]
  exact fun c hc ↦ by simp [h c hc]

theorem tail {c : Char} (h : isMarkup c = false) (text : List Char) : Keeps text (c :: text) := by
  have hc : Keeps [] [c] := nil_of_plain (by simpa using h)
  exact hc.append (refl text)

theorem reverse {xs ys : List Char} (h : Keeps xs ys) : Keeps xs.reverse ys.reverse :=
  ⟨h.sublist.reverse, by rw [List.filter_reverse, List.filter_reverse, h.markup]⟩

theorem dropWhile {p : Char → Bool} (hp : ∀ c, p c = true → isMarkup c = false)
    (text : List Char) : Keeps (text.dropWhile p) text := by
  have htake : Keeps [] (text.takeWhile p) :=
    nil_of_plain fun c hc ↦ hp c (List.mem_takeWhile_imp hc)
  simpa using htake.append (refl (text.dropWhile p))

theorem rdropWhile {p : Char → Bool} (hp : ∀ c, p c = true → isMarkup c = false)
    (text : List Char) : Keeps (text.rdropWhile p) text := by
  simpa [List.rdropWhile] using (dropWhile hp text.reverse).reverse

end Keeps

/-- The text between the tags. -/
def textOf (tokens : List HtmlToken) : List Char :=
  tokens.flatMap fun
    | .char c => [c]
    | _ => []

@[simp] theorem textOf_nil : textOf [] = [] := rfl

@[simp] theorem textOf_append (tokens more : List HtmlToken) :
    textOf (tokens ++ more) = textOf tokens ++ textOf more := List.flatMap_append

@[simp] theorem textOf_opens (tag : Tag) (tokens : List HtmlToken) :
    textOf (.opens tag :: tokens) = textOf tokens := rfl

@[simp] theorem textOf_closes (tag : Tag) (tokens : List HtmlToken) :
    textOf (.closes tag :: tokens) = textOf tokens := rfl

theorem keeps_marks {α : Type} {isMark : α → Bool} {tokens : α → List HtmlToken}
    (h : ∀ a, isMark a = true → Keeps [] (textOf (tokens a))) {marks : List α}
    (hmarks : ∀ a ∈ marks, isMark a = true) : Keeps [] (textOf (marks.flatMap tokens)) := by
  induction marks with
  | nil => exact Keeps.refl []
  | cons a marks ih =>
      obtain ⟨ha, hmore⟩ := List.forall_mem_cons.mp hmarks
      rw [List.flatMap_cons, textOf_append]
      exact (h a ha).append (ih hmore)

/-- A substitution drops the markers of its spans. -/
theorem keeps_pieces {α : Type} (rule : Rule) (tag : Tag) {isMark : α → Bool}
    {tokens : α → List HtmlToken} (h : ∀ a, isMark a = true → Keeps [] (textOf (tokens a)))
    (prev : Option α) (xs : List α) :
    Keeps (textOf ((pieces (rule.pattern isMark) 0 prev xs).flatMap (spanTokens rule tag tokens)))
      (textOf (xs.flatMap tokens)) := by
  induction prev, xs using scan_induction (rule.pattern isMark) with
  | nil prev => exact Keeps.refl []
  | found prev c matched rest hmatch ih =>
      obtain ⟨opening, body, closing, rest', hsplit, -, hspan⟩ := (matchAt_eq_some_iff ..).mp hmatch
      rw [pieces_of_match hmatch, List.flatMap_cons, textOf_append, List.flatMap_append,
        textOf_append, hsplit, spanTokens,
        rule.body_eq hspan.opening_length hspan.closing_length]
      refine Keeps.append ?_ (hsplit ▸ ih)
      have hopening := keeps_marks h hspan.opening_marks
      have hclosing := keeps_marks h hspan.closing_marks
      simpa using (hopening.append (Keeps.refl (textOf (body.flatMap tokens)))).append hclosing
  | char prev c text hmatch ih =>
      rw [pieces_of_not_match hmatch, List.flatMap_cons, List.flatMap_cons, textOf_append,
        textOf_append]
      exact (Keeps.refl _).append ih

theorem keeps_inlineTokens (t : List Char) : Keeps (textOf (inlineTokens t)) t := by
  have hitalic : Keeps (textOf (inlineTokens t)) (textOf ((boldPieces t).flatMap boldTokens)) := by
    apply keeps_pieces
    intro piece hpiece
    cases piece with
    | char g =>
        have hg : g.token = .char '*' := by simpa [isStarPiece, isStar] using hpiece
        rw [boldTokens, spanTokens, hg]
        exact Keeps.tail (by decide) []
    | found matched => exact absurd hpiece Bool.false_ne_true
  have hbold : Keeps (textOf ((boldPieces t).flatMap boldTokens)) (textOf (codeTokens t)) := by
    rw [← flatMap_glyphs]
    apply keeps_pieces
    intro g hg
    have htoken : g.token = .char '*' := by simpa [isStar] using hg
    rw [htoken]
    exact Keeps.tail (by decide) []
  have hcode : Keeps (textOf (codeTokens t)) (textOf (t.flatMap fun c ↦ [.char c])) := by
    apply keeps_pieces
    intro c hc
    rw [beq_iff_eq.mp hc]
    exact Keeps.tail (by decide) []
  have htext : textOf (t.flatMap fun c ↦ [.char c]) = t := by
    simp [textOf, List.flatMap_assoc]
  rw [htext] at hcode
  exact hitalic.trans (hbold.trans hcode)

/-! ## The text of a line -/

/-- The inline text of a block. -/
def Block.text? : Block → Option (List Char)
  | .blank => none
  | .heading _ text => some text
  | .bullet text => some text
  | .numbered text => some text
  | .paragraph text => some text

theorem isMarkup_of_isspace (c : Char) (h : Python.isspace c = true) : isMarkup c = false := by
  by_contra hc
  simp only [isMarkup, Bool.not_eq_false, Bool.or_eq_true, beq_iff_eq] at hc
  rcases hc with (rfl | rfl) | rfl <;> exact absurd h (by decide)

theorem isMarkup_of_isDecimal (c : Char) (h : isDecimal c = true) : isMarkup c = false := by
  by_contra hc
  simp only [isMarkup, Bool.not_eq_false, Bool.or_eq_true, beq_iff_eq] at hc
  rcases hc with (rfl | rfl) | rfl <;> exact absurd h (by decide)

theorem keeps_afterSpace {s text : List Char} (h : afterSpace s = some text) : Keeps text s := by
  rw [afterSpace] at h
  split_ifs at h
  obtain rfl := Option.some.inj h
  exact Keeps.dropWhile isMarkup_of_isspace s

theorem keeps_heading {s text : List Char} {hashes : ℕ} (h : heading? s = some (hashes, text)) :
    Keeps text s := by
  simp only [heading?] at h
  split_ifs at h
  obtain ⟨found, hfound, heq⟩ := Option.map_eq_some_iff.mp h
  obtain ⟨-, rfl⟩ := Prod.mk.inj heq
  refine (keeps_afterSpace hfound).trans (Keeps.dropWhile ?_ s)
  intro c hc
  rw [beq_iff_eq.mp hc]
  decide

/-- A marker character, the white space after it and the text. -/
theorem keeps_marked {s rest text : List Char} {c : Char} (hc : isMarkup c = false)
    (hs : Keeps (c :: rest) s) (h : afterSpace rest = some text) : Keeps text s :=
  (keeps_afterSpace h).trans ((Keeps.tail hc rest).trans hs)

theorem keeps_bullet {s text : List Char} (h : bullet? s = some text) : Keeps text s := by
  have hs := Keeps.dropWhile isMarkup_of_isspace s
  rw [bullet?] at h
  cases hrest : s.dropWhile Python.isspace with
  | nil =>
      rw [hrest] at h
      exact nomatch h
  | cons c rest =>
      rw [hrest] at h hs
      simp only [Bool.or_eq_true, beq_iff_eq] at h
      split_ifs at h with hc
      refine keeps_marked ?_ hs h
      rcases hc with rfl | rfl <;> decide

theorem keeps_numbered {s text : List Char} (h : numbered? s = some text) : Keeps text s := by
  have hs := (Keeps.dropWhile isMarkup_of_isDecimal _).trans (Keeps.dropWhile isMarkup_of_isspace s)
  simp only [numbered?] at h
  split_ifs at h
  cases hrest : (s.dropWhile Python.isspace).dropWhile isDecimal with
  | nil =>
      rw [hrest] at h
      exact nomatch h
  | cons c rest =>
      rw [hrest] at h hs
      simp only [Bool.or_eq_true, beq_iff_eq] at h
      split_ifs at h with hc
      refine keeps_marked ?_ hs h
      rcases hc with rfl | rfl <;> decide

theorem keeps_blockOf (ln : List Char) : Keeps ((blockOf ln).text?.getD []) ln := by
  have hs := Keeps.rdropWhile isMarkup_of_isspace ln
  simp only [blockOf]
  split_ifs with hblank
  · refine Keeps.trans ?_ hs
    apply Keeps.nil_of_plain
    intro c hc
    exact isMarkup_of_isspace c ((Text.trimEnds_eq_nil_iff _ _).mp hblank c hc)
  · cases hheading : heading? (ln.rdropWhile Python.isspace) with
    | some found => exact (keeps_heading hheading).trans hs
    | none =>
        cases hbullet : bullet? (ln.rdropWhile Python.isspace) with
        | some text => exact (keeps_bullet hbullet).trans hs
        | none =>
            cases hnumbered : numbered? (ln.rdropWhile Python.isspace) with
            | some text => exact (keeps_numbered hnumbered).trans hs
            | none => exact hs

/-- A replacement that keeps the replaced text keeps the whole text. -/
theorem keeps_replace {old new : List Char} (h : Keeps new old) (text : List Char) :
    Keeps (replace old new text) text := by
  rw [replace, sub]
  induction (none : Option Char), text using scan_induction (literal old) with
  | nil prev => exact Keeps.refl []
  | found prev c matched rest hmatch ih =>
      rw [pieces_of_match hmatch, List.flatMap_cons]
      rw [matchAt_literal] at hmatch
      split_ifs at hmatch
      rw [← Option.some.inj hmatch] at ih ⊢
      exact h.append ih
  | char prev c text hmatch ih =>
      rw [pieces_of_not_match hmatch, List.flatMap_cons]
      exact (Keeps.refl [c]).append ih

theorem keeps_splitOn {mark : Char} (hmark : isMarkup mark = false) (text : List Char) :
    Keeps (text.splitOn mark).flatten text := by
  induction text with
  | nil => exact Keeps.refl []
  | cons c text ih =>
      rw [List.splitOn_cons_eq_if_modifyHead]
      split_ifs with hc
      · rw [beq_iff_eq.mp hc]
        exact ih.trans (Keeps.tail hmark text)
      · obtain ⟨first, more, hmore⟩ := List.exists_cons_of_ne_nil (List.splitOn_ne_nil mark text)
        rw [hmore] at ih ⊢
        exact (Keeps.refl [c]).append ih

theorem keeps_linesOf (md : List Char) : Keeps (linesOf md).flatten md :=
  (keeps_splitOn (by decide) _).trans (keeps_replace (Keeps.tail (by decide) _) md)

/-! ## Where a page nests -/

/-- The list tags that are open on a page. -/
def Page.openLists (page : Page) : List Tag :=
  (if page.inUl then [.ul] else []) ++ if page.inOl then [.ol] else []

/-- The page is written in these tokens, keeps the source, and is nested as far as it goes just
when `uncut` holds. -/
structure Writes (uncut : Prop) (source : List Char) (page : Page) (tokens : List HtmlToken) :
    Prop where
  out_eq : page.out = render tokens
  keeps : Keeps (textOf tokens) source
  run_eq : uncut → run [] tokens = some page.openLists
  uncut_of_run : ∀ {stack}, run [] tokens = some stack → uncut
  one_list : page.inUl = false ∨ page.inOl = false

theorem Page.closeUl_inUl (page : Page) : page.closeUl.inUl = false := by
  rw [closeUl]
  split_ifs with hul
  · rfl
  · simpa using hul

theorem Page.closeOl_inOl (page : Page) : page.closeOl.inOl = false := by
  rw [closeOl]
  split_ifs with hol
  · rfl
  · simpa using hol

theorem Page.closeOl_inUl (page : Page) : page.closeOl.inUl = page.inUl := by
  rw [closeOl]
  split_ifs <;> rfl

theorem Page.openLists_closeLists (page : Page) : page.closeLists.openLists = [] := by
  rw [openLists, closeLists, closeOl_inOl, closeOl_inUl, closeUl_inUl]
  rfl

namespace Writes

variable {uncut : Prop} {source : List Char} {page : Page} {tokens : List HtmlToken}

theorem start : Writes True [] ⟨[], false, false⟩ [] where
  out_eq := rfl
  keeps := Keeps.refl []
  run_eq := fun _ ↦ rfl
  uncut_of_run := fun _ ↦ trivial
  one_list := Or.inl rfl

/-- What is not kept may be added to the source. -/
theorem skip (h : Writes uncut source page tokens) {text : List Char} (htext : Keeps [] text) :
    Writes uncut (source ++ text) page tokens :=
  { h with keeps := by simpa using h.keeps.append htext }

/-- More tokens on a page. -/
theorem append (h : Writes uncut source page tokens) {inner : Prop} {text : List Char}
    {page' : Page} {more : List HtmlToken} (hout : page'.out = page.out ++ render more)
    (hkeeps : Keeps (textOf more) text)
    (hrun : inner → run page.openLists more = some page'.openLists)
    (hinner : ∀ {stack stack'}, run stack more = some stack' → inner)
    (hone : page'.inUl = false ∨ page'.inOl = false) :
    Writes (uncut ∧ inner) (source ++ text) page' (tokens ++ more) where
  out_eq := by rw [hout, h.out_eq, render_append]
  keeps := by
    rw [textOf_append]
    exact h.keeps.append hkeeps
  run_eq := by
    intro huncut
    rw [run_append_of_eq_some (h.run_eq huncut.1)]
    exact hrun huncut.2
  uncut_of_run := by
    intro stack hall
    rw [run_append, Option.bind_eq_some_iff] at hall
    obtain ⟨before, hbefore, hmore⟩ := hall
    exact ⟨h.uncut_of_run hbefore, hinner hmore⟩
  one_list := hone

/-- A list tag on a page. -/
theorem appendTag (h : Writes uncut source page tokens) {page' : Page} {t : HtmlToken}
    (hout : page'.out = page.out ++ renderToken t) (htext : textOf [t] = [])
    (hrun : run page.openLists [t] = some page'.openLists)
    (hone : page'.inUl = false ∨ page'.inOl = false) :
    Writes uncut source page' (tokens ++ [t]) := by
  have hrender : page'.out = page.out ++ render [t] := by simpa [render] using hout
  have hkeeps : Keeps (textOf [t]) [] := htext ▸ Keeps.refl []
  have happend : Writes (uncut ∧ True) (source ++ []) page' (tokens ++ [t]) :=
    h.append hrender hkeeps (fun _ ↦ hrun) (fun _ ↦ trivial) hone
  simpa using happend

theorem closeUl (h : Writes uncut source page tokens) :
    ∃ tokens, Writes uncut source page.closeUl tokens := by
  rw [Page.closeUl]
  split_ifs with hul
  · have hol : page.inOl = false := h.one_list.resolve_left (by simp [hul])
    refine ⟨_, h.appendTag (t := .closes .ul) rfl rfl ?_ (Or.inl rfl)⟩
    simp [Page.openLists, Page.append, hul, hol]
  · exact ⟨tokens, h⟩

theorem closeOl (h : Writes uncut source page tokens) :
    ∃ tokens, Writes uncut source page.closeOl tokens := by
  rw [Page.closeOl]
  split_ifs with hol
  · have hul : page.inUl = false := h.one_list.resolve_right (by simp [hol])
    refine ⟨_, h.appendTag (t := .closes .ol) rfl rfl ?_ (Or.inr rfl)⟩
    simp [Page.openLists, Page.append, hul, hol]
  · exact ⟨tokens, h⟩

theorem closeLists (h : Writes uncut source page tokens) :
    ∃ tokens, Writes uncut source page.closeLists tokens := by
  obtain ⟨tokens, hul⟩ := h.closeUl
  exact hul.closeOl

theorem openUl (h : Writes uncut source page tokens) (hol : page.inOl = false) :
    ∃ tokens, Writes uncut source page.openUl tokens := by
  rw [Page.openUl]
  split_ifs with hul
  · exact ⟨tokens, h⟩
  · refine ⟨_, h.appendTag (t := .opens .ul) rfl rfl ?_ (Or.inr hol)⟩
    simp [Page.openLists, Page.append, hul, hol]

theorem openOl (h : Writes uncut source page tokens) (hul : page.inUl = false) :
    ∃ tokens, Writes uncut source page.openOl tokens := by
  rw [Page.openOl]
  split_ifs with hol
  · exact ⟨tokens, h⟩
  · refine ⟨_, h.appendTag (t := .opens .ol) rfl rfl ?_ (Or.inl hul)⟩
    simp [Page.openLists, Page.append, hul, hol]

theorem element (h : Writes uncut source page tokens) (tag : Tag) {ln text : List Char}
    (hkeeps : Keeps text ln) :
    ∃ tokens, Writes (uncut ∧ UncutSpans text) (source ++ ln) (page.element tag text) tokens := by
  refine ⟨tokens ++ (.opens tag :: inlineTokens text ++ [.closes tag]),
    h.append ?_ ?_ ?_ ?_ h.one_list⟩
  · rw [Page.element, Page.append, inline_eq]
    simp [render, renderToken]
  · simpa using (keeps_inlineTokens text).trans hkeeps
  · intro huncut
    exact run_wrap (run_inlineTokens huncut _)
  · intro stack stack' hrun
    have hinfix : inlineTokens text <:+: .opens tag :: inlineTokens text ++ [.closes tag] :=
      ⟨[.opens tag], [.closes tag], rfl⟩
    obtain ⟨before, after, hinner⟩ := exists_run_of_infix hrun hinfix
    exact uncutSpans_of_run hinner

/-- One block of a page. -/
theorem addBlock (h : Writes uncut source page tokens) {ln : List Char} (block : Block)
    (hkeeps : Keeps (block.text?.getD []) ln) : ∃ tokens,
      Writes (uncut ∧ ∀ text ∈ block.text?, UncutSpans text) (source ++ ln)
        (page.addBlock block) tokens := by
  cases block with
  | blank =>
      obtain ⟨tokens, hclosed⟩ := h.closeLists
      refine ⟨tokens, ?_⟩
      simpa [Page.addBlock, Block.text?] using hclosed.skip hkeeps
  | heading lvl text =>
      obtain ⟨tokens, hclosed⟩ := h.closeLists
      simpa [Page.addBlock, Block.text?] using hclosed.element (.ofLevel lvl) hkeeps
  | bullet text =>
      obtain ⟨tokens, hclosed⟩ := h.closeOl
      obtain ⟨tokens, hopened⟩ := hclosed.openUl page.closeOl_inOl
      simpa [Page.addBlock, Block.text?] using hopened.element .li hkeeps
  | numbered text =>
      obtain ⟨tokens, hclosed⟩ := h.closeUl
      obtain ⟨tokens, hopened⟩ := hclosed.openOl page.closeUl_inUl
      simpa [Page.addBlock, Block.text?] using hopened.element .li hkeeps
  | paragraph text =>
      obtain ⟨tokens, hclosed⟩ := h.closeLists
      simpa [Page.addBlock, Block.text?] using hclosed.element .p hkeeps

/-- All blocks of a page. -/
theorem addBlocks (h : Writes uncut source page tokens) (lines : List (List Char)) : ∃ tokens,
    Writes (uncut ∧ ∀ ln ∈ lines, ∀ text ∈ (blockOf ln).text?, UncutSpans text)
      (source ++ lines.flatten) ((lines.map blockOf).foldl Page.addBlock page) tokens := by
  induction lines generalizing uncut source page tokens with
  | nil => exact ⟨tokens, by simpa using h⟩
  | cons ln lines ih =>
      obtain ⟨tokens, hfirst⟩ := h.addBlock (blockOf ln) (keeps_blockOf ln)
      obtain ⟨tokens, hall⟩ := ih hfirst
      refine ⟨tokens, ?_⟩
      simpa only [List.map_cons, List.foldl_cons, List.flatten_cons, List.append_assoc,
        List.forall_mem_cons, and_assoc] using hall

end Writes

/-! ## The converter -/

/-- The page is the tags of the converter and characters of the text, escaped, and has all the
markup characters of the text. -/
structure IsPage (md html : String) (tokens : List HtmlToken) : Prop where
  html_eq : html.toList = render tokens
  keeps : Keeps (textOf tokens) md.toList

def WellFormed (md html : String) : Prop := ∃ tokens, IsPage md html tokens ∧ WellNested tokens

/-- The texts of the headings, list items and paragraphs. -/
def inlineTexts (md : String) : List (List Char) :=
  (linesOf md.toList).filterMap fun ln ↦ (blockOf ln).text?

theorem forall_inlineTexts_iff (md : String) (p : List Char → Prop) :
    (∀ text ∈ inlineTexts md, p text) ↔
      ∀ ln ∈ linesOf md.toList, ∀ text ∈ (blockOf ln).text?, p text := by
  simp only [inlineTexts, List.mem_filterMap, Option.mem_def]
  constructor
  · intro h ln hln text htext
    exact h text ⟨ln, hln, htext⟩
  · rintro h text ⟨ln, hln, htext⟩
    exact h ln hln text htext

/-- A page is well nested exactly where the spans of every inline text are. -/
theorem exists_isPage (md : String) : ∃ tokens, IsPage md (mdToHtml md) tokens ∧
    (WellNested tokens ↔ ∀ text ∈ inlineTexts md, UncutSpans text) := by
  by_cases hempty : md = ""
  · subst hempty
    refine ⟨[.opens .p, .closes .p], ⟨?_, Keeps.refl []⟩, ?_⟩
    · simp [mdToHtml, render, renderToken]
    · have hnone : inlineTexts "" = [] := by decide +kernel
      simp [hnone, WellNested]
  · obtain ⟨tokens, hlines⟩ := Writes.start.addBlocks (linesOf md.toList)
    obtain ⟨tokens, hpage⟩ := hlines.closeLists
    refine ⟨tokens, ⟨?_, ?_⟩, ?_⟩
    · rw [mdToHtml, if_neg hempty, String.toList_ofList, hpage.out_eq]
    · exact hpage.keeps.trans (keeps_linesOf md.toList)
    · rw [forall_inlineTexts_iff]
      constructor
      · intro hnested
        exact (hpage.uncut_of_run hnested).2
      · intro huncut
        rw [WellNested, hpage.run_eq ⟨trivial, huncut⟩, Page.openLists_closeLists]

theorem mdToHtml_wellFormed_iff (md : String) :
    (WellFormed md (mdToHtml md) ↔ ∀ text ∈ inlineTexts md, UncutSpans text) ∧
      ∃ tokens, IsPage md (mdToHtml md) tokens := by
  obtain ⟨tokens, hpage, hnested⟩ := exists_isPage md
  refine ⟨?_, tokens, hpage⟩
  rw [← hnested]
  constructor
  · rintro ⟨others, hothers, hnests⟩
    rwa [← render_injective (hothers.html_eq.symm.trans hpage.html_eq)]
  · exact fun hnests ↦ ⟨tokens, hpage, hnests⟩

example : mdToHtml "- **a `b` c**\n1. *d*" =
    "<ul><li><b>a <code>b</code> c</b></li></ul><ol><li><i>d</i></li></ol>" := by
  decide +kernel

/-- An italic span from inside a code span to after it. -/
theorem mdToHtml_crosses : ¬ WellFormed "`a*b`c*d" (mdToHtml "`a*b`c*d") := by
  have hpage : (mdToHtml "`a*b`c*d").toList = render [.opens .p, .opens .code, .char 'a', .opens .i,
      .char 'b', .closes .code, .char 'c', .closes .i, .char 'd', .closes .p] := by
    decide +kernel
  rintro ⟨tokens, hwrites, hnested⟩
  rw [render_injective (hwrites.html_eq.symm.trans hpage)] at hnested
  exact absurd hnested (by decide)

end AgenticSDLC.MarkdownHtml
