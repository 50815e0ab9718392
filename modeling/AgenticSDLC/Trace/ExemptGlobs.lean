import AgenticSDLC.Foundations.Patterns
import AgenticSDLC.Foundations.Text

/-!
# Exempt globs

`_exempt_glob_to_regex` and `_is_path_exempt` of `tools/orphan_detector.py`: the glob of
`--exempt-paths` becomes a regular expression, and a path is exempt when the expression
matches at its start.
-/

namespace AgenticSDLC.ExemptGlobs

open Patterns

/-- The characters that `re.escape` puts a backslash before. -/
def specialChars : List Char :=
  ['(', ')', '[', ']', '\x7b', '\x7d', '?', '*', '+', '-', '|', '^', '$', '\\', '.', '&', '~', '#',
    ' ', '\t', '\n', '\r', '\x0b', '\x0c']

def escapeChar (c : Char) : List Char := if c ∈ specialChars then ['\\', c] else [c]

/-- `re.escape`. -/
def escape (text : List Char) : List Char := text.flatMap escapeChar

def exemptGlobToRegex (glob : String) : String :=
  String.ofList (replace ['\\', '*'] ['[', '^', '/', ']', '*']
    (replace ['\\', '*', '\\', '*'] ['.', '*'] (escape glob.toList)))

/-- `re.match(pattern, path)` for the engine `reMatch`, which answers nothing where the pattern
is no regular expression. -/
def isPathExempt (reMatch : String → String → Option Bool) (path allowlistPattern : String) :
    Bool :=
  if allowlistPattern = "" then false else (reMatch allowlistPattern path).getD false

/-! ## The engine on the translated globs -/

/-- The characters that mean something else than themselves in a regular expression. -/
def metaChars : List Char :=
  ['.', '^', '$', '*', '+', '?', '\x7b', '\x7d', '[', ']', '\\', '|', '(', ')']

/-- The regular expressions of escaped characters, `.*`, `[^/]*` and plain characters. -/
def parse : List Char → Option (List (Item Char))
  | [] => some []
  | '\\' :: c :: rest => if c.isAlphanum then none else (parse rest).map (.one (· == c) :: ·)
  | '.' :: '*' :: rest => (parse rest).map (.many (· != '\n') :: ·)
  | '[' :: '^' :: '/' :: ']' :: '*' :: rest => (parse rest).map (.many (· != '/') :: ·)
  | c :: rest => if c ∈ metaChars then none else (parse rest).map (.one (· == c) :: ·)

/-- `bool(re.match(pattern, path))` for these expressions. -/
def reMatch (pattern path : String) : Option Bool :=
  (parse pattern.toList).map fun items ↦ (matchAt items none path.toList).isSome

/-! ## What a glob stands for -/

/-- The glob generates the path: `**` stands for any text, another `*` for any text without a
slash, and a character for itself. -/
inductive Names : List Char → List Char → Prop
  | nil : Names [] []
  | anyPath {glob path : List Char} (text : List Char) (h : Names glob path) :
      Names ('*' :: '*' :: glob) (text ++ path)
  | anySegment {glob path : List Char} (text : List Char) (hglob : glob.head? ≠ some '*')
      (htext : '/' ∉ text) (h : Names glob path) : Names ('*' :: glob) (text ++ path)
  | char {glob path : List Char} (c : Char) (hc : c ≠ '*') (h : Names glob path) :
      Names (c :: glob) (c :: path)

/-- The part of the pattern that each part of a glob becomes. -/
def items : List Char → List (Item Char)
  | [] => []
  | '*' :: '*' :: glob => .many (· != '\n') :: items glob
  | '*' :: glob => .many (· != '/') :: items glob
  | c :: glob => .one (· == c) :: items glob

/-- The regular expression, part by part. -/
def regexOf : List Char → List Char
  | [] => []
  | '*' :: '*' :: glob => '.' :: '*' :: regexOf glob
  | '*' :: glob => '[' :: '^' :: '/' :: ']' :: '*' :: regexOf glob
  | c :: glob => escapeChar c ++ regexOf glob

/-- After the first replacement. -/
def halfRegexOf : List Char → List Char
  | [] => []
  | '*' :: '*' :: glob => '.' :: '*' :: halfRegexOf glob
  | '*' :: glob => '\\' :: '*' :: halfRegexOf glob
  | c :: glob => escapeChar c ++ halfRegexOf glob

/-! ## The translation -/

theorem escape_cons (c : Char) (glob : List Char) :
    escape (c :: glob) = escapeChar c ++ escape glob := rfl

theorem head_escapeChar_append (c : Char) (text : List Char) :
    (escapeChar c ++ text).head? ≠ some '*' := by
  unfold escapeChar
  split_ifs with hspecial
  · simp
  · rintro heq
    obtain rfl : c = '*' := Option.some.inj heq
    exact hspecial (by decide)

theorem head_escape (glob : List Char) : (escape glob).head? ≠ some '*' := by
  cases glob with
  | nil => simp [escape]
  | cons c glob => exact head_escapeChar_append c _

theorem not_prefix_of_head {word text : List Char} {c d : Char} (h : text.head? ≠ some d) :
    ¬ c :: d :: word <+: c :: text := by
  cases text with
  | nil => simp [List.cons_prefix_cons]
  | cons e text =>
      rw [List.cons_prefix_cons, List.cons_prefix_cons]
      rintro ⟨-, rfl, -⟩
      exact h rfl

theorem not_prefix_of_ne {word text : List Char} {c d : Char} (h : c ≠ d) :
    ¬ c :: word <+: d :: text := by
  rw [List.cons_prefix_cons]
  exact fun hprefix ↦ h hprefix.1

/-- An escaped character other than the star is left as it is. -/
theorem replace_escapeChar (more new : List Char) {c : Char} (hc : c ≠ '*') {text : List Char}
    (htext : text.head? ≠ some '*') :
    replace ('\\' :: '*' :: more) new (escapeChar c ++ text) =
      escapeChar c ++ replace ('\\' :: '*' :: more) new text := by
  have hlast : replace ('\\' :: '*' :: more) new (c :: text) =
      c :: replace ('\\' :: '*' :: more) new text := by
    by_cases hback : c = '\\'
    · rw [hback, replace_cons_of_not new (not_prefix_of_head htext)]
    · exact replace_cons_of_not new (not_prefix_of_ne (Ne.symm hback))
  unfold escapeChar
  split_ifs
  · have hfirst : ¬ '\\' :: '*' :: more <+: '\\' :: (c :: text) := by
      apply not_prefix_of_head
      simpa using hc
    rw [List.cons_append, List.singleton_append, replace_cons_of_not new hfirst, hlast]
    rfl
  · exact hlast

theorem head_halfRegexOf (glob : List Char) : (halfRegexOf glob).head? ≠ some '*' := by
  fun_cases halfRegexOf glob with
  | case1 => simp
  | case2 glob => simp
  | case3 glob _ => simp
  | case4 c glob _ _ => exact head_escapeChar_append c _

/-- A star that stands alone is not followed by an escaped one. -/
theorem not_stars_prefix_escape {glob : List Char} (h : ∀ more, glob ≠ '*' :: more) :
    ¬ ['\\', '*'] <+: escape glob := by
  cases glob with
  | nil => simp [escape]
  | cons c glob =>
      have hc : c ≠ '*' := by
        rintro rfl
        exact h glob rfl
      rw [escape_cons, escapeChar]
      split_ifs with hspecial
      · apply not_prefix_of_head
        simpa using hc
      · apply not_prefix_of_ne
        rintro rfl
        exact hspecial (by decide)

theorem replace_pairs (glob : List Char) :
    replace ['\\', '*', '\\', '*'] ['.', '*'] (escape glob) = halfRegexOf glob := by
  fun_induction halfRegexOf glob with
  | case1 => rfl
  | case2 glob ih =>
      have hstars : escape ('*' :: '*' :: glob) = ['\\', '*', '\\', '*'] ++ escape glob := rfl
      rw [hstars, replace_append (by simp), ih]
      rfl
  | case3 glob hsingle ih =>
      have hstar : escape ('*' :: glob) = '\\' :: '*' :: escape glob := rfl
      have hnot : ¬ ['\\', '*', '\\', '*'] <+: '\\' :: '*' :: escape glob := by
        rw [List.cons_prefix_cons, List.cons_prefix_cons]
        exact fun hprefix ↦ not_stars_prefix_escape (fun more heq ↦ hsingle more heq) hprefix.2.2
      rw [hstar, replace_cons_of_not _ hnot,
        replace_cons_of_not _ (not_prefix_of_ne (by decide)), ih]
  | case4 c glob _ hc ih =>
      rw [escape_cons, replace_escapeChar _ _ (fun heq ↦ hc heq) (head_escape glob), ih]

theorem replace_stars (glob : List Char) :
    replace ['\\', '*'] ['[', '^', '/', ']', '*'] (halfRegexOf glob) = regexOf glob := by
  fun_induction halfRegexOf glob with
  | case1 => rfl
  | case2 glob ih =>
      rw [replace_cons_of_not _ (not_prefix_of_ne (by decide)),
        replace_cons_of_not _ (not_prefix_of_ne (by decide)), ih, regexOf]
  | case3 glob hsingle ih =>
      have hstar : '\\' :: '*' :: halfRegexOf glob = ['\\', '*'] ++ halfRegexOf glob := rfl
      rw [hstar, replace_append (by simp), ih, regexOf]
      · rfl
      · exact hsingle
  | case4 c glob hpair hc ih =>
      rw [replace_escapeChar _ _ (fun heq ↦ hc heq) (head_halfRegexOf glob), ih, regexOf]
      · exact hpair
      · exact hc

theorem exemptGlobToRegex_eq (glob : String) :
    exemptGlobToRegex glob = String.ofList (regexOf glob.toList) := by
  rw [exemptGlobToRegex, replace_pairs, replace_stars]

theorem parse_escapeChar (c : Char) (rest : List Char) :
    parse (escapeChar c ++ rest) = (parse rest).map (.one (· == c) :: ·) := by
  unfold escapeChar
  split_ifs with hspecial
  · have halpha : c.isAlphanum = false := by
      have hall : ∀ d ∈ specialChars, d.isAlphanum = false :=
        Text.forall_mem_of_all (by decide)
      exact hall c hspecial
    simp [parse, halpha]
  · have hmeta : c ∉ metaChars := by
      have hall : ∀ d ∈ metaChars, d ∈ specialChars :=
        Text.forall_mem_of_all (by decide)
      exact fun hmem ↦ hspecial (hall c hmem)
    have hback : c ≠ '\\' := fun heq ↦ hmeta (by rw [heq]; decide)
    have hdot : c ≠ '.' := fun heq ↦ hmeta (by rw [heq]; decide)
    have hbracket : c ≠ '[' := fun heq ↦ hmeta (by rw [heq]; decide)
    rw [List.singleton_append, parse, if_neg hmeta]
    · exact fun _ _ heq ↦ absurd heq hback
    · exact fun _ heq ↦ absurd heq hdot
    · exact fun _ heq ↦ absurd heq hbracket

/-- The regular expression of a glob has one part for each part of the glob. -/
theorem parse_regexOf (glob : List Char) : parse (regexOf glob) = some (items glob) := by
  fun_induction regexOf glob with
  | case1 => rfl
  | case2 glob ih => simp [parse, items, ih]
  | case3 glob hsingle ih =>
      rw [items]
      · simp [parse, ih]
      · exact hsingle
  | case4 c glob hpair hc ih =>
      rw [items, parse_escapeChar, ih, Option.map_some]
      · exact hpair
      · exact hc

/-- The translated pattern stands for what the glob generates, on a path without a line break. -/
theorem generates_items_iff (glob : List Char) (prev : Option Char) (path rest : List Char)
    (hpath : '\n' ∉ path) : Generates (items glob) prev path rest ↔ Names glob path := by
  fun_induction items glob generalizing prev path with
  | case1 =>
      constructor
      · rintro rfl
        exact .nil
      · rintro ⟨⟩
        rfl
  | case2 glob ih =>
      constructor
      · rintro ⟨text, more, rfl, -, hgen⟩
        exact .anyPath text ((ih _ more fun h ↦ hpath (List.mem_append_right text h)).mp hgen)
      · intro h
        cases h with
        | anyPath text h =>
            refine ⟨text, _, rfl, ?_, (ih _ _ fun h ↦ hpath (List.mem_append_right text h)).mpr h⟩
            intro c hc
            simpa using fun heq : c = '\n' ↦ hpath (List.mem_append_left _ (heq ▸ hc))
        | anySegment text hglob _ _ => exact absurd rfl hglob
        | char _ hc _ => exact absurd rfl hc
  | case3 glob hsingle ih =>
      have hhead : glob.head? ≠ some '*' := by
        cases glob with
        | nil => simp
        | cons d glob =>
            intro heq
            obtain rfl : d = '*' := Option.some.inj heq
            exact hsingle glob rfl
      constructor
      · rintro ⟨text, more, rfl, htext, hgen⟩
        apply Names.anySegment text hhead
        · intro hslash
          simpa using htext '/' hslash
        · exact (ih _ more fun h ↦ hpath (List.mem_append_right text h)).mp hgen
      · intro h
        cases h with
        | anyPath text h => exact absurd rfl hhead
        | anySegment text _ htext h =>
            refine ⟨text, _, rfl, ?_, (ih _ _ fun h ↦ hpath (List.mem_append_right text h)).mpr h⟩
            intro c hc
            simpa using fun heq : c = '/' ↦ htext (heq ▸ hc)
        | char _ hc _ => exact absurd rfl hc
  | case4 c glob _ hc ih =>
      constructor
      · rintro ⟨d, more, rfl, hd, hgen⟩
        obtain rfl : d = c := by simpa using hd
        exact .char d hc ((ih _ more fun h ↦ hpath (List.mem_cons_of_mem d h)).mp hgen)
      · intro h
        cases h with
        | anyPath text h => exact absurd rfl hc
        | anySegment text _ _ h => exact absurd rfl hc
        | char _ _ h =>
            exact ⟨c, _, rfl, by simp, (ih _ _ fun h ↦ hpath (List.mem_cons_of_mem c h)).mpr h⟩

theorem regexOf_eq_nil_iff (glob : List Char) : regexOf glob = [] ↔ glob = [] := by
  fun_cases regexOf glob with
  | case1 => simp
  | case2 glob => simp
  | case3 glob _ => simp
  | case4 c glob _ _ =>
      unfold escapeChar
      split_ifs <;> simp

/-- A path is exempt when the glob is not empty and generates a beginning of the path. -/
theorem isPathExempt_iff (glob path : String) (hpath : '\n' ∉ path.toList) :
    isPathExempt reMatch path (exemptGlobToRegex glob) = true ↔
      glob ≠ "" ∧ ∃ start rest, path.toList = start ++ rest ∧ Names glob.toList start := by
  have hempty : exemptGlobToRegex glob = "" ↔ glob = "" := by
    rw [exemptGlobToRegex_eq, String.ofList_eq_empty_iff, regexOf_eq_nil_iff,
      String.toList_eq_nil_iff]
  have hmatch : reMatch (exemptGlobToRegex glob) path =
      some (matchAt (items glob.toList) none path.toList).isSome := by
    rw [reMatch, exemptGlobToRegex_eq, String.toList_ofList, parse_regexOf, Option.map_some]
  by_cases hglob : glob = ""
  · rw [isPathExempt, if_pos (hempty.mpr hglob)]
    simp [hglob]
  · rw [isPathExempt, if_neg (mt hempty.mp hglob), hmatch, Option.getD_some, isSome_matchAt_iff]
    simp only [hglob, ne_eq, not_false_eq_true, true_and]
    constructor
    · rintro ⟨start, rest, htext, hgen⟩
      refine ⟨start, rest, htext, (generates_items_iff _ none start rest ?_).mp hgen⟩
      exact fun h ↦ hpath (htext ▸ List.mem_append_left rest h)
    · rintro ⟨start, rest, htext, hnames⟩
      refine ⟨start, rest, htext, (generates_items_iff _ none start rest ?_).mpr hnames⟩
      exact fun h ↦ hpath (htext ▸ List.mem_append_left rest h)

theorem isPathExempt_tools :
    isPathExempt reMatch "tools/a.py" (exemptGlobToRegex "tools/**") = true ↔
      "tools/**" ≠ "" ∧ ∃ start rest, "tools/a.py".toList = start ++ rest ∧
        Names "tools/**".toList start :=
  isPathExempt_iff "tools/**" "tools/a.py" (by decide)

/-- A glob without a star generates itself only. -/
theorem names_literal {glob path : List Char} (h : Names glob path) (hglob : '*' ∉ glob) :
    path = glob := by
  induction h with
  | nil => rfl
  | anyPath _ _ _ => exact absurd List.mem_cons_self hglob
  | anySegment _ _ _ _ _ => exact absurd List.mem_cons_self hglob
  | char c _ _ ih => rw [ih fun h ↦ hglob (List.mem_cons_of_mem c h)]

/-- The glob `tools/x.py` exempts `tools/x.pyc`, which it does not generate. -/
theorem isPathExempt_beginning :
    ¬ (isPathExempt reMatch "tools/x.pyc" (exemptGlobToRegex "tools/x.py") = true ↔
      Names "tools/x.py".toList "tools/x.pyc".toList) := by
  intro hexact
  have hexempt : isPathExempt reMatch "tools/x.pyc" (exemptGlobToRegex "tools/x.py") = true := by
    decide +kernel
  exact absurd (names_literal (hexact.mp hexempt) (by decide)) (by decide)

end AgenticSDLC.ExemptGlobs
