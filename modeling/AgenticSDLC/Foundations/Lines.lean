import AgenticSDLC.Foundations.Text

/-!
# Lines of a text

`str.splitlines`: a line ends at a line break, and the last one also at the end of
the text.  A text written line by line reads back as its lines, when these have no
break of their own.
-/

namespace Text

def isLineBreak (c : Char) : Bool :=
  let n := c.toNat
  (10 ≤ n && n ≤ 13) || (28 ≤ n && n ≤ 30) || n == 0x85 || n == 0x2028 || n == 0x2029

/-- The lines with one more character on the first. -/
def consLine (c : Char) : List (List Char) → List (List Char)
  | [] => [[c]]
  | line :: lines => (c :: line) :: lines

def splitlines : List Char → List (List Char)
  | [] => []
  | '\r' :: '\n' :: cs => [] :: splitlines cs
  | c :: cs => if isLineBreak c then [] :: splitlines cs else consLine c (splitlines cs)

/-- Lines written one after another, each with its end. -/
def unlines (lines : List (List Char)) : List Char := lines.flatMap (· ++ ['\n'])

theorem splitlines_cons {c : Char} (h : isLineBreak c = false) (cs : List Char) :
    splitlines (c :: cs) = consLine c (splitlines cs) := by
  have hreturn : c ≠ '\r' := by
    rintro rfl
    exact absurd h (by decide)
  rw [splitlines, if_neg (by simp [h])]
  exact fun _ hc ↦ absurd hc hreturn

theorem splitlines_append_newline {line : List Char} (h : ∀ c ∈ line, isLineBreak c = false)
    (rest : List Char) : splitlines (line ++ '\n' :: rest) = line :: splitlines rest := by
  induction line with
  | nil => rw [List.nil_append, splitlines, if_pos (by decide)]; simp
  | cons c line ih =>
      rw [List.cons_append, splitlines_cons (h c List.mem_cons_self),
        ih fun d hd ↦ h d (List.mem_cons_of_mem c hd), consLine]

theorem splitlines_line {line : List Char} (h : ∀ c ∈ line, isLineBreak c = false)
    (hne : line ≠ []) : splitlines line = [line] := by
  induction line with
  | nil => exact absurd rfl hne
  | cons c line ih =>
      rw [splitlines_cons (h c List.mem_cons_self)]
      cases line with
      | nil => rfl
      | cons d line =>
          rw [ih (fun e he ↦ h e (List.mem_cons_of_mem c he)) (List.cons_ne_nil d line), consLine]

/-- The lines of a text whose last line has no end. -/
theorem splitlines_unlines_append {lines : List (List Char)} {last : List Char}
    (hlines : ∀ line ∈ lines, ∀ c ∈ line, isLineBreak c = false)
    (hlast : ∀ c ∈ last, isLineBreak c = false) (hne : last ≠ []) :
    splitlines (unlines lines ++ last) = lines ++ [last] := by
  induction lines with
  | nil => exact splitlines_line hlast hne
  | cons line lines ih =>
      have htext : unlines (line :: lines) ++ last = line ++ '\n' :: (unlines lines ++ last) := by
        simp [unlines]
      rw [htext, splitlines_append_newline (hlines line List.mem_cons_self),
        ih fun other hother ↦ hlines other (List.mem_cons_of_mem line hother), List.cons_append]

theorem splitlines_eq_nil_iff {cs : List Char} : splitlines cs = [] ↔ cs = [] := by
  constructor
  · intro h
    cases cs with
    | nil => rfl
    | cons c cs =>
        rw [splitlines.eq_def] at h
        split at h
        · assumption
        · cases h
        · split_ifs at h
          cases hrest : splitlines ‹_› <;> simp [hrest, consLine] at h
  · rintro rfl
    rfl

theorem consLine_append {lines : List (List Char)} (h : lines ≠ []) (c : Char)
    (more : List (List Char)) : consLine c (lines ++ more) = consLine c lines ++ more := by
  cases lines with
  | nil => exact absurd rfl h
  | cons line lines => rfl

theorem getLast?_cons_of_getLast? {cs : List Char} {last : Char} (c : Char)
    (h : cs.getLast? = some last) : (c :: cs).getLast? = some last := by
  rw [List.getLast?_cons, h, Option.getD_some]

/-- A text whose last line is ended, and a text after it. -/
theorem splitlines_append {cs : List Char} (h : ∀ c, cs.getLast? = some c → c = '\n')
    (more : List Char) : splitlines (cs ++ more) = splitlines cs ++ splitlines more := by
  induction cs using splitlines.induct with
  | case1 => rfl
  | case2 cs ih =>
      have hcs := fun c hc ↦ h c (getLast?_cons_of_getLast? '\r' (getLast?_cons_of_getLast? '\n' hc))
      rw [List.cons_append, List.cons_append, splitlines, ih hcs, splitlines, List.cons_append]
  | case3 c cs hreturn hbreak ih =>
      have hcs := fun d hd ↦ h d (getLast?_cons_of_getLast? c hd)
      have happend : ∀ rest, c = '\r' → cs ++ more = '\n' :: rest → False := by
        rintro rest rfl hrest
        cases cs with
        | nil => exact absurd (h '\r' rfl) (by decide)
        | cons d cs => exact hreturn cs rfl (by rw [(List.cons.inj hrest).1])
      rw [List.cons_append, splitlines.eq_3 c _ happend, splitlines.eq_3 c _ hreturn, if_pos hbreak,
        if_pos hbreak, ih hcs, List.cons_append]
  | case4 c cs hreturn hbreak ih =>
      have hcs := fun d hd ↦ h d (getLast?_cons_of_getLast? c hd)
      have hne : cs ≠ [] := by
        rintro rfl
        rw [h c rfl] at hbreak
        exact hbreak (by decide)
      have hc : isLineBreak c = false := eq_false_of_ne_true hbreak
      rw [List.cons_append, splitlines_cons hc, splitlines_cons hc, ih hcs,
        consLine_append fun hnil ↦ hne (splitlines_eq_nil_iff.mp hnil)]

/-- A text between characters outside of the class is all that trimming leaves. -/
theorem trimEnds_append {p : Char → Bool} {cs ws : List Char}
    (hhead : ∀ c, cs.head? = some c → p c = false) (hlast : ∀ c, cs.getLast? = some c → p c = false)
    (hne : cs ≠ []) (hws : ∀ c ∈ ws, p c = true) : trimEnds p (cs ++ ws) = cs := by
  obtain ⟨c, rest, rfl⟩ := List.exists_cons_of_ne_nil hne
  have hfirst : p c = false := hhead c rfl
  obtain ⟨front, last, hcs⟩ := (List.eq_nil_or_concat (c :: rest)).resolve_left hne
  rw [List.concat_eq_append] at hcs
  have hend : p last = false := hlast last (by rw [hcs, List.getLast?_concat])
  rw [trimEnds, List.cons_append, List.dropWhile_cons_of_neg (by simp [hfirst]), ← List.cons_append,
    List.rdropWhile, List.reverse_append,
    List.dropWhile_append_of_pos fun d hd ↦ hws d (List.mem_reverse.mp hd), hcs,
    List.reverse_append, List.reverse_singleton, List.singleton_append,
    List.dropWhile_cons_of_neg (by simp [hend]), List.reverse_cons, List.reverse_reverse]

/-! ## Lines that are joined -/

theorem toList_intercalate_cons (line next : String) (lines : List String) :
    ("\n".intercalate (line :: next :: lines)).toList =
      line.toList ++ '\n' :: ("\n".intercalate (next :: lines)).toList := by
  rw [String.intercalate_cons_cons, String.toList_append, String.toList_append, List.append_assoc]
  rfl

theorem splitlines_intercalate {lines : List String}
    (h : ∀ line ∈ lines, line.toList ≠ [] ∧ ∀ c ∈ line.toList, isLineBreak c = false) :
    splitlines ("\n".intercalate lines).toList = lines.map String.toList := by
  induction lines with
  | nil => rfl
  | cons line lines ih =>
      obtain ⟨⟨hne, hline⟩, hlines⟩ := List.forall_mem_cons.mp h
      cases lines with
      | nil =>
          rw [String.intercalate_singleton]
          exact splitlines_line hline hne
      | cons next lines =>
          rw [toList_intercalate_cons, splitlines_append_newline hline, ih hlines]
          rfl

/-- A text up to its first line break is its first line. -/
theorem head?_splitlines {line : List Char} (h : ∀ c ∈ line, isLineBreak c = false) {c : Char}
    (hc : isLineBreak c = true) (rest : List Char) :
    (splitlines (line ++ c :: rest)).head? = some line := by
  induction line with
  | nil =>
      rw [List.nil_append, splitlines.eq_def]
      split
      · next heq => exact nomatch heq
      · rfl
      · next heq =>
        obtain ⟨rfl, -⟩ := List.cons.inj heq
        rw [if_pos hc]
        rfl
  | cons d line ih =>
      obtain ⟨lines, hlines⟩ := List.head?_eq_some_iff.mp
        (ih fun e he ↦ h e (List.mem_cons_of_mem d he))
      rw [List.cons_append, splitlines_cons (h d List.mem_cons_self), hlines, consLine]
      rfl

theorem exists_first {text : List Char} (h : ∃ c ∈ text, isLineBreak c = true) :
    ∃ cut c rest, text = cut ++ c :: rest ∧ isLineBreak c = true ∧
      ∀ d ∈ cut, isLineBreak d = false := by
  cases hfind : text.find? isLineBreak with
  | none =>
      obtain ⟨c, hc, hbreak⟩ := h
      exact absurd hbreak (List.find?_eq_none.mp hfind c hc)
  | some c =>
      obtain ⟨hc, cut, rest, rfl, hcut⟩ := List.find?_eq_some_iff_append.mp hfind
      refine ⟨cut, c, rest, rfl, hc, fun d hd ↦ ?_⟩
      simpa using hcut d hd

/-- Where a joined line has a break of its own, some line is cut at its first break. -/
theorem exists_cut {lines : List String}
    (h : ∃ line ∈ lines, ∃ c ∈ line.toList, isLineBreak c = true) :
    ∃ line ∈ lines, ∃ cut c rest, line.toList = cut ++ c :: rest ∧ isLineBreak c = true ∧
      cut ∈ splitlines ("\n".intercalate lines).toList := by
  induction lines with
  | nil =>
      obtain ⟨line, hline, -⟩ := h
      cases hline
  | cons line lines ih =>
      by_cases hbroken : ∃ c ∈ line.toList, isLineBreak c = true
      · obtain ⟨cut, c, rest, htext, hc, hcut⟩ := exists_first hbroken
        have hmore : ∃ more, ("\n".intercalate (line :: lines)).toList = line.toList ++ more := by
          cases lines with
          | nil => exact ⟨[], by rw [String.intercalate_singleton, List.append_nil]⟩
          | cons next lines => exact ⟨_, toList_intercalate_cons line next lines⟩
        obtain ⟨more, hmore⟩ := hmore
        refine ⟨line, List.mem_cons_self, cut, c, rest, htext, hc, ?_⟩
        rw [hmore, htext, List.append_assoc, List.cons_append]
        exact List.mem_of_mem_head? (head?_splitlines hcut hc _)
      · have hunbroken : ∀ c ∈ line.toList, isLineBreak c = false := fun c hc ↦
          eq_false_of_ne_true fun hbreak ↦ hbroken ⟨c, hc, hbreak⟩
        have hlines : ∃ line ∈ lines, ∃ c ∈ line.toList, isLineBreak c = true := by
          obtain ⟨other, hother, hbreak⟩ := h
          rcases List.mem_cons.mp hother with rfl | hother
          · exact absurd hbreak hbroken
          · exact ⟨other, hother, hbreak⟩
        obtain ⟨other, hother, cut, c, rest, htext, hc, hcut⟩ := ih hlines
        refine ⟨other, List.mem_cons_of_mem line hother, cut, c, rest, htext, hc, ?_⟩
        cases lines with
        | nil => cases hother
        | cons next lines =>
            rw [toList_intercalate_cons, splitlines_append_newline hunbroken]
            exact List.mem_cons_of_mem _ hcut

end Text
