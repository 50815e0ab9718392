import AgenticSDLC.Foundations.JsonReader
import AgenticSDLC.Foundations.Lines

/-!
# JSON lines

A file with a JSON object on every line.  The text of a plain object has no line
break, and no white space at its ends, so that it is what a reader of the lines finds.
-/

namespace Json

section Objects

variable (repr : Json → String) (members : List (String × Json))

theorem head?_asciiText_obj : (asciiText repr (.obj members)).head? = some '\x7b' := by
  rcases members with _ | ⟨⟨key, value⟩, members⟩ <;> rfl

theorem asciiText_obj_ne_nil : asciiText repr (.obj members) ≠ [] := by
  intro h
  have hhead := head?_asciiText_obj repr members
  rw [h] at hhead
  cases hhead

variable {members}

theorem isLineBreak_asciiText {value : Json} (h : value.Plain) :
    ∀ c ∈ asciiText repr value, Text.isLineBreak c = false := by
  intro c hc
  have hprintable := printable_asciiText repr value h c hc
  simp only [isPrintable, Bool.and_eq_true, decide_eq_true_eq] at hprintable
  simp only [Text.isLineBreak, Bool.or_eq_false_iff, Bool.and_eq_false_iff,
    decide_eq_false_iff_not, beq_eq_false_iff_ne]
  omega

/-- What stands before an object's text stays when the end of the whole is trimmed. -/
theorem trimEnds_append_obj {text rest : List Char}
    (htext : ∀ c, text.head? = some c → Python.isspace c = false)
    (hrest : ∀ c ∈ rest, Python.isspace c = true) :
    Text.trimEnds Python.isspace (text ++ asciiText repr (.obj members) ++ rest) =
      text ++ asciiText repr (.obj members) := by
  have hhead : ∀ c, (text ++ asciiText repr (.obj members)).head? = some c →
      Python.isspace c = false := by
    intro c hc
    cases text with
    | nil =>
        rw [List.nil_append, head?_asciiText_obj] at hc
        cases hc
        decide
    | cons d text => exact htext c hc
  have hlast : ∀ c, (text ++ asciiText repr (.obj members)).getLast? = some c →
      Python.isspace c = false := by
    intro c hc
    rw [List.getLast?_append, getLast?_asciiText_obj, Option.some_or] at hc
    cases hc
    decide
  exact Text.trimEnds_append hhead hlast
    (List.append_ne_nil_of_right_ne_nil _ (asciiText_obj_ne_nil repr members)) hrest

theorem strip_asciiText_obj :
    Python.strip (String.ofList (asciiText repr (.obj members))) =
      String.ofList (asciiText repr (.obj members)) := by
  have htrim : Text.trimEnds Python.isspace ([] ++ asciiText repr (.obj members) ++ []) = _ :=
    trimEnds_append_obj repr (by simp) (by simp)
  rw [List.nil_append, List.append_nil] at htrim
  rw [Python.strip, Text.trim, String.toList_ofList, htrim]

end Objects

end Json
