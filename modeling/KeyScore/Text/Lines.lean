/-!
# Lines

Seven characters end a line: line feed, vertical tab, form feed, carriage return, next
line, line separator and paragraph separator. Each of them ends one on its own, so a
carriage return followed by a line feed leaves an empty line between them.
-/

namespace KeyScore.Text

def isLineBreak (c : Char) : Bool :=
  c == '\n' || c == '\r' || c == '\u000b' || c == '\u000c' || c == '\u0085' ||
    c == '\u2028' || c == '\u2029'

/-- The lines of a text without their breaks; there is always at least one. -/
def lines : List Char → List (List Char)
  | [] => [[]]
  | c :: cs =>
    if isLineBreak c then [] :: lines cs
    else match lines cs with
      | [] => [[c]]
      | line :: rest => (c :: line) :: rest

theorem lines_ne_nil (cs : List Char) : lines cs ≠ [] := by
  fun_induction lines cs <;> simp

/-- A line break joins the lines before it and those after it. -/
theorem lines_append_break {c : Char} (h : isLineBreak c = true) (xs ys : List Char) :
    lines (xs ++ c :: ys) = lines xs ++ lines ys := by
  induction xs with
  | nil => simp [lines, h]
  | cons x xs ih =>
    by_cases hx : isLineBreak x = true
    · simp [lines, hx, ih]
    · obtain ⟨line, rest, eq⟩ := List.exists_cons_of_ne_nil (lines_ne_nil xs)
      simp [lines, hx, ih, eq]

/-- Nothing but the line breaks is lost. -/
theorem flatten_lines (cs : List Char) :
    (lines cs).flatten = cs.filter (fun c => !isLineBreak c) := by
  fun_induction lines cs <;> simp_all

end KeyScore.Text
