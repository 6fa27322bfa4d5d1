import KeyScore.Notation.Token
import KeyScore.Text.Lines
import Mathlib.Data.List.TakeWhile

/-!
# Keys and blanks

No key is a blank and every line break is one, so a text of keys is a single line that
trimming leaves alone.
-/

namespace KeyScore.Text

/-- No character is in both ranges. -/
def CharRange.Apart (r s : CharRange) : Prop := r.last < s.first ∨ s.last < r.first

instance (r s : CharRange) : Decidable (r.Apart s) := inferInstanceAs (Decidable (_ ∨ _))

/-- Sets are disjoint if the ranges of one are apart from those of the other. -/
theorem inRanges_eq_false_of_apart {ranges others : List CharRange}
    (apart : ∀ r ∈ ranges, ∀ s ∈ others, r.Apart s) {c : Char} (h : inRanges ranges c = true) :
    inRanges others c = false := by
  obtain ⟨r, inRanges, low, high⟩ := inRanges_iff.mp h
  rw [Bool.eq_false_iff]
  intro both
  obtain ⟨s, inOthers, low', high'⟩ := inRanges_iff.mp both
  rcases apart r inRanges s inOthers with below | above
  · omega
  · omega

theorem isAlphanumeric_of_isBlank {c : Char} (h : isBlank c = true) : isAlphanumeric c = false :=
  inRanges_eq_false_of_apart (by decide +kernel) h

/-- The characters that are read as rests, chords, ties and directives. -/
def marks : List Char := ['|', '[', '-', '@']

/-- No letter or digit is a mark. -/
theorem ne_mark {c d : Char} (h : isAlphanumeric c = true) (mark : d ∈ marks) : c ≠ d := by
  have none : marks.all (fun d => !isAlphanumeric d) = true := by decide +kernel
  have other : isAlphanumeric d = false := by simpa using List.all_eq_true.mp none d mark
  rintro rfl
  rw [h] at other
  cases other

/-- The characters that print, from `!` to `~`. -/
def printedRanges : List CharRange := [⟨0x21, 0x7E⟩]

theorem not_printed_of_isBlank {c : Char} (h : isBlank c = true) : ¬('!' ≤ c ∧ c ≤ '~') := by
  have apart : inRanges printedRanges c = false := inRanges_eq_false_of_apart (by decide) h
  rintro ⟨low, high⟩
  have inside : inRanges printedRanges c = true :=
    inRanges_iff.mpr ⟨⟨0x21, 0x7E⟩, List.mem_singleton_self _, low, high⟩
  rw [apart] at inside
  cases inside

theorem isBlank_of_isLineBreak {c : Char} (h : isLineBreak c = true) : isBlank c = true := by
  simp only [isLineBreak, Bool.or_eq_true, beq_iff_eq] at h
  rcases h with (((((rfl | rfl) | rfl) | rfl) | rfl) | rfl) | rfl <;> decide

theorem not_isLineBreak {c : Char} (h : isBlank c = false) : isLineBreak c = false := by
  rw [Bool.eq_false_iff]
  intro breaks
  rw [isBlank_of_isLineBreak breaks] at h
  cases h

/-- A text without line breaks is one line. -/
theorem lines_of_unbroken {cs : List Char} (h : ∀ c ∈ cs, isLineBreak c = false) :
    lines cs = [cs] := by
  induction cs with
  | nil => rfl
  | cons c cs ih =>
    have first : isLineBreak c = false := h c (List.mem_cons_self ..)
    have rest := ih fun d inRest => h d (List.mem_cons_of_mem c inRest)
    simp [lines, first, rest]

theorem unbroken_of_mem_lines {cs line : List Char} (h : line ∈ lines cs) :
    ∀ c ∈ line, isLineBreak c = false := by
  intro c inside
  have kept : c ∈ (lines cs).flatten := List.mem_flatten_of_mem h inside
  rw [flatten_lines] at kept
  simpa using (List.mem_filter.mp kept).2

/-- Each line that is written with its break is found again, and so are those after them. -/
theorem lines_flatMap {α : Type} {line : α → List Char} {xs : List α}
    (whole : ∀ x ∈ xs, ∀ c ∈ line x, isLineBreak c = false) (cs : List Char) :
    lines (xs.flatMap (fun x => line x ++ ['\n']) ++ cs) = xs.map line ++ lines cs := by
  induction xs with
  | nil => rfl
  | cons x xs ih =>
    obtain ⟨first, others⟩ := List.forall_mem_cons.mp whole
    rw [List.flatMap_cons, List.append_assoc, List.append_assoc, List.singleton_append,
      lines_append_break (by decide), lines_of_unbroken first, ih others]
    rfl

/-- No character is a blank. -/
def Unspaced (cs : List Char) : Prop := ∀ c ∈ cs, isBlank c = false

theorem Unspaced.cons {c : Char} {cs : List Char} (first : isBlank c = false)
    (rest : Unspaced cs) : Unspaced (c :: cs) := List.forall_mem_cons.mpr ⟨first, rest⟩

theorem unspaced_of_all {cs : List Char} (h : (cs.all fun c => !isBlank c) = true) :
    Unspaced cs := fun c inside => by simpa using List.all_eq_true.mp h c inside

theorem filter_of_unspaced {cs : List Char} (h : Unspaced cs) :
    cs.filter (fun c => !isBlank c) = cs := by
  refine List.filter_eq_self.mpr fun c inside => ?_
  rw [h c inside]
  rfl

theorem trim_of_unspaced {cs : List Char} (h : Unspaced cs) : trim cs = cs := by
  have untouched (ds : List Char) (inside : ∀ d ∈ ds, d ∈ cs) : ds.dropWhile isBlank = ds := by
    refine List.dropWhile_eq_self_iff.mpr fun nonempty => ?_
    rw [h _ (inside _ (List.getElem_mem nonempty))]
    exact Bool.false_ne_true
  rw [trim, untouched cs fun _ => id, untouched cs.reverse fun _ => List.mem_reverse.mp,
    List.reverse_reverse]

/-- Blanks inside are left alone. -/
theorem trim_of_ends {first last : Char} (start : isBlank first = false)
    (stop : isBlank last = false) (cs : List Char) :
    trim (first :: (cs ++ [last])) = first :: (cs ++ [last]) := by
  simp [trim, start, stop]

theorem isBlank_of_isDigit {c : Char} (h : c.isDigit = true) : isBlank c = false := by
  rw [Bool.eq_false_iff]
  intro blank
  simp only [Char.isDigit, Bool.and_eq_true, decide_eq_true_eq] at h
  exact not_printed_of_isBlank blank
    ⟨UInt32.le_trans (by decide) h.1, UInt32.le_trans h.2 (by decide)⟩

end KeyScore.Text

namespace KeyScore.Notation

theorem isBlank_of_isKey {c : Char} (h : isKey c = true) : Text.isBlank c = false := by
  rw [Bool.eq_false_iff]
  intro blank
  rw [isKey, Text.isAlphanumeric_of_isBlank blank, Bool.or_false, isPunctuation,
    Bool.and_eq_true, Bool.and_eq_true, decide_eq_true_eq, decide_eq_true_eq] at h
  exact Text.not_printed_of_isBlank blank h.1

end KeyScore.Notation
