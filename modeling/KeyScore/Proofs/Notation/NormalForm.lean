import KeyScore.Proofs.Notation.Gaps
import KeyScore.Proofs.Notation.Source
import Mathlib

/-!
# Normal forms

Where blanks are no rests, it does not matter how a text is laid out: it compiles to the same as
its normal form, in which the directives stand first and all the notes follow in one line
without blanks.
-/

namespace KeyScore

namespace Text

/-- Trimmed, a text starts with the first of its characters that is not blank. -/
theorem head?_trim (cs : List Char) :
    (trim cs).head? = (cs.filter fun c => !isBlank c).head? := by
  have starts : (cs.filter fun c => !isBlank c).head? = (cs.dropWhile isBlank).head? := by
    rw [List.head?_filter, List.find?_eq_head?_dropWhile_not]
    simp only [Bool.not_not]
  have prefixed : trim cs <+: cs.dropWhile isBlank := List.rdropWhile_prefix isBlank _
  rw [starts]
  by_cases blank : cs.dropWhile isBlank = []
  · rw [blank] at prefixed ⊢
    rw [List.prefix_nil.mp prefixed]
  · have first : isBlank ((cs.dropWhile isBlank).head blank) = false :=
      List.head_dropWhile_not isBlank blank
    have nonempty : trim cs ≠ [] := by
      intro none
      have all := List.rdropWhile_eq_nil_iff.mp none _ (List.head_mem blank)
      rw [first] at all
      cases all
    rw [List.head?_eq_some_head nonempty, prefixed.head nonempty, List.head?_eq_some_head blank]

end Text

namespace Notation

/-- The directive lines of a text as they stand. -/
def directiveLines (text : String) : List (List Char) :=
  (Text.lines text.toList).filter fun line => (Source.directiveBody? line).isSome

/-- The note lines of a text run together, without their blanks. -/
def noteLine (text : String) : List Char :=
  Token.unspaced
    ((Text.lines text.toList).filter fun line => (Source.directiveBody? line).isNone).flatten

/-- The directive lines, and all the notes behind them in a single line. -/
def normalForm (text : String) : String :=
  String.ofList ((directiveLines text).flatMap (fun line => line ++ ['\n']) ++ noteLine text)

theorem lines_normalForm (text : String) :
    Text.lines (normalForm text).toList = directiveLines text ++ [noteLine text] := by
  have unbroken (line : List Char) (inside : line ∈ directiveLines text) :
      ∀ c ∈ line, Text.isLineBreak c = false :=
    Text.unbroken_of_mem_lines (List.mem_filter.mp inside).1
  have single : Text.lines (noteLine text) = [noteLine text] := by
    refine Text.lines_of_unbroken fun c inside => Text.not_isLineBreak ?_
    simpa using (List.mem_filter.mp inside).2
  rw [normalForm, String.toList_ofList, Text.lines_flatMap unbroken, single, List.map_id']

namespace Source

/-- A line is a note line if its first character that is not blank is no `@`. -/
theorem directiveBody?_eq_none_iff {line : List Char} :
    directiveBody? line = none ↔ (Token.unspaced line).head? ≠ some '@' := by
  rw [Token.unspaced, ← Text.head?_trim, directiveBody?]
  split
  · rename_i body trimmed
    simp [trimmed]
  · rename_i other
    refine iff_of_true rfl fun first => ?_
    obtain ⟨body, trimmed⟩ := List.head?_eq_some_iff.mp first
    exact other body trimmed

/-- Run together, note lines are a note line. -/
theorem directiveBody?_flatten {lines : List (List Char)}
    (notes : ∀ line ∈ lines, directiveBody? line = none) :
    directiveBody? lines.flatten = none := by
  rw [directiveBody?_eq_none_iff]
  induction lines with
  | nil => simp [Token.unspaced]
  | cons line lines ih =>
    obtain ⟨first, others⟩ := List.forall_mem_cons.mp notes
    have start := directiveBody?_eq_none_iff.mp first
    rw [List.flatten_cons, Token.unspaced, List.filter_append, List.head?_append]
    intro directive
    rcases Option.or_eq_some_iff.mp directive with here | ⟨-, later⟩
    · exact start here
    · exact ih others later

/-- Without blanks the notes still do not start like a directive. -/
theorem directiveBody?_noteLine (text : String) : directiveBody? (noteLine text) = none := by
  have isNote : ∀ line ∈ (Text.lines text.toList).filter
      (fun line => (directiveBody? line).isNone), directiveBody? line = none :=
    fun line inside => Option.isNone_iff_eq_none.mp (List.mem_filter.mp inside).2
  have start := directiveBody?_eq_none_iff.mp (directiveBody?_flatten isNote)
  rw [directiveBody?_eq_none_iff, noteLine, Token.unspaced_unspaced]
  exact start

theorem ofLines_directiveLines (text : String) :
    ofLines (directiveLines text) = ⟨(ofText text).directives, []⟩ := by
  have bodies : (directiveLines text).filterMap directiveBody? =
      (Text.lines text.toList).filterMap directiveBody? := by
    rw [directiveLines, List.filterMap_filter]
    refine List.filterMap_congr fun line _ => ?_
    cases directiveBody? line <;> rfl
  have notes : (directiveLines text).filter (fun line => (directiveBody? line).isNone) = [] := by
    refine List.filter_eq_nil_iff.mpr fun line inside => ?_
    obtain ⟨body, directive⟩ := Option.isSome_iff_exists.mp (List.mem_filter.mp inside).2
    rw [directive]
    exact Bool.false_ne_true
  rw [ofLines, bodies, notes]
  rfl

/-- The normal form has the directives and the notes of its text. -/
theorem ofText_normalForm (text : String) :
    ofText (normalForm text) = ⟨(ofText text).directives, Token.unspaced (ofText text).notes⟩ := by
  have notes : ofLines [noteLine text] = ⟨[], Token.unspaced (ofText text).notes⟩ := by
    have note := directiveBody?_noteLine text
    rw [ofLines, List.filterMap_cons_none note, List.filter_cons_of_pos (by rw [note]; rfl)]
    simp [noteLine, ofText]
  rw [ofText_eq, lines_normalForm, ofLines_append, ofLines_directiveLines, notes, followedBy,
    List.append_nil, List.nil_append]

end Source

/-- Where blanks are no rests, a text compiles to the same as its normal form. -/
theorem compile_normalForm {text : String} {s : Settings}
    (noRests : (compile text s).settings.spaceRests = false) :
    Text.lines (normalForm text).toList = directiveLines text ++ [noteLine text] ∧
      compile (normalForm text) s = compile text s := by
  refine ⟨lines_normalForm text, ?_⟩
  let base := (Source.ofText text).settings s
  have off : base.spaceRests = false := by
    rw [← noRests]
    exact (spaceRests_settle _ _ _).symm
  have events : Source.events ⟨(Source.ofText text).directives,
      Token.unspaced (Source.ofText text).notes⟩ base = (Source.ofText text).events base := by
    have once := Token.unspaced_unspaced (Source.ofText text).notes
    rw [Source.events, Source.events, if_neg (by simp [off]), if_neg (by simp [off])]
    exact congrArg
      (fun notes => mergeRests ((Token.scan notes).filterMap (Token.event? base.pipeWeight))) once
  have settings : Source.settings ⟨(Source.ofText text).directives,
      Token.unspaced (Source.ofText text).notes⟩ s = base := rfl
  rw [compile_eq (Source.ofText_normalForm text), settings, events]
  rfl

/-- A chord, a tie and pipes over breaks of all kinds, a directive between the keys of the chord
and an `@` that is a note. -/
theorem compile_scattered :
    normalForm "[a\r\n @hold 1\u000b\u3000@bpm 90\u2028 b]\u0085\t-\u2029|\u000c | @fit" =
        " @hold 1\n\u3000@bpm 90\n[ab]-||@fit" ∧
      (compile "[a\r\n @hold 1\u000b\u3000@bpm 90\u2028 b]\u0085\t-\u2029|\u000c | @fit"
        Settings.initial).settings.spaceRests = false ∧
      compile " @hold 1\n\u3000@bpm 90\n[ab]-||@fit" Settings.initial =
        compile "[a\r\n @hold 1\u000b\u3000@bpm 90\u2028 b]\u0085\t-\u2029|\u000c | @fit"
          Settings.initial := by
  have normal : normalForm
      "[a\r\n @hold 1\u000b\u3000@bpm 90\u2028 b]\u0085\t-\u2029|\u000c | @fit" =
        " @hold 1\n\u3000@bpm 90\n[ab]-||@fit" := by decide +kernel
  have noRests : (compile
      "[a\r\n @hold 1\u000b\u3000@bpm 90\u2028 b]\u0085\t-\u2029|\u000c | @fit"
        Settings.initial).settings.spaceRests = false := rfl
  have same := (compile_normalForm noRests).2
  rw [normal] at same
  exact ⟨normal, noRests, same⟩

end Notation

end KeyScore
