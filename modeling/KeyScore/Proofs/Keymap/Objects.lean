import KeyScore.Keymap.Document
import KeyScore.Proofs.Json.Strings
import KeyScore.Proofs.Number.Whole
import Mathlib

/-!
# Objects from notes to strings

The text of an object from note numbers to strings is laid out freely: blanks stand between any two
of its parts, and each string is spelled in any of its ways. Whatever the layout, the object is
read with its members in the order in which they are written, and what comes of it depends on them
alone.
-/

namespace KeyScore.Keymap

/-- Blanks that can stand between two parts of a document. -/
def Gap (cs : List Char) : Prop := ∀ c ∈ cs, c = ' ' ∨ c = '\t' ∨ c = '\n' ∨ c = '\r'

/-- A note and its text as a member of an object. -/
inductive MemberWritten : UInt8 × List Char → List Char → Prop
  | mk (note : UInt8) {text spelled before between behind : List Char} (hb : Gap before)
      (hc : Gap between) (hd : Gap behind) (value : Json.TextSpelled text spelled) :
      MemberWritten (note, text) (before ++ '"' :: (Nat.toDigits 10 note.toNat ++ '"' ::
        (between ++ ':' :: (behind ++ '"' :: (spelled ++ ['"'])))))

/-- The members of an object with a comma between any two of them, at least one. -/
inductive MembersWritten : List (UInt8 × List Char) → List Char → Prop
  | last {entry : UInt8 × List Char} {cs gap : List Char} (member : MemberWritten entry cs)
      (blank : Gap gap) : MembersWritten [entry] (cs ++ gap)
  | cons {entry : UInt8 × List Char} {entries : List (UInt8 × List Char)} {cs gap ds : List Char}
      (member : MemberWritten entry cs) (blank : Gap gap) (others : MembersWritten entries ds) :
      MembersWritten (entry :: entries) (cs ++ (gap ++ ',' :: ds))

/-- An object with blanks before and behind it. -/
inductive DocumentWritten : List (UInt8 × List Char) → List Char → Prop
  | empty {before inside behind : List Char} (hb : Gap before) (hi : Gap inside)
      (hd : Gap behind) : DocumentWritten [] (before ++ '\x7b' :: (inside ++ '\x7d' :: behind))
  | members {entries : List (UInt8 × List Char)} {before cs behind : List Char} (hb : Gap before)
      (inside : MembersWritten entries cs) (hd : Gap behind) :
      DocumentWritten entries (before ++ '\x7b' :: (cs ++ '\x7d' :: behind))

theorem Gap.nil : Gap [] := by simp [Gap]

theorem Gap.isGap {gap : List Char} (blank : Gap gap) : ∀ c ∈ gap, isGap c = true := by
  intro c inside
  rcases blank c inside with rfl | rfl | rfl | rfl <;> rfl

theorem skipGap_append {gap : List Char} (blank : Gap gap) {c : Char} (part : isGap c = false)
    (rest : List Char) : skipGap (gap ++ c :: rest) = c :: rest := by
  rw [skipGap, List.dropWhile_append_of_pos blank.isGap,
    List.dropWhile_cons_of_neg (by simp [part])]

theorem skipGap_of_gap {gap : List Char} (blank : Gap gap) : skipGap gap = [] :=
  List.dropWhile_eq_nil_iff.mpr blank.isGap

theorem skipPast?_append {gap : List Char} (blank : Gap gap) {c : Char} (part : isGap c = false)
    (rest : List Char) : skipPast? c (gap ++ c :: rest) = some rest := by
  rw [skipPast?, skipGap_append blank part]
  exact if_pos rfl

theorem readNote?_toDigits (note : UInt8) (rest : List Char) :
    readNote? (Nat.toDigits 10 note.toNat ++ '"' :: rest) = some (note, '"' :: rest) := by
  have digits := Number.isDigit_toDigits note.toNat
  have taken : (Nat.toDigits 10 note.toNat ++ '"' :: rest).takeWhile Char.isDigit =
      Nat.toDigits 10 note.toNat := by
    rw [List.takeWhile_append_of_pos digits, List.takeWhile_cons_of_neg (by decide),
      List.append_nil]
  have dropped : (Nat.toDigits 10 note.toNat ++ '"' :: rest).dropWhile Char.isDigit =
      '"' :: rest := by
    rw [List.dropWhile_append_of_pos digits, List.dropWhile_cons_of_neg (by decide)]
  have value := Number.ofDigits_toDigits note.toNat
  rw [readNote?, taken, dropped]
  simp only [value, note.toNat_lt, and_self, if_true, UInt8.ofNat_toNat]

theorem readMember?_of_written {entry : UInt8 × List Char} {cs : List Char}
    (written : MemberWritten entry cs) (rest : List Char) :
    readMember? (cs ++ rest) = some (entry, rest) := by
  cases written with
  | mk note hb hc hd value =>
    have quote (cs : List Char) : readQuote? ('"' :: cs) = some cs := rfl
    simp only [List.append_assoc, List.cons_append, List.nil_append, readMember?,
      skipPast?_append hb (c := '"') rfl, readNote?_toDigits, quote,
      skipPast?_append hc (c := ':') rfl, skipPast?_append hd (c := '"') rfl,
      Json.readQuoted?_of_spelled value, Option.bind_eq_bind, Option.bind_some, Option.pure_def]

section Members

variable {cs after rest : List Char} {entry : UInt8 × List Char}

/-- A brace behind a member ends the object. -/
theorem readMembers?_of_brace (read : readMember? cs = some (entry, after))
    (ends : skipGap after = '\x7d' :: rest) : readMembers? cs = some ([entry], rest) := by
  rw [readMembers?]
  split
  · simp_all
  · split <;> simp_all

/-- A comma behind a member announces another one. -/
theorem readMembers?_of_comma (read : readMember? cs = some (entry, after))
    (goesOn : skipGap after = ',' :: rest) : readMembers? cs =
      (readMembers? rest).map fun (entries, rest) => (entry :: entries, rest) := by
  rw [readMembers?]
  split
  · simp_all
  · split <;> simp_all

end Members

theorem readMembers?_of_written {entries : List (UInt8 × List Char)} {cs : List Char}
    (written : MembersWritten entries cs) (rest : List Char) :
    readMembers? (cs ++ '\x7d' :: rest) = some (entries, rest) := by
  induction written with
  | @last entry cs gap member blank =>
    have read := readMember?_of_written member (gap ++ '\x7d' :: rest)
    rw [List.append_assoc]
    exact readMembers?_of_brace read (skipGap_append blank rfl rest)
  | @cons entry entries cs gap ds member blank others ih =>
    have read := readMember?_of_written member (gap ++ ',' :: (ds ++ '\x7d' :: rest))
    rw [List.append_assoc, List.append_assoc, List.cons_append,
      readMembers?_of_comma read (skipGap_append blank rfl _), ih, Option.map_some]

/-- A member starts with blanks and a quote, so it is no end of an object. -/
theorem MemberWritten.skipGap {entry : UInt8 × List Char} {cs : List Char}
    (written : MemberWritten entry cs) (rest : List Char) :
    ∃ more, skipGap (cs ++ rest) = '"' :: more := by
  cases written with
  | mk note hb hc hd value =>
    rw [List.append_assoc, List.cons_append]
    exact ⟨_, skipGap_append hb rfl _⟩

theorem MembersWritten.skipGap {entries : List (UInt8 × List Char)} {cs : List Char}
    (written : MembersWritten entries cs) (rest : List Char) :
    ∃ more, Keymap.skipGap (cs ++ rest) = '"' :: more := by
  cases written with
  | last member blank =>
    rw [List.append_assoc]
    exact member.skipGap _
  | cons member blank others =>
    rw [List.append_assoc]
    exact member.skipGap _

/-- The object of a document is read with its members. -/
theorem readObject?_of_written {entries : List (UInt8 × List Char)} {cs : List Char}
    (written : DocumentWritten entries cs) :
    ∃ rest, readObject? cs = some (entries, rest) ∧ skipGap rest = [] := by
  cases written with
  | @empty before inside behind hb hi hd =>
    refine ⟨behind, ?_, skipGap_of_gap hd⟩
    simp only [readObject?, skipPast?_append hb (c := '\x7b') rfl, Option.bind_eq_bind,
      Option.bind_some, skipGap_append hi (c := '\x7d') rfl]
  | @members _ before cs behind hb inside hd =>
    obtain ⟨more, first⟩ := inside.skipGap ('\x7d' :: behind)
    refine ⟨behind, ?_, skipGap_of_gap hd⟩
    simp only [readObject?, skipPast?_append hb (c := '\x7b') rfl, Option.bind_eq_bind,
      Option.bind_some, first]
    exact readMembers?_of_written inside behind

/-- Of the text of a document only the members of its object matter. -/
theorem ofDocument_of_written {entries : List (UInt8 × List Char)} {text : String}
    (written : DocumentWritten entries text.toList) :
    ofDocument text = (ofMembers entries).mapError .content := by
  obtain ⟨rest, read, blank⟩ := readObject?_of_written written
  rw [ofDocument, read]
  cases made : ofMembers entries with
  | error fault => simp only [made, Except.mapError]
  | ok m => simp only [made, blank, Except.mapError, if_true]

end KeyScore.Keymap
