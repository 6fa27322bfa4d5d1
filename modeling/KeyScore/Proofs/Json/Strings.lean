import KeyScore.Json.Text
import Mathlib

/-!
# Spellings of strings

A character can be written in a string as it is, as a letter behind a backslash, or by its code
units in hexadecimal digits. Whatever spelling is chosen for each of its characters, a string is
read as the text that it spells; and the way in which strings are written is one of the spellings.
-/

namespace KeyScore.Json

/-- The hexadecimal digits in both cases, with what they stand for. -/
def hexDigits : List (Char × Nat) :=
  "0123456789abcdef".toList.zipIdx ++ "0123456789ABCDEF".toList.zipIdx

/-- Four hexadecimal digits write the number. -/
inductive UnitSpelled : Nat → List Char → Prop
  | digits {a b c d : Char} {w x y z : Nat} (ha : (a, w) ∈ hexDigits) (hb : (b, x) ∈ hexDigits)
      (hc : (c, y) ∈ hexDigits) (hd : (d, z) ∈ hexDigits) :
      UnitSpelled (((w * 16 + x) * 16 + y) * 16 + z) [a, b, c, d]

/-- The letters behind a backslash that stand for a character. -/
def letters : List (Char × Char) := [('"', '"'), ('\\', '\\'), ('/', '/'), ('b', '\u0008'),
  ('f', '\u000c'), ('n', '\n'), ('r', '\r'), ('t', '\t')]

/-- How a character can be written in a string. -/
inductive CharSpelled (c : Char) : List Char → Prop
  | plain (noQuote : c ≠ '"') (noBackslash : c ≠ '\\') (printed : 0x20 ≤ c.toNat) :
      CharSpelled c [c]
  | letter {l : Char} (stands : (l, c) ∈ letters) : CharSpelled c ['\\', l]
  | unit {cs : List Char} (spelled : UnitSpelled c.toNat cs) : CharSpelled c ('\\' :: 'u' :: cs)
  | pair {n : Nat} {high low : List Char} (beyond : c.toNat = 0x10000 + n)
      (first : UnitSpelled (0xD800 + n / 0x400) high)
      (second : UnitSpelled (0xDC00 + n % 0x400) low) :
      CharSpelled c ('\\' :: 'u' :: (high ++ '\\' :: 'u' :: low))

/-- What can stand between the quotes of a string. -/
inductive TextSpelled : List Char → List Char → Prop
  | nil : TextSpelled [] []
  | cons {c : Char} {text cs ds : List Char} (first : CharSpelled c cs)
      (others : TextSpelled text ds) : TextSpelled (c :: text) (cs ++ ds)

theorem hexValue?_of_mem : ∀ digit ∈ hexDigits, hexValue? digit.1 = some digit.2 := by decide

theorem UnitSpelled.codeUnit? {unit : Nat} {cs : List Char} (spelled : UnitSpelled unit cs) :
    ∃ a b c d, cs = [a, b, c, d] ∧ Json.codeUnit? a b c d = some unit := by
  cases spelled with
  | digits ha hb hc hd =>
    refine ⟨_, _, _, _, rfl, ?_⟩
    rw [Json.codeUnit?, hexValue?_of_mem _ ha, hexValue?_of_mem _ hb, hexValue?_of_mem _ hc,
      hexValue?_of_mem _ hd]

theorem toNat_valid (c : Char) : c.toNat < 0xD800 ∨ 0xDFFF < c.toNat ∧ c.toNat < 0x110000 :=
  c.valid

theorem ofUnit?_toNat (c : Char) : ofUnit? c.toNat = some c := by
  have valid := toNat_valid c
  rw [ofUnit?, if_neg (by omega), Char.ofNat_toNat]

theorem ofUnit?_high {n : Nat} (small : n < 0x100000) : ofUnit? (0xD800 + n / 0x400) = none := by
  rw [ofUnit?, if_pos (by omega)]

theorem ofPair?_of_toNat {c : Char} {n : Nat} (small : n < 0x100000)
    (beyond : c.toNat = 0x10000 + n) :
    ofPair? (0xD800 + n / 0x400) (0xDC00 + n % 0x400) = some c := by
  have whole : 0x10000 + (0xD800 + n / 0x400 - 0xD800) * 0x400 + (0xDC00 + n % 0x400 - 0xDC00) =
      c.toNat := by omega
  rw [ofPair?, if_pos (by omega), whole, Char.ofNat_toNat]

theorem ofLetter?_of_mem :
    ∀ letter ∈ letters, letter.1 ≠ 'u' ∧ ofLetter? letter.1 = some letter.2 := by
  decide

/-- However a character is spelled, it is read. -/
theorem readChar?_of_spelled {c : Char} {cs : List Char} (spelled : CharSpelled c cs)
    (rest : List Char) : readChar? (cs ++ rest) = some (c, rest) := by
  cases spelled with
  | plain noQuote noBackslash printed =>
    have unprinted : ¬(c = '\\' ∨ c.toNat < 0x20) := not_or.mpr ⟨noBackslash, by omega⟩
    rw [List.singleton_append, readChar?, if_neg unprinted]
    · exact fun _ _ _ _ _ same => absurd same noBackslash
    · exact fun _ _ same => absurd same noBackslash
  | letter stands =>
    obtain ⟨noUnit, letter⟩ := ofLetter?_of_mem _ stands
    rw [List.cons_append, List.cons_append, readChar?, letter]
    · rfl
    · exact fun _ _ _ _ _ same => absurd same noUnit
  | unit spelled =>
    obtain ⟨x, y, z, w, rfl, unit⟩ := spelled.codeUnit?
    simp only [List.cons_append, List.nil_append, readChar?, unit, ofUnit?_toNat]
  | @pair n _ _ beyond first second =>
    have valid := toNat_valid c
    have small : n < 0x100000 := by omega
    have high := ofUnit?_high small
    have low := ofPair?_of_toNat small beyond
    obtain ⟨x, y, z, w, rfl, unit⟩ := first.codeUnit?
    obtain ⟨x', y', z', w', rfl, unit'⟩ := second.codeUnit?
    simp only [List.cons_append, List.nil_append, readChar?, unit, high, unit', Option.bind_some,
      low, Option.map_some]

/-- No spelling starts with the quote that ends a string. -/
theorem CharSpelled.head?_ne_quote {c : Char} {cs : List Char} (spelled : CharSpelled c cs)
    (rest : List Char) : (cs ++ rest).head? ≠ some '"' := by
  cases spelled with
  | plain noQuote noBackslash printed => exact fun same => noQuote (Option.some.inj same)
  | letter stands => exact fun same => absurd (Option.some.inj same) (by decide)
  | unit spelled => exact fun same => absurd (Option.some.inj same) (by decide)
  | pair beyond first second => exact fun same => absurd (Option.some.inj same) (by decide)

/-- A string is read as the text that it spells. -/
theorem readQuoted?_of_spelled {text cs : List Char} (spelled : TextSpelled text cs)
    (rest : List Char) : readQuoted? (cs ++ '"' :: rest) = some (text, rest) := by
  induction spelled with
  | nil => rw [List.nil_append, readQuoted?, if_pos List.head?_cons, List.tail_cons]
  | @cons c text cs ds first others ih =>
    have read := readChar?_of_spelled first (ds ++ '"' :: rest)
    rw [List.append_assoc, readQuoted?, if_neg (first.head?_ne_quote _)]
    split
    · rename_i failed
      rw [read] at failed
      cases failed
    · rename_i again
      rw [read] at again
      cases again
      rw [ih, Option.map_some]

/-- The digit for a number below sixteen, as it is written. -/
theorem hexDigit_mem {n : Nat} (small : n < 16) : (hexDigit n, n) ∈ hexDigits := by
  have all : ∀ n < 16, (hexDigit n, n) ∈ hexDigits := by decide
  exact all n small

theorem spelled_escape (c : Char) : CharSpelled c (escape c) := by
  unfold escape
  split
  iterate 7 exact .letter (by decide)
  · rename_i noQuote noBackslash _ _ _ _ _
    split
    · rename_i control
      have number : ((0 * 16 + 0) * 16 + c.toNat / 16) * 16 + c.toNat % 16 = c.toNat := by omega
      have digits : UnitSpelled (((0 * 16 + 0) * 16 + c.toNat / 16) * 16 + c.toNat % 16)
          ['0', '0', hexDigit (c.toNat / 16), hexDigit (c.toNat % 16)] :=
        .digits (by decide) (by decide) (hexDigit_mem (by omega)) (hexDigit_mem (by omega))
      rw [number] at digits
      exact .unit digits
    · rename_i printed
      exact .plain noQuote noBackslash (Nat.not_lt.mp printed)

theorem textSpelled_escape (text : List Char) : TextSpelled text (text.flatMap escape) := by
  induction text with
  | nil => exact .nil
  | cons c text ih => exact .cons (spelled_escape c) ih

end KeyScore.Json
