import KeyScore.Command.Arguments
import KeyScore.Proofs.Text.Classes
import Mathlib

/-!
# Accepted arguments

Whatever the arguments of a command are, options that have been taken have values of their
kinds. A number is written without blanks, so it stands on a line as it stands among the
arguments.
-/

namespace KeyScore

namespace Text

/-- The other case of a letter is no blank either. -/
theorem isBlank_of_toLower {c : Char} (h : isBlank c.toLower = false) : isBlank c = false := by
  by_contra blank
  rw [Bool.not_eq_false] at blank
  have same : c.toLower = c := by
    refine dif_neg fun upper => not_printed_of_isBlank blank ⟨?_, ?_⟩
    · exact UInt32.le_trans (by decide) upper.1
    · exact UInt32.le_trans upper.2 (by decide)
  rw [same, blank] at h
  cases h

end Text

namespace Number

open Text (Unspaced)

section Unspaced

variable {cs : List Char}

theorem unspaced_of_readDigits? {n : Nat} (h : readDigits? cs = some n) : Unspaced cs := by
  rw [readDigits?] at h
  split at h
  · cases h
  · split at h
    · rename_i digits
      exact fun c inside => Text.isBlank_of_isDigit (List.all_eq_true.mp digits c inside)
    · cases h

/-- A whole number is a row of digits behind a minus sign, behind a plus sign or behind none. -/
theorem readInt?_cases {i : Int} (h : readInt? cs = some i) :
    ∃ ds n, readDigits? ds = some n ∧
      ((cs = '-' :: ds ∧ i = -(n : Int)) ∨ (cs = '+' :: ds ∧ i = n) ∨
        (cs = ds ∧ (∀ rest, cs ≠ '+' :: rest) ∧ i = n)) := by
  have digits {ds : List Char} {sign : Int → Int}
      (read : ((readDigits? ds).bind fun n => some (n : Int)).map sign = some i) :
      ∃ n : Nat, readDigits? ds = some n ∧ i = sign n := by
    obtain ⟨j, written, rfl⟩ := Option.map_eq_some_iff.mp read
    obtain ⟨n, row, same⟩ := Option.bind_eq_some_iff.mp written
    exact ⟨n, row, congrArg sign (Option.some.inj same).symm⟩
  unfold readInt? at h
  split at h
  · rename_i ds
    obtain ⟨n, row, value⟩ := digits h
    exact ⟨ds, n, row, .inl ⟨rfl, value⟩⟩
  · rename_i ds
    obtain ⟨n, row, value⟩ := digits h
    exact ⟨ds, n, row, .inr (.inl ⟨rfl, value⟩)⟩
  · rename_i unsigned
    obtain ⟨n, row, value⟩ := digits h
    exact ⟨cs, n, row, .inr (.inr ⟨rfl, unsigned, value⟩)⟩

theorem unspaced_of_readInt? {i : Int} (h : readInt? cs = some i) : Unspaced cs := by
  obtain ⟨ds, n, row, ⟨rfl, -⟩ | ⟨rfl, -⟩ | ⟨rfl, -⟩⟩ := readInt?_cases h
  · exact (unspaced_of_readDigits? row).cons (by decide)
  · exact (unspaced_of_readDigits? row).cons (by decide)
  · exact unspaced_of_readDigits? row

theorem unspaced_of_readExponent? {n : Int} (h : readExponent? cs = some n) : Unspaced cs := by
  unfold readExponent? at h
  split at h
  · exact fun c inside => by cases inside
  · split at h
    · rename_i c cs letter
      refine (unspaced_of_readInt? h).cons ?_
      rcases letter with rfl | rfl
      · decide
      · decide
    · cases h

theorem unspaced_of_readDecimal? {x : Float} (h : readDecimal? cs = some x) : Unspaced cs := by
  have digits (ds : List Char) : Unspaced (ds.takeWhile Char.isDigit) :=
    fun c inside => Text.isBlank_of_isDigit (List.mem_takeWhile_imp inside)
  have parts (ds : List Char) (rest : Unspaced (ds.dropWhile Char.isDigit)) : Unspaced ds := by
    rw [← List.takeWhile_append_dropWhile (p := Char.isDigit) (l := ds)]
    exact List.forall_mem_append.mpr ⟨digits ds, rest⟩
  refine parts cs ?_
  simp only [readDecimal?] at h
  split at h
  · rename_i rest point
    split at h
    · cases h
    · obtain ⟨e, exponent, -⟩ := Option.map_eq_some_iff.mp h
      rw [point]
      exact (parts rest (unspaced_of_readExponent? exponent)).cons (by decide)
  · split at h
    · cases h
    · obtain ⟨e, exponent, -⟩ := Option.map_eq_some_iff.mp h
      exact unspaced_of_readExponent? exponent

/-- In either case, a word has no blanks. -/
theorem unspaced_of_word {word : String} (h : String.ofList (cs.map Char.toLower) = word)
    (seen : word.toList.all (fun c => !Text.isBlank c) = true) : Unspaced cs := by
  intro c inside
  have there : c.toLower ∈ word.toList := by
    rw [← h, String.toList_ofList]
    exact List.mem_map_of_mem inside
  exact Text.isBlank_of_toLower (by simpa using List.all_eq_true.mp seen _ there)

theorem unspaced_of_readMagnitude? {x : Float} (h : readMagnitude? cs = some x) :
    Unspaced cs := by
  unfold readMagnitude? at h
  split at h
  · exact unspaced_of_word ‹_› (by decide)
  · exact unspaced_of_word ‹_› (by decide)
  · exact unspaced_of_word ‹_› (by decide)
  · exact unspaced_of_readDecimal? h

/-- No real number is written with blanks. -/
theorem unspaced_of_readFloat? {x : Float} (h : readFloat? cs = some x) : Unspaced cs := by
  unfold readFloat? at h
  split at h
  · obtain ⟨y, read, -⟩ := Option.map_eq_some_iff.mp h
    exact (unspaced_of_readMagnitude? read).cons (by decide)
  · exact (unspaced_of_readMagnitude? h).cons (by decide)
  · exact unspaced_of_readMagnitude? h

end Unspaced

end Number

namespace Command

/-- The options that have been taken are options of the command, with values of their kinds. -/
def Given.Accepted (g : Grammar) (given : Given) : Prop :=
  ∀ o ∈ given.options, ∃ opt ∈ g.options, opt.name = o.1 ∧ opt.kind.accepts o.2 = true

/-- An option that waits for its value is one of the command. -/
def Waits (g : Grammar) (waiting : Option Opt) : Prop := ∀ opt ∈ waiting, opt ∈ g.options

namespace Grammar

variable {g : Grammar} {given later : Given} {waiting : Option Opt}

theorem exists_of_bind {α β : Type} {x : Except Stop α} {f : α → Except Stop β} {b : β}
    (h : x.bind f = .ok b) : ∃ a, x = .ok a ∧ f a = .ok b := by
  cases x with
  | error stop => cases h
  | ok a => exact ⟨a, rfl, h⟩

theorem mem_of_named? {name : String} {opt : Opt} (h : g.named? name = some opt) :
    opt ∈ g.options := List.mem_of_find?_eq_some h

theorem mem_of_lettered? {letter : Char} {opt : Opt} (h : g.lettered? letter = some opt) :
    opt ∈ g.options := List.mem_of_find?_eq_some h

theorem accepted_takeOption (h : given.Accepted g) {opt : Opt} (inside : opt ∈ g.options)
    {value : String} (taken : takeOption given opt value = .ok later) : later.Accepted g := by
  unfold takeOption at taken
  split at taken
  · cases taken
  · cases taken
  · split at taken
    · cases taken
    · rename_i accepts
      cases taken
      refine List.forall_mem_append.mpr ⟨h, List.forall_mem_singleton.mpr ⟨opt, inside, rfl, ?_⟩⟩
      simp only [Bool.or_eq_true, Bool.not_eq_true', not_or, Bool.not_eq_false] at accepts
      exact accepts.2

theorem accepted_takeOperand (h : given.Accepted g) {value : String}
    (taken : g.takeOperand given value = .ok later) : later.Accepted g := by
  unfold takeOperand at taken
  split at taken
  · cases taken
    exact h
  · cases taken

theorem accepted_operands (h : given.Accepted g) {args : List String}
    (taken : args.foldlM g.takeOperand given = .ok later) : later.Accepted g := by
  induction args generalizing given with
  | nil =>
    cases taken
    exact h
  | cons arg args ih =>
    obtain ⟨next, operand, rest⟩ := exists_of_bind taken
    exact ih (accepted_takeOperand h operand) rest

/-- An option with its value leaves none waiting. -/
theorem accepted_valued (h : given.Accepted g) {opt : Opt} (inside : opt ∈ g.options)
    {value : String}
    (taken : (takeOption given opt value).map (·, (none : Option Opt)) = .ok (later, waiting)) :
    later.Accepted g ∧ Waits g waiting := by
  cases option : takeOption given opt value with
  | error stop =>
    rw [option] at taken
    cases taken
  | ok next =>
    rw [option] at taken
    cases taken
    exact ⟨accepted_takeOption h inside option, by simp [Waits]⟩

theorem accepted_takeLetters (h : given.Accepted g) {letters : List Char}
    (taken : g.takeLetters given letters = .ok (later, waiting)) :
    later.Accepted g ∧ Waits g waiting := by
  induction letters generalizing given with
  | nil =>
    cases taken
    exact ⟨h, by simp [Waits]⟩
  | cons letter letters ih =>
    unfold takeLetters at taken
    split at taken
    · cases taken
    · rename_i opt found
      have inside := mem_of_lettered? found
      split at taken
      · split at taken
        · cases taken
          exact ⟨h, by simpa [Waits] using inside⟩
        · exact accepted_valued h inside taken
        · exact accepted_valued h inside taken
      · obtain ⟨next, flag, rest⟩ := exists_of_bind taken
        exact ih (accepted_takeOption h inside flag) rest

theorem accepted_takeNamed (h : given.Accepted g) {text : List Char}
    (taken : g.takeNamed given text = .ok (later, waiting)) :
    later.Accepted g ∧ Waits g waiting := by
  cases found : g.named? (String.ofList (text.takeWhile (· ≠ '='))) with
  | none =>
    simp only [takeNamed, found] at taken
    cases taken
  | some opt =>
    have inside := mem_of_named? found
    simp only [takeNamed, found] at taken
    split at taken
    · cases taken
      exact ⟨h, by simpa [Waits] using inside⟩
    · exact accepted_valued h inside taken
    · exact accepted_valued h inside taken
    · cases taken

theorem accepted_take (h : given.Accepted g) (waits : Waits g waiting) {args : List String}
    (taken : g.take given waiting args = .ok later) : later.Accepted g := by
  induction args generalizing given waiting with
  | nil =>
    unfold take at taken
    split at taken
    · cases taken
    · cases taken
      exact h
  | cons arg args ih =>
    unfold take at taken
    split at taken
    · rename_i opt
      split at taken
      · cases taken
      · obtain ⟨next, option, rest⟩ := exists_of_bind taken
        exact ih (accepted_takeOption h (waits opt rfl) option) (by simp [Waits]) rest
    · split at taken
      · exact accepted_operands h taken
      · obtain ⟨next, named, rest⟩ := exists_of_bind taken
        obtain ⟨accepted, waitsNext⟩ := accepted_takeNamed h named
        exact ih accepted waitsNext rest
      · obtain ⟨next, letters, rest⟩ := exists_of_bind taken
        obtain ⟨accepted, waitsNext⟩ := accepted_takeLetters h letters
        exact ih accepted waitsNext rest
      · obtain ⟨next, operand, rest⟩ := exists_of_bind taken
        exact ih (accepted_takeOperand h operand) (by simp [Waits]) rest

/-- All that a command is given is accepted. -/
theorem accepted_read {args : List String} (h : g.read args = .ok given) : given.Accepted g :=
  accepted_take (by simp [Given.Accepted]) (by simp [Waits]) h

end Grammar

end Command

end KeyScore
