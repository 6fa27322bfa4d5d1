import KeyScore.Notation.Compile
import KeyScore.Proofs.Text.Classes
import Mathlib.Data.List.Chain

/-!
# How tokens are spelled

A list of tokens is spelled by writing one after the other. Where no token goes on with a run
that the one before it has begun, reading finds the same tokens again, and the text compiles to
what they stand for.
-/

namespace KeyScore.Notation

/-- A character that is a key of a chord when it stands in brackets. -/
def StandsInChord (c : Char) : Prop := c ≠ ']' ∧ Text.isBlank c = false

instance (c : Char) : Decidable (StandsInChord c) := inferInstanceAs (Decidable (_ ∧ _))

namespace Token

def spelling : Token → List Char
  | press key ties => key :: List.replicate ties '-'
  | chord keys ties => '[' :: (keys ++ ']' :: List.replicate ties '-')
  | pipes count => List.replicate count '|'
  | inert c => [c]

/-- The token is of its kind: it is spelled with the characters that reading takes for it. -/
def Proper : Token → Prop
  | press key _ => isKey key = true ∧ key ≠ '[' ∧ key ≠ '|'
  | chord keys _ => ∀ c ∈ keys, StandsInChord c
  | pipes count => 1 ≤ count
  | inert c => isKey c = false ∧ Text.isBlank c = false

/-- The run in the token is short enough for its units to be counted. -/
def Short : Token → Prop
  | press _ ties | chord _ ties => ties < maxUnits
  | pipes count => count < maxUnits
  | inert _ => True

/-- The second token does not go on with a run of the first. -/
def Parted : Token → Token → Prop
  | press _ _, press key _ | chord _ _, press key _ => key ≠ '-'
  | pipes _, pipes _ => False
  | _, _ => True

instance (t : Token) : Decidable t.Proper :=
  match t with
  | press _ _ => inferInstanceAs (Decidable (_ ∧ _ ∧ _))
  | chord keys _ => List.decidableBAll StandsInChord keys
  | pipes _ => inferInstanceAs (Decidable (_ ≤ _))
  | inert _ => inferInstanceAs (Decidable (_ ∧ _))

instance (t : Token) : Decidable t.Short :=
  match t with
  | press _ _ | chord _ _ | pipes _ => inferInstanceAs (Decidable (_ < _))
  | inert _ => inferInstanceAs (Decidable True)

instance (t u : Token) : Decidable (t.Parted u) := by
  unfold Parted
  split <;> infer_instance

/-- The character makes the run of the token longer. -/
def GoesOn : Token → Char → Prop
  | press _ _, c | chord _ _, c => c = '-'
  | pipes _, c => c = '|'
  | inert _, _ => False

/-- What a token stands for, with so many units in a pipe. -/
def meaning (pipeWeight : UInt32) : Token → Option Event
  | press key ties => some (.press key (UInt32.ofNat (ties + 1)))
  | chord [] _ => none
  | chord (key :: keys) ties => some (.chord (key :: keys) (UInt32.ofNat (ties + 1)))
  | pipes count => some (.rest (UInt32.ofNat (max 1 (min (count * pipeWeight.toNat) maxUnits))))
  | inert _ => none

theorem isBlank_of_mem_spelling {t : Token} (h : t.Proper) {c : Char} (inside : c ∈ t.spelling) :
    Text.isBlank c = false := by
  have dash (n : Nat) (inRun : c ∈ List.replicate n '-') : Text.isBlank c = false := by
    rw [List.eq_of_mem_replicate inRun]
    decide
  cases t with
  | press key ties =>
    rcases List.mem_cons.mp inside with rfl | inRun
    · exact isBlank_of_isKey h.1
    · exact dash ties inRun
  | chord keys ties =>
    simp only [spelling, List.mem_cons, List.mem_append] at inside
    rcases inside with rfl | inKeys | rfl | inRun
    · decide
    · exact (h c inKeys).2
    · decide
    · exact dash ties inRun
  | pipes count =>
    rw [List.eq_of_mem_replicate inside]
    decide
  | inert d =>
    rw [List.mem_singleton.mp inside]
    exact h.2

/-- A run ends where another character stands. -/
theorem takeWhile_run (c : Char) (n : Nat) {rest : List Char} (ends : c ∉ rest.head?) :
    (List.replicate n c ++ rest).takeWhile (· = c) = List.replicate n c := by
  rw [List.takeWhile_append_of_pos (by simp)]
  cases rest with
  | nil => simp
  | cons d rest =>
    have other : d ≠ c := fun same => ends (by simp [same])
    simp [other]

theorem dropWhile_run (c : Char) (n : Nat) {rest : List Char} (ends : c ∉ rest.head?) :
    (List.replicate n c ++ rest).dropWhile (· = c) = rest := by
  rw [List.dropWhile_append_of_pos (by simp)]
  cases rest with
  | nil => rfl
  | cons d rest =>
    have other : d ≠ c := fun same => ends (by simp [same])
    simp [other]

/-- A token is read from its spelling, if what comes next does not make its run longer. -/
theorem scan_spelling_append {t : Token} (h : t.Proper) {rest : List Char}
    (ends : ∀ c ∈ rest.head?, ¬t.GoesOn c) : scan (t.spelling ++ rest) = t :: scan rest := by
  cases t with
  | press key ties =>
    obtain ⟨isKey, notOpen, notPipe⟩ := h
    have stop : '-' ∉ rest.head? := fun here => ends '-' here rfl
    rw [spelling, List.cons_append, scan, if_neg notOpen, if_neg notPipe, if_pos isKey,
      takeWhile_run '-' ties stop, dropWhile_run '-' ties stop, List.length_replicate]
  | chord keys ties =>
    have stop : '-' ∉ rest.head? := fun here => ends '-' here rfl
    have open_ (c : Char) (inside : c ∈ keys) : decide (c ≠ ']') = true :=
      decide_eq_true (h c inside).1
    have unspaced := Text.filter_of_unspaced fun c inside => (h c inside).2
    rw [spelling, List.cons_append, scan, if_pos rfl, List.append_assoc, List.cons_append]
    simp only [List.takeWhile_append_of_pos open_, List.dropWhile_append_of_pos open_]
    simp [takeWhile_run '-' ties stop, dropWhile_run '-' ties stop, unspaced]
  | pipes count =>
    obtain ⟨more, rfl⟩ := Nat.exists_eq_add_of_le' (h : 1 ≤ count)
    have stop : '|' ∉ rest.head? := fun here => ends '|' here rfl
    rw [spelling, List.replicate_succ, List.cons_append, scan, if_neg (by decide), if_pos rfl,
      takeWhile_run '|' more stop, dropWhile_run '|' more stop, List.length_replicate]
  | inert c =>
    have notOpen : c ≠ '[' := by
      rintro rfl
      exact absurd h.1 (by decide)
    have notPipe : c ≠ '|' := by
      rintro rfl
      exact absurd h.1 (by decide)
    have notKey : ¬isKey c = true := by
      rw [h.1]
      exact Bool.false_ne_true
    rw [spelling, List.cons_append, List.nil_append, scan, if_neg notOpen, if_neg notPipe,
      if_neg notKey]

/-- A token that is parted from the one before it starts with a character that ends a run. -/
theorem Parted.exists_first {t u : Token} (h : t.Parted u) (proper : u.Proper) :
    ∃ c cs, u.spelling = c :: cs ∧ ¬t.GoesOn c := by
  cases u with
  | press key ties =>
    refine ⟨key, _, rfl, ?_⟩
    cases t with
    | press => exact h
    | chord => exact h
    | pipes => exact proper.2.2
    | inert => exact id
  | chord keys ties =>
    refine ⟨'[', _, rfl, ?_⟩
    cases t <;> simp [GoesOn]
  | pipes count =>
    obtain ⟨more, rfl⟩ := Nat.exists_eq_add_of_le' (proper : 1 ≤ count)
    refine ⟨'|', _, List.replicate_succ, ?_⟩
    cases t with
    | press => simp [GoesOn]
    | chord => simp [GoesOn]
    | pipes => exact fun _ => h
    | inert => exact id
  | inert c =>
    refine ⟨c, _, rfl, ?_⟩
    cases t with
    | press =>
      rintro rfl
      exact absurd proper.1 (by decide)
    | chord =>
      rintro rfl
      exact absurd proper.1 (by decide)
    | pipes =>
      rintro rfl
      exact absurd proper.1 (by decide)
    | inert => exact id

/-- Reading finds the tokens that were written, up to a text that goes on with no run. -/
theorem scan_spelled {tokens : List Token} {rest : List Char} (proper : ∀ t ∈ tokens, t.Proper)
    (parted : tokens.IsChain Parted) (ends : ∀ t, ∀ c ∈ rest.head?, ¬GoesOn t c) :
    scan (tokens.flatMap spelling ++ rest) = tokens ++ scan rest := by
  induction tokens with
  | nil => rfl
  | cons t tokens ih =>
    have first := proper t (List.mem_cons_self ..)
    have later := ih (fun u inside => proper u (List.mem_cons_of_mem t inside)) parted.tail
    rw [List.flatMap_cons, List.append_assoc, List.cons_append, ← later]
    apply scan_spelling_append first
    cases tokens with
    | nil => exact ends t
    | cons u tokens =>
      have properU := proper u (List.mem_cons_of_mem t (List.mem_cons_self ..))
      obtain ⟨c, cs, starts, stops⟩ :=
        (List.isChain_cons_cons.mp parted).1.exists_first properU
      intro d here
      simp only [List.flatMap_cons, starts, List.cons_append, List.head?_cons, Option.mem_def,
        Option.some.injEq] at here
      rw [← here]
      exact stops

/-- An open chord takes all keys to the end of the text. -/
theorem scan_open_chord {keys : List Char} (h : ∀ c ∈ keys, StandsInChord c) :
    scan ('[' :: keys) = [chord keys 0] := by
  have open_ (c : Char) (inside : c ∈ keys) : decide (c ≠ ']') = true :=
    decide_eq_true (h c inside).1
  have unspaced := Text.filter_of_unspaced fun c inside => (h c inside).2
  rw [scan, if_pos rfl]
  simp only [List.takeWhile_eq_self_iff.mpr open_, List.dropWhile_eq_nil_iff.mpr open_, unspaced]
  simp [scan]

theorem cappedUnits_of_le {n : Nat} (h : n ≤ maxUnits) : cappedUnits n = UInt32.ofNat n := by
  rw [cappedUnits, Nat.min_eq_left h]

theorem toNat_max (a b : UInt32) : (max a b).toNat = max a.toNat b.toNat := by
  by_cases le : a ≤ b
  · have larger : max a b = b := if_pos le
    rw [larger, Nat.max_eq_right (UInt32.le_iff_toNat_le.mp le)]
  · have larger : max a b = a := if_neg le
    have lt := UInt32.lt_iff_toNat_lt.mp (UInt32.not_le.mp le)
    rw [larger, Nat.max_eq_left (Nat.le_of_lt lt)]

theorem max_cappedUnits_one (ties : Nat) :
    max (cappedUnits (ties + 1)) 1 = cappedUnits (ties + 1) := by
  have large : 1 ≤ maxUnits := by decide
  apply UInt32.toNat_inj.mp
  rw [toNat_max, toNat_cappedUnits, UInt32.toNat_one]
  omega

/-- Only the low word of the count has weight. -/
theorem toNat_pipeUnits_mod (count : Nat) (weight : UInt32) :
    (pipeUnits count weight).toNat =
      max 1 (min (count % UInt32.size * weight.toNat) maxUnits) := by
  rw [pipeUnits, toNat_max, toNat_cappedUnits, UInt32.toNat_ofNat']
  rfl

theorem toNat_pipeUnits {count : Nat} (h : count < UInt32.size) (weight : UInt32) :
    (pipeUnits count weight).toNat = max 1 (min (count * weight.toNat) maxUnits) := by
  rw [toNat_pipeUnits_mod, Nat.mod_eq_of_lt h]

/-- As long as no counter runs over, a token plays what it stands for. -/
theorem event?_of_short {t : Token} (h : t.Short) (pipeWeight : UInt32) :
    t.event? pipeWeight = t.meaning pipeWeight := by
  cases t with
  | press key ties => rw [event?, meaning, cappedUnits_of_le h]
  | chord keys ties =>
    cases keys with
    | nil => rfl
    | cons key keys =>
      have least : max (UInt32.ofNat (ties + 1)) 1 = UInt32.ofNat (ties + 1) := by
        have fits : ties + 1 < UInt32.size := Nat.succ_lt_succ h
        apply UInt32.toNat_inj.mp
        rw [toNat_max, UInt32.toNat_ofNat_of_lt' fits]
        exact Nat.max_eq_left (Nat.le_add_left 1 ties)
      rw [event?, meaning, cappedUnits_of_le h, Event.ofKeys?, if_neg (List.cons_ne_nil key keys),
        least]
  | pipes count =>
    have units := toNat_pipeUnits (Nat.lt_succ_of_lt h) pipeWeight
    rw [event?, meaning, ← units, UInt32.ofNat_toNat]
  | inert c => rfl

end Token

/-- A text of one line without blanks that does not start with `@` has no directives. -/
theorem Source.ofText_of_unspaced {cs : List Char} (unspaced : ∀ c ∈ cs, Text.isBlank c = false)
    (noDirective : cs.head? ≠ some '@') : Source.ofText (String.ofList cs) = ⟨[], cs⟩ := by
  have unbroken (c : Char) (inside : c ∈ cs) : Text.isLineBreak c = false :=
    Text.not_isLineBreak (unspaced c inside)
  have isNote : directiveBody? cs = none := by
    rw [directiveBody?, Text.trim_of_unspaced unspaced]
    split
    · exact absurd rfl noDirective
    · rfl
  simp [Source.ofText, Text.lines_of_unbroken unbroken, isNote]

theorem Source.events_of_unspaced {source : Source} (s : Settings)
    (unspaced : ∀ c ∈ source.notes, Text.isBlank c = false) :
    source.events s =
      mergeRests ((Token.scan source.notes).filterMap (Token.event? s.pipeWeight)) := by
  rw [Source.events, Text.filter_of_unspaced unspaced, ite_self]

/-- Tokens one after the other, and maybe a chord at the end that is not closed. -/
def spell (tokens : List Token) (openChord : Option (List Char)) : List Char :=
  tokens.flatMap Token.spelling ++ openChord.elim [] ('[' :: ·)

/-- A chord that is not closed lasts one unit, if it has keys. -/
def openMeaning : Option (List Char) → List Event
  | none | some [] => []
  | some (key :: keys) => [.chord (key :: keys) 1]

/-- What the tokens and the open chord stand for. -/
def meanings (pipeWeight : UInt32) (tokens : List Token) (openChord : Option (List Char)) :
    List Event :=
  tokens.filterMap (Token.meaning pipeWeight) ++ openMeaning openChord

theorem filterMap_openChord (pipeWeight : UInt32) (openChord : Option (List Char)) :
    (openChord.map fun keys => Token.chord keys 0).toList.filterMap (Token.event? pipeWeight) =
      openMeaning openChord := by
  match openChord with
  | none => rfl
  | some [] => rfl
  | some (key :: keys) => rfl

theorem isBlank_of_mem_spell {tokens : List Token} {openChord : Option (List Char)}
    (proper : ∀ t ∈ tokens, t.Proper) (inChord : ∀ keys ∈ openChord, ∀ c ∈ keys, StandsInChord c)
    {c : Char} (inside : c ∈ spell tokens openChord) : Text.isBlank c = false := by
  rcases List.mem_append.mp inside with inTokens | inOpen
  · obtain ⟨t, here, inSpelling⟩ := List.mem_flatMap.mp inTokens
    exact Token.isBlank_of_mem_spelling (proper t here) inSpelling
  · cases openChord with
    | none => cases inOpen
    | some keys =>
      rcases List.mem_cons.mp inOpen with rfl | inKeys
      · decide
      · exact (inChord keys rfl c inKeys).2

theorem scan_spell {tokens : List Token} {openChord : Option (List Char)}
    (proper : ∀ t ∈ tokens, t.Proper) (parted : tokens.IsChain Token.Parted)
    (inChord : ∀ keys ∈ openChord, ∀ c ∈ keys, StandsInChord c) :
    Token.scan (spell tokens openChord) =
      tokens ++ (openChord.map fun keys => Token.chord keys 0).toList := by
  cases openChord with
  | none =>
    have ends (t : Token) : ∀ c ∈ ([] : List Char).head?, ¬t.GoesOn c := by simp
    rw [spell, Option.elim_none, Token.scan_spelled proper parted ends, Token.scan]
    rfl
  | some keys =>
    have ends (t : Token) : ∀ c ∈ ('[' :: keys).head?, ¬t.GoesOn c := by
      cases t <;> simp [Token.GoesOn]
    rw [spell, Option.elim_some, Token.scan_spelled proper parted ends,
      Token.scan_open_chord (inChord keys rfl)]
    rfl

/-- Tokens that are spelled one after the other are played one after the other. -/
theorem compile_spell (s : Settings) {tokens : List Token} {openChord : Option (List Char)}
    (proper : ∀ t ∈ tokens, t.Proper) (parted : tokens.IsChain Token.Parted)
    (inChord : ∀ keys ∈ openChord, ∀ c ∈ keys, StandsInChord c)
    (noDirective : (spell tokens openChord).head? ≠ some '@') :
    compile (String.ofList (spell tokens openChord)) s =
      ⟨mergeRests (tokens.filterMap (Token.event? s.pipeWeight) ++ openMeaning openChord), s⟩ := by
  have unspaced (c : Char) (inside : c ∈ spell tokens openChord) : Text.isBlank c = false :=
    isBlank_of_mem_spell proper inChord inside
  have source := Source.ofText_of_unspaced unspaced noDirective
  have events : Source.events ⟨[], spell tokens openChord⟩ s =
      mergeRests (tokens.filterMap (Token.event? s.pipeWeight) ++ openMeaning openChord) := by
    rw [Source.events_of_unspaced s unspaced, scan_spell proper parted inChord,
      List.filterMap_append, filterMap_openChord]
  rw [compile, source]
  change Compiled.mk (Source.events ⟨[], _⟩ s) s = _
  rw [events]

/-- Tokens that are spelled one after the other compile to what they stand for. Only runs must
not run into each other, and the text must not be a directive. -/
theorem compile_spelled (s : Settings) {tokens : List Token} {openChord : Option (List Char)}
    (proper : ∀ t ∈ tokens, t.Proper) (short : ∀ t ∈ tokens, t.Short)
    (parted : tokens.IsChain Token.Parted)
    (inChord : ∀ keys ∈ openChord, ∀ c ∈ keys, StandsInChord c)
    (noDirective : (spell tokens openChord).head? ≠ some '@') :
    compile (String.ofList (spell tokens openChord)) s =
      ⟨mergeRests (meanings s.pipeWeight tokens openChord), s⟩ := by
  have played : tokens.filterMap (Token.event? s.pipeWeight) =
      tokens.filterMap (Token.meaning s.pipeWeight) :=
    List.filterMap_congr fun t inside => Token.event?_of_short (short t inside) s.pipeWeight
  rw [compile_spell s proper parted inChord noDirective, played, meanings]

/-- A dash that is a key, pipes and dashes inside a chord, and a tie behind it. -/
def crowdedTokens : List Token :=
  [.inert '☺', .press '-' 1, .chord ['a', '|', '-'] 2, .pipes 2, .press '@' 0]

theorem compile_crowdedTokens :
    (∀ t ∈ crowdedTokens, t.Proper ∧ t.Short) ∧ crowdedTokens.IsChain Token.Parted ∧
      compile (String.ofList (spell crowdedTokens (some ['b', '[']))) Settings.initial =
        ⟨[.press '-' 2, .chord ['a', '|', '-'] 3, .rest 6, .press '@' 1, .chord ['b', '['] 1],
          Settings.initial⟩ := by
  have unknown : isKey '☺' = false := by decide +kernel
  have proper : ∀ t ∈ crowdedTokens, t.Proper := by
    simp only [crowdedTokens, List.forall_mem_cons]
    exact ⟨⟨unknown, by decide⟩, by decide, by decide, by decide, by decide⟩
  have short : ∀ t ∈ crowdedTokens, t.Short := by decide
  have parted : crowdedTokens.IsChain Token.Parted := by decide
  have inChord : ∀ keys ∈ some ['b', '['], ∀ c ∈ keys, StandsInChord c := by
    rintro keys ⟨⟩
    exact List.forall_mem_cons.mpr ⟨by decide, List.forall_mem_singleton.mpr (by decide)⟩
  have stand : mergeRests (meanings 3 crowdedTokens (some ['b', '['])) =
      [.press '-' 2, .chord ['a', '|', '-'] 3, .rest 6, .press '@' 1, .chord ['b', '['] 1] := by
    decide
  have compiled :=
    @compile_spelled Settings.initial crowdedTokens (some ['b', '[']) proper short parted inChord
      (by decide)
  rw [show Settings.initial.pipeWeight = 3 from rfl, stand] at compiled
  exact ⟨fun t inside => ⟨proper t inside, short t inside⟩, parted, compiled⟩

end KeyScore.Notation
