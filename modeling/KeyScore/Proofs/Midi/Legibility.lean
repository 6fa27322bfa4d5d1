import KeyScore.Keymap.Document
import KeyScore.Proofs.Midi.Meaning
import KeyScore.Proofs.Player.Trace
import Mathlib

/-!
# Which notes are played

A key map takes every character for a key, but the notation has another use for some of them and
none at all for others. So what an import plays are the mapped notes of the file exactly where
these are legible; elsewhere at least one of them is lost. That is seen by counting: each
press is read from a character of its own, and each note has one to offer.
-/

namespace KeyScore

def Event.isPress : Event → Bool
  | press _ _ => true
  | _ => false

namespace Notation

namespace Token

def isPress : Token → Bool
  | press _ _ => true
  | _ => false

/-- The character can be read as a press of it. -/
def canPress (c : Char) : Bool := decide (press c 0).Proper

theorem canPress_iff {c : Char} : canPress c = true ↔ (press c 0).Proper := decide_eq_true_iff

/-- Each press takes a character that can be pressed. -/
theorem countP_isPress_scan_le (cs : List Char) :
    (scan cs).countP isPress ≤ cs.countP canPress := by
  induction cs using scan.induct with
  | case1 => simp [scan]
  | case2 cs after ih =>
    have later : (after.dropWhile (· = '-')).Sublist cs :=
      ((List.dropWhile_sublist _).trans (List.tail_sublist _)).trans (List.dropWhile_sublist _)
    have counted := later.countP_le (p := canPress)
    rw [scan, if_pos rfl, List.countP_cons_of_neg (by simp [isPress]),
      List.countP_cons_of_neg (by decide)]
    exact Nat.le_trans ih counted
  | case3 cs _ ih =>
    have counted := (List.dropWhile_sublist (· = '|') (l := cs)).countP_le (p := canPress)
    rw [scan_pipe, List.countP_cons_of_neg (by simp [isPress]),
      List.countP_cons_of_neg (by decide)]
    exact Nat.le_trans ih counted
  | case4 c cs notOpen notPipe key ih =>
    have counted := (List.dropWhile_sublist (· = '-') (l := cs)).countP_le (p := canPress)
    rw [scan, if_neg notOpen, if_neg notPipe, if_pos key, List.countP_cons_of_pos rfl,
      List.countP_cons_of_pos (canPress_iff.mpr ⟨key, notOpen, notPipe⟩)]
    omega
  | case5 c cs notOpen notPipe notKey ih =>
    rw [scan, if_neg notOpen, if_neg notPipe, if_neg notKey,
      List.countP_cons_of_neg (by simp [isPress]),
      List.countP_cons_of_neg fun can => notKey (canPress_iff.mp can).1]
    exact ih

/-- Dashes that are read as ties could have been presses. -/
theorem countP_isPress_scan_dropWhile_lt {cs : List Char} (tie : cs.head? = some '-') :
    (scan (cs.dropWhile (· = '-'))).countP isPress < cs.countP canPress := by
  obtain ⟨rest, rfl⟩ := List.head?_eq_some_iff.mp tie
  have dropped := (List.dropWhile_sublist (· = '-') (l := rest)).countP_le (p := canPress)
  rw [List.dropWhile_cons_of_pos (by simp), List.countP_cons_of_pos (by decide)]
  exact Nat.lt_succ_of_le (Nat.le_trans (countP_isPress_scan_le _) dropped)

/-- As many presses are played as are read. -/
theorem countP_isPress_sounding_play (w : UInt32) (tokens : List Token) :
    (sounding (play w tokens)).countP Event.isPress = tokens.countP isPress := by
  rw [play, sounding_mergeRests, sounding, List.countP_filter]
  induction tokens with
  | nil => rfl
  | cons t tokens ih =>
    rw [List.filterMap_cons]
    cases t with
    | press key ties =>
      rw [List.countP_cons_of_pos rfl, ← ih]
      exact List.countP_cons_of_pos rfl
    | chord keys ties =>
      rw [List.countP_cons_of_neg Bool.false_ne_true, ← ih]
      cases keys with
      | nil => rfl
      | cons key keys => exact List.countP_cons_of_neg Bool.false_ne_true
    | pipes count =>
      rw [List.countP_cons_of_neg Bool.false_ne_true, ← ih]
      exact List.countP_cons_of_neg Bool.false_ne_true
    | inert c =>
      rw [List.countP_cons_of_neg Bool.false_ne_true, ← ih]
      rfl

end Token

/-- No more presses are played than characters that can be pressed stand in the notes. -/
theorem Source.countP_isPress_le (source : Source) (s : Settings) :
    (sounding (source.events s)).countP Event.isPress ≤ source.notes.countP Token.canPress := by
  have counted (cs : List Char) (inNotes : cs.Sublist source.notes) :
      (sounding (Token.play s.pipeWeight (Token.scan cs))).countP Event.isPress ≤
        source.notes.countP Token.canPress := by
    rw [Token.countP_isPress_sounding_play]
    exact Nat.le_trans (Token.countP_isPress_scan_le cs) inNotes.countP_le
  by_cases passed : s.spaceRests = true
  · have events : source.events s = Token.play s.pipeWeight (Token.scan source.notes) := by
      rw [Source.events, if_pos passed]
      rfl
    rw [events]
    exact counted _ (List.Sublist.refl _)
  · have events : source.events s =
        Token.play s.pipeWeight (Token.scan (Token.unspaced source.notes)) := by
      rw [Source.events, if_neg passed]
      rfl
    rw [events]
    exact counted _ List.filter_sublist

/-- A line that starts with `@` has no notes. -/
theorem Source.notes_of_directive {cs : List Char} (unspaced : ∀ c ∈ cs, Text.isBlank c = false)
    (starts : cs.head? = some '@') : (Source.ofText (String.ofList cs)).notes = [] := by
  obtain ⟨body, rfl⟩ := List.head?_eq_some_iff.mp starts
  have unbroken (c : Char) (inside : c ∈ '@' :: body) : Text.isLineBreak c = false :=
    Text.not_isLineBreak (unspaced c inside)
  have isDirective : directiveBody? ('@' :: body) = some body := by
    rw [directiveBody?, Text.trim_of_unspaced unspaced]
    rfl
  simp [Source.ofText, Text.lines_of_unbroken unbroken, isDirective]

end Notation

namespace Midi

open Notation (Source Token compile)

section Counting

variable {ticks last : Nat} {notes : List (Nat × Char)}

/-- Less than a unit before the first note no pipe is written. -/
theorem head?_spell {p : Nat × Char} (first : notes.head? = some p) (soon : p.1 - last < ticks) :
    (spell ticks last notes).head? = some p.2 := by
  obtain ⟨later, rfl⟩ := List.head?_eq_some_iff.mp first
  rw [spell, Nat.div_eq_of_lt soon]
  rfl

/-- Each note has one character to be pressed, if its key can be pressed at all. -/
theorem countP_canPress_spell :
    (spell ticks last notes).countP Token.canPress =
      notes.countP fun p => Token.canPress p.2 := by
  have pipes (n : Nat) : (List.replicate n '|').countP Token.canPress = 0 := by
    rw [List.countP_eq_zero]
    intro c inside
    rw [List.eq_of_mem_replicate inside]
    decide
  induction notes generalizing last with
  | nil => rfl
  | cons note notes ih =>
    rw [spell, List.countP_append, pipes, Nat.zero_add, List.countP_cons, List.countP_cons, ih]

/-- The pipes in front of a key are no presses and the key is one, with the dashes behind it. -/
theorem countP_isPress_scan_spell_cons {time : Nat} {key : Char}
    (proper : (Token.press key 0).Proper) :
    (Token.scan (spell ticks last ((time, key) :: notes))).countP Token.isPress =
      (Token.scan ((spell ticks time notes).dropWhile (· = '-'))).countP Token.isPress + 1 := by
  have pressed (rest : List Char) : Token.scan (key :: rest) =
      .press key (rest.takeWhile (· = '-')).length :: Token.scan (rest.dropWhile (· = '-')) := by
    rw [Token.scan, if_neg proper.2.1, if_neg proper.2.2, if_pos proper.1]
  rw [spell]
  cases min maxPipes ((time - last) / ticks) with
  | zero => rw [List.replicate_zero, List.nil_append, pressed, List.countP_cons_of_pos rfl]
  | succ more =>
    have stop : '|' ∉ (key :: spell ticks time notes).head? :=
      fun here => proper.2.2 (Option.some.inj here)
    rw [List.replicate_succ, List.cons_append, Token.scan_pipe, Token.dropWhile_run '|' more stop,
      List.countP_cons_of_neg (by simp [Token.isPress]), pressed, List.countP_cons_of_pos rfl]

/-- Where as many presses are read as there are notes, no dash is a tie. -/
theorem dashes_of_countP (keys : ∀ p ∈ notes, (Token.press p.2 0).Proper)
    (all : notes.length ≤ (Token.scan (spell ticks last notes)).countP Token.isPress) :
    notes.IsChain fun p q => q.2 = '-' → ticks ≤ q.1 - p.1 := by
  induction notes generalizing last with
  | nil => exact .nil
  | cons note notes ih =>
    obtain ⟨time, key⟩ := note
    obtain ⟨first, others⟩ := List.forall_mem_cons.mp keys
    rw [countP_isPress_scan_spell_cons first, List.length_cons] at all
    have offered : (spell ticks time notes).countP Token.canPress = notes.length := by
      rw [countP_canPress_spell, List.countP_eq_length]
      exact fun p inside => Token.canPress_iff.mpr (others p inside)
    -- nothing that the later notes offer can be spared, so they start with no tie
    have noTie : (spell ticks time notes).head? ≠ some '-' := by
      intro tie
      have lost := Token.countP_isPress_scan_dropWhile_lt tie
      omega
    have kept : (spell ticks time notes).dropWhile (· = '-') = spell ticks time notes :=
      Token.dropWhile_run '-' 0 noTie
    rw [kept] at all
    refine List.isChain_cons.mpr ⟨?_, ih others (Nat.le_of_succ_le_succ all)⟩
    intro q next dash
    by_contra soon
    apply noTie
    rw [head?_spell next (Nat.lt_of_not_le soon), dash]

end Counting

variable {keymap : Keymap} {file : File}

/-- Legible notes are played as presses of their keys, and nothing else sounds. -/
theorem sounding_performance (w : UInt32) (last : Nat) (notes : List (Nat × Char)) :
    sounding (performance file w last notes) = notes.map fun p => .press p.2 1 := by
  have silent (last time : Nat) : sounding (restBetween file w last time) = [] := by
    unfold restBetween
    extract_lets pipes
    split
    · rfl
    · rfl
  induction notes generalizing last with
  | nil => rfl
  | cons note notes ih =>
    obtain ⟨time, key⟩ := note
    rw [performance_cons, sounding, List.filter_append, ← sounding, silent, List.nil_append,
      List.filter_cons_of_pos rfl, ← sounding, ih, List.map_cons]

/-- Where as many presses are played as there are notes, the notes are legible. -/
theorem legible_of_countP {s : Settings}
    (all : (struck keymap (file.tracks.headD [])).length ≤
      (sounding (compile (transcribe keymap file) s).events).countP Event.isPress) :
    Legible file.ticksPerUnit (struck keymap (file.tracks.headD [])) := by
  have source : (Source.ofText (transcribe keymap file)).notes = (Source.ofText (String.ofList
      (spell file.ticksPerUnit 0 (struck keymap (file.tracks.headD []))))).notes := by
    rw [transcribe_eq, ofText_directives (usable_of_mem_tempos file)]
  generalize struck keymap (file.tracks.headD []) = notes at all source ⊢
  have offered : notes.length ≤ (Source.ofText (transcribe keymap file)).notes.countP
      Token.canPress := Nat.le_trans all (Source.countP_isPress_le _ _)
  have keys : ∀ p ∈ notes, (Token.press p.2 0).Proper := by
    have inText := (Source.notes_sublist (String.ofList
      (spell file.ticksPerUnit 0 notes))).countP_le (p := Token.canPress)
    rw [String.toList_ofList, countP_canPress_spell, ← source] at inText
    have every := List.countP_eq_length.mp
      (Nat.le_antisymm List.countP_le_length (Nat.le_trans offered inText))
    exact fun p inside => Token.canPress_iff.mp (every p inside)
  have unspaced := @isBlank_of_mem_spell file.ticksPerUnit 0 notes keys
  have noDirective : (spell file.ticksPerUnit 0 notes).head? ≠ some '@' := by
    intro starts
    rw [source, Source.notes_of_directive unspaced starts] at offered
    rw [List.length_eq_zero_iff.mp (Nat.le_zero.mp offered)] at starts
    cases starts
  rw [Source.ofText_of_unspaced unspaced noDirective] at source
  rw [compile, Source.events_of_unspaced _ (source ▸ unspaced), source, ← Token.play,
    Token.countP_isPress_sounding_play] at all
  refine ⟨keys, dashes_of_countP keys all, ?_⟩
  intro p first at_
  by_contra soon
  apply noDirective
  rw [head?_spell first (Nat.lt_of_not_le soon), at_]

end Midi

namespace Player

open Midi (File Legible decode struck)

/-- What sounds after an import are the mapped notes of the first track, each as one press of its
key, if they are legible. If they are not, at least one of them is lost. -/
theorem notes_sound_where_legible (e : Engine) (keymap : Keymap) {bytes : List UInt8}
    {file : File} (decoded : decode bytes = .ok file) :
    (Legible file.ticksPerUnit (struck keymap (file.tracks.headD [])) →
      sounding (e.importMidi bytes keymap).engine.events =
        (struck keymap (file.tracks.headD [])).map fun p => .press p.2 1) ∧
    (¬Legible file.ticksPerUnit (struck keymap (file.tracks.headD [])) →
      (sounding (e.importMidi bytes keymap).engine.events).countP Event.isPress <
        (struck keymap (file.tracks.headD [])).length) := by
  have loaded : (e.importMidi bytes keymap).engine.events =
      (Notation.compile (Midi.transcribe keymap file) e.settings).events := by
    rw [Engine.importMidi, decoded]
    exact congrArg Engine.events (Engine.install_engine ..)
  rw [loaded]
  refine ⟨fun legible => ?_, fun illegible => ?_⟩
  · rw [Notation.compile, Midi.events_of_legible legible, Midi.sounding_performance]
  · by_contra all
    exact illegible (Midi.legible_of_countP (Nat.le_of_not_lt all))

/-- Three notes, of which the first two strike together. -/
def markedBytes : List UInt8 :=
  [0x4D, 0x54, 0x68, 0x64, 0, 0, 0, 6, 0, 0, 0, 1, 0, 96,
    0x4D, 0x54, 0x72, 0x6B, 0, 0, 0, 12,
    24, 0x90, 62, 100, 0, 0x90, 64, 100, 24, 0x90, 60, 100]

def markedFile : File :=
  ⟨0, 1, 96, [[⟨24, .noteOn 0 62 100⟩, ⟨0, .noteOn 0 64 100⟩, ⟨24, .noteOn 0 60 100⟩]]⟩

/-- Keys that also have another meaning, depending on what stands in front of them. -/
def markedKeymap : Keymap := ⟨(Keymap.standard.keys.set 62 (some '@')).set 60 (some '-')⟩

/-- Here the note that strikes together with the first one has a dash for its key. -/
def tiedKeymap : Keymap := ⟨markedKeymap.keys.set 64 (some '-')⟩

/-- Behind a pipe an at sign and a dash are keys; behind a key a dash is a tie. -/
theorem marks_sound_behind_pipes :
    let fresh : Engine := { settings := .initial }
    decode markedBytes = .ok markedFile ∧
      sounding (fresh.importMidi markedBytes markedKeymap).engine.events =
        [.press '@' 1, .press 'd' 1, .press '-' 1] ∧
      (sounding (fresh.importMidi markedBytes tiedKeymap).engine.events).countP
        Event.isPress < 3 := by
  intro fresh
  have decoded : decode markedBytes = .ok markedFile := by cbv
  have marks : struck markedKeymap (markedFile.tracks.headD []) =
      [(24, '@'), (24, 'd'), (48, '-')] := by decide +kernel
  have ties : struck tiedKeymap (markedFile.tracks.headD []) =
      [(24, '@'), (24, '-'), (48, '-')] := by decide +kernel
  have played := (notes_sound_where_legible fresh markedKeymap decoded).1
  have lost := (notes_sound_where_legible fresh tiedKeymap decoded).2
  rw [marks] at played
  rw [ties] at lost
  exact ⟨decoded, played (by decide +kernel), lost (by decide +kernel)⟩

/-- Middle C alone. -/
def middleBytes : List UInt8 :=
  [0x4D, 0x54, 0x68, 0x64, 0, 0, 0, 6, 0, 0, 0, 1, 0, 96,
    0x4D, 0x54, 0x72, 0x6B, 0, 0, 0, 4, 0, 0x90, 60, 100]

def pipeKeymap : Keymap := ⟨Keymap.empty.keys.set 60 (some '|')⟩

/-- A pipe is taken for a key, by itself and in a document, and its note is a rest. -/
theorem mapped_pipe_is_rest :
    let fresh : Engine := { settings := .initial }
    Keymap.empty.insert 60 '|' = .ok pipeKeymap ∧
      Keymap.ofDocument "\x7b\"60\":\"|\"\x7d" = .ok pipeKeymap ∧
      decode middleBytes = .ok ⟨0, 1, 96, [[⟨0, .noteOn 0 60 100⟩]]⟩ ∧
      pipeKeymap.get? 60 = some '|' ∧
      (fresh.importMidi middleBytes pipeKeymap).engine.events = [.rest 3] := by
  intro fresh
  have decoded : decode middleBytes = .ok ⟨0, 1, 96, [[⟨0, .noteOn 0 60 100⟩]]⟩ := by cbv
  refine ⟨rfl, by decide +kernel, decoded, rfl, ?_⟩
  rw [Engine.importMidi, decoded]
  decide +kernel

end Player

end KeyScore
