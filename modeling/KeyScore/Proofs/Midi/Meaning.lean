import KeyScore.Midi.Transcript
import KeyScore.Proofs.Notation.Source
import KeyScore.Proofs.Notation.Spacing
import KeyScore.Proofs.Number.Whole

/-!
# What a transcript means

The notation of a MIDI file is a text, and compiling it gives the notes back: the keys that the
first track strikes, one after the other, with the whole sixteenths between them as rests, and
the last of its tempos. This needs keys that are letters or digits, since others may be read
as rests, ties, chords or directives.
-/

namespace KeyScore

/-- Every mapped note has a letter or a digit of some script as its key. -/
def Keymap.Alphanumeric (keymap : Keymap) : Prop :=
  ∀ note key, keymap.get? note = some key → Text.isAlphanumeric key = true

theorem Keymap.standard_alphanumeric : Keymap.standard.Alphanumeric := by
  have all : ∀ i : Fin 128, Keymap.standard.keys[i].all Text.isAlphanumeric = true := by
    decide +kernel
  intro note key mapped
  rw [get?] at mapped
  split at mapped
  · have here := all ⟨note.toNat, ‹_›⟩
    rw [Fin.getElem_fin, mapped] at here
    exact here
  · cases mapped

namespace Midi

open Notation (Directive Source Token compile isKey)

section Times

variable {keymap : Keymap}

/-- When an event of a track happens: after its delta and those of all events before it. -/
def timeOf (track : Track) (index : Nat) : Nat :=
  ((track.take (index + 1)).map TrackEvent.delta).sum

/-- The notes of a track that sound and have a key, with their times. -/
def struck (keymap : Keymap) (track : Track) : List (Nat × Char) :=
  track.zipIdx.filterMap fun (event, index) =>
    (event.message.key? keymap).map (timeOf track index, ·)

theorem timed_eq (time : Nat) (track : Track) :
    timed time track =
      track.zipIdx.map fun (event, index) => (time + timeOf track index, event.message) := by
  induction track generalizing time with
  | nil => rfl
  | cons event track ih =>
    have later (index : Nat) :
        timeOf (event :: track) (index + 1) = event.delta + timeOf track index := by
      rw [timeOf, List.take_succ_cons, List.map_cons, List.sum_cons, timeOf]
    rw [timed, ih, List.zipIdx_cons', List.map_cons, List.map_map]
    refine congrArg₂ _ (by simp [timeOf]) (List.map_congr_left fun p _ => ?_)
    simp [later, Nat.add_assoc]

theorem strokes_eq_struck (keymap : Keymap) (track : Track) :
    strokes keymap track = struck keymap track := by
  rw [strokes, timed_eq, List.filterMap_map, struck]
  simp

theorem le_of_mem_timed {time : Nat} {track : Track} :
    ∀ p ∈ timed time track, time ≤ p.1 := by
  induction track generalizing time with
  | nil => simp [timed]
  | cons event track ih =>
    refine List.forall_mem_cons.mpr ⟨Nat.le_add_right .., fun p inside => ?_⟩
    exact Nat.le_trans (Nat.le_add_right ..) (ih p inside)

/-- Time does not run backwards. -/
theorem pairwise_timed (time : Nat) (track : Track) :
    (timed time track).Pairwise fun p q => p.1 ≤ q.1 := by
  induction track generalizing time with
  | nil => exact .nil
  | cons event track ih => exact .cons le_of_mem_timed (ih _)

theorem pairwise_struck (keymap : Keymap) (track : Track) :
    (struck keymap track).Pairwise fun p q => p.1 ≤ q.1 := by
  rw [← strokes_eq_struck, strokes]
  refine (pairwise_timed 0 track).filterMap _ fun p q before a ha b hb => ?_
  obtain ⟨_, _, rfl⟩ := Option.map_eq_some_iff.mp ha
  obtain ⟨_, _, rfl⟩ := Option.map_eq_some_iff.mp hb
  exact before

/-- The times fit into 64 bits, as long as the deltas and their number fit into 32. -/
theorem timeOf_lt {track : Track} (deltas : ∀ e ∈ track, e.delta < 4294967296)
    (count : track.length < 4294967296) (index : Nat) :
    timeOf track index < 18446744073709551616 := by
  have total (l : Track) (small : ∀ e ∈ l, e.delta < 4294967296) :
      (l.map TrackEvent.delta).sum ≤ l.length * 4294967295 := by
    induction l with
    | nil => simp
    | cons e l ih =>
      obtain ⟨first, others⟩ := List.forall_mem_cons.mp small
      have := ih others
      rw [List.map_cons, List.sum_cons, List.length_cons]
      omega
  have sum := total (track.take (index + 1)) fun e inside => deltas e (List.mem_of_mem_take inside)
  have shorter := List.length_take_le' (index + 1) track
  rw [timeOf]
  omega

end Times

section Notes

variable {keymap : Keymap} {file : File} {w : UInt32}

/-- The rest that stands for the time between two notes: up to sixteen pipes, one for every
whole sixteenth. -/
def restBetween (file : File) (w : UInt32) (last time : Nat) : List Event :=
  let pipes := min 16 ((time - last) / max 1 (file.division.toNat / 4))
  if pipes = 0 then [] else [.rest (UInt32.ofNat (max 1 (min (pipes * w.toNat) maxUnits)))]

/-- Notes as events, each behind the rest since the note before it. -/
def performance (file : File) (w : UInt32) (last : Nat) (notes : List (Nat × Char)) :
    List Event :=
  ((last :: notes.map Prod.fst).zip notes).flatMap fun (last, time, key) =>
    restBetween file w last time ++ [.press key 1]

theorem performance_cons (last time : Nat) (key : Char) (notes : List (Nat × Char)) :
    performance file w last ((time, key) :: notes) =
      restBetween file w last time ++ .press key 1 :: performance file w time notes := by
  rw [performance, List.map_cons, List.zip_cons_cons, List.flatMap_cons, List.append_assoc]
  rfl

/-- The notes are read back from the way they are written: each key is a key of the notation that
opens neither a rest nor a chord, a dash is no tie of the key before it, and the line of notes is
no directive. A pipe in front of a dash or an at sign takes its special meaning away. -/
structure Legible (ticksPerUnit : Nat) (notes : List (Nat × Char)) : Prop where
  keys : ∀ p ∈ notes, (Token.press p.2 0).Proper
  dashes : notes.IsChain fun p q => q.2 = '-' → ticksPerUnit ≤ q.1 - p.1
  start : ∀ p ∈ notes.head?, p.2 = '@' → ticksPerUnit ≤ p.1

instance (ticksPerUnit : Nat) (notes : List (Nat × Char)) :
    Decidable (Legible ticksPerUnit notes) :=
  decidable_of_iff ((∀ p ∈ notes, (Token.press p.2 0).Proper) ∧
      (notes.IsChain fun p q => q.2 = '-' → ticksPerUnit ≤ q.1 - p.1) ∧
      ∀ p ∈ notes.head?, p.2 = '@' → ticksPerUnit ≤ p.1)
    ⟨fun ⟨keys, dashes, start⟩ => ⟨keys, dashes, start⟩,
      fun h => ⟨h.keys, h.dashes, h.start⟩⟩

theorem alphanumeric_of_mem_struck (h : keymap.Alphanumeric) (track : Track) :
    ∀ p ∈ struck keymap track, Text.isAlphanumeric p.2 = true := by
  intro p inside
  obtain ⟨⟨event, index⟩, -, heard⟩ := List.mem_filterMap.mp inside
  obtain ⟨key, mapped, rfl⟩ := Option.map_eq_some_iff.mp heard
  match message : event.message with
  | .noteOn _ note velocity =>
    simp only [message, Message.key?] at mapped
    split at mapped
    · cases mapped
    · exact h note key mapped
  | .noteOff .. | .controlChange .. | .programChange .. | .metaEvent .. | .sysEx .. | .unknown .. =>
    simp [message, Message.key?] at mapped

/-- Letters and digits are legible at any time. -/
theorem legible_of_alphanumeric {ticks : Nat} {notes : List (Nat × Char)}
    (h : ∀ p ∈ notes, Text.isAlphanumeric p.2 = true) : Legible ticks notes where
  keys p inside := by
    refine ⟨?_, Text.ne_mark (h p inside) (by decide), Text.ne_mark (h p inside) (by decide)⟩
    rw [isKey, h p inside, Bool.or_true]
  dashes := by
    refine (List.pairwise_of_forall_mem_list fun p _ q inside dash => ?_).isChain
    exact absurd dash (Text.ne_mark (h q inside) (by decide))
  start p first at_ := absurd at_ (Text.ne_mark (h p (List.mem_of_mem_head? first)) (by decide))

/-- Only pipes and keys are written. -/
theorem pipe_or_key_of_mem_spell {ticks last : Nat} {notes : List (Nat × Char)} :
    ∀ c ∈ spell ticks last notes, c = '|' ∨ ∃ p ∈ notes, c = p.2 := by
  induction notes generalizing last with
  | nil => simp [spell]
  | cons note notes ih =>
    intro c inside
    rw [spell] at inside
    rcases List.mem_append.mp inside with inPipes | inside
    · exact .inl (List.eq_of_mem_replicate inPipes)
    · rcases List.mem_cons.mp inside with rfl | inRest
      · exact .inr ⟨note, List.mem_cons_self .., rfl⟩
      · rcases ih c inRest with pipe | ⟨p, later, key⟩
        · exact .inl pipe
        · exact .inr ⟨p, List.mem_cons_of_mem note later, key⟩

/-- Unless less than a unit goes before the first note, a pipe is written first. -/
theorem pipe_or_key_of_head?_spell {ticks last : Nat} (pos : 0 < ticks)
    {notes : List (Nat × Char)} :
    ∀ c ∈ (spell ticks last notes).head?,
      c = '|' ∨ ∃ p ∈ notes.head?, c = p.2 ∧ p.1 - last < ticks := by
  cases notes with
  | nil => simp [spell]
  | cons note notes =>
    intro c first
    by_cases soon : note.1 - last < ticks
    · rw [spell, Nat.div_eq_of_lt soon] at first
      exact .inr ⟨note, rfl, (Option.some.inj first).symm, soon⟩
    · have some_pipes : min maxPipes ((note.1 - last) / ticks) ≠ 0 := by
        have := Nat.div_pos (Nat.le_of_not_lt soon) pos
        rw [maxPipes]
        omega
      obtain ⟨more, pipes⟩ := Nat.exists_eq_succ_of_ne_zero some_pipes
      rw [spell, pipes, List.replicate_succ] at first
      exact .inl (Option.some.inj first).symm

theorem isBlank_of_mem_spell {ticks last : Nat} {notes : List (Nat × Char)}
    (keys : ∀ p ∈ notes, (Token.press p.2 0).Proper) :
    ∀ c ∈ spell ticks last notes, Text.isBlank c = false := by
  intro c inside
  rcases pipe_or_key_of_mem_spell c inside with rfl | ⟨p, later, rfl⟩
  · decide
  · exact Notation.isBlank_of_isKey (keys p later).1

/-- A key that no dash follows is read as a press of it. -/
theorem scan_key {key : Char} (proper : (Token.press key 0).Proper) {rest : List Char}
    (ends : ∀ c ∈ rest.head?, c ≠ '-') :
    Token.scan (key :: rest) = .press key 0 :: Token.scan rest :=
  Token.scan_spelling_append proper ends

/-- The written notes are played as keys and rests. -/
theorem play_spell {last : Nat} {notes : List (Nat × Char)}
    (keys : ∀ p ∈ notes, (Token.press p.2 0).Proper)
    (dashes : notes.IsChain fun p q => q.2 = '-' → file.ticksPerUnit ≤ q.1 - p.1) :
    Token.play w (Token.scan (spell file.ticksPerUnit last notes)) =
      performance file w last notes := by
  induction notes generalizing last with
  | nil =>
    rw [spell, Token.scan]
    rfl
  | cons note notes ih =>
    obtain ⟨time, key⟩ := note
    obtain ⟨first, others⟩ := List.forall_mem_cons.mp keys
    obtain ⟨next, later⟩ := List.isChain_cons.mp dashes
    have noTie : ∀ c ∈ (spell file.ticksPerUnit time notes).head?, c ≠ '-' := by
      rintro c written rfl
      rcases pipe_or_key_of_head?_spell (Nat.le_max_left 1 _) '-' written with
        pipe | ⟨p, second, dash, soon⟩
      · exact absurd pipe (by decide)
      · exact absurd (next p second dash.symm) (Nat.not_le_of_lt soon)
    have pressed : Token.scan (key :: spell file.ticksPerUnit time notes) =
        .press key 0 :: Token.scan (spell file.ticksPerUnit time notes) := scan_key first noTie
    have played : Token.play w (Token.scan (key :: spell file.ticksPerUnit time notes)) =
        .press key 1 :: performance file w time notes := by
      rw [pressed, Token.play_cons, ih others later]
      rfl
    rw [performance_cons, ← played, spell, restBetween]
    change Token.play w (Token.scan (List.replicate
      (min 16 ((time - last) / max 1 (file.division.toNat / 4))) '|' ++ _)) = _
    -- with so few pipes their counter does not run over
    have few := Nat.min_le_left 16 ((time - last) / max 1 (file.division.toNat / 4))
    generalize min 16 ((time - last) / max 1 (file.division.toNat / 4)) = pipes at few ⊢
    by_cases none : pipes = 0
    · subst none
      rfl
    · have proper : (Token.pipes pipes).Proper := Nat.pos_of_ne_zero none
      have short : (Token.pipes pipes).Short := Nat.lt_of_le_of_lt few (by decide)
      have ends : ∀ c ∈ (key :: spell file.ticksPerUnit time notes).head?,
          ¬(Token.pipes pipes).GoesOn c := by
        rintro c ⟨⟩
        exact first.2.2
      have pipesRead := Token.scan_spelling_append proper ends
      rw [Token.spelling] at pipesRead
      rw [pipesRead, Token.play_cons, Token.event?_of_short short, played, if_neg none]
      rfl

end Notes

section Directives

theorem unspaced_toDigits (n : Nat) : Text.Unspaced (Nat.toDigits 10 n) := fun c inside =>
  Text.isBlank_of_isDigit (Number.isDigit_toDigits n c inside)

/-- A tempo line says what its number is. -/
theorem directiveBody?_tempo (bpm : Nat) :
    Source.directiveBody? ("@bpm ".toList ++ Nat.toDigits 10 bpm) =
      some ("bpm ".toList ++ Nat.toDigits 10 bpm) :=
  Notation.directiveBody?_directiveLine "bpm".toList (unspaced_toDigits bpm) Nat.toDigits_ne_nil

theorem read?_tempo {bpm : Nat} (pos : 0 < bpm) (small : bpm < 9007199254740992) :
    Directive.read? ("bpm ".toList ++ Nat.toDigits 10 bpm) = some (.bpm (Float.ofNat bpm)) := by
  have usable : (Float.ofNat bpm).isFinite && 0.0 < Float.ofNat bpm := by
    rw [Number.isFinite_ofNat pos small, Bool.true_and]
    exact decide_eq_true (Number.zero_lt_ofNat pos small)
  have named : Directive.named? "bpm" (Nat.toDigits 10 bpm) = some (.bpm (Float.ofNat bpm)) := by
    simp only [Directive.named?, Directive.readBpm?, Number.readFloat?_toDigits, Option.filter,
      usable]
    rfl
  exact (@Notation.read?_directiveLine "bpm".toList _ (Text.unspaced_of_all (by decide))
    (unspaced_toDigits bpm)).trans named

/-- The tempos of a file: those of its first track. -/
def File.tempos (file : File) : List Nat :=
  (file.tracks.headD []).filterMap fun event => event.message.bpm?

/-- A tempo is a whole number of quarter notes that is not zero. -/
theorem bpm?_bounds {m : Message} {bpm : Nat} (h : m.bpm? = some bpm) :
    0 < bpm ∧ bpm < 9007199254740992 := by
  obtain ⟨length, quarter, rounded⟩ := Option.bind_eq_some_iff.mp h
  have short : length < 16777216 := by
    match m with
    | .metaEvent kind [a, b, c] =>
      have first := a.toNat_lt
      have second := b.toNat_lt
      have third := c.toNat_lt
      simp only [Message.quarterLength?] at quarter
      split at quarter
      · rw [← Option.some.inj quarter]
        omega
      · cases quarter
  split at rounded
  · cases rounded
  · have value : Number.roundHalfUp 60000000 length = bpm := Option.some.inj rounded
    rw [← value, Number.roundHalfUp]
    refine ⟨Nat.div_pos (by omega) (by omega), ?_⟩
    exact Nat.lt_of_le_of_lt (Nat.div_le_self _ _) (by omega)

theorem tempo_unbroken (bpm : Nat) :
    ∀ c ∈ "@bpm ".toList ++ Nat.toDigits 10 bpm, Text.isLineBreak c = false :=
  @Notation.unbroken_directiveLine "bpm".toList _ (Text.unspaced_of_all (by decide))
    (unspaced_toDigits bpm)

theorem usable_of_mem_tempos (file : File) :
    ∀ bpm ∈ file.tempos, 0 < bpm ∧ bpm < 9007199254740992 := by
  intro bpm inside
  obtain ⟨event, -, tempo⟩ := List.mem_filterMap.mp inside
  exact bpm?_bounds tempo

theorem ofLines_tempos {tempos : List Nat}
    (usable : ∀ bpm ∈ tempos, 0 < bpm ∧ bpm < 9007199254740992) :
    Source.ofLines (tempos.map fun bpm => "@bpm ".toList ++ Nat.toDigits 10 bpm) =
      ⟨tempos.map fun bpm => .bpm (Float.ofNat bpm), []⟩ := by
  induction tempos with
  | nil => rfl
  | cons bpm tempos ih =>
    obtain ⟨first, others⟩ := List.forall_mem_cons.mp usable
    rw [List.map_cons, Source.ofLines_directive (directiveBody?_tempo bpm),
      read?_tempo first.1 first.2, ih others]
    rfl

/-- A unit line and tempo lines are directives, whatever text follows them. -/
theorem ofText_directives {tempos : List Nat}
    (usable : ∀ bpm ∈ tempos, 0 < bpm ∧ bpm < 9007199254740992) (cs : List Char) :
    Source.ofText (String.ofList ("@unit 16\n".toList ++ tempos.flatMap tempoLine ++ cs)) =
      ⟨.unit 16 :: (tempos.map fun bpm => .bpm (Float.ofNat bpm)) ++
          (Source.ofText (String.ofList cs)).directives,
        (Source.ofText (String.ofList cs)).notes⟩ := by
  have lines : Text.lines ("@unit 16\n".toList ++ tempos.flatMap tempoLine ++ cs) =
      "@unit 16".toList ::
        (tempos.map (fun bpm => "@bpm ".toList ++ Nat.toDigits 10 bpm) ++ Text.lines cs) := by
    have others := Text.lines_flatMap (fun bpm (_ : bpm ∈ tempos) => tempo_unbroken bpm) cs
    rw [← others, List.append_assoc]
    exact @Text.lines_append_break '\n' (by decide) "@unit 16".toList _
  have unitBody : Source.directiveBody? "@unit 16".toList = some "unit 16".toList := rfl
  have unit : Directive.read? "unit 16".toList = some (.unit 16) := rfl
  rw [Source.ofText_eq, String.toList_ofList, lines, Source.ofLines_directive unitBody, unit,
    Source.ofLines_append, ofLines_tempos usable, Source.ofText_eq, String.toList_ofList]
  rfl

theorem transcribe_eq (keymap : Keymap) (file : File) :
    transcribe keymap file = String.ofList ("@unit 16\n".toList ++
      file.tempos.flatMap tempoLine ++
        spell file.ticksPerUnit 0 (struck keymap (file.tracks.headD []))) := by
  rw [← strokes_eq_struck]
  rfl

/-- A transcript with legible notes taken apart: its directives and its notes. -/
theorem ofText_of_legible {keymap : Keymap} {file : File}
    (h : Legible file.ticksPerUnit (struck keymap (file.tracks.headD []))) :
    Source.ofText (transcribe keymap file) =
      ⟨.unit 16 :: file.tempos.map fun bpm => .bpm (Float.ofNat bpm),
        spell file.ticksPerUnit 0 (struck keymap (file.tracks.headD []))⟩ := by
  have noDirective : (spell file.ticksPerUnit 0 (struck keymap (file.tracks.headD []))).head? ≠
      some '@' := by
    intro first
    rcases pipe_or_key_of_head?_spell (Nat.le_max_left 1 _) '@' first with
      pipe | ⟨p, here, at_, soon⟩
    · exact absurd pipe (by decide)
    · exact absurd (h.start p here at_.symm) (Nat.not_le_of_lt soon)
  rw [transcribe_eq, ofText_directives (usable_of_mem_tempos file),
    Source.ofText_of_unspaced (isBlank_of_mem_spell h.keys) noDirective, List.append_nil]

theorem ofText_transcribe {keymap : Keymap} (h : keymap.Alphanumeric) (file : File) :
    Source.ofText (transcribe keymap file) =
      ⟨.unit 16 :: file.tempos.map fun bpm => .bpm (Float.ofNat bpm),
        spell file.ticksPerUnit 0 (struck keymap (file.tracks.headD []))⟩ :=
  ofText_of_legible (legible_of_alphanumeric (alphanumeric_of_mem_struck h _))

/-- Of several tempos the last one stays. -/
theorem foldl_tempos {tempos : List Nat}
    (usable : ∀ bpm ∈ tempos, 0 < bpm ∧ bpm < 9007199254740992) (s : Settings) :
    (tempos.map fun bpm => Directive.bpm (Float.ofNat bpm)).foldl (fun s d => d.apply s)
        s.retimed =
      Settings.retimed { s with bpm := (tempos.getLast?.map Float.ofNat).getD s.bpm } := by
  induction tempos generalizing s with
  | nil => rfl
  | cons bpm tempos ih =>
    obtain ⟨⟨pos, small⟩, others⟩ := List.forall_mem_cons.mp usable
    have set : Directive.apply (.bpm (Float.ofNat bpm)) s.retimed =
        Settings.retimed { s with bpm := Float.ofNat bpm } :=
      if_pos ⟨Number.isFinite_ofNat pos small, Number.zero_lt_ofNat pos small⟩
    rw [List.map_cons, List.foldl_cons, set, ih others, List.getLast?_cons]
    cases tempos.getLast? <;> rfl

theorem settings_transcribe {keymap : Keymap} (h : keymap.Alphanumeric) (file : File)
    (s : Settings) :
    (Source.ofText (transcribe keymap file)).settings s =
      Settings.retimed { s with
        unit := 16
        bpm := (file.tempos.getLast?.map Float.ofNat).getD s.bpm } := by
  have set : Directive.apply (.unit 16) s = Settings.retimed { s with unit := 16 } := by
    rw [Directive.apply, Settings.setUnit, if_neg (by decide)]
  rw [ofText_transcribe h, Source.settings, List.foldl_cons, set,
    foldl_tempos (usable_of_mem_tempos file)]

/-- No fit is written. -/
theorem fitSeconds?_transcribe {keymap : Keymap} (h : keymap.Alphanumeric) (file : File) :
    (Source.ofText (transcribe keymap file)).fitSeconds? = none := by
  have noFit : (file.tempos.map fun bpm => Directive.bpm (Float.ofNat bpm)).filterMap
      Directive.fitSeconds? = [] := by
    rw [List.filterMap_map]
    exact List.filterMap_eq_nil_iff.mpr fun _ _ => rfl
  have unit : Directive.fitSeconds? (.unit 16) = none := rfl
  rw [ofText_transcribe h, Source.fitSeconds?, List.filterMap_cons, unit, noFit]
  rfl

/-- Legible notes are played as they are. -/
theorem events_of_legible {keymap : Keymap} {file : File}
    (h : Legible file.ticksPerUnit (struck keymap (file.tracks.headD []))) (s : Settings) :
    (Source.ofText (transcribe keymap file)).events s =
      performance file s.pipeWeight 0 (struck keymap (file.tracks.headD [])) := by
  rw [ofText_of_legible h, Source.events_of_unspaced s (isBlank_of_mem_spell h.keys)]
  exact play_spell h.keys h.dashes

theorem events_transcribe {keymap : Keymap} (h : keymap.Alphanumeric) (file : File)
    (s : Settings) :
    (Source.ofText (transcribe keymap file)).events s =
      performance file s.pipeWeight 0 (struck keymap (file.tracks.headD [])) :=
  events_of_legible (legible_of_alphanumeric (alphanumeric_of_mem_struck h _)) s

end Directives

/-- Conversion and compilation give what the first track says: each mapped note that sounds, in
the order of the file, behind the rest since the note before it. The settings are those before
with sixteenths as units and the last tempo of the track. On the way no time is less than the
one before it and none needs more than 64 bits, and a unit has at least one tick. -/
theorem compile_transcribe {keymap : Keymap} (h : keymap.Alphanumeric) (file : File)
    (s : Settings) :
    compile (transcribe keymap file) s =
        ⟨performance file s.pipeWeight 0 (struck keymap (file.tracks.headD [])),
          Settings.retimed { s with
            unit := 16
            bpm := (file.tempos.getLast?.map Float.ofNat).getD s.bpm }⟩ ∧
      (strokes keymap (file.tracks.headD [])).Pairwise (fun p q => p.1 ≤ q.1) ∧
      ((file.tracks.headD []).length < 4294967296 →
        (∀ event ∈ file.tracks.headD [], event.delta < 4294967296) →
        ∀ p ∈ strokes keymap (file.tracks.headD []), p.1 < 18446744073709551616) ∧
      0 < file.ticksPerUnit := by
  refine ⟨?_, ?_, fun count deltas p inside => ?_, Nat.le_max_left 1 _⟩
  · have settings := settings_transcribe h file s
    rw [compile, fitSeconds?_transcribe h, Option.bind_none, Option.getD_none, settings,
      events_transcribe h]
    rfl
  · rw [strokes_eq_struck]
    exact pairwise_struck keymap _
  · rw [strokes_eq_struck] at inside
    obtain ⟨⟨event, index⟩, -, heard⟩ := List.mem_filterMap.mp inside
    obtain ⟨key, -, rfl⟩ := Option.map_eq_some_iff.mp heard
    exact timeOf_lt deltas count index

/-- A track that is slowed down at its start; two notes together, and one after a long time. -/
def slowedTrack : File where
  format := 0
  trackCount := 1
  division := 96
  tracks := [[⟨0, .metaEvent Message.tempoKind [0x07, 0xA1, 0x20]⟩,
    ⟨0, .metaEvent Message.tempoKind [0x09, 0x27, 0xC0]⟩, ⟨48, .noteOn 0 60 100⟩,
    ⟨0, .noteOn 0 62 1⟩, ⟨10, .noteOn 0 60 0⟩, ⟨1000, .noteOn 0 64 5⟩]]

theorem compile_slowedTrack :
    Keymap.standard.Alphanumeric ∧
      compile (transcribe Keymap.standard slowedTrack) Settings.initial =
        ⟨[.rest 6, .press 'a' 1, .press 's' 1, .rest 48, .press 'd' 1],
          Settings.retimed { Settings.initial with unit := 16, bpm := Float.ofNat 100 }⟩ := by
  have compiled :=
    (compile_transcribe Keymap.standard_alphanumeric slowedTrack Settings.initial).1
  have events : performance slowedTrack 3 0
      (struck Keymap.standard (slowedTrack.tracks.headD [])) =
        [.rest 6, .press 'a' 1, .press 's' 1, .rest 48, .press 'd' 1] := by decide +kernel
  have tempo : slowedTrack.tempos.getLast? = some 100 := by decide +kernel
  rw [tempo, show Settings.initial.pipeWeight = 3 from rfl, events] at compiled
  exact ⟨Keymap.standard_alphanumeric, compiled⟩

end Midi

end KeyScore
