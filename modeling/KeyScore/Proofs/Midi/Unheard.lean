import KeyScore.Proofs.Midi.Meaning

/-!
# What a transcript does not show

The notation of a file shows the tempos of its first track, and the mapped notes of that track with
the times that go by between them. Any other event may be left out as long as the time before it is
kept, and a tempo may be moved to the front, since tempos stand in lines of their own before the
notes. Both come from one fact: the text is made from the list of tempos and the list of timed
strokes and from nothing else of the track.
-/

namespace KeyScore.Midi

namespace Message

/-- A tempo event of the right length that does not say zero. -/
inductive IsTempo : Message → Prop
  | tempo {a b c : UInt8} (some_length : ¬(a = 0 ∧ b = 0 ∧ c = 0)) :
      IsTempo (.metaEvent 0x51 [a, b, c])

/-- A note that sounds and has a key. -/
inductive IsMapped (keymap : Keymap) : Message → Prop
  | note {channel note velocity : UInt8} {key : Char} (sounds : velocity ≠ 0)
      (mapped : keymap.get? note = some key) : IsMapped keymap (.noteOn channel note velocity)

variable {keymap : Keymap} {m : Message}

theorem isTempo_of_bpm? {bpm : Nat} (h : m.bpm? = some bpm) : m.IsTempo := by
  obtain ⟨length, quarter, rounded⟩ := Option.bind_eq_some_iff.mp h
  match m with
  | .metaEvent kind [a, b, c] =>
    simp only [quarterLength?] at quarter
    split at quarter
    · rename_i isTempo
      rw [isTempo]
      refine .tempo ?_
      rintro ⟨rfl, rfl, rfl⟩
      have zero : length = 0 := (Option.some.inj quarter).symm
      rw [if_pos zero] at rounded
      cases rounded
    · cases quarter

theorem isMapped_of_key? {key : Char} (h : m.key? keymap = some key) : m.IsMapped keymap := by
  match m with
  | .noteOn channel note velocity =>
    simp only [key?] at h
    split at h
    · cases h
    · rename_i sounds
      exact .note sounds h

theorem bpm?_eq_none (h : ¬m.IsTempo) : m.bpm? = none :=
  Option.eq_none_iff_forall_ne_some.mpr fun _ same => h (isTempo_of_bpm? same)

theorem key?_eq_none (h : ¬m.IsMapped keymap) : m.key? keymap = none :=
  Option.eq_none_iff_forall_ne_some.mpr fun _ same => h (isMapped_of_key? same)

theorem IsTempo.not_isMapped (h : m.IsTempo) : ¬m.IsMapped keymap := by
  rintro ⟨⟩
  cases h

end Message

/-- The track with so many ticks more before its first event. -/
def postponed (ticks : Nat) : Track → Track
  | [] => []
  | event :: track => ⟨event.delta + ticks, event.message⟩ :: track

theorem postponed_zero (track : Track) : postponed 0 track = track := by
  cases track <;> rfl

section Track

variable {keymap : Keymap} {event : TrackEvent} {before after : Track}

theorem filterMap_postponed {α : Type} (f : Message → Option α) (ticks : Nat) (track : Track) :
    (postponed ticks track).filterMap (fun event => f event.message) =
      track.filterMap fun event => f event.message := by
  cases track <;> rfl

theorem timed_postponed (time ticks : Nat) (track : Track) :
    timed time (postponed ticks track) = timed (time + ticks) track := by
  match track with
  | [] => rfl
  | event :: track =>
    have same : time + (event.delta + ticks) = time + ticks + event.delta := by omega
    rw [postponed, timed, timed, same]

/-- What happens when is the same without an event that is not looked at, if the time before it is
kept. -/
theorem filterMap_timed_postponed {α : Type} {f : Nat × Message → Option α}
    (unheard : ∀ time, f (time, event.message) = none) (time : Nat) :
    (timed time (before ++ postponed event.delta after)).filterMap f =
      (timed time (before ++ event :: after)).filterMap f := by
  induction before generalizing time with
  | nil =>
    rw [List.nil_append, List.nil_append, timed_postponed, timed, List.filterMap_cons, unheard]
  | cons first before ih =>
    rw [List.cons_append, List.cons_append, timed, timed, List.filterMap_cons, List.filterMap_cons,
      ih]

theorem strokes_postponed (notMapped : ¬event.message.IsMapped keymap) :
    strokes keymap (before ++ postponed event.delta after) =
      strokes keymap (before ++ event :: after) :=
  filterMap_timed_postponed (fun _ => by simp [Message.key?_eq_none notMapped]) 0

end Track

/-- A text is made from tempos and timed strokes, and from nothing else of the first track. -/
theorem transcribe_congr {keymap : Keymap} {file file' : File}
    (division : file.division = file'.division) (tempos : file.tempos = file'.tempos)
    (strokes : strokes keymap (file.tracks.headD []) = strokes keymap (file'.tracks.headD [])) :
    transcribe keymap file = transcribe keymap file' := by
  have unit : file.ticksPerUnit = file'.ticksPerUnit := by
    rw [File.ticksPerUnit, File.ticksPerQuarter, division]
    rfl
  rw [transcribe_eq, transcribe_eq, ← strokes_eq_struck, ← strokes_eq_struck, tempos, strokes, unit]

/-- An event of the first track that is neither a tempo nor a mapped note that sounds may be left
out if its delta is added to that of the next event. A tempo may be moved forward past whatever is
no tempo, so also to the front of the track or behind the tempos that are there, if the time before
it is kept. The other tracks may be any. -/
theorem only_tempos_and_mapped_notes_shown (keymap : Keymap) (file : File) :
    (∀ (before after : Track) (event : TrackEvent) (others : List Track),
      ¬event.message.IsTempo → ¬event.message.IsMapped keymap →
        transcribe keymap { file with tracks := (before ++ postponed event.delta after) :: others } =
          transcribe keymap { file with tracks := (before ++ event :: after) :: others }) ∧
    (∀ (front passed after : Track) (tempo : TrackEvent) (others : List Track),
      tempo.message.IsTempo → (∀ event ∈ passed, ¬event.message.IsTempo) →
        transcribe keymap { file with
            tracks := (front ++ ⟨0, tempo.message⟩ :: (passed ++ postponed tempo.delta after)) ::
              others } =
          transcribe keymap { file with
            tracks := (front ++ (passed ++ tempo :: after)) :: others }) ∧
    ∀ (track : Track) (others others' : List Track),
      transcribe keymap { file with tracks := track :: others' } =
        transcribe keymap { file with tracks := track :: others } := by
  refine ⟨fun before after event others notTempo notMapped => ?_,
    fun front passed after tempo others isTempo noTempos => ?_,
    fun track others others' => transcribe_congr rfl rfl rfl⟩
  · refine transcribe_congr rfl ?_ (strokes_postponed notMapped)
    simp only [File.tempos, List.headD_cons, List.filterMap_append, List.filterMap_cons,
      Message.bpm?_eq_none notTempo, filterMap_postponed]
  · refine transcribe_congr rfl ?_ ?_
    · have none : passed.filterMap (fun event => event.message.bpm?) = [] :=
        List.filterMap_eq_nil_iff.mpr fun event inside =>
          Message.bpm?_eq_none (noTempos event inside)
      simp only [File.tempos, List.headD_cons, List.filterMap_append, List.filterMap_cons,
        filterMap_postponed, none, List.nil_append]
    · -- A tempo is no note, so of the strokes it can be left out at both places.
      have notMapped : ¬tempo.message.IsMapped keymap := isTempo.not_isMapped
      calc strokes keymap (front ++ ⟨0, tempo.message⟩ :: (passed ++ postponed tempo.delta after))
          = strokes keymap (front ++ postponed 0 (passed ++ postponed tempo.delta after)) :=
            (@strokes_postponed keymap ⟨0, tempo.message⟩ _ _ notMapped).symm
        _ = strokes keymap (front ++ passed ++ postponed tempo.delta after) := by
            rw [postponed_zero, List.append_assoc]
        _ = strokes keymap (front ++ passed ++ tempo :: after) := strokes_postponed notMapped
        _ = strokes keymap (front ++ (passed ++ tempo :: after)) := by rw [List.append_assoc]

end KeyScore.Midi
