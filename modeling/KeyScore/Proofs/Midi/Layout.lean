import KeyScore.Proofs.Midi.RoundTrip
import KeyScore.Proofs.Midi.Uses
import Mathlib

/-!
# Where everything stands in a file

A layout says of every byte of a file what it is there for: the header first, then the track
chunks, each where the one before it stops, and inside a chunk the events of its track, each
spelled out in full. `decode_eq_ok_iff` says that decoding accepts the bytes that have a layout
and no others.
-/

namespace KeyScore.Midi

/-- A track chunk of some data: where it starts, the length that stands in it, and what its
events are. -/
structure Chunk where
  start : Nat
  declared : UInt32
  track : Track

namespace Chunk

/-- A chunk ends after its declared length, or with the data if that comes first. -/
def stop (bytes : List UInt8) (c : Chunk) : Nat :=
  min (c.start + 8 + c.declared.toNat) bytes.length

/-- The chunk is there: tag, length, and events that fill all of what is between. -/
structure Stands (bytes : List UInt8) (c : Chunk) : Prop where
  head : Read.trackTag ++ bigEndian 4 c.declared.toNat <+: bytes.drop c.start
  body : TrackWritten none c.track (bytes.extract (c.start + 8) (c.stop bytes))

namespace Stands

variable {bytes : List UInt8} {c : Chunk}

theorem drop_start (h : c.Stands bytes) :
    bytes.drop c.start =
      Read.trackTag ++ bigEndian 4 c.declared.toNat ++ bytes.drop (c.start + 8) := by
  obtain ⟨rest, split⟩ := h.head
  have length : (Read.trackTag ++ bigEndian 4 c.declared.toNat).length = 8 := by
    simp [Read.trackTag]
  rw [← List.drop_drop, ← split, ← length, List.drop_left]

theorem body_inside (h : c.Stands bytes) : c.start + 8 ≤ bytes.length := by
  have length := congrArg List.length h.drop_start
  simp only [List.length_drop, List.length_append, length_bigEndian, Read.trackTag,
    List.length_cons, List.length_nil] at length
  omega

theorem length_body (h : c.Stands bytes) :
    c.start + 8 + (bytes.extract (c.start + 8) (c.stop bytes)).length = c.stop bytes := by
  have inside := h.body_inside
  simp only [List.extract_eq_take_drop, List.length_take, List.length_drop, stop]
  omega

theorem body_append (h : c.Stands bytes) :
    bytes.extract (c.start + 8) (c.stop bytes) ++ bytes.drop (c.stop bytes) =
      bytes.drop (c.start + 8) := by
  have inside := h.body_inside
  have reaches : c.stop bytes = c.start + 8 + (c.stop bytes - (c.start + 8)) := by
    rw [stop]
    omega
  have rest : bytes.drop (c.stop bytes) =
      (bytes.drop (c.start + 8)).drop (c.stop bytes - (c.start + 8)) := by
    rw [List.drop_drop, ← reaches]
  rw [List.extract_eq_take_drop, rest, List.take_append_drop]

end Stands

end Chunk

/-- Chunks between two offsets, each starting where the one before it stops. -/
inductive Laid (bytes : List UInt8) : Nat → List Chunk → Nat → Prop
  | nil {offset : Nat} : Laid bytes offset [] offset
  | cons {offset stop : Nat} {c : Chunk} {chunks : List Chunk} (here : c.start = offset)
      (stands : c.Stands bytes) (rest : Laid bytes (c.stop bytes) chunks stop) :
      Laid bytes offset (c :: chunks) stop

/-- The bytes hold the header of the file and, right behind it, its tracks. There are as many
as it declares, or fewer if the data ends with a chunk. -/
structure Layout (file : File) (bytes : List UInt8) (chunks : List Chunk) (stop : Nat) : Prop where
  header : header file <+: bytes
  laid : Laid bytes 14 chunks stop
  tracks : file.tracks = chunks.map Chunk.track
  count : chunks.length = file.trackCount.toNat ∨
    chunks.length < file.trackCount.toNat ∧ stop = bytes.length

/-- The reader stands in the data. -/
structure Reader.In (bytes : List UInt8) (r : Reader) : Prop where
  rest : r.rest = bytes.drop r.offset
  inside : r.offset ≤ bytes.length

namespace Reader.In

variable {bytes used : List UInt8} {r r' : Reader}

theorem length_rest (h : r.In bytes) : r.offset + r.rest.length = bytes.length := by
  have inside := h.inside
  rw [h.rest, List.length_drop]
  omega

theorem onward (h : r.In bytes) (split : r.rest = used ++ r'.rest)
    (moved : r'.offset = r.offset + used.length) : r'.In bytes where
  rest := by
    rw [moved, ← List.drop_drop, ← h.rest, split, List.drop_left]
  inside := by
    have length := h.length_rest
    rw [split, List.length_append] at length
    omega

/-- The bytes used are those between the two places. -/
theorem extract (h : r.In bytes) (split : r.rest = used ++ r'.rest)
    (moved : r'.offset = r.offset + used.length) :
    bytes.extract r.offset r'.offset = used := by
  rw [List.extract_eq_take_drop, ← h.rest, split, moved, Nat.add_sub_cancel_left,
    List.take_left]

end Reader.In

namespace Read

/-- A track that was read stands in the data as a chunk. -/
theorem stands_of_track {bytes : List UInt8} {r r' : Reader} {track : Track} (h : r.In bytes)
    (read : Read.track r = .ok track r') :
    ∃ declared, Chunk.Stands bytes ⟨r.offset, declared, track⟩ ∧
      r'.offset = Chunk.stop bytes ⟨r.offset, declared, track⟩ ∧ r'.In bytes := by
  obtain ⟨start, r₁, atStart, read⟩ := bind_eq_ok read
  cases atStart
  obtain ⟨tag, r₂, atTag, read⟩ := bind_eq_ok read
  obtain ⟨used, splitTag, movedTag, rfl, tagLength⟩ := uses_bytes 4 _ _ _ atTag
  by_cases isTrack : used = trackTag
  · rw [if_neg (fun differs => differs isTrack)] at read
    obtain ⟨declared, r₃, atLength, read⟩ := bind_eq_ok read
    obtain ⟨_, splitLength, movedLength, rfl⟩ := uses_word32 _ _ _ atLength
    obtain ⟨body, splitBody, movedBody, stopped, written⟩ :=
      written_of_trackEvents .none read
    have h₂ := h.onward splitTag movedTag
    have h₃ := h₂.onward splitLength movedLength
    have place : r₃.offset = r.offset + 8 := by
      rw [movedLength, movedTag, tagLength, length_bigEndian]
    have stop : r'.offset = Chunk.stop bytes ⟨r.offset, declared, track⟩ := by
      rw [stopped, h₃.length_rest, place, Chunk.stop]
    refine ⟨declared, ⟨?_, ?_⟩, stop, h₃.onward splitBody movedBody⟩
    · refine ⟨r₃.rest, ?_⟩
      rw [← h.rest, splitTag, splitLength, isTrack, List.append_assoc]
    · rw [← stop, ← place, h₃.extract splitBody movedBody]
      exact written
  · rw [if_pos isTrack] at read
    obtain ⟨_, _, failed, _⟩ := bind_eq_ok read
    cases failed

theorem laid_of_tracks {bytes : List UInt8} {count : Nat} {r r' : Reader} {tracks : List Track}
    (h : r.In bytes) (read : Read.tracks count r = .ok tracks r') :
    ∃ chunks, Laid bytes r.offset chunks r'.offset ∧ tracks = chunks.map Chunk.track ∧
      (chunks.length = count ∨ chunks.length < count ∧ r'.offset = bytes.length) := by
  induction count generalizing r tracks with
  | zero =>
    cases read
    exact ⟨[], .nil, rfl, .inl rfl⟩
  | succ count ih =>
    obtain ⟨here, r₁, atHere, read⟩ := bind_eq_ok read
    cases atHere
    by_cases done : r.rest = []
    · rw [if_pos (by simp [Reader.atEnd, done])] at read
      cases read
      have length := h.length_rest
      rw [done] at length
      exact ⟨[], .nil, rfl, .inr ⟨Nat.succ_pos count, length⟩⟩
    · rw [if_neg (by simpa [Reader.atEnd] using done)] at read
      obtain ⟨first, r₂, atFirst, read⟩ := bind_eq_ok read
      obtain ⟨others, r₃, atOthers, read⟩ := bind_eq_ok read
      cases read
      obtain ⟨declared, stands, stop, h₂⟩ := stands_of_track h atFirst
      obtain ⟨chunks, laid, rfl, total⟩ := ih h₂ atOthers
      rw [stop] at laid
      refine ⟨⟨r.offset, declared, first⟩ :: chunks, .cons rfl stands laid, rfl, ?_⟩
      simp only [List.length_cons]
      omega

theorem uses_fileTag : Uses fileTag fun tag used => used = tag := by
  intro r tag r' read
  unfold fileTag at read
  split at read
  · rename_i atTag
    cases read
    obtain ⟨used, split, moved, same, _⟩ := uses_bytes 4 _ _ _ atTag
    exact ⟨used, split, moved, same⟩
  · cases read

theorem layout_of_file {bytes : List UInt8} {file : File} {r' : Reader}
    (read : Read.file (Reader.ofBytes bytes) = .ok file r') :
    ∃ chunks stop, Layout file bytes chunks stop := by
  have h : (Reader.ofBytes bytes).In bytes := ⟨rfl, Nat.zero_le _⟩
  obtain ⟨tag, r₁, atTag, read⟩ := bind_eq_ok read
  by_cases isHeader : tag = headerTag
  · rw [if_neg (fun differs => differs isHeader)] at read
    obtain ⟨length, r₂, atLength, read⟩ := bind_eq_ok read
    by_cases isSix : length = 6
    · rw [if_neg (fun differs => differs isSix)] at read
      obtain ⟨format, r₃, atFormat, read⟩ := bind_eq_ok read
      obtain ⟨trackCount, r₄, atCount, read⟩ := bind_eq_ok read
      obtain ⟨division, r₅, atDivision, read⟩ := bind_eq_ok read
      obtain ⟨tracks, r₆, atTracks, read⟩ := bind_eq_ok read
      cases read
      obtain ⟨_, split₁, moved₁, rfl⟩ := uses_fileTag _ _ _ atTag
      obtain ⟨_, split₂, moved₂, rfl⟩ := uses_word32 _ _ _ atLength
      obtain ⟨_, split₃, moved₃, rfl⟩ := uses_word16 _ _ _ atFormat
      obtain ⟨_, split₄, moved₄, rfl⟩ := uses_word16 _ _ _ atCount
      obtain ⟨_, split₅, moved₅, rfl⟩ := uses_word16 _ _ _ atDivision
      have h₅ := ((((h.onward split₁ moved₁).onward split₂ moved₂).onward split₃ moved₃).onward
        split₄ moved₄).onward split₅ moved₅
      have place : r₅.offset = 14 := by
        simp [moved₅, moved₄, moved₃, moved₂, moved₁, isHeader, headerTag, Reader.ofBytes]
      obtain ⟨chunks, laid, same, total⟩ := laid_of_tracks h₅ atTracks
      rw [place] at laid
      refine ⟨chunks, r'.offset, ⟨r₅.rest, ?_⟩, laid, same, total⟩
      change _ = (Reader.ofBytes bytes).rest
      simp only [header, split₁, split₂, split₃, split₄, split₅, isHeader, isSix,
        List.append_assoc]
      rfl
    · rw [if_pos isSix] at read
      obtain ⟨_, _, failed, _⟩ := bind_eq_ok read
      cases failed
  · rw [if_pos isHeader] at read
    obtain ⟨_, _, failed, _⟩ := bind_eq_ok read
    cases failed

/-- The events of a track end where its chunk does, also where the data cuts the chunk off. -/
theorem track_of_stands {bytes : List UInt8} {c : Chunk} (h : c.Stands bytes) :
    Read.track ⟨c.start, bytes.drop c.start⟩ =
      .ok c.track ⟨c.stop bytes, bytes.drop (c.stop bytes)⟩ := by
  have head := h.drop_start
  have tag := @reads_tag trackTag rfl c.start
    (bigEndian 4 c.declared.toNat ++ bytes.drop (c.start + 8))
  have length := reads_word32 c.declared.toNat (c.start + 4) (bytes.drop (c.start + 8))
  have events := trackEvents_of_written h.body (c.start + 8) (bytes.drop (c.stop bytes))
  have stop : min (c.start + 4 + 4 + c.declared.toNat)
      (c.start + 4 + 4 + (bytes.drop (c.start + 8)).length) = c.stop bytes := by
    have inside := h.body_inside
    rw [List.length_drop, Chunk.stop]
    omega
  rw [h.length_body, h.body_append] at events
  rw [UInt32.ofNat_toNat, length_bigEndian] at length
  have here (rest : List UInt8) : offset ⟨c.start, rest⟩ = .ok c.start ⟨c.start, rest⟩ := rfl
  rw [head, List.append_assoc, Read.track, bind_of_ok (here _), bind_of_ok tag,
    if_neg (fun differs => differs rfl)]
  refine (bind_of_ok length _).trans ?_
  rw [stop]
  exact events

theorem tracks_of_laid {bytes : List UInt8} {offset stop count : Nat} {chunks : List Chunk}
    (laid : Laid bytes offset chunks stop)
    (total : chunks.length = count ∨ chunks.length < count ∧ stop = bytes.length) :
    Read.tracks count ⟨offset, bytes.drop offset⟩ =
      .ok (chunks.map Chunk.track) ⟨stop, bytes.drop stop⟩ := by
  induction laid generalizing count with
  | nil =>
    cases count with
    | zero => rfl
    | succ count =>
      obtain ⟨_, rfl⟩ := total.resolve_left (by simp)
      rw [List.drop_length]
      rfl
  | @cons _ stop c chunks here stands rest ih =>
    subst here
    cases count with
    | zero => simp at total
    | succ count =>
      have more : Reader.atEnd ⟨c.start, bytes.drop c.start⟩ = false := by
        rw [stands.drop_start]
        rfl
      have others := @ih count (by simpa using total)
      change (if Reader.atEnd ⟨c.start, bytes.drop c.start⟩ then pure [] else _ : Read _) _ = _
      rw [more]
      change (Read.track >>= _) _ = _
      rw [bind_of_ok (track_of_stands stands), bind_of_ok others]
      rfl

theorem file_of_layout {bytes : List UInt8} {file : File} {chunks : List Chunk} {stop : Nat}
    (layout : Layout file bytes chunks stop) :
    Read.file (Reader.ofBytes bytes) = .ok file ⟨stop, bytes.drop stop⟩ := by
  obtain ⟨rest, split⟩ := layout.header
  have ahead : bytes.drop 14 = rest := by
    have size : (header file).length = 14 := by simp [header, headerTag]
    rw [← split, ← size, List.drop_left]
  have tracks := tracks_of_laid layout.laid layout.count
  rw [ahead, ← layout.tracks] at tracks
  have format := reads_word16 file.format.toNat
  have trackCount := reads_word16 file.trackCount.toNat
  have division := reads_word16 file.division.toNat
  rw [UInt16.ofNat_toNat] at format trackCount division
  simp only [header, List.append_assoc] at split
  rw [← split, Reader.ofBytes, Read.file, bind_of_ok (reads_fileTag 0 _),
    if_neg (fun differs => differs rfl)]
  change (word32 >>= _) _ = _
  rw [bind_of_ok (reads_word32 6 _ _), if_neg (fun differs => differs rfl)]
  change (word16 >>= _) _ = _
  rw [bind_of_ok (format _ _), bind_of_ok (trackCount _ _), bind_of_ok (division _ _)]
  change (Read.tracks file.trackCount.toNat >>= _) ⟨14, rest⟩ = _
  rw [bind_of_ok tracks, split]
  rfl

end Read

/-- Decoding accepts the bytes that have a layout, and gives the file that is laid out. -/
theorem decode_eq_ok_iff {bytes : List UInt8} {file : File} :
    decode bytes = .ok file ↔ ∃ chunks stop, Layout file bytes chunks stop := by
  constructor
  · intro accepted
    unfold decode at accepted
    split at accepted
    · cases accepted
      exact Read.layout_of_file (by assumption)
    · cases accepted
  · rintro ⟨chunks, stop, layout⟩
    rw [decode, Read.file_of_layout layout]

/-- A message that is not interpreted has all its data, and a status byte that no other kind of
message has. -/
structure Uninterpreted (status : UInt8) (data : List UInt8) : Prop where
  length : data.length = dataLength status
  high : 128 ≤ status.toNat
  notVoice : status.toNat / 16 ∉ [8, 9, 11, 12]
  notOther : status ∉ [0xF0, 0xF7, 0xFF]

theorem Voice.uninterpreted {status status' : UInt8} {data data' : List UInt8}
    (v : Voice status data (.unknown status' data')) : Uninterpreted status' data' := by
  have length := v.dataLength_eq.symm
  obtain ⟨low, high⟩ := v.status_range
  have notOther : status ∉ [0xF0, 0xF7, 0xFF] := by
    simp only [List.mem_cons, List.not_mem_nil, or_false, not_or]
    refine ⟨?_, ?_, ?_⟩
    all_goals
      rintro rfl
      exact absurd high (by decide)
  cases v with
  | keyPressure h => exact ⟨length, low, by rw [family_of_channel 0xA0 10 h rfl]; decide, notOther⟩
  | channelPressure h =>
    exact ⟨length, low, by rw [family_of_channel 0xD0 13 h rfl]; decide, notOther⟩
  | pitchBend h => exact ⟨length, low, by rw [family_of_channel 0xE0 14 h rfl]; decide, notOther⟩

theorem System.uninterpreted {status : UInt8} {data : List UInt8} (s : System status data) :
    Uninterpreted status data := by
  obtain ⟨low, high, notEscape⟩ := s.status_range
  have family : status.toNat / 16 = 15 := by omega
  refine ⟨s.dataLength_eq.symm, by omega, by rw [family]; decide, ?_⟩
  simp only [List.mem_cons, List.not_mem_nil, or_false, not_or]
  refine ⟨?_, notEscape, ?_⟩
  · rintro rfl
    exact absurd low (by decide)
  · rintro rfl
    exact absurd high (by decide)

theorem MessageWritten.uninterpreted {running next : Option UInt8} {status : UInt8}
    {data bytes : List UInt8} (w : MessageWritten running (.unknown status data) bytes next) :
    Uninterpreted status data := by
  cases w with
  | voice means => exact means.uninterpreted
  | runningVoice means => exact means.uninterpreted
  | system means => exact means.uninterpreted

theorem TrackWritten.message_written {running : Option UInt8} {track : Track} {body : List UInt8}
    (w : TrackWritten running track body) {event : TrackEvent} (h : event ∈ track) :
    ∃ running bytes next, MessageWritten running event.message bytes next := by
  induction w with
  | nil => cases h
  | cons delta first _ ih =>
    rcases List.mem_cons.mp h with rfl | later
    · exact ⟨_, _, _, first⟩
    · exact ih later

theorem Laid.stands {bytes : List UInt8} {offset stop : Nat} {chunks : List Chunk}
    (laid : Laid bytes offset chunks stop) {c : Chunk} (h : c ∈ chunks) : c.Stands bytes := by
  induction laid with
  | nil => cases h
  | cons _ stands _ ih =>
    rcases List.mem_cons.mp h with rfl | later
    · exact stands
    · exact ih later

/-- Whatever bytes are accepted as a file, every one of them up to the end of the last track is
the header's or spells out an event, and nothing is made up for an event that is not
interpreted. -/
theorem every_byte_accounted {bytes : List UInt8} {file : File}
    (accepted : decode bytes = .ok file) :
    (∃ chunks stop, Layout file bytes chunks stop) ∧
      ∀ track ∈ file.tracks, ∀ event ∈ track, ∀ status data,
        event.message = .unknown status data → Uninterpreted status data := by
  obtain ⟨chunks, stop, layout⟩ := decode_eq_ok_iff.mp accepted
  refine ⟨⟨chunks, stop, layout⟩, ?_⟩
  intro track inFile event inTrack status data isUnknown
  rw [layout.tracks] at inFile
  obtain ⟨c, inChunks, rfl⟩ := List.mem_map.mp inFile
  obtain ⟨_, _, _, w⟩ := (layout.laid.stands inChunks).body.message_written inTrack
  rw [isUnknown] at w
  exact w.uninterpreted

/-- Two tracks are declared and one is there, which says that it is longer than the data. -/
def cutOffBytes : List UInt8 :=
  [0x4D, 0x54, 0x68, 0x64, 0, 0, 0, 6, 0, 1, 0, 2, 0, 96,
    0x4D, 0x54, 0x72, 0x6B, 0, 0, 1, 0,
    0, 0x90, 60, 100,
    0x81, 0, 0xE0, 0, 0x40,
    5, 1, 0x41]

def cutOffFile : File :=
  ⟨1, 2, 96, [[⟨0, .noteOn 0 60 100⟩, ⟨128, .unknown 0xE0 [0, 0x40]⟩,
    ⟨5, .unknown 0xE0 [1, 0x41]⟩]]⟩

theorem cutOffBytes_accounted :
    decode cutOffBytes = .ok cutOffFile ∧
      (∃ chunks stop, Layout cutOffFile cutOffBytes chunks stop) ∧
        Uninterpreted 0xE0 [1, 0x41] := by
  have accepted : decode cutOffBytes = .ok cutOffFile := by cbv
  have accounted := every_byte_accounted accepted
  exact ⟨accepted, accounted.1, accounted.2 _ (.head _) ⟨5, .unknown 0xE0 [1, 0x41]⟩
    (.tail _ (.tail _ (.head _))) _ _ rfl⟩

end KeyScore.Midi
