import KeyScore.Proofs.Midi.Reads
import KeyScore.Proofs.Midi.Status

/-!
# Decoding what was written

However a file is written, decoding gives it back: the reads agree with the tables of the
format byte by byte, and the running status that a track carries along is the one its
messages were written under.
-/

namespace KeyScore.Midi

namespace Read

theorem reads_payload (length : Quantity) {payload : List UInt8}
    (fits : length.value = payload.length) :
    Reads (quantity >>= bytes) (length.bytes ++ payload) payload := by
  have counted := reads_quantity length
  rw [fits] at counted
  exact counted.bind (reads_bytes payload)

/-- A message of fixed length of which some data has been read. -/
theorem reads_messageOf_fixed (running : Option UInt8) {status : UInt8} (data : List UInt8)
    {more : List UInt8} (length : dataLength status = (data ++ more).length)
    (notMeta : status ≠ 0xFF) (notSysEx : ¬(status = 0xF0 ∨ status = 0xF7)) :
    Reads (messageOf running status data) more
      (.ofStatus status (data ++ more), if status < 0xF0 then some status else running) := by
  have missing : dataLength status - data.length = more.length := by
    rw [length, List.length_append]
    omega
  rw [messageOf, if_neg notMeta, if_neg notSysEx, missing]
  exact (reads_eachByte more).map fun more =>
    (Message.ofStatus status (data ++ more), if status < 0xF0 then some status else running)

theorem reads_messageOf_voice (running : Option UInt8) {status : UInt8} {data more : List UInt8}
    {message : Message} (v : Voice status (data ++ more) message) :
    Reads (messageOf running status data) more (message, some status) := by
  obtain ⟨low, high⟩ := v.status_range
  have notMeta : status ≠ 0xFF := by
    rintro rfl
    exact absurd high (by decide)
  have notSysEx : ¬(status = 0xF0 ∨ status = 0xF7) := by
    rintro (rfl | rfl)
    · exact absurd high (by decide)
    · exact absurd high (by decide)
  have read := reads_messageOf_fixed running data v.dataLength_eq notMeta notSysEx
  rw [v.ofStatus_eq, if_pos (UInt8.lt_iff_toNat_lt.mpr high)] at read
  exact read

theorem reads_messageOf_system (running : Option UInt8) {status : UInt8} {data : List UInt8}
    (s : System status data) :
    Reads (messageOf running status []) data (.unknown status data, running) := by
  obtain ⟨low, high, notEscape⟩ := s.status_range
  have notMeta : status ≠ 0xFF := by
    rintro rfl
    exact absurd high (by decide)
  have notSysEx : ¬(status = 0xF0 ∨ status = 0xF7) := by
    rintro (rfl | rfl)
    · exact absurd low (by decide)
    · exact notEscape rfl
  have notVoice : ¬status < 0xF0 := by
    intro below
    have small : status.toNat < 240 := UInt8.lt_iff_toNat_lt.mp below
    omega
  have read := reads_messageOf_fixed running [] s.dataLength_eq notMeta notSysEx
  rw [List.nil_append, s.ofStatus_eq, if_neg notVoice] at read
  exact read

theorem reads_message {running next : Option UInt8} {message : Message} {bs : List UInt8}
    (w : MessageWritten running message bs next) :
    Reads (Read.message running) bs (message, next) := by
  cases w with
  | @voice _ status data _ v =>
    have high : 128 ≤ status := UInt8.le_iff_toNat_le.mpr v.status_range.1
    apply reads_byte_cons
    rw [if_pos high]
    exact reads_messageOf_voice running v
  | @runningVoice status _ _ v plain =>
    -- The first data byte is read in the place of the status byte.
    cases bs with
    | nil => exact absurd rfl v.data_ne_nil
    | cons first more =>
      have low : first < 128 := plain first rfl
      apply reads_byte_cons
      rw [if_neg (UInt8.not_le.mpr low)]
      exact reads_messageOf_voice (some status) v
  | @system _ status data s =>
    have high : 128 ≤ status := by
      have above : 240 < status.toNat := s.status_range.1
      exact UInt8.le_iff_toNat_le.mpr (Nat.le_trans (by decide) above)
    apply reads_byte_cons
    rw [if_pos high]
    exact reads_messageOf_system running s
  | @metaEvent _ kind payload length fits =>
    apply reads_byte_cons
    rw [if_pos (by decide), messageOf, if_pos rfl]
    apply reads_byte_cons
    exact (reads_payload length fits).map fun payload => (Message.metaEvent kind payload, running)
  | @sysEx _ status payload length h fits =>
    have high : 128 ≤ status := by
      rcases h with rfl | rfl
      · decide
      · decide
    have notMeta : status ≠ 0xFF := by
      rcases h with rfl | rfl
      · decide
      · decide
    apply reads_byte_cons
    rw [if_pos high, messageOf, if_neg notMeta, if_pos h]
    exact (reads_payload length fits).map fun payload => (Message.sysEx payload, running)

theorem reads_trackEvent {running next : Option UInt8} {message : Message} {bs : List UInt8}
    (delta : Quantity) (w : MessageWritten running message bs next) :
    Reads (trackEvent running) (delta.bytes ++ bs) (⟨delta.value, message⟩, next) :=
  (reads_quantity delta).bind
    ((reads_message w).map fun read => (TrackEvent.mk delta.value read.1, read.2))

theorem trackEvents_of_ok {stop : Nat} {running next : Option UInt8} {r r' : Reader}
    {event : TrackEvent} (inside : r.offset < stop)
    (read : trackEvent running r = .ok (event, next) r') {events : Track} {r'' : Reader}
    (others : trackEvents stop next r' = .ok events r'') :
    trackEvents stop running r = .ok (event :: events) r'' := by
  rw [trackEvents, if_pos inside]
  split
  · rename_i failed
    rw [read] at failed
    cases failed
  · rename_i done
    rw [read] at done
    cases done
    rw [others]

/-- The events of a track end where its chunk does. -/
theorem trackEvents_of_written {running : Option UInt8} {track : Track} {body : List UInt8}
    (w : TrackWritten running track body) (offset : Nat) (rest : List UInt8) :
    trackEvents (offset + body.length) running ⟨offset, body ++ rest⟩ =
      .ok track ⟨offset + body.length, rest⟩ := by
  induction w generalizing offset with
  | nil =>
    rw [trackEvents]
    simp
  | @cons running next message track bytes others delta first _ ih =>
    have read := reads_trackEvent delta first offset (others ++ rest)
    have onward := ih (offset + (delta.bytes ++ bytes).length)
    have nonempty : 0 < delta.bytes.length := by simp [Quantity.bytes]
    have regroup : delta.bytes ++ (bytes ++ others) ++ rest =
        delta.bytes ++ bytes ++ (others ++ rest) := by
      simp only [List.append_assoc]
    have total : offset + (delta.bytes ++ (bytes ++ others)).length =
        offset + (delta.bytes ++ bytes).length + others.length := by
      simp only [List.length_append]
      omega
    rw [regroup, total]
    apply trackEvents_of_ok _ read onward
    simp only [List.length_append]
    omega

theorem reads_offset_bind {α : Type} {q : Nat → Read α} {bs : List UInt8} {a : α}
    (hq : ∀ offset, Reads (q offset) bs a) : Reads (Read.offset >>= q) bs a := by
  intro offset rest
  exact hq offset offset rest

theorem reads_tag {tag : List UInt8} (h : tag.length = 4) : Reads (bytes 4) tag tag := by
  have read := reads_bytes tag
  rw [h] at read
  exact read

/-- A chunk that is there in full ends at its declared length. -/
theorem reads_body {track : Track} {body : List UInt8} (w : TrackWritten none track body) :
    Reads (fun r => trackEvents (min (r.offset + body.length) (r.offset + r.rest.length)) none r)
      body track := by
  intro offset rest
  have all : min (offset + body.length) (offset + (body ++ rest).length) =
      offset + body.length := by
    rw [List.length_append]
    omega
  change trackEvents (min _ _) none _ = _
  rw [all]
  exact trackEvents_of_written w offset rest

theorem reads_track {track : Track} {body : List UInt8} (w : TrackWritten none track body)
    (fits : body.length < UInt32.size) : Reads Read.track (chunk body) track := by
  have declared : (UInt32.ofNat body.length).toNat = body.length :=
    UInt32.toNat_ofNat_of_lt' fits
  have events := reads_body w
  rw [← declared] at events
  apply reads_offset_bind
  intro start
  refine (reads_tag rfl).bind ?_
  rw [if_neg (fun differs => differs rfl)]
  exact (reads_word32 body.length).bind events

theorem reads_unless_atEnd {α : Type} {p q : Read α} {bs : List UInt8} {a : α}
    (hp : Reads p bs a) (more : bs ≠ []) : Reads (do if (← get).atEnd then q else p) bs a := by
  intro offset rest
  have ahead : Reader.atEnd ⟨offset, bs ++ rest⟩ = false := by
    cases bs with
    | nil => exact absurd rfl more
    | cons => rfl
  change (if Reader.atEnd ⟨offset, bs ++ rest⟩ then q else p) _ = _
  rw [ahead]
  exact hp offset rest

theorem reads_tracks {tracks : List Track} {chunks : List UInt8} (w : TracksWritten tracks chunks) :
    Reads (Read.tracks tracks.length) chunks tracks := by
  induction w with
  | nil => exact Reads.pure []
  | @cons track tracks body chunks first fits _ ih =>
    apply reads_unless_atEnd
    · exact (reads_track first fits).bind (ih.map (track :: ·))
    · simp [chunk, trackTag]

theorem reads_fileTag : Reads fileTag headerTag headerTag := by
  intro offset rest
  rfl

theorem reads_file {file : File} {bs : List UInt8} (w : Written file bs) :
    Reads Read.file bs file := by
  obtain ⟨chunks, written, rfl⟩ := w.bytes_eq
  have tracks := reads_tracks written
  rw [← w.declared] at tracks
  have format := reads_word16 file.format.toNat
  have trackCount := reads_word16 file.trackCount.toNat
  have division := reads_word16 file.division.toNat
  rw [UInt16.ofNat_toNat] at format trackCount division
  have fields : Reads (do
      let format ← word16
      let trackCount ← word16
      let division ← word16
      let tracks ← Read.tracks trackCount.toNat
      return File.mk format trackCount division tracks) _ file :=
    format.bind (trackCount.bind (division.bind (tracks.map fun tracks =>
      File.mk file.format file.trackCount file.division tracks)))
  simp only [header, List.append_assoc]
  refine reads_fileTag.bind ?_
  rw [if_neg (fun differs => differs rfl)]
  refine (reads_word32 6).bind ?_
  rw [if_neg (fun differs => differs rfl)]
  exact fields

end Read

/-- A file that was written in any of the ways there are is decoded to itself. -/
theorem decode_written {file : File} {bytes : List UInt8} (w : Written file bytes) :
    decode bytes = .ok file := by
  have read := Read.reads_file w 0 []
  rw [List.append_nil] at read
  rw [decode, Reader.ofBytes, read]

def runningFile : File :=
  ⟨1, 1, 96, [[⟨0, .noteOn 0 60 100⟩, ⟨128, .metaEvent 1 [0x41]⟩, ⟨0, .unknown 0xF2 [1, 2]⟩,
    ⟨96, .noteOff 0 60 0⟩]]⟩

/-- Two quantities are padded, and the note on without velocity has no status byte although a
text and a song position come in between. -/
def runningBytes : List UInt8 :=
  [0x4D, 0x54, 0x68, 0x64, 0, 0, 0, 6, 0, 1, 0, 1, 0, 96,
    0x4D, 0x54, 0x72, 0x6B, 0, 0, 0, 19,
    0, 0x90, 60, 100,
    0x81, 0, 0xFF, 1, 0x80, 1, 0x41,
    0x80, 0, 0xF2, 1, 2,
    96, 60, 0]

theorem decode_runningBytes :
    Written runningFile runningBytes ∧ decode runningBytes = .ok runningFile := by
  have noteOn : MessageWritten none (.noteOn 0 60 100) [0x90, 60, 100] (some 0x90) :=
    .voice (@Voice.noteOn 0 60 100 (by decide) (by decide))
  have text : MessageWritten (some 0x90) (.metaEvent 1 [0x41]) [0xFF, 1, 0x80, 1, 0x41]
      (some 0x90) :=
    .metaEvent ⟨[0x80], 1, by simp, by decide, by decide⟩ rfl
  have position : MessageWritten (some 0x90) (.unknown 0xF2 [1, 2]) [0xF2, 1, 2] (some 0x90) :=
    .system (.songPosition 1 2)
  have noteOff : MessageWritten (some 0x90) (.noteOff 0 60 0) [60, 0] (some 0x90) :=
    .runningVoice (@Voice.silentNoteOn 0 60 (by decide)) (by simp)
  have track := TrackWritten.cons ⟨[], 0, by simp, by decide, by decide⟩ noteOn
    (.cons ⟨[0x81], 0, by simp, by decide, by decide⟩ text
      (.cons ⟨[0x80], 0, by simp, by decide, by decide⟩ position
        (.cons ⟨[], 96, by simp, by decide, by decide⟩ noteOff .nil)))
  have written : Written runningFile runningBytes :=
    ⟨rfl, _, TracksWritten.cons track (by decide) .nil, rfl⟩
  exact ⟨written, decode_written written⟩

end KeyScore.Midi
