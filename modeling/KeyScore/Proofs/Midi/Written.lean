import KeyScore.Midi.Decode

/-!
# How MIDI files are written

The same file can be written in many ways: a quantity may be padded with empty groups, and a
channel message may leave out its status byte where that is the running status. `Written`
says which bytes write which file. It is stated without a reader, from the tables of the
format.
-/

namespace KeyScore.Midi

/-- A variable-length quantity as it is written: all its bytes but the last have their high
bit set, and there are four at most. -/
structure Quantity where
  front : List UInt8
  last : UInt8
  goes_on : ∀ b ∈ front, 128 ≤ b
  ends : last < 128
  short : front.length ≤ 3

namespace Quantity

def bytes (q : Quantity) : List UInt8 := q.front ++ [q.last]

/-- Seven bits a byte, the highest first. -/
def value (q : Quantity) : Nat := q.bytes.foldl (fun n b => n * 128 + b.toNat % 128) 0

end Quantity

/-- A number in so many bytes, the highest first. -/
def bigEndian : Nat → Nat → List UInt8
  | 0, _ => []
  | count + 1, n => bigEndian count (n / 256) ++ [UInt8.ofNat n]

@[simp]
theorem length_bigEndian (count n : Nat) : (bigEndian count n).length = count := by
  induction count generalizing n with
  | zero => rfl
  | succ count ih => simp [bigEndian, ih]

/-- The channel messages: status byte, data bytes and what they say. A note on without
velocity says note off. -/
inductive Voice : UInt8 → List UInt8 → Message → Prop
  | noteOff {channel note velocity : UInt8} (h : channel < 16) :
      Voice (0x80 + channel) [note, velocity] (.noteOff channel note velocity)
  | noteOn {channel note velocity : UInt8} (h : channel < 16) (sounds : velocity ≠ 0) :
      Voice (0x90 + channel) [note, velocity] (.noteOn channel note velocity)
  | silentNoteOn {channel note : UInt8} (h : channel < 16) :
      Voice (0x90 + channel) [note, 0] (.noteOff channel note 0)
  | keyPressure {channel note pressure : UInt8} (h : channel < 16) :
      Voice (0xA0 + channel) [note, pressure] (.unknown (0xA0 + channel) [note, pressure])
  | controlChange {channel controller value : UInt8} (h : channel < 16) :
      Voice (0xB0 + channel) [controller, value] (.controlChange channel controller value)
  | programChange {channel program : UInt8} (h : channel < 16) :
      Voice (0xC0 + channel) [program] (.programChange channel program)
  | channelPressure {channel pressure : UInt8} (h : channel < 16) :
      Voice (0xD0 + channel) [pressure] (.unknown (0xD0 + channel) [pressure])
  | pitchBend {channel low high : UInt8} (h : channel < 16) :
      Voice (0xE0 + channel) [low, high] (.unknown (0xE0 + channel) [low, high])

/-- The system messages of fixed length: status byte and data bytes. Those that the format
leaves undefined have no data, like the real-time ones. -/
inductive System : UInt8 → List UInt8 → Prop
  | quarterFrame (part : UInt8) : System 0xF1 [part]
  | songPosition (low high : UInt8) : System 0xF2 [low, high]
  | songSelect (song : UInt8) : System 0xF3 [song]
  | bare {status : UInt8} (low : 0xF4 ≤ status) (high : status ≤ 0xFE)
      (notEscape : status ≠ 0xF7) : System status []

/-- The bytes of a message, between the running status before it and the one after it. -/
inductive MessageWritten : Option UInt8 → Message → List UInt8 → Option UInt8 → Prop
  | voice {running : Option UInt8} {status : UInt8} {data : List UInt8} {message : Message}
      (means : Voice status data message) :
      MessageWritten running message (status :: data) (some status)
  /-- Without the status byte the first byte has to be seen to be data. -/
  | runningVoice {status : UInt8} {data : List UInt8} {message : Message}
      (means : Voice status data message) (plain : ∀ b ∈ data.head?, b < 128) :
      MessageWritten (some status) message data (some status)
  | system {running : Option UInt8} {status : UInt8} {data : List UInt8}
      (means : System status data) :
      MessageWritten running (.unknown status data) (status :: data) running
  | metaEvent {running : Option UInt8} {kind : UInt8} {payload : List UInt8} (length : Quantity)
      (fits : length.value = payload.length) :
      MessageWritten running (.metaEvent kind payload)
        (0xFF :: kind :: (length.bytes ++ payload)) running
  | sysEx {running : Option UInt8} {status : UInt8} {payload : List UInt8} (length : Quantity)
      (h : status = 0xF0 ∨ status = 0xF7) (fits : length.value = payload.length) :
      MessageWritten running (.sysEx payload) (status :: (length.bytes ++ payload)) running

/-- The bytes of the events of a track, after a running status. -/
inductive TrackWritten : Option UInt8 → Track → List UInt8 → Prop
  | nil {running : Option UInt8} : TrackWritten running [] []
  | cons {running next : Option UInt8} {message : Message} {track : Track}
      {bytes others : List UInt8} (delta : Quantity)
      (first : MessageWritten running message bytes next)
      (rest : TrackWritten next track others) :
      TrackWritten running (⟨delta.value, message⟩ :: track) (delta.bytes ++ (bytes ++ others))

/-- A track chunk with this body. -/
def chunk (body : List UInt8) : List UInt8 := Read.trackTag ++ (bigEndian 4 body.length ++ body)

/-- Track chunks one after the other. No running status reaches into a chunk. -/
inductive TracksWritten : List Track → List UInt8 → Prop
  | nil : TracksWritten [] []
  | cons {track : Track} {tracks : List Track} {body chunks : List UInt8}
      (first : TrackWritten none track body) (fits : body.length < UInt32.size)
      (rest : TracksWritten tracks chunks) :
      TracksWritten (track :: tracks) (chunk body ++ chunks)

/-- The header chunk. -/
def header (file : File) : List UInt8 :=
  Read.headerTag ++ (bigEndian 4 6 ++ (bigEndian 2 file.format.toNat ++
    (bigEndian 2 file.trackCount.toNat ++ bigEndian 2 file.division.toNat)))

/-- The bytes of a file that has as many tracks as it declares. -/
structure Written (file : File) (bytes : List UInt8) : Prop where
  declared : file.trackCount.toNat = file.tracks.length
  bytes_eq : ∃ chunks, TracksWritten file.tracks chunks ∧ bytes = header file ++ chunks

end KeyScore.Midi
