import KeyScore.Number.Rounding

/-!
# MIDI files

A file is a header and a list of tracks; a track is a list of messages, each with the ticks
since the one before. Channel messages that the notation has no use for are kept as their
status and data bytes.
-/

namespace KeyScore.Midi

inductive Message where
  | noteOn (channel note velocity : UInt8)
  | noteOff (channel note velocity : UInt8)
  | controlChange (channel controller value : UInt8)
  | programChange (channel program : UInt8)
  | metaEvent (kind : UInt8) (data : List UInt8)
  | sysEx (data : List UInt8)
  /-- Read over and not interpreted, such as pitch bend or system common messages. -/
  | unknown (status : UInt8) (data : List UInt8)
deriving DecidableEq, Repr

namespace Message

/-- The kind of meta event that sets the tempo. -/
def tempoKind : UInt8 := 0x51

/-- Microseconds in a quarter note, for a tempo event of the right length. -/
def quarterLength? : Message → Option Nat
  | metaEvent kind [a, b, c] =>
    if kind = tempoKind then some ((a.toNat * 256 + b.toNat) * 256 + c.toNat) else none
  | _ => none

/-- Quarter notes in a minute, to the nearest whole number, halves up. A length of zero
gives no tempo. -/
def bpm? (m : Message) : Option Nat :=
  m.quarterLength?.bind fun length =>
    if length = 0 then none else some (Number.roundHalfUp 60000000 length)

end Message

structure TrackEvent where
  /-- Ticks since the event before it in the track. -/
  delta : Nat
  message : Message
deriving DecidableEq, Repr

abbrev Track := List TrackEvent

structure File where
  format : UInt16
  /-- The number of tracks that the header declares. -/
  trackCount : UInt16
  /-- The time division as it stands in the header. -/
  division : UInt16
  tracks : List Track
deriving DecidableEq, Repr

namespace File

/-- Ticks in a quarter note. Divisions in frames of film time are not interpreted. -/
def ticksPerQuarter (file : File) : Nat := file.division.toNat

end File

end KeyScore.Midi
