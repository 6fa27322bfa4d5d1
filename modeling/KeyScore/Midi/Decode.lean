import KeyScore.Midi.File
import KeyScore.Midi.Reader

/-!
# Decoding MIDI files

A header chunk says how many track chunks follow; fewer may, if the data ends with one. A
track chunk is read up to its declared end, or up to the end of the data if that comes
first, and no event may reach across. A channel message may leave its status byte out if
it is that of the latest channel message of the track; meta events, system exclusive and
system common messages in between do not matter.
-/

namespace KeyScore.Midi

/-- How many data bytes follow a status byte that gives no length. -/
def dataLength (status : UInt8) : Nat :=
  match status.toNat / 16 with
  | 8 | 9 | 10 | 11 | 14 => 2
  | 12 | 13 => 1
  | _ => if status = 0xF2 then 2 else if status = 0xF1 ∨ status = 0xF3 then 1 else 0

/-- The message of a status byte and its data. A note on without velocity is a note off. -/
def Message.ofStatus (status : UInt8) (data : List UInt8) : Message :=
  let channel := status % 16
  match status.toNat / 16, data with
  | 8, [note, velocity] => .noteOff channel note velocity
  | 9, [note, velocity] =>
    if velocity = 0 then .noteOff channel note velocity else .noteOn channel note velocity
  | 11, [controller, value] => .controlChange channel controller value
  | 12, [program] => .programChange channel program
  | _, _ => .unknown status data

namespace Read

/-- The message of a status byte of which some data has been read, and the running status
after it. -/
def messageOf (running : Option UInt8) (status : UInt8) (data : List UInt8) :
    Read (Message × Option UInt8) :=
  if status = 0xFF then do
    let kind ← byte
    let payload ← quantity >>= bytes
    return (.metaEvent kind payload, running)
  else if status = 0xF0 ∨ status = 0xF7 then do
    let payload ← quantity >>= bytes
    return (.sysEx payload, running)
  else do
    let more ← eachByte (dataLength status - data.length)
    return (.ofStatus status (data ++ more), if status < 0xF0 then some status else running)

/-- A message: one that starts with a data byte takes the running status. -/
def message (running : Option UInt8) : Read (Message × Option UInt8) := do
  let first ← byte
  if 128 ≤ first then messageOf running first []
  else match running with
    | some status => messageOf running status [first]
    | none => do
      let next ← offset
      throw (.strayData first (next - 1))

def trackEvent (running : Option UInt8) : Read (TrackEvent × Option UInt8) := do
  let delta ← quantity
  let (message, running) ← message running
  return (⟨delta, message⟩, running)

theorem advances_messageOf (running : Option UInt8) (status : UInt8) (data : List UInt8) :
    Advances (messageOf running status data) := by
  have payload : Advances (quantity >>= bytes) :=
    consumes_quantity.advances.bind fun _ => advances_bytes _
  unfold messageOf
  split
  · exact consumes_byte.advances.bind fun _ => payload.bind fun _ => advances_pure _
  · split
    · exact payload.bind fun _ => advances_pure _
    · exact (advances_eachByte _).bind fun _ => advances_pure _

theorem advances_message (running : Option UInt8) : Advances (message running) := by
  refine consumes_byte.advances.bind fun first => ?_
  split
  · exact advances_messageOf _ _ _
  · split
    · exact advances_messageOf _ _ _
    · exact advances_offset.bind fun _ => advances_throw _

theorem consumes_trackEvent (running : Option UInt8) : Consumes (trackEvent running) :=
  consumes_quantity.bind fun _ => (advances_message _).bind fun _ => advances_pure _

/-- The events of a track up to the offset where its chunk stops. -/
def trackEvents (stop : Nat) (running : Option UInt8) (r : Reader) :
    EStateM.Result Fault Reader Track :=
  if r.offset < stop then
    match _h : trackEvent running r with
    | .error fault r => .error fault r
    | .ok (event, running) r =>
      match trackEvents stop running r with
      | .error fault r => .error fault r
      | .ok events r => .ok (event :: events) r
  else if stop < r.offset then .error (.overrun stop) r
  else .ok [] r
termination_by r.rest.length
decreasing_by exact consumes_trackEvent _ _ _ _ _h

def headerTag : List UInt8 := [0x4D, 0x54, 0x68, 0x64]
def trackTag : List UInt8 := [0x4D, 0x54, 0x72, 0x6B]

/-- A track chunk. -/
def track : Read Track := do
  let start ← offset
  let tag ← bytes 4
  if tag ≠ trackTag then throw (.noTrack start)
  let length ← word32
  fun r => trackEvents (min (r.offset + length.toNat) (r.offset + r.rest.length)) none r

/-- Up to so many track chunks, as long as there is data. -/
def tracks : Nat → Read (List Track)
  | 0 => pure []
  | count + 1 => do
    if (← get).atEnd then return []
    let first ← track
    let others ← tracks count
    return first :: others

/-- The tag that starts a file. -/
def fileTag : Read (List UInt8) := fun r =>
  match bytes 4 r with
  | .ok tag r => .ok tag r
  | .error _ r => .error .noHeader r

/-- A whole file, from where the reader stands. -/
def file : Read File := do
  let tag ← fileTag
  if tag ≠ headerTag then throw .wrongHeaderTag
  let length ← word32
  if length ≠ 6 then throw (.headerLength length)
  let format ← word16
  let trackCount ← word16
  let division ← word16
  let tracks ← tracks trackCount.toNat
  return ⟨format, trackCount, division, tracks⟩

end Read

/-- The file that the bytes hold. What follows the last declared track is not looked at. -/
def decode (bytes : List UInt8) : Except Fault File :=
  match Read.file (Reader.ofBytes bytes) with
  | .ok file _ => .ok file
  | .error fault _ => .error fault

end KeyScore.Midi
