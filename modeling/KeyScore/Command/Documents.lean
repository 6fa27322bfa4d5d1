import KeyScore.Json.Value
import KeyScore.Midi.File
import KeyScore.Notation.Compile

/-!
# Documents that the programs print

A compiled score with its settings, and a MIDI file, as JSON values. Fields stand in the
order in which they are printed.
-/

namespace KeyScore.Command

open Json (record list text whole)

def ofChar (c : Char) : Json := text (String.ofList [c])

def ofEvent : Event → Json
  | .press key units => record [
      ("kind", text "press"), ("key", ofChar key), ("units", whole units.toNat)]
  | .chord keys units => record [
      ("kind", text "chord"), ("keys", list (keys.map ofChar)), ("units", whole units.toNat)]
  | .rest units => record [("kind", text "rest"), ("units", whole units.toNat)]

def ofSettings (s : Settings) : Json := record [
  ("tempoBpm", .real s.bpm),
  ("noteUnitDenominator", whole s.unit.toNat),
  ("holdFraction", .real s.hold),
  ("restWeightPipe", whole s.pipeWeight.toNat),
  ("restWeightSpace", whole s.spaceWeight.toNat),
  ("treatSpaceAsRest", .bool s.spaceRests),
  ("unitDuration", .real s.secondsPerUnit)]

/-- A score, with the time it takes. -/
def ofScore (events : List Event) (s : Settings) : Json := record [
  ("config", ofSettings s),
  ("expectedDurationSeconds", .real (s.expectedSeconds events)),
  ("events", list (events.map ofEvent))]

def ofByte (b : UInt8) : Json := whole b.toNat

def ofData (data : List UInt8) : String × Json := ("data", list (data.map ofByte))

/-- The fields of a message, the one that names its type first. -/
def messageFields : Midi.Message → List (String × Json)
  | .noteOn channel note velocity => [("type", text "note_on"),
      ("channel", ofByte channel), ("note", ofByte note), ("velocity", ofByte velocity)]
  | .noteOff channel note velocity => [("type", text "note_off"),
      ("channel", ofByte channel), ("note", ofByte note), ("velocity", ofByte velocity)]
  | .controlChange channel controller value => [("type", text "control_change"),
      ("channel", ofByte channel), ("controller", ofByte controller), ("value", ofByte value)]
  | .programChange channel program => [("type", text "program_change"),
      ("channel", ofByte channel), ("program", ofByte program)]
  | .metaEvent kind data => [("type", text "meta"), ("meta_type", ofByte kind), ofData data]
  | .sysEx data => [("type", text "sys_ex"), ofData data]
  | .unknown status data => [("type", text "unknown"), ("status", ofByte status), ofData data]

def ofTrack (track : Midi.Track) : Json := record [
  ("events", list (track.map fun event =>
    record (("delta", whole event.delta) :: messageFields event.message)))]

def ofFile (file : Midi.File) : Json := record [
  ("format", whole file.format.toNat),
  ("track_count", whole file.trackCount.toNat),
  ("division", whole file.division.toNat),
  ("tracks", list (file.tracks.map ofTrack))]

end KeyScore.Command
