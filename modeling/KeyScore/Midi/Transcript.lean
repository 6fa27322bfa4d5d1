import KeyScore.Keymap.Basic
import KeyScore.Midi.File

/-!
# Notation of a MIDI file

The first track is written as notation in sixteenths. Its tempo changes come first, one
line each, and then the keys of its notes, a pipe standing for each sixteenth between one
note and the next, up to sixteen of them. Notes without a key, note offs and the lengths of
notes are left out; other tracks are not looked at.
-/

namespace KeyScore.Midi

/-- The most pipes between two notes. -/
def maxPipes : Nat := 16

/-- The messages of a track with their absolute times, from a time on. -/
def timed (time : Nat) : Track → List (Nat × Message)
  | [] => []
  | event :: track =>
    (time + event.delta, event.message) :: timed (time + event.delta) track

/-- The key that a message strikes. -/
def Message.key? (keymap : Keymap) : Message → Option Char
  | noteOn _ note velocity => if velocity = 0 then none else keymap.get? note
  | _ => none

/-- The keys struck in a track and when; times never go down. -/
def strokes (keymap : Keymap) (track : Track) : List (Nat × Char) :=
  (timed 0 track).filterMap fun (time, message) => (message.key? keymap).map (time, ·)

/-- Keys with pipes before each for the whole units since the one before. -/
def spell (ticksPerUnit : Nat) (last : Nat) : List (Nat × Char) → List Char
  | [] => []
  | (time, key) :: strokes =>
    List.replicate (min maxPipes ((time - last) / ticksPerUnit)) '|' ++
      key :: spell ticksPerUnit time strokes

def tempoLine (bpm : Nat) : List Char := "@bpm ".toList ++ Nat.toDigits 10 bpm ++ ['\n']

/-- A sixteenth in ticks, at least one. -/
def File.ticksPerUnit (file : File) : Nat := max 1 (file.ticksPerQuarter / 4)

/-- The notation of a file's first track. -/
def transcribe (keymap : Keymap) (file : File) : String :=
  let track := file.tracks.headD []
  let tempos := track.filterMap fun event => event.message.bpm?
  String.ofList ("@unit 16\n".toList ++ tempos.flatMap tempoLine ++
    spell file.ticksPerUnit 0 (strokes keymap track))

end KeyScore.Midi
