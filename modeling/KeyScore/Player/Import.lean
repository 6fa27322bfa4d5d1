import KeyScore.Keymap.Document
import KeyScore.Player.Call

/-!
# Importing files

Files are known by what reading them gives: their bytes, or nothing. A key map file is
read before the MIDI file, so of two bad files it is the one that is reported.
-/

namespace KeyScore

/-- The text that bytes hold, if they are valid UTF-8. -/
def textOf? (bytes : List UInt8) : Option String := String.fromUTF8? ⟨bytes.toArray⟩

inductive ImportFault where
  /-- A file that cannot be read, or a key map file that holds no text. -/
  | unreadable
  | keymap (fault : DocumentFault)
  | midi (fault : Midi.Fault)

/-- The key map in a file. -/
def Keymap.ofFile (content : Option (List UInt8)) : Except ImportFault Keymap :=
  match content.bind textOf? with
  | none => .error .unreadable
  | some text => (ofDocument text).mapError .keymap

/-- The key map in a file, or the standard one where none is named. -/
def Keymap.ofFile? (read : String → Option (List UInt8)) :
    Option String → Except ImportFault Keymap
  | none => .ok standard
  | some path => ofFile (read path)

namespace Player.Engine

/-- Loads a MIDI file by name, with the key map of another file if one is named. The
notation is returned beside the engine. -/
def importFile (read : String → Option (List UInt8)) (input : String)
    (keymapFile : Option String) (e : Engine) : Except ImportFault (String × Engine) := do
  let keymap ← Keymap.ofFile? read keymapFile
  let some bytes := read input | throw .unreadable
  let outcome := e.importMidi bytes keymap
  match outcome.answer with
  | .imported text => return (text, outcome.engine)
  | .refused fault => throw (.midi fault)
  | _ => throw .unreadable

end Player.Engine

end KeyScore
