/-!
# Key maps

A key map says which key plays a note of a MIDI file. Notes run from 0 to 127; a byte
above that is no note and cannot be mapped.
-/

namespace KeyScore

structure Keymap where
  /-- The key of each note. -/
  keys : Vector (Option Char) 128
deriving DecidableEq

/-- Why a key map is refused. -/
inductive KeymapFault where
  | outOfRange (note : UInt8)
  | notOneCharacter (note : UInt8) (text : List Char)
deriving DecidableEq, Repr

namespace KeymapFault

def reason : KeymapFault → String
  | outOfRange note => s!"Note {note} is out of range"
  | notOneCharacter note text =>
    s!"Key for note {note} must be a single character, got '" ++ String.ofList text ++ "'"

def message (fault : KeymapFault) : String := "Key mapping error: " ++ fault.reason

end KeymapFault

namespace Keymap

def empty : Keymap := ⟨Vector.replicate 128 none⟩

def get? (m : Keymap) (note : UInt8) : Option Char :=
  if h : note.toNat < 128 then m.keys[note.toNat] else none

/-- Maps a note to a key, in place of the key it had. -/
def insert (m : Keymap) (note : UInt8) (key : Char) : Except KeymapFault Keymap :=
  if h : note.toNat < 128 then .ok ⟨m.keys.set note.toNat (some key)⟩
  else .error (.outOfRange note)

/-- The mapped notes in ascending order, with their keys. -/
def toList (m : Keymap) : List (UInt8 × Char) :=
  (List.range 128).filterMap fun note =>
    (m.get? (UInt8.ofNat note)).map (UInt8.ofNat note, ·)

def size (m : Keymap) : Nat := m.toList.length

def isEmpty (m : Keymap) : Bool := m.toList.isEmpty

/-- The white keys from middle C on, then the black ones. -/
def standardKeys : List (Nat × Char) := [
  (60, 'a'), (62, 's'), (64, 'd'), (65, 'f'), (67, 'g'), (69, 'h'), (71, 'j'), (72, 'k'),
  (74, 'l'), (61, 'w'), (63, 'e'), (66, 't'), (68, 'y'), (70, 'u'), (73, 'o'), (75, 'p')]

/-- The key map in use where none is given. -/
def standard : Keymap :=
  ⟨standardKeys.foldl (fun keys entry => keys.setIfInBounds entry.1 (some entry.2)) empty.keys⟩

instance : Inhabited Keymap := ⟨standard⟩

@[simp]
theorem get?_empty (note : UInt8) : empty.get? note = none := by
  simp [get?, empty]

theorem get?_eq_none_of_le {m : Keymap} {note : UInt8} (h : 128 ≤ note.toNat) :
    m.get? note = none := by
  simp [get?, Nat.not_lt.mpr h]

/-- A mapped note has its new key and every other note the key it had. -/
theorem get?_insert {m m' : Keymap} {note : UInt8} {key : Char}
    (h : m.insert note key = .ok m') (n : UInt8) :
    m'.get? n = if n = note then some key else m.get? n := by
  unfold insert at h
  split at h
  · cases h
    by_cases hn : n = note
    · subst hn
      simp [get?, *]
    · have different : note.toNat ≠ n.toNat := fun e => hn (UInt8.toNat_inj.mp e.symm)
      simp [get?, hn, different]
  · simp at h

end Keymap

end KeyScore
