import KeyScore.Text.Capital

/-!
# Pressing keys

A keyboard takes presses and releases of single keys. A capital is played with Shift held
around its small form, so its own key goes down last and comes up first.

A recorder keeps every press and release. Its held keys are the presses that no release
has answered; a release answers the oldest press of its key, and none if there is none.
-/

namespace KeyScore.Player

inductive Key where
  | char (c : Char)
  | shift
deriving DecidableEq, Repr

inductive Action where
  | down (key : Key)
  | up (key : Key)
deriving DecidableEq, Repr

/-- Presses what a character is played with. -/
def downs (c : Char) : List Action :=
  if Text.isCapital c then [.down .shift, .down (.char (Text.smallForm c))]
  else [.down (.char c)]

/-- Releases what `downs` presses, in the opposite order. -/
def ups (c : Char) : List Action :=
  if Text.isCapital c then [.up (.char (Text.smallForm c)), .up .shift]
  else [.up (.char c)]

/-- Everything pressed and released, oldest first. -/
structure Recorder where
  log : List Action := []
deriving DecidableEq, Repr

namespace Recorder

def record (r : Recorder) (a : Action) : Recorder := ⟨r.log ++ [a]⟩

def press (r : Recorder) (key : Key) : Recorder := r.record (.down key)

def release (r : Recorder) (key : Key) : Recorder := r.record (.up key)

def clear (_ : Recorder) : Recorder := ⟨[]⟩

/-- The keys held after one more action. -/
def held (keys : List Key) : Action → List Key
  | .down key => keys ++ [key]
  | .up key => keys.erase key

/-- The keys still held, oldest press first. -/
def heldKeys (r : Recorder) : List Key := r.log.foldl held []

theorem heldKeys_press (r : Recorder) (key : Key) :
    (r.press key).heldKeys = r.heldKeys ++ [key] := by
  simp [heldKeys, press, record, held]

theorem heldKeys_release (r : Recorder) (key : Key) :
    (r.release key).heldKeys = r.heldKeys.erase key := by
  simp [heldKeys, release, record, held]

end Recorder

end KeyScore.Player
