/-!
# Events

A compiled score is a list of events: one key or several held for some units of time, or
silence. Lengths are 32-bit counts that stop at their largest value, so a sum of rests
never wraps.
-/

namespace KeyScore

/-- The largest length of an event. -/
def maxUnits : Nat := 4294967295

/-- A length of `n` units, or the largest length if that is less. -/
def cappedUnits (n : Nat) : UInt32 := UInt32.ofNat (min n maxUnits)

@[simp]
theorem toNat_cappedUnits (n : Nat) : (cappedUnits n).toNat = min n maxUnits := by
  rw [cappedUnits, UInt32.toNat_ofNat']
  exact Nat.mod_eq_of_lt (by have := Nat.min_le_right n maxUnits; unfold maxUnits at *; omega)

inductive Event where
  | press (key : Char) (units : UInt32)
  | chord (keys : List Char) (units : UInt32)
  | rest (units : UInt32)
deriving DecidableEq, Repr

namespace Event

def units : Event → UInt32
  | press _ units | chord _ units | rest units => units

/-- The keys that sound; none in a rest. -/
def keys : Event → List Char
  | press key _ => [key]
  | chord keys _ => keys
  | rest _ => []

def isRest : Event → Bool
  | rest _ => true
  | _ => false

/-- A press lasts at least one unit. -/
def ofKey (key : Char) (units : UInt32) : Event := press key (max units 1)

/-- A chord lasts at least one unit and has at least one key. -/
def ofKeys? (keys : List Char) (units : UInt32) : Option Event :=
  if keys = [] then none else some (chord keys (max units 1))

end Event

/-- The length of a whole sequence, rests included. Counted in 64 bits it would be the same, but
for sequences of more than 2 ^ 32 events, whose lengths can add up to more than that. -/
def totalUnits : List Event → Nat
  | [] => 0
  | e :: events => e.units.toNat + totalUnits events

/-- Puts an event in front of a sequence, joining it with a rest that comes first if both
are rests. -/
def consMerged : Event → List Event → List Event
  | .rest a, .rest b :: events => .rest (cappedUnits (a.toNat + b.toNat)) :: events
  | e, events => e :: events

/-- Every run of adjacent rests becomes one rest of their total length. -/
def mergeRests (events : List Event) : List Event := events.foldr consMerged []

end KeyScore
