import KeyScore.Duration
import KeyScore.Event

/-!
# Settings

Tempo, unit, hold fraction and rest weights of a score, and what follows from them in
time. The length of one unit is kept beside the tempo and the unit it is made of; every
operation that changes either of them recomputes it. Values that make no sense are
ignored, so the settings always describe a playable tempo.
-/

namespace KeyScore

/-- Seconds in one unit: a quarter note is a beat, a unit is the `unit`-th part of a whole
note. -/
def unitSeconds (bpm : Float) (unit : UInt32) : Float := (60.0 / bpm) * (4.0 / unit.toFloat)

/-- The nearest number from `low` to `high`; NaN stays NaN. -/
def clamp (low high x : Float) : Float :=
  if x < low then low else if high < x then high else x

def slowestFit : Float := 10.0
def fastestFit : Float := 480.0

/-- The tempo at which `units` units last `seconds`, as far as a fit may go. There is none
for no units, for a unit of zero, and for a time that is not finite and positive. -/
def solveBpm (units : Nat) (seconds : Float) (unit : UInt32) : Option Float :=
  if units = 0 ∨ unit = 0 ∨ seconds.isFinite = false ∨ seconds ≤ 0.0 then none
  else some (clamp slowestFit fastestFit
    (60.0 * (4.0 / unit.toFloat) * (Float.ofNat units / seconds)))

structure Settings where
  bpm : Float
  unit : UInt32
  /-- The part of its length that a key is held down. -/
  hold : Float
  pipeWeight : UInt32
  spaceWeight : UInt32
  spaceRests : Bool
  secondsPerUnit : Float

namespace Settings

/-- With the length of a unit that belongs to the tempo. -/
def retimed (s : Settings) : Settings :=
  { s with secondsPerUnit := unitSeconds s.bpm s.unit }

def initial : Settings := retimed {
  bpm := 120.0
  unit := 16
  hold := 0.9
  pipeWeight := 3
  spaceWeight := 1
  spaceRests := false
  secondsPerUnit := 0.0 }

instance : Inhabited Settings := ⟨initial⟩

/-- A tempo has to be finite and positive; others are ignored. -/
def setBpm (bpm : Float) (s : Settings) : Settings :=
  if bpm.isFinite ∧ 0.0 < bpm then retimed { s with bpm := bpm } else s

/-- Zero is ignored. -/
def setUnit (unit : UInt32) (s : Settings) : Settings :=
  if unit = 0 then s else retimed { s with unit := unit }

/-- The nearest fraction from 0 to 1; NaN is ignored. -/
def setHold (hold : Float) (s : Settings) : Settings :=
  if hold.isNaN then s else { s with hold := clamp 0.0 1.0 hold }

def setPipeWeight (weight : UInt32) (s : Settings) : Settings := { s with pipeWeight := weight }

def setSpaceWeight (weight : UInt32) (s : Settings) : Settings := { s with spaceWeight := weight }

def setSpaceRests (on : Bool) (s : Settings) : Settings := { s with spaceRests := on }

/-- How long a rest of this many units lasts. -/
def durationOf (s : Settings) (units : UInt32) : Duration :=
  Duration.ofSeconds (s.secondsPerUnit * units.toFloat)

/-- How long the keys of an event of this many units are down, and how long the silence
after them is. -/
def holdAndGap (s : Settings) (units : UInt32) : Duration × Duration :=
  let total := s.secondsPerUnit * units.toFloat
  let down := total * s.hold
  (Duration.ofSeconds down, Duration.ofSeconds (total - down))

/-- Seconds that a whole sequence lasts. -/
def expectedSeconds (s : Settings) (events : List Event) : Float :=
  Float.ofNat (totalUnits events) * s.secondsPerUnit

/-- The settings at whose tempo so many units last `seconds`, if there is one. -/
def fitUnits? (units : Nat) (seconds : Float) (s : Settings) : Option Settings :=
  (solveBpm units seconds s.unit).map fun bpm => s.setBpm bpm

/-- The settings at whose tempo the sequence lasts `seconds`, if there is one. -/
def fitEvents? (events : List Event) (seconds : Float) (s : Settings) : Option Settings :=
  if events = [] then none else s.fitUnits? (totalUnits events) seconds

end Settings

end KeyScore
