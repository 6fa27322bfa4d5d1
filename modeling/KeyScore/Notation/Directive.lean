import KeyScore.Number.Decimal
import KeyScore.Settings
import KeyScore.Text.Blank

/-!
# Directives

A directive is a line whose first character that is not blank is `@`. Its name runs up to
the next blank and is read in either case; what is left, trimmed, is its value. A line
with an unknown name or an unusable value is no directive and has no effect.
-/

namespace KeyScore.Notation

inductive Directive where
  | bpm (value : Float)
  | unit (value : UInt32)
  | hold (value : Float)
  | spaceRest (on : Bool)
  /-- The number of seconds that the whole score should last. -/
  | fit (seconds : Float)

namespace Directive

/-- Only ASCII letters have two cases in names and values. -/
def folded (cs : List Char) : String := String.ofList (cs.map Char.toLower)

def readBpm? (value : List Char) : Option Float :=
  (Number.readFloat? value).filter fun x => x.isFinite && 0.0 < x

def readUnit? (value : List Char) : Option UInt32 :=
  (Number.readWord? value).filter fun n => 0 < n

def readHold? (value : List Char) : Option Float :=
  (Number.readFloat? value).filter fun x => !x.isNaN

def readSwitch? (value : List Char) : Option Bool :=
  match folded value with
  | "on" | "true" | "1" => some true
  | "off" | "false" | "0" => some false
  | _ => none

/-- Seconds in a unit of time; no name stands for seconds. -/
def secondsIn? (name : String) : Option Float :=
  match name with
  | "" | "s" | "sec" | "secs" | "second" | "seconds" => some 1.0
  | "m" | "min" | "mins" | "minute" | "minutes" => some 60.0
  | _ => none

/-- Digits and points belong to the number, the rest is the unit of time. -/
def readFit? (value : List Char) : Option Float :=
  let isNumeral := fun c : Char => c.isDigit || c == '.'
  match Number.readFloat? (value.takeWhile isNumeral),
      secondsIn? (folded (Text.trim (value.dropWhile isNumeral))) with
  | some number, some scale => some (number * scale)
  | _, _ => none

/-- Reads what follows the `@`. -/
def read? (body : List Char) : Option Directive :=
  let value := Text.trim (body.dropWhile fun c => !Text.isBlank c)
  match folded (body.takeWhile fun c => !Text.isBlank c) with
  | "bpm" => (readBpm? value).map bpm
  | "unit" => (readUnit? value).map unit
  | "hold" => (readHold? value).map hold
  | "spacerest" => (readSwitch? value).map spaceRest
  | "fit" => (readFit? value).map fit
  | _ => none

/-- What a directive does to the settings as soon as it is read; a fit waits for the
notes. -/
def apply : Directive → Settings → Settings
  | bpm value, s => s.setBpm value
  | unit value, s => s.setUnit value
  | hold value, s => s.setHold value
  | spaceRest on, s => s.setSpaceRests on
  | fit _, s => s

def fitSeconds? : Directive → Option Float
  | fit seconds => some seconds
  | _ => none

end Directive

end KeyScore.Notation
