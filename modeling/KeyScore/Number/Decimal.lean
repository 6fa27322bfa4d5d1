/-!
# Reading numbers

Numbers are written in decimal ASCII digits. Whole numbers may carry a sign. Real numbers
may have a fraction and an exponent and are read as the nearest float; `inf`, `infinity`
and `nan` are read in either case. A text that has anything else in it, blanks included,
is no number.
-/

namespace KeyScore.Number

/-- The value of a digit; meaningful for `0` to `9` only. -/
def digitValue (c : Char) : Nat := c.toNat - '0'.toNat

/-- The number that a row of digits writes. -/
def ofDigits (digits : List Char) : Nat :=
  digits.foldl (fun n c => 10 * n + digitValue c) 0

/-- A row of digits, not empty, and nothing else. -/
def readDigits? (cs : List Char) : Option Nat :=
  if cs = [] then none
  else if cs.all Char.isDigit then some (ofDigits cs)
  else none

/-- Digits after an optional sign. -/
def readInt? : List Char → Option Int
  | '-' :: cs => (readDigits? cs).map fun n => -(n : Int)
  | '+' :: cs => (readDigits? cs).map fun n => (n : Int)
  | cs => (readDigits? cs).map fun n => (n : Int)

/-- Digits after an optional plus sign, up to the largest 32-bit word. -/
def readWord? (cs : List Char) : Option UInt32 :=
  let digits := match cs with
    | '+' :: cs => cs
    | cs => cs
  (readDigits? digits).bind fun n => if n < UInt32.size then some (UInt32.ofNat n) else none

/-- The power of ten at the end of a real number: `e` or `E` and a whole number, or
nothing. -/
def readExponent? : List Char → Option Int
  | [] => some 0
  | c :: cs => if c = 'e' ∨ c = 'E' then readInt? cs else none

/-- The float nearest to `mantissa * 10 ^ exponent`. -/
def nearestFloat (mantissa : Nat) (exponent : Int) : Float :=
  Float.ofScientific mantissa (exponent < 0) exponent.natAbs

/-- A real number without a sign: digits with at most one point among them, before, behind
or between, and an optional exponent. -/
def readDecimal? (cs : List Char) : Option Float :=
  let whole := cs.takeWhile Char.isDigit
  let rest := cs.dropWhile Char.isDigit
  let (fraction, rest) := match rest with
    | '.' :: rest => (rest.takeWhile Char.isDigit, rest.dropWhile Char.isDigit)
    | rest => ([], rest)
  if whole ++ fraction = [] then none
  else (readExponent? rest).map fun e =>
    nearestFloat (ofDigits (whole ++ fraction)) (e - fraction.length)

/-- A real number, an infinity or NaN, without a sign. -/
def readMagnitude? (cs : List Char) : Option Float :=
  match String.ofList (cs.map Char.toLower) with
  | "inf" | "infinity" => some (1.0 / 0.0)
  | "nan" => some (0.0 / 0.0)
  | _ => readDecimal? cs

/-- A real number, an infinity or NaN, with an optional sign. -/
def readFloat? : List Char → Option Float
  | '-' :: cs => (readMagnitude? cs).map fun x => -x
  | '+' :: cs => readMagnitude? cs
  | cs => readMagnitude? cs

end KeyScore.Number
