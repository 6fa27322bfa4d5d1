/-!
# Shortest decimals

Many decimals are read as the same float. The shortest one is the decimal with the fewest
digits among them; of several, the one nearest to the float's exact value, and of two
equally near the one whose last digit is even. All arithmetic is exact.
-/

namespace KeyScore.Number

/-- The number `digits * 10 ^ exponent`. -/
structure Decimal where
  digits : Nat
  exponent : Int
deriving DecidableEq, Repr

/-- The reals that are read as one positive float: from `low` to `high`, in units of
`2 ^ scale`. The float itself is `value`. -/
structure Neighbourhood where
  low : Nat
  value : Nat
  high : Nat
  scale : Int
  /-- Whether the two ends belong to it. -/
  closed : Bool

/-- The least mantissa of 53 bits, 2^52. Subnormal floats have smaller ones. -/
def leastNormal : Nat := 4503599627370496

/-- The exponent of the smallest floats. -/
def leastExponent : Int := -1074

namespace Neighbourhood

/-- The neighbourhood of `mantissa * 2 ^ exponent`. Below a power of two the floats lie
twice as close, except at the bottom of the range. -/
def ofFloat (mantissa : Nat) (exponent : Int) : Neighbourhood :=
  let below := if mantissa = leastNormal ∧ leastExponent < exponent then 1 else 2
  { low := 4 * mantissa - below
    value := 4 * mantissa
    high := 4 * mantissa + 2
    scale := exponent - 2
    closed := mantissa % 2 = 0 }

/-- The multiple of `10 ^ exponent` in the neighbourhood that is nearest to the value. Only
the two multiples on either side of the value can be. -/
def onGrid? (n : Neighbourhood) (exponent : Int) : Option Decimal :=
  let gridUnit := Nat.pow 10 exponent.toNat * Nat.pow 2 (-n.scale).toNat
  let realUnit := Nat.pow 10 (-exponent).toNat * Nat.pow 2 n.scale.toNat
  let contains := fun digits : Nat =>
    if n.closed then n.low * realUnit ≤ digits * gridUnit ∧ digits * gridUnit ≤ n.high * realUnit
    else n.low * realUnit < digits * gridUnit ∧ digits * gridUnit < n.high * realUnit
  let below := n.value * realUnit / gridUnit
  let twice := 2 * (n.value * realUnit % gridUnit)
  let belowNearer := twice < gridUnit ∨ (twice = gridUnit ∧ below % 2 = 0)
  if contains below ∧ (belowNearer ∨ ¬ contains (below + 1)) then some ⟨below, exponent⟩
  else if contains (below + 1) then some ⟨below + 1, exponent⟩
  else none

/-- The first decimal found going down from grids coarser than any float to ones finer than
all. -/
def shortest? (n : Neighbourhood) : Option Decimal :=
  (List.range 650).findSome? fun i : Nat => n.onGrid? (310 - (i : Int))

end Neighbourhood

/-- The shortest decimal that is read as `mantissa * 2 ^ exponent`. -/
def shortestDecimal (mantissa : Nat) (exponent : Int) : Decimal :=
  (Neighbourhood.ofFloat mantissa exponent).shortest?.getD ⟨0, 0⟩

end KeyScore.Number
