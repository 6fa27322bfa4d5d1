import KeyScore.Number.Rounding

/-!
# Durations

A duration is a whole number of nanoseconds. Float seconds become the nearest one, halves
going to the even neighbour. The longest duration is one nanosecond short of 2^64
seconds and stands for all longer ones; negative lengths and NaN have no duration.
-/

namespace KeyScore

structure Duration where
  nanoseconds : Nat
deriving DecidableEq, Repr

namespace Duration

def zero : Duration := ⟨0⟩

/-- Nanoseconds in a second. -/
def perSecond : Nat := 1000000000

def longest : Duration := ⟨18446744073709551615999999999⟩

example : longest.nanoseconds + 1 = 2 ^ 64 * perSecond := by decide

def ofSeconds (seconds : Float) : Duration :=
  match seconds.toModel.unpack with
  | .infinity .positive => longest
  | .finite .positive mantissa exponent _ =>
    let exact := Number.roundHalfEven (mantissa * perSecond * Nat.pow 2 exponent.toNat)
      (Nat.pow 2 (-exponent).toNat)
    ⟨min exact longest.nanoseconds⟩
  | _ => zero

/-- No conversion gives more than the longest duration. -/
theorem ofSeconds_le_longest (seconds : Float) :
    (ofSeconds seconds).nanoseconds ≤ longest.nanoseconds := by
  unfold ofSeconds
  split
  · exact Nat.le_refl _
  · exact Nat.min_le_right _ _
  · exact Nat.zero_le _

/-- Whole seconds and the nanoseconds beyond them. -/
def split (d : Duration) : Nat × Nat :=
  (d.nanoseconds / perSecond, d.nanoseconds % perSecond)

end Duration

end KeyScore
