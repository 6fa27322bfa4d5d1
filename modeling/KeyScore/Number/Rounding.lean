/-!
# Rounded quotients

A quotient is rounded to the nearest whole number. Halves go to the even neighbour here;
the other rule in use, halves up, is `roundHalfUp`.
-/

namespace KeyScore.Number

/-- The nearest whole number to `num / den`, the even one of two. -/
def roundHalfEven (num den : Nat) : Nat :=
  let quotient := num / den
  let twice := 2 * (num % den)
  if twice < den ∨ (twice = den ∧ quotient % 2 = 0) then quotient else quotient + 1

/-- The nearest whole number to `num / den`, the larger one of two. -/
def roundHalfUp (num den : Nat) : Nat := (2 * num + den) / (2 * den)

/-- The rounded quotient is within a half of the exact one. -/
theorem roundHalfEven_near (num : Nat) {den : Nat} (h : 0 < den) :
    2 * num ≤ 2 * (roundHalfEven num den * den) + den ∧
      2 * (roundHalfEven num den * den) ≤ 2 * num + den := by
  have split := Nat.div_add_mod num den
  have small := Nat.mod_lt num h
  rw [Nat.mul_comm] at split
  simp only [roundHalfEven]
  split
  · omega
  · rw [Nat.add_mul, Nat.one_mul]
    omega

end KeyScore.Number
