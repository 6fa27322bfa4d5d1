import KeyScore.Proofs.Number.Order
import Mathlib

/-!
# Differences

A float of at least a power of two, less one below half of that power, is still at least half of
it: what rounding takes away is less than what is left. Every float that is not negative is on
one side or the other of each power of two.
-/

namespace KeyScore.Number

open Float.Model Float.Model.UnpackedFloat

variable {x y : Float} {low high : Int}

/-- Below `2 ^ high`, zero included. -/
def Below (high : Int) (x : Float) : Prop :=
  (∃ sign, x.toModel.unpack = .zero sign) ∨ ∃ low, Within low high x

/-- What has a lower bound at all is above or below any other power of two. -/
theorem AtLeast.or_below (h : AtLeast low x) (bound : Int) : AtLeast bound x ∨ Below bound x := by
  rcases h with infinite | ⟨high, mantissa, exponent, pos, unpacked, above, below⟩
  · exact .inl (.inl infinite)
  · rcases Int.lt_or_le bound (totalExponent mantissa exponent) with more | less
    · exact .inl (.inr ⟨high, mantissa, exponent, pos, unpacked, more, below⟩)
    · exact .inr (.inr ⟨low, mantissa, exponent, pos, unpacked, above, less⟩)

/-- A number that is neither negative nor positive is a zero. -/
theorem zero_of_le (nonnegative : 0.0 ≤ x) (notPositive : ¬0.0 < x) :
    ∃ sign, x.toModel.unpack = .zero sign := by
  have zero : (0.0 : Float).toModel.unpack = .zero .positive := rfl
  rw [le_iff, zero] at nonnegative
  rw [lt_iff, zero] at notPositive
  generalize x.toModel.unpack = unpacked at nonnegative notPositive ⊢
  match unpacked, nonnegative, notPositive with
  | .zero sign, _, _ => exact ⟨sign, rfl⟩
  | .infinity .positive, _, notPositive => exact absurd rfl notPositive
  | .finite .positive _ _ _, _, notPositive => exact absurd rfl notPositive
  | .infinity .negative, ⟨_, rfl, notMore⟩, _ => exact absurd rfl notMore
  | .finite .negative _ _ _, ⟨_, rfl, notMore⟩, _ => exact absurd rfl notMore

/-- Zeros behind a mantissa are made up for by the exponent. -/
theorem totalExponent_shifted {mantissa : Nat} (pos : 0 < mantissa) (exponent : Int)
    (places : Nat) :
    totalExponent (mantissa <<< places) (exponent - places) = totalExponent mantissa exponent := by
  have nonzero : mantissa ≠ 0 := Nat.ne_of_gt pos
  have bits : (mantissa <<< places).log2 = mantissa.log2 + places := by
    rw [Nat.shiftLeft_eq]
    refine (Nat.log2_eq_iff (Nat.mul_ne_zero nonzero (Nat.ne_of_gt (Nat.two_pow_pos _)))).mpr
      ⟨?_, ?_⟩
    · rw [Nat.pow_add]
      exact Nat.mul_le_mul_right _ (Nat.log2_self_le nonzero)
    · rw [Nat.add_right_comm, Nat.pow_add]
      exact Nat.mul_lt_mul_of_pos_right Nat.lt_log2_self (Nat.two_pow_pos _)
  rw [totalExponent, totalExponent, bits]
  omega

/-- Rounding an exact result loses no more than rounding one that is cut off. -/
theorem round_exact {mantissa : Nat} {exponent : Int} (pos : 0 < mantissa)
    (large : -1074 < totalExponent mantissa exponent) :
    ∃ result place, ∃ h : Rounded result place,
      UnpackedFloat.round .binary64 .positive mantissa exponent =
        .finite .positive result place h.pos ∧
      totalExponent mantissa exponent ≤ totalExponent result place := by
  have same := totalExponent_shifted pos exponent
    (exponent - Format.binary64.targetExponent (totalExponent mantissa exponent)).toNat
  have positive : 0 < mantissa <<<
      (exponent - Format.binary64.targetExponent (totalExponent mantissa exponent)).toNat := by
    rw [Nat.shiftLeft_eq]
    exact Nat.mul_pos pos (Nat.two_pow_pos _)
  obtain ⟨result, place, h, rounded, above, -⟩ :=
    round_large positive .exact (by rw [same]; omega) (by rw [same]; exact large)
  rw [same] at above
  exact ⟨result, place, h, rounded, above⟩

/-- The difference of two mantissas, the smaller one with at least two binary places less. -/
theorem le_log2_sub {m n bits : Nat} (left : 2 ^ (bits + 1) ≤ m) (right : n < 2 ^ bits) :
    0 < m - n ∧ bits ≤ (m - n).log2 := by
  have double : 2 ^ (bits + 1) = 2 ^ bits + 2 ^ bits := by rw [Nat.pow_succ, Nat.mul_two]
  have least : 2 ^ bits ≤ m - n := by omega
  have pos : 0 < m - n := Nat.lt_of_lt_of_le (Nat.two_pow_pos bits) least
  exact ⟨pos, (Nat.le_log2 (Nat.ne_of_gt pos)).mpr least⟩

theorem sub_of_finite {m n : Nat} {e f : Int} {posM : 0 < m} {posN : 0 < n}
    (hx : x.toModel.unpack = .finite .positive m e posM)
    (hy : y.toModel.unpack = .finite .positive n f posN)
    (less : totalExponent n f + 2 ≤ totalExponent m e) (large : -1073 < totalExponent m e) :
    ∃ result place, ∃ h : Rounded result place,
      (x - y).toModel.unpack = (Float.Model.pack (.finite .positive result place h.pos)).unpack ∧
      totalExponent m e - 1 ≤ totalExponent result place := by
  obtain ⟨i, left⟩ := Int.eq_ofNat_of_zero_le (by omega : 0 ≤ e - min e f)
  obtain ⟨j, right⟩ := Int.eq_ofNat_of_zero_le (by omega : 0 ≤ f - min e f)
  have totalM : totalExponent m e = m.log2 + 1 + e := rfl
  have totalN : totalExponent n f = n.log2 + 1 + f := rfl
  obtain ⟨bits, places⟩ := Nat.exists_eq_add_of_le' (by omega : 1 ≤ m.log2 + i)
  have bigger : 2 ^ (bits + 1) ≤ m <<< i := by
    rw [← places, Nat.pow_add, Nat.shiftLeft_eq]
    exact Nat.mul_le_mul_right _ (Nat.log2_self_le (Nat.ne_of_gt posM))
  have smaller : n <<< j < 2 ^ bits := by
    calc n <<< j = n * 2 ^ j := Nat.shiftLeft_eq n j
      _ < 2 ^ (n.log2 + 1) * 2 ^ j :=
          Nat.mul_lt_mul_of_pos_right Nat.lt_log2_self (Nat.two_pow_pos j)
      _ = 2 ^ (n.log2 + 1 + j) := (Nat.pow_add ..).symm
      _ ≤ 2 ^ bits := Nat.pow_le_pow_right (by decide) (by omega)
  obtain ⟨pos, some_bits⟩ := le_log2_sub bigger smaller
  have total : totalExponent m e - 1 ≤ totalExponent (m <<< i - n <<< j) (min e f) := by
    rw [totalM, totalExponent]
    omega
  obtain ⟨result, place, h, rounded, above⟩ :=
    round_exact pos (Int.lt_of_lt_of_le (by omega) total)
  refine ⟨result, place, h, ?_, Int.le_trans total above⟩
  have order : compare (((m <<< i : Nat) : Int) - ((n <<< j : Nat) : Int)) 0 = .gt :=
    Int.compare_eq_gt.mpr (by omega)
  have difference : (((m <<< i : Nat) : Int) - ((n <<< j : Nat) : Int)).toNat =
      m <<< i - n <<< j := by omega
  have exact : UnpackedFloat.sub .binary64 (.finite .positive m e posM)
      (.finite .positive n f posN) = .finite .positive result place h.pos := by
    rw [← rounded, ← difference]
    simp only [UnpackedFloat.sub, decreaseExponent, Sign.apply, left, right, Int.toNat_natCast]
    rw [UnpackedFloat.normalize, order]
  change (Float.Model.pack (UnpackedFloat.sub .binary64 x.toModel.unpack y.toModel.unpack)).unpack
    = _
  rw [hx, hy, exact]

/-- What is taken away is less than half of what is there. -/
theorem AtLeast.sub (hx : AtLeast low x) (hy : Below (low - 1) y) (enough : -1073 ≤ low) :
    AtLeast (low - 1) (x - y) := by
  have difference : (x - y).toModel.unpack = (Float.Model.pack
    (UnpackedFloat.sub .binary64 x.toModel.unpack y.toModel.unpack)).unpack := rfl
  rcases hx with infinite | ⟨high, m, e, posM, hx, aboveX, belowX⟩
  · -- infinity stays infinity
    have stays : UnpackedFloat.sub .binary64 (.infinity .positive) y.toModel.unpack =
        .infinity .positive := by
      rcases hy with ⟨sign, hy⟩ | ⟨low', n, f, posN, hy, -⟩
      · rw [hy]
        rfl
      · rw [hy]
        rfl
    refine .inl ?_
    rw [difference, infinite, stays]
    rfl
  · rcases hy with ⟨sign, hy⟩ | ⟨low', n, f, posN, hy, aboveY, belowY⟩
    · obtain ⟨rounded, small⟩ := rounded_of_unpack hx
      refine .inr ⟨high, m, e, posM, ?_, by omega, belowX⟩
      rw [difference, hx, hy]
      exact (unpack_pack_of_rounded rounded).trans (if_pos small)
    · obtain ⟨result, place, h, packed, above⟩ := sub_of_finite hx hy (by omega) (by omega)
      exact atLeast_of_rounded h packed (by omega)

end KeyScore.Number
