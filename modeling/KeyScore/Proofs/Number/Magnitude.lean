import KeyScore.Proofs.Number.Whole
import Mathlib

/-!
# Magnitudes

How large a positive float is, to within a power of two: rounding loses at most a factor of two
in either direction, and never all of a quotient or a product that is not below the least float.
So bounds on two floats give bounds on their quotient and their product, and what is bounded
from below by a power of two is neither zero nor NaN.
-/

namespace KeyScore.Number

open Float.Model Float.Model.UnpackedFloat

/-- A mantissa of 53 bits, or one of fewer bits with the least exponent. -/
structure Rounded (mantissa : Nat) (exponent : Int) : Prop where
  pos : 0 < mantissa
  high : mantissa < 9007199254740992
  least : -1074 ≤ exponent
  full : 4503599627370496 ≤ mantissa ∨ exponent = -1074

section Rounding

variable {mantissa : Nat} {exponent : Int}

theorem targetExponent_eq (total : Int) :
    Format.binary64.targetExponent total = max (total - 53) (-1074) := rfl

theorem mantissa_shifted (em : ExtendedMantissa) (places : Nat) :
    (em >>> places).mantissa = em.mantissa / 2 ^ places := by
  induction places with
  | zero => exact (Nat.div_one _).symm
  | succ places ih =>
    have again : (em >>> (places + 1)).mantissa = (em >>> places).mantissa / 2 := rfl
    rw [again, ih, Nat.div_div_eq_div_mul, ← Nat.pow_succ]

theorem roundedMantissa_bounds (em : ExtendedMantissa) :
    em.mantissa ≤ em.roundedMantissa ∧ em.roundedMantissa ≤ em.mantissa + 1 := by
  obtain ⟨mantissa, roundBit, stickyBit⟩ := em
  cases roundBit <;> cases stickyBit <;>
    simp only [ExtendedMantissa.roundedMantissa, ExtendedMantissa.accuracy,
      Accuracy.roundToNearestEven] <;> omega

/-- The first shift leaves 53 bits, or what there is of them above the least exponent. -/
theorem first_shift (pos : 0 < mantissa) (accuracy : Accuracy)
    (fine : exponent ≤ Format.binary64.targetExponent (totalExponent mantissa exponent))
    (large : -1074 < totalExponent mantissa exponent) :
    ∃ em : ExtendedMantissa, ∃ bits : Nat,
      shiftToTargetExponent .binary64 mantissa exponent accuracy =
        (em, Format.binary64.targetExponent (totalExponent mantissa exponent)) ∧
      totalExponent mantissa exponent =
        Format.binary64.targetExponent (totalExponent mantissa exponent) + bits + 1 ∧
      2 ^ bits ≤ em.roundedMantissa ∧ em.roundedMantissa ≤ 2 ^ (bits + 1) := by
  have nonzero : mantissa ≠ 0 := Nat.ne_of_gt pos
  rw [targetExponent_eq] at fine ⊢
  generalize target : max (totalExponent mantissa exponent - 53) (-1074) = goal at fine ⊢
  have total : totalExponent mantissa exponent = mantissa.log2 + 1 + exponent := rfl
  obtain ⟨places, here⟩ := Int.eq_ofNat_of_zero_le (Int.sub_nonneg_of_le fine)
  obtain ⟨bits, left⟩ := Int.eq_ofNat_of_zero_le
    (by omega : 0 ≤ totalExponent mantissa exponent - 1 - goal)
  have split : mantissa.log2 = bits + places := by omega
  have low : 2 ^ bits * 2 ^ places ≤ mantissa := by
    rw [← Nat.pow_add, ← split]
    exact Nat.log2_self_le nonzero
  have high : mantissa < 2 ^ (bits + 1) * 2 ^ places := by
    rw [← Nat.pow_add, Nat.add_right_comm, ← split]
    exact Nat.lt_log2_self
  have start : (ExtendedMantissa.ofMantissaAndAccuracy mantissa accuracy).mantissa = mantissa := by
    cases accuracy with
    | exact => rfl
    | inexact side => cases side <;> rfl
  refine ⟨ExtendedMantissa.ofMantissaAndAccuracy mantissa accuracy >>> places, bits, ?_, by omega,
    ?_, ?_⟩
  · have amount : (goal - exponent).toNat = places := by omega
    rw [shiftToTargetExponent, targetExponent_eq, target, shiftToExponent, amount]
    exact Prod.ext rfl (by change exponent + (places : Int) = goal; omega)
  · refine Nat.le_trans ?_ (roundedMantissa_bounds _).1
    rw [mantissa_shifted, start]
    exact (Nat.le_div_iff_mul_le (Nat.two_pow_pos places)).mpr low
  · refine Nat.le_trans (roundedMantissa_bounds _).2 ?_
    rw [mantissa_shifted, start]
    exact (Nat.div_lt_iff_lt_mul (Nat.two_pow_pos places)).mpr high

/-- A mantissa that has its bits already is not shifted again. -/
theorem second_shift (high : mantissa < 9007199254740992) (least : -1074 ≤ exponent) :
    shiftToTargetExponent .binary64 mantissa exponent .exact =
      (⟨mantissa, false, false⟩, exponent) := by
  have bits : mantissa.log2 ≤ 52 := by
    by_cases zero : mantissa = 0
    · rw [zero]
      decide
    · exact Nat.le_of_lt_succ ((Nat.log2_lt zero).mpr high)
  have amount : (Format.binary64.targetExponent (totalExponent mantissa exponent) -
      exponent).toNat = 0 := by
    rw [targetExponent_eq, totalExponent]
    omega
  rw [shiftToTargetExponent, shiftToExponent, amount]
  exact Prod.ext rfl (Int.add_zero exponent)

/-- Rounding up to 2^53 makes the mantissa one bit too long, and that bit is zero. -/
theorem second_shift_carry (least : -1074 ≤ exponent) :
    shiftToTargetExponent .binary64 9007199254740992 exponent .exact =
      (⟨4503599627370496, false, false⟩, exponent + 1) := by
  have bits : (9007199254740992 : Nat).log2 = 53 := by decide +kernel
  have amount : (Format.binary64.targetExponent (totalExponent 9007199254740992 exponent) -
      exponent).toNat = 1 := by
    rw [targetExponent_eq, totalExponent, bits]
    omega
  rw [shiftToTargetExponent, shiftToExponent, amount]
  rfl

/-- What is not below the least float is rounded to a float that is no smaller in magnitude, and
at most twice as large. -/
theorem round_large (pos : 0 < mantissa) (accuracy : Accuracy)
    (fine : exponent ≤ Format.binary64.targetExponent (totalExponent mantissa exponent))
    (large : -1074 < totalExponent mantissa exponent) :
    ∃ result place, ∃ h : Rounded result place,
      roundWithAccuracy .binary64 .positive mantissa exponent accuracy =
        .finite .positive result place h.pos ∧
      totalExponent mantissa exponent ≤ totalExponent result place ∧
      totalExponent result place ≤ totalExponent mantissa exponent + 1 := by
  obtain ⟨em, bits, shifted, total, low, high⟩ := first_shift pos accuracy fine large
  rw [targetExponent_eq] at shifted total
  generalize target : max (totalExponent mantissa exponent - 53) (-1074) = goal at shifted total
  have least : -1074 ≤ goal := by omega
  have few : bits ≤ 52 := by omega
  have positive : 0 < em.roundedMantissa := Nat.lt_of_lt_of_le (Nat.two_pow_pos bits) low
  have nonzero : em.roundedMantissa ≠ 0 := Nat.ne_of_gt positive
  have most : em.roundedMantissa ≤ 9007199254740992 :=
    Nat.le_trans high (Nat.pow_le_pow_right (by decide) (by omega : bits + 1 ≤ 53))
  have lowBits : bits ≤ em.roundedMantissa.log2 := (Nat.le_log2 nonzero).mpr low
  have highBits : em.roundedMantissa.log2 < bits + 2 := (Nat.log2_lt nonzero).mpr
    (Nat.lt_of_le_of_lt high (Nat.pow_lt_pow_right (by decide) (Nat.lt_succ_self _)))
  rcases Nat.lt_or_eq_of_le most with short | carry
  · have full : 4503599627370496 ≤ em.roundedMantissa ∨ goal = -1074 := by
      by_cases bottom : goal = -1074
      · exact .inr bottom
      · have all : bits = 52 := by omega
        rw [all] at low
        exact .inl low
    refine ⟨em.roundedMantissa, goal, ⟨positive, short, least, full⟩, ?_, ?_, ?_⟩
    · simp only [roundWithAccuracy, shifted, second_shift short least]
      exact dif_neg nonzero
    · rw [total, totalExponent]
      omega
    · rw [total, totalExponent]
      omega
  · have all : bits = 52 := by
      by_contra fewer
      have less : 2 ^ (bits + 1) ≤ 2 ^ 52 := Nat.pow_le_pow_right (by decide) (by omega)
      rw [carry] at high
      exact absurd (Nat.le_trans high less) (by decide)
    have length : totalExponent 4503599627370496 (goal + 1) = 53 + (goal + 1) := by
      have bits : (4503599627370496 : Nat).log2 = 52 := by decide +kernel
      rw [totalExponent, bits]
      rfl
    refine ⟨4503599627370496, goal + 1,
      ⟨by decide, by decide, by omega, .inl (Nat.le_refl _)⟩, ?_, ?_, ?_⟩
    · simp only [roundWithAccuracy, shifted, carry, second_shift_carry least]
      rfl
    · rw [length]
      omega
    · rw [length]
      omega

end Rounding

section Packing

variable {mantissa : Nat} {exponent : Int}

theorem Rounded.normal (h : Rounded mantissa exponent) (full : 4503599627370496 ≤ mantissa)
    (small : exponent ≤ 971) : Normal mantissa exponent := ⟨full, h.high, h.least, small⟩

theorem unpack_pack_of_subnormal (pos : 0 < mantissa) (short : mantissa < 4503599627370496) :
    (Float.Model.pack (.finite .positive mantissa (-1074) pos)).unpack =
      .finite .positive mantissa (-1074) pos := by
  have bits : mantissa.log2 < 52 := (Nat.log2_lt (Nat.ne_of_gt pos)).mpr short
  have packed : UnpackedFloat.pack .binary64 (.finite .positive mantissa (-1074) pos) =
      packComponents .binary64 .positive 0#11 (BitVec.ofNat 52 mantissa) := by
    have notFull : ¬mantissa.log2 + 1 = 53 := by omega
    rw [UnpackedFloat.pack]
    exact (if_neg (by decide)).trans (if_neg notFull)
  have value : (BitVec.ofNat 52 mantissa).toNat = mantissa := by
    rw [BitVec.toNat_ofNat]
    exact Nat.mod_eq_of_lt short
  have nonzero : BitVec.ofNat 52 mantissa ≠ 0#52 := by
    intro zero
    rw [zero] at value
    exact absurd value (Nat.ne_of_lt pos)
  change UnpackedFloat.unpack .binary64 (UnpackedFloat.pack .binary64 _) = _
  rw [packed, UnpackedFloat.unpack]
  simp only [unpackMantissa_packComponents, unpackExponent_packComponents, unpackSign_positive]
  rw [if_neg (by decide), if_pos trivial, dif_neg nonzero]
  simp only [value]
  rfl

/-- A rounded float is kept, unless it is too large for the format. -/
theorem unpack_pack_of_rounded (h : Rounded mantissa exponent) :
    (Float.Model.pack (.finite .positive mantissa exponent h.pos)).unpack =
      if exponent ≤ 971 then .finite .positive mantissa exponent h.pos
      else .infinity .positive := by
  by_cases small : exponent ≤ 971
  · rw [if_pos small]
    by_cases full : 4503599627370496 ≤ mantissa
    · exact unpack_pack_of_normal (h.normal full small)
    · obtain rfl : exponent = -1074 := h.full.resolve_left full
      exact unpack_pack_of_subnormal h.pos (Nat.lt_of_not_le full)
  · have bias : (exponent + Format.binary64.exponentBias +
        Format.binary64.mantissaBitsWithoutImplicit).toNat = (exponent + 1075).toNat := by
      change (exponent + (1023 : Nat) + (52 : Nat)).toNat = _
      omega
    have packed : UnpackedFloat.pack .binary64 (.finite .positive mantissa exponent h.pos) =
        packedInfinity .binary64 .positive := by
      rw [UnpackedFloat.pack]
      simp only [bias]
      exact if_pos (by change 2048 ≤ _; omega)
    change UnpackedFloat.unpack .binary64 (UnpackedFloat.pack .binary64 _) = _
    rw [if_neg small, packed]
    rfl

/-- What a float unpacks to is rounded and fits the format. -/
theorem rounded_of_unpack {x : Float.Model} {sign : Sign} {pos : 0 < mantissa}
    (h : x.unpack = .finite sign mantissa exponent pos) :
    Rounded mantissa exponent ∧ exponent ≤ 971 := by
  have fraction : (@unpackMantissa .binary64 x.toBits.toBitVec).toNat <
    4503599627370496 := BitVec.isLt _
  have places : (@unpackExponent .binary64 x.toBits.toBitVec).toNat < 2048 :=
    BitVec.isLt _
  change UnpackedFloat.unpack .binary64 x.toBits.toBitVec = _ at h
  rw [UnpackedFloat.unpack] at h
  simp only at h
  split at h
  · split at h <;> cases h
  · rename_i notLast
    split at h
    · rename_i first
      split at h
      · cases h
      · injection h with _ sameMantissa sameExponent
        have zero : (@unpackExponent .binary64 x.toBits.toBitVec).toNat = 0 := by
          rw [first]
          rfl
        have bottom : exponent = -1074 := by
          rw [← sameExponent, zero]
          rfl
        subst sameMantissa
        exact ⟨⟨pos, Nat.lt_trans fraction (by decide), by omega, .inr bottom⟩, by omega⟩
    · rename_i notFirst
      injection h with _ sameMantissa sameExponent
      have value : mantissa =
          4503599627370496 + (@unpackMantissa .binary64 x.toBits.toBitVec).toNat := by
        rw [← sameMantissa, BitVec.toNat_append,
          ← Nat.shiftLeft_add_eq_or_of_lt (BitVec.isLt _)]
        rfl
      have some_place : (@unpackExponent .binary64 x.toBits.toBitVec).toNat ≠ 0 :=
        fun zero => notFirst (BitVec.eq_of_toNat_eq zero)
      have not_all : (@unpackExponent .binary64 x.toBits.toBitVec).toNat ≠ 2047 :=
        fun last => notLast (BitVec.eq_of_toNat_eq last)
      have unbiased : exponent =
          ((@unpackExponent .binary64 x.toBits.toBitVec).toNat : Int) - 1075 :=
        sameExponent.symm
      exact ⟨⟨pos, by omega, by omega, .inl (by omega)⟩, by omega⟩

theorem Rounded.log2_le (h : Rounded mantissa exponent) : mantissa.log2 ≤ 52 :=
  Nat.le_of_lt_succ ((Nat.log2_lt (Nat.ne_of_gt h.pos)).mpr h.high)

/-- A rounded float below 2^1024 fits the format. -/
theorem Rounded.small (h : Rounded mantissa exponent)
    (below : totalExponent mantissa exponent ≤ 1024) : exponent ≤ 971 := by
  rcases h.full with full | bottom
  · have bits : 52 ≤ mantissa.log2 := (Nat.le_log2 (Nat.ne_of_gt h.pos)).mpr full
    rw [totalExponent] at below
    omega
  · omega

end Packing

section Bounds

variable {low high low' high' : Int} {x y : Float}

/-- From `2 ^ low` to below `2 ^ high`. -/
def Within (low high : Int) (x : Float) : Prop :=
  ∃ mantissa exponent pos, x.toModel.unpack = .finite .positive mantissa exponent pos ∧
    low < totalExponent mantissa exponent ∧ totalExponent mantissa exponent ≤ high

/-- At least `2 ^ low`, infinity included. -/
def AtLeast (low : Int) (x : Float) : Prop :=
  x.toModel.unpack = .infinity .positive ∨ ∃ high, Within low high x

theorem Within.atLeast (h : Within low high x) : AtLeast low x := .inr ⟨high, h⟩

/-- The quotient of two mantissas is computed to more bits than are kept. -/
theorem divCore_large {m n : Nat} {e f : Int} (posM : 0 < m) (posN : 0 < n)
    (large : -1074 < totalExponent m e - totalExponent n f) :
    ∃ quotient place accuracy, divCore .binary64 m e n f = (quotient, place, accuracy) ∧
      0 < quotient ∧
      place ≤ Format.binary64.targetExponent (totalExponent quotient place) ∧
      totalExponent m e - totalExponent n f ≤ totalExponent quotient place ∧
      totalExponent quotient place ≤ totalExponent m e - totalExponent n f + 1 := by
  have totalM : totalExponent m e = m.log2 + 1 + e := rfl
  have totalN : totalExponent n f = n.log2 + 1 + f := rfl
  rw [divCore, targetExponent_eq]
  generalize target : min (e - f) (max (totalExponent m e - totalExponent n f - 53) (-1074)) = goal
  obtain ⟨places, amount⟩ := Int.eq_ofNat_of_zero_le (by omega : 0 ≤ e - f - goal)
  obtain ⟨bits, left⟩ := Nat.exists_eq_add_of_le' (by omega : n.log2 + 1 ≤ m.log2 + places)
  have low : 2 ^ bits * n ≤ m <<< places := by
    calc 2 ^ bits * n ≤ 2 ^ bits * 2 ^ (n.log2 + 1) :=
          Nat.mul_le_mul_left _ (Nat.le_of_lt Nat.lt_log2_self)
      _ = 2 ^ m.log2 * 2 ^ places := by rw [← Nat.pow_add, ← left, Nat.pow_add]
      _ ≤ m * 2 ^ places := Nat.mul_le_mul_right _ (Nat.log2_self_le (Nat.ne_of_gt posM))
      _ = m <<< places := (Nat.shiftLeft_eq m places).symm
  have high : m <<< places < 2 ^ (bits + 2) * n := by
    calc m <<< places = m * 2 ^ places := Nat.shiftLeft_eq m places
      _ < 2 ^ (m.log2 + 1) * 2 ^ places :=
          Nat.mul_lt_mul_of_pos_right Nat.lt_log2_self (Nat.two_pow_pos places)
      _ = 2 ^ (bits + 2) * 2 ^ n.log2 := by
          rw [← Nat.pow_add, ← Nat.pow_add]
          congr 1
          omega
      _ ≤ 2 ^ (bits + 2) * n := Nat.mul_le_mul_left _ (Nat.log2_self_le (Nat.ne_of_gt posN))
  have least : 2 ^ bits ≤ m <<< places / n := (Nat.le_div_iff_mul_le posN).mpr low
  have positive : 0 < m <<< places / n := Nat.lt_of_lt_of_le (Nat.two_pow_pos bits) least
  have lowBits : bits ≤ (m <<< places / n).log2 :=
    (Nat.le_log2 (Nat.ne_of_gt positive)).mpr least
  have highBits : (m <<< places / n).log2 < bits + 2 :=
    (Nat.log2_lt (Nat.ne_of_gt positive)).mpr ((Nat.div_lt_iff_lt_mul posN).mpr high)
  have shift : (e - f - goal).toNat = places := by omega
  refine ⟨m <<< places / n, goal, _, by rw [shift], positive, ?_, ?_, ?_⟩
  · rw [targetExponent_eq, totalExponent]
    omega
  · rw [totalM, totalN, totalExponent]
    omega
  · rw [totalM, totalN, totalExponent]
    omega

theorem div_of_finite {m n : Nat} {e f : Int} {posM : 0 < m} {posN : 0 < n}
    (hx : x.toModel.unpack = .finite .positive m e posM)
    (hy : y.toModel.unpack = .finite .positive n f posN)
    (large : -1074 < totalExponent m e - totalExponent n f) :
    ∃ result place, ∃ h : Rounded result place,
      (x / y).toModel.unpack = (Float.Model.pack (.finite .positive result place h.pos)).unpack ∧
      totalExponent m e - totalExponent n f ≤ totalExponent result place ∧
      totalExponent result place ≤ totalExponent m e - totalExponent n f + 2 := by
  obtain ⟨quotient, goal, accuracy, core, positive, fine, least, most⟩ :=
    divCore_large posM posN large
  obtain ⟨result, place, h, rounded, above, below⟩ :=
    round_large positive accuracy fine (by omega)
  refine ⟨result, place, h, ?_, by omega, by omega⟩
  change (Float.Model.pack (UnpackedFloat.div .binary64 x.toModel.unpack y.toModel.unpack)).unpack
    = _
  rw [hx, hy, ← rounded]
  simp only [UnpackedFloat.div, core]
  rfl

theorem mul_of_finite {m n : Nat} {e f : Int} {posM : 0 < m} {posN : 0 < n}
    (hx : x.toModel.unpack = .finite .positive m e posM)
    (hy : y.toModel.unpack = .finite .positive n f posN)
    (large : -1073 < totalExponent m e + totalExponent n f) :
    ∃ result place, ∃ h : Rounded result place,
      (x * y).toModel.unpack = (Float.Model.pack (.finite .positive result place h.pos)).unpack ∧
      totalExponent m e + totalExponent n f - 1 ≤ totalExponent result place ∧
      totalExponent result place ≤ totalExponent m e + totalExponent n f + 1 := by
  have nonzeroM : m ≠ 0 := Nat.ne_of_gt posM
  have nonzeroN : n ≠ 0 := Nat.ne_of_gt posN
  have positive : 0 < m * n := Nat.mul_pos posM posN
  have nonzero : m * n ≠ 0 := Nat.ne_of_gt positive
  have totalM : totalExponent m e = m.log2 + 1 + e := rfl
  have totalN : totalExponent n f = n.log2 + 1 + f := rfl
  have total : totalExponent (m * n) (e + f) = (m * n).log2 + 1 + (e + f) := rfl
  have lowBits : m.log2 + n.log2 ≤ (m * n).log2 := by
    refine (Nat.le_log2 nonzero).mpr ?_
    rw [Nat.pow_add]
    exact Nat.mul_le_mul (Nat.log2_self_le nonzeroM) (Nat.log2_self_le nonzeroN)
  have highBits : (m * n).log2 < m.log2 + n.log2 + 2 := by
    refine (Nat.log2_lt nonzero).mpr ?_
    have split : m.log2 + n.log2 + 2 = (m.log2 + 1) + (n.log2 + 1) := by omega
    rw [split, Nat.pow_add]
    exact Nat.mul_lt_mul'' Nat.lt_log2_self Nat.lt_log2_self
  -- one mantissa has all its bits, or both exponents are the least
  have fine : e + f ≤ Format.binary64.targetExponent (totalExponent (m * n) (e + f)) := by
    have full (k : Nat) (nonzero : k ≠ 0) (h : 4503599627370496 ≤ k) : 52 ≤ k.log2 :=
      (Nat.le_log2 nonzero).mpr h
    rw [targetExponent_eq]
    rcases (rounded_of_unpack hx).1.full with fullM | bottomM
    · have := full m nonzeroM fullM
      omega
    · rcases (rounded_of_unpack hy).1.full with fullN | bottomN
      · have := full n nonzeroN fullN
        omega
      · omega
  obtain ⟨result, place, h, rounded, above, below⟩ :=
    round_large positive .exact fine (by omega)
  refine ⟨result, place, h, ?_, by omega, by omega⟩
  change (Float.Model.pack (UnpackedFloat.mul .binary64 x.toModel.unpack y.toModel.unpack)).unpack
    = _
  rw [hx, hy, ← rounded]
  rfl

theorem within_of_rounded {z : Float} {mantissa : Nat} {exponent : Int}
    (h : Rounded mantissa exponent)
    (packed : z.toModel.unpack =
      (Float.Model.pack (.finite .positive mantissa exponent h.pos)).unpack)
    (above : low < totalExponent mantissa exponent)
    (below : totalExponent mantissa exponent ≤ high) (fits : high ≤ 1024) :
    Within low high z := by
  rw [unpack_pack_of_rounded h, if_pos (h.small (Int.le_trans below fits))] at packed
  exact ⟨mantissa, exponent, h.pos, packed, above, below⟩

theorem atLeast_of_rounded {z : Float} {mantissa : Nat} {exponent : Int}
    (h : Rounded mantissa exponent)
    (packed : z.toModel.unpack =
      (Float.Model.pack (.finite .positive mantissa exponent h.pos)).unpack)
    (above : low < totalExponent mantissa exponent) : AtLeast low z := by
  by_cases small : exponent ≤ 971
  · rw [unpack_pack_of_rounded h, if_pos small] at packed
    exact .inr ⟨_, mantissa, exponent, h.pos, packed, above, Int.le_refl _⟩
  · rw [unpack_pack_of_rounded h, if_neg small] at packed
    exact .inl packed

/-- Bounds on a quotient from bounds on its parts. -/
theorem Within.div (hx : Within low high x) (hy : Within low' high' y)
    (enough : -1074 ≤ low - high') (fits : high - low' < 1024) :
    Within (low - high') (high - low' + 1) (x / y) := by
  obtain ⟨m, e, posM, hx, aboveX, belowX⟩ := hx
  obtain ⟨n, f, posN, hy, aboveY, belowY⟩ := hy
  obtain ⟨result, place, h, packed, above, below⟩ := div_of_finite hx hy (by omega)
  exact within_of_rounded h packed (by omega) (by omega) (by omega)

theorem AtLeast.div (hx : AtLeast low x) (hy : Within low' high' y)
    (enough : -1074 ≤ low - high') : AtLeast (low - high') (x / y) := by
  obtain ⟨n, f, posN, hy, aboveY, belowY⟩ := hy
  rcases hx with infinite | ⟨high, m, e, posM, hx, aboveX, belowX⟩
  · have result : UnpackedFloat.div .binary64 (.infinity .positive)
        (.finite .positive n f posN) = .infinity .positive := rfl
    refine .inl ?_
    change (Float.Model.pack
      (UnpackedFloat.div .binary64 x.toModel.unpack y.toModel.unpack)).unpack = _
    rw [infinite, hy, result]
    rfl
  · obtain ⟨result, place, h, packed, above, below⟩ := div_of_finite hx hy (by omega)
    exact atLeast_of_rounded h packed (by omega)

/-- Bounds on a product from bounds on its parts. -/
theorem Within.mul (hx : Within low high x) (hy : Within low' high' y)
    (enough : -1074 ≤ low + low') (fits : high + high' < 1024) :
    Within (low + low') (high + high' + 1) (x * y) := by
  obtain ⟨m, e, posM, hx, aboveX, belowX⟩ := hx
  obtain ⟨n, f, posN, hy, aboveY, belowY⟩ := hy
  obtain ⟨result, place, h, packed, above, below⟩ := mul_of_finite hx hy (by omega)
  exact within_of_rounded h packed (by omega) (by omega) (by omega)

theorem AtLeast.mul (hx : AtLeast low x) (hy : Within low' high' y)
    (enough : -1074 ≤ low + low') : AtLeast (low + low') (x * y) := by
  obtain ⟨n, f, posN, hy, aboveY, belowY⟩ := hy
  rcases hx with infinite | ⟨high, m, e, posM, hx, aboveX, belowX⟩
  · have result : UnpackedFloat.mul .binary64 (.infinity .positive)
        (.finite .positive n f posN) = .infinity .positive := rfl
    refine .inl ?_
    change (Float.Model.pack
      (UnpackedFloat.mul .binary64 x.toModel.unpack y.toModel.unpack)).unpack = _
    rw [infinite, hy, result]
    rfl
  · obtain ⟨result, place, h, packed, above, below⟩ := mul_of_finite hx hy (by omega)
    exact atLeast_of_rounded h packed (by omega)

end Bounds

end KeyScore.Number
