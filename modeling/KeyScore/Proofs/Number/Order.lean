import KeyScore.Proofs.Number.Magnitude
import KeyScore.Settings
import Mathlib

/-!
# Order

Comparing floats reads off their unpacked forms. NaN is in order with nothing; all other floats
are in order with each other, so what is not less is greater or equal. Only adding or dividing
infinities, or multiplying one by zero, makes a NaN of other floats.
-/

namespace KeyScore.Number

open Float.Model Float.Model.UnpackedFloat

variable {x y : Float}

theorem lt_iff : x < y ↔
    UnpackedFloat.compare x.toModel.unpack y.toModel.unpack = some .lt := by
  have decided : x < y ↔ decide (x.toModel < y.toModel) = true := Iff.rfl
  have model : x.toModel < y.toModel ↔
    UnpackedFloat.lt x.toModel.unpack y.toModel.unpack = true := Iff.rfl
  rw [decided, decide_eq_true_iff, model, UnpackedFloat.lt, beq_iff_eq]

theorem le_iff : x ≤ y ↔ ∃ order,
    UnpackedFloat.compare x.toModel.unpack y.toModel.unpack = some order ∧ order ≠ .gt := by
  have decided : x ≤ y ↔ decide (x.toModel ≤ y.toModel) = true := Iff.rfl
  have model : x.toModel ≤ y.toModel ↔
    UnpackedFloat.le x.toModel.unpack y.toModel.unpack = true := Iff.rfl
  rw [decided, decide_eq_true_iff, model, UnpackedFloat.le]
  cases UnpackedFloat.compare x.toModel.unpack y.toModel.unpack with
  | none => simp
  | some order => cases order <;> simp [Ordering.isLE]

theorem isNaN_eq_false_iff : x.isNaN = false ↔ x.toModel.unpack ≠ .notANumber := by
  have model : x.isNaN = UnpackedFloat.isNaN x.toModel.unpack := rfl
  rw [model]
  cases x.toModel.unpack <;> simp [UnpackedFloat.isNaN]

/-- Comparing the other way gives the opposite. -/
theorem compare_swap (a b : UnpackedFloat) :
    UnpackedFloat.compare b a = (UnpackedFloat.compare a b).map Ordering.swap := by
  have exponents (m n : Nat) (e f : Int) :
      (compare f e).then (compare n m) = ((compare e f).then (compare m n)).swap := by
    rw [Ordering.swap_then, Int.compare_swap, Nat.compare_swap]
  rcases a with ⟨⟨⟩⟩ | _ | ⟨⟨⟩⟩ | ⟨⟨⟩, m, e, _⟩ <;>
    rcases b with ⟨⟨⟩⟩ | _ | ⟨⟨⟩⟩ | ⟨⟨⟩, n, f, _⟩
  case finite.negative.finite.negative =>
    exact congrArg (fun order => some order.swap) (exponents m n e f)
  case finite.positive.finite.positive => exact congrArg some (exponents m n e f)
  all_goals rfl

theorem exists_compare {a b : UnpackedFloat} (ha : a ≠ .notANumber) (hb : b ≠ .notANumber) :
    ∃ order, UnpackedFloat.compare a b = some order := by
  rcases a with ⟨⟨⟩⟩ | _ | ⟨⟨⟩⟩ | ⟨⟨⟩, m, e, _⟩
  case notANumber => exact absurd rfl ha
  all_goals
    rcases b with ⟨⟨⟩⟩ | _ | ⟨⟨⟩⟩ | ⟨⟨⟩, n, f, _⟩
    case notANumber => exact absurd rfl hb
    all_goals exact ⟨_, rfl⟩

/-- Numbers are in order one way or the other. -/
theorem le_of_not_lt (hx : x.isNaN = false) (hy : y.isNaN = false) (h : ¬x < y) : y ≤ x := by
  obtain ⟨order, compared⟩ :=
    exists_compare (isNaN_eq_false_iff.mp hx) (isNaN_eq_false_iff.mp hy)
  rw [lt_iff, compared] at h
  refine le_iff.mpr ⟨order.swap, ?_, ?_⟩
  · rw [compare_swap, compared]
    rfl
  · cases order with
    | lt => exact absurd rfl h
    | eq => exact Ordering.noConfusion
    | gt => exact Ordering.noConfusion

theorem not_lt_self (x : Float) : ¬x < x := by
  intro less
  have swapped := compare_swap x.toModel.unpack x.toModel.unpack
  rw [lt_iff.mp less] at swapped
  cases swapped

theorem not_lt_of_le (h : y ≤ x) : ¬x < y := by
  obtain ⟨order, compared, notMore⟩ := le_iff.mp h
  rw [lt_iff, compare_swap, compared]
  cases order with
  | lt => exact fun same => nomatch same
  | eq => exact fun same => nomatch same
  | gt => exact absurd rfl notMore

section Positive

variable {low high : Int}

theorem Within.isFinite (h : Within low high x) : x.isFinite = true := by
  obtain ⟨mantissa, exponent, pos, unpacked, -⟩ := h
  change UnpackedFloat.isFinite x.toModel.unpack = true
  rw [unpacked]
  rfl

theorem AtLeast.isNaN (h : AtLeast low x) : x.isNaN = false := by
  rw [isNaN_eq_false_iff]
  rcases h with infinite | ⟨high, mantissa, exponent, pos, unpacked, -⟩
  · rw [infinite]
    exact UnpackedFloat.noConfusion
  · rw [unpacked]
    exact UnpackedFloat.noConfusion

theorem AtLeast.zero_lt (h : AtLeast low x) : 0.0 < x := by
  have zero : (0.0 : Float).toModel.unpack = .zero .positive := rfl
  rw [lt_iff, zero]
  rcases h with infinite | ⟨high, mantissa, exponent, pos, unpacked, -⟩
  · rw [infinite]
    rfl
  · rw [unpacked]
    rfl

/-- A finite positive float is within the bounds of the format. -/
theorem within_of_finite (finite : x.isFinite = true) (positive : 0.0 < x) :
    Within (-1074) 1024 x := by
  have zero : (0.0 : Float).toModel.unpack = .zero .positive := rfl
  change UnpackedFloat.isFinite x.toModel.unpack = true at finite
  rw [lt_iff, zero] at positive
  match unpacked : x.toModel.unpack with
  | .finite .positive mantissa exponent pos =>
    obtain ⟨rounded, small⟩ := rounded_of_unpack unpacked
    have least := rounded.least
    have bits := rounded.log2_le
    refine ⟨mantissa, exponent, pos, unpacked, ?_, ?_⟩
    · rw [totalExponent]
      omega
    · rw [totalExponent]
      omega
  | .finite .negative mantissa exponent pos =>
    rw [unpacked] at positive
    cases positive
  | .zero sign =>
    rw [unpacked] at positive
    cases positive
  | .infinity sign =>
    rw [unpacked] at finite
    cases finite
  | .notANumber =>
    rw [unpacked] at finite
    cases finite

/-- What lies between positive numbers is finite and positive. -/
theorem within_of_le {low' high' : Int} {a b : Float} (ha : Within low high a)
    (hb : Within low' high' b) (above : a ≤ x) (below : x ≤ b) : Within (-1074) 1024 x := by
  obtain ⟨m, e, posM, unpackedA, -⟩ := ha
  obtain ⟨n, f, posN, unpackedB, -⟩ := hb
  have zero : (0.0 : Float).toModel.unpack = .zero .positive := rfl
  have finite : UnpackedFloat.isFinite x.toModel.unpack = true ∧ 0.0 < x := by
    rw [le_iff, unpackedA] at above
    rw [le_iff, unpackedB] at below
    rw [lt_iff, zero]
    generalize x.toModel.unpack = unpacked at above below ⊢
    match unpacked, above, below with
    | .finite .positive mantissa exponent pos, _, _ => exact ⟨rfl, rfl⟩
    | .finite .negative mantissa exponent pos, ⟨_, rfl, notMore⟩, _ => exact absurd rfl notMore
    | .zero sign, ⟨_, rfl, notMore⟩, _ => exact absurd rfl notMore
    | .infinity .negative, ⟨_, rfl, notMore⟩, _ => exact absurd rfl notMore
    | .infinity .positive, _, ⟨_, rfl, notMore⟩ => exact absurd rfl notMore
  exact within_of_finite finite.1 finite.2

end Positive

section Clamp

/-- Clamping gives one of the bounds, or a float that is beyond neither. -/
theorem clamp_cases (low high x : Float) :
    clamp low high x = low ∨ clamp low high x = high ∨
      clamp low high x = x ∧ ¬x < low ∧ ¬high < x := by
  rw [clamp]
  split
  · exact .inl rfl
  · split
    · exact .inr (.inl rfl)
    · exact .inr (.inr ⟨rfl, ‹_›, ‹_›⟩)

/-- A number is clamped to one between the bounds. -/
theorem clamp_bounds {low high : Float} (ordered : low ≤ high) (hl : low.isNaN = false)
    (hh : high.isNaN = false) (hx : x.isNaN = false) :
    (clamp low high x).isNaN = false ∧ low ≤ clamp low high x ∧ clamp low high x ≤ high := by
  have refl {y : Float} (hy : y.isNaN = false) : y ≤ y :=
    le_of_not_lt hy hy (not_lt_self y)
  rcases clamp_cases low high x with same | same | ⟨same, notLess, notMore⟩
  · rw [same]
    exact ⟨hl, refl hl, ordered⟩
  · rw [same]
    exact ⟨hh, ordered, refl hh⟩
  · rw [same]
    exact ⟨hx, le_of_not_lt hx hl notLess, le_of_not_lt hh hx notMore⟩

end Clamp

section Literals

theorem within_ten : Within 3 4 10.0 :=
  ⟨5629499534213120, -49, by decide, rfl, by decide +kernel, by decide +kernel⟩

theorem within_sixty : Within 5 6 60.0 :=
  ⟨8444249301319680, -47, by decide, rfl, by decide +kernel, by decide +kernel⟩

theorem within_four : Within 2 3 4.0 :=
  ⟨4503599627370496, -50, by decide, rfl, by decide +kernel, by decide +kernel⟩

theorem within_fastest : Within 8 9 480.0 :=
  ⟨8444249301319680, -44, by decide, rfl, by decide +kernel, by decide +kernel⟩

/-- A word that is not zero is a float of its own. -/
theorem within_toFloat {n : UInt32} (nonzero : n ≠ 0) : Within 0 32 n.toFloat := by
  have pos : 0 < n.toNat := Nat.pos_of_ne_zero fun zero => nonzero (UInt32.toNat_inj.mp zero)
  have word : n.toNat < 4294967296 := n.toNat_lt
  have small : n.toNat < 9007199254740992 := Nat.lt_trans word (by decide)
  have normal := normal_of_whole pos small
  have same : UnpackedFloat.ofUInt32 .binary64 n =
      UnpackedFloat.ofUInt64 .binary64 n.toNat.toUInt64 := by
    have value : n.toNat.toUInt64.toNat = n.toNat :=
      Nat.mod_eq_of_lt (Nat.lt_trans word (by decide))
    rw [UnpackedFloat.ofUInt64, value]
    rfl
  have bits : n.toNat.log2 < 32 := (Nat.log2_lt (Nat.ne_of_gt pos)).mpr word
  refine ⟨_, -((52 - n.toNat.log2 : Nat) : Int), normal.pos, ?_, ?_, ?_⟩
  · change (Float.Model.pack (UnpackedFloat.ofUInt32 .binary64 n)).unpack = _
    rw [same, ofUInt64_of_whole pos small]
    exact unpack_pack_of_normal normal
  · rw [totalExponent, normal.log2_eq]
    omega
  · rw [totalExponent, normal.log2_eq]
    omega

end Literals

section NaN

/-- The exponent of a NaN has all its bits. -/
theorem unpack_packComponents_ne_notANumber (sign : Sign) {exponent : BitVec 11}
    (notAll : exponent ≠ -1#11) (mantissa : BitVec 52) :
    UnpackedFloat.unpack .binary64 (packComponents .binary64 sign exponent mantissa) ≠
      .notANumber := by
  rw [UnpackedFloat.unpack]
  simp only [unpackMantissa_packComponents, unpackExponent_packComponents]
  rw [if_neg notAll]
  split
  · split <;> exact UnpackedFloat.noConfusion
  · exact UnpackedFloat.noConfusion

/-- Packing makes no NaN. -/
theorem unpack_pack_ne_notANumber {u : UnpackedFloat} (number : u ≠ .notANumber) :
    (Float.Model.pack u).unpack ≠ .notANumber := by
  change UnpackedFloat.unpack .binary64 (UnpackedFloat.pack .binary64 u) ≠ _
  have infinite (sign : Sign) : UnpackedFloat.unpack .binary64
      (UnpackedFloat.packedInfinity .binary64 sign) ≠ .notANumber := by
    cases sign <;> exact UnpackedFloat.noConfusion
  match u with
  | .notANumber => exact absurd rfl number
  | .infinity sign => exact infinite sign
  | .zero sign => exact unpack_packComponents_ne_notANumber sign (by decide) 0
  | .finite sign mantissa exponent pos =>
    rw [UnpackedFloat.pack]
    split
    · exact infinite sign
    · rename_i fits
      split
      · refine unpack_packComponents_ne_notANumber sign (fun all => fits ?_) _
        have value := congrArg BitVec.toNat all
        rw [BitVec.toNat_ofNat] at value
        change _ % 2048 = 2047 at value
        change 2048 ≤ _
        omega
      · exact unpack_packComponents_ne_notANumber sign (by decide) _

theorem round_ne_notANumber (sign : Sign) (mantissa : Nat) (exponent : Int)
    (accuracy : Accuracy) :
    roundWithAccuracy .binary64 sign mantissa exponent accuracy ≠ .notANumber := by
  simp only [roundWithAccuracy]
  split <;> exact UnpackedFloat.noConfusion

/-- A finite factor that is not zero leaves numbers numbers. -/
theorem isNaN_mul {low high : Int} (hx : Within low high x) (hy : y.isNaN = false) :
    (x * y).isNaN = false := by
  obtain ⟨m, e, pos, unpacked, -⟩ := hx
  rw [isNaN_eq_false_iff] at hy ⊢
  change (Float.Model.pack
    (UnpackedFloat.mul .binary64 x.toModel.unpack y.toModel.unpack)).unpack ≠ _
  refine unpack_pack_ne_notANumber ?_
  rw [unpacked]
  match y.toModel.unpack, hy with
  | .notANumber, number => exact absurd rfl number
  | .infinity sign, _ => exact UnpackedFloat.noConfusion
  | .zero sign, _ => exact UnpackedFloat.noConfusion
  | .finite sign n f _, _ => exact round_ne_notANumber _ _ _ _

/-- So does a finite divisor that is not zero. -/
theorem isNaN_div {low high : Int} (hx : x.isNaN = false) (hy : Within low high y) :
    (x / y).isNaN = false := by
  obtain ⟨n, f, pos, unpacked, -⟩ := hy
  rw [isNaN_eq_false_iff] at hx ⊢
  change (Float.Model.pack
    (UnpackedFloat.div .binary64 x.toModel.unpack y.toModel.unpack)).unpack ≠ _
  refine unpack_pack_ne_notANumber ?_
  rw [unpacked]
  match x.toModel.unpack, hx with
  | .notANumber, number => exact absurd rfl number
  | .infinity sign, _ => exact UnpackedFloat.noConfusion
  | .zero sign, _ => exact UnpackedFloat.noConfusion
  | .finite sign m e _, _ => exact round_ne_notANumber _ _ _ _

theorem ofScientific_ne_notANumber (mantissa : Nat) (exponent : Int) :
    UnpackedFloat.ofScientific .binary64 mantissa exponent ≠ .notANumber := by
  rw [UnpackedFloat.ofScientific]
  split
  · exact UnpackedFloat.noConfusion
  split
  · exact UnpackedFloat.noConfusion
  split
  · exact UnpackedFloat.noConfusion
  split
  · exact round_ne_notANumber _ _ _ _
  · exact round_ne_notANumber _ _ _ _

/-- A whole number of any size is a number as a float, the largest ones infinity. -/
theorem isNaN_ofNat (n : Nat) : (Float.ofNat n).isNaN = false := by
  by_cases short : n < 9007199254740992
  · rcases Nat.eq_zero_or_pos n with rfl | pos
    · rfl
    · obtain ⟨mantissa, exponent, h, unpacked⟩ := unpack_ofNat pos short
      rw [isNaN_eq_false_iff, unpacked]
      exact UnpackedFloat.noConfusion
  · have slow : Float.ofNat n = Float.ofModel (Float.Model.ofScientific n 0) :=
      dif_neg fun fast => short fast.1
    rw [isNaN_eq_false_iff, slow]
    exact unpack_pack_ne_notANumber (ofScientific_ne_notANumber n 0)

end NaN

end KeyScore.Number
