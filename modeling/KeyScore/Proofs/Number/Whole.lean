import KeyScore.Number.Decimal
import Mathlib

/-!
# Whole numbers as floats

A whole number below 2^53 is a float without rounding: its binary digits, shifted to the left
end of the mantissa, are all there. So the float is finite, and it is positive if the number is.
-/

namespace KeyScore.Number

open Float.Model Float.Model.UnpackedFloat

/-- The mantissas of 53 bits, from 2^52 to 2^53, with the exponents that go with them. -/
structure Normal (mantissa : Nat) (exponent : Int) : Prop where
  low : 4503599627370496 ≤ mantissa
  high : mantissa < 9007199254740992
  least : -1074 ≤ exponent
  greatest : exponent ≤ 971

namespace Normal

variable {mantissa : Nat} {exponent : Int}

theorem pos (h : Normal mantissa exponent) : 0 < mantissa :=
  Nat.lt_of_lt_of_le (by decide) h.low

theorem log2_eq (h : Normal mantissa exponent) : mantissa.log2 = 52 :=
  (Nat.log2_eq_iff (Nat.ne_of_gt h.pos)).mpr ⟨h.low, h.high⟩

/-- Shifting to the left makes the exponent of the whole larger. -/
theorem log2_shifted (h : Normal mantissa exponent) (places : Nat) :
    (mantissa <<< places).log2 = 52 + places := by
  have pos : mantissa <<< places ≠ 0 := by
    rw [Nat.shiftLeft_eq]
    exact Nat.mul_ne_zero (Nat.ne_of_gt h.pos) (Nat.ne_of_gt (Nat.two_pow_pos places))
  refine (Nat.log2_eq_iff pos).mpr ⟨?_, ?_⟩
  · rw [Nat.shiftLeft_eq, Nat.pow_add]
    exact Nat.mul_le_mul_right _ h.low
  · rw [Nat.shiftLeft_eq, Nat.add_right_comm, Nat.pow_add]
    exact Nat.mul_lt_mul_of_pos_right h.high (Nat.two_pow_pos places)

end Normal

/-- Shifting back drops the zeros that were shifted in, and nothing is lost. -/
theorem shifted_back (mantissa places : Nat) :
    Nat.repeat ExtendedMantissa.shiftRightOne places ⟨mantissa <<< places, false, false⟩ =
      ⟨mantissa, false, false⟩ := by
  induction places generalizing mantissa with
  | zero => rfl
  | succ places ih =>
    have more : mantissa <<< (places + 1) = (2 * mantissa) <<< places := by
      rw [Nat.shiftLeft_succ_inside]
    rw [more, Nat.repeat, ih, ExtendedMantissa.shiftRightOne]
    simp

theorem targetExponent_of_normal {exponent : Int} (least : -1074 ≤ exponent) :
    Format.binary64.targetExponent (53 + exponent) = exponent := by
  have floor : Format.binary64.minExponent = -1074 := rfl
  have bits : (Format.binary64.mantissaBits : Int) = 53 := rfl
  rw [Format.targetExponent, floor, bits]
  omega

theorem shiftToTargetExponent_of_normal {mantissa : Nat} {exponent : Int}
    (h : Normal mantissa exponent) (places : Nat) :
    shiftToTargetExponent .binary64 (mantissa <<< places) (exponent - places) .exact =
      (⟨mantissa, false, false⟩, exponent) := by
  have total : totalExponent (mantissa <<< places) (exponent - places) = 53 + exponent := by
    rw [totalExponent, h.log2_shifted]
    omega
  have amount : (exponent - (exponent - places)).toNat = places := by omega
  rw [shiftToTargetExponent, total, targetExponent_of_normal h.least, shiftToExponent, amount]
  refine Prod.ext (shifted_back mantissa places) ?_
  change exponent - places + places = exponent
  omega

/-- A normal mantissa is rounded to itself, also if it comes with zeros behind it. -/
theorem round_of_normal {mantissa : Nat} {exponent : Int} (h : Normal mantissa exponent)
    (places : Nat) :
    roundWithAccuracy .binary64 .positive (mantissa <<< places) (exponent - places) .exact =
      .finite .positive mantissa exponent h.pos := by
  have again := shiftToTargetExponent_of_normal h 0
  rw [Nat.shiftLeft_zero, Int.natCast_zero, Int.sub_zero] at again
  have exact : ExtendedMantissa.roundedMantissa ⟨mantissa, false, false⟩ = mantissa := rfl
  simp only [roundWithAccuracy, shiftToTargetExponent_of_normal h places, exact, again]
  exact dif_neg (Nat.ne_of_gt h.pos)

theorem unpackSign_positive (exponent : BitVec 11) (mantissa : BitVec 52) :
    unpackSign (packComponents .binary64 .positive exponent mantissa) = 0#1 := by
  rw [unpackSign, packComponents, BitVec.extractLsb,
    BitVec.extractLsb'_append_eq_of_le (by decide), BitVec.extractLsb'_append_eq_of_le (by decide)]
  rfl

/-- The leading one of a normal mantissa is left out and put back. -/
theorem toNat_leading_one {mantissa : Nat} {exponent : Int} (h : Normal mantissa exponent) :
    (1#1 ++ BitVec.ofNat 52 mantissa).toNat = mantissa := by
  have low := h.low
  have high := h.high
  rw [BitVec.toNat_append, ← Nat.shiftLeft_add_eq_or_of_lt (BitVec.ofNat 52 mantissa).isLt,
    BitVec.toNat_ofNat, Nat.shiftLeft_eq]
  change 1 * 4503599627370496 + mantissa % 4503599627370496 = mantissa
  omega

theorem unpack_pack_of_normal {mantissa : Nat} {exponent : Int} (h : Normal mantissa exponent) :
    (Float.Model.pack (.finite .positive mantissa exponent h.pos)).unpack =
      .finite .positive mantissa exponent h.pos := by
  have least := h.least
  have greatest := h.greatest
  have bias : (exponent + Format.binary64.exponentBias +
      Format.binary64.mantissaBitsWithoutImplicit).toNat = (exponent + 1075).toNat := by
    change (exponent + (1023 : Nat) + (52 : Nat)).toNat = _
    omega
  have packed : UnpackedFloat.pack .binary64 (.finite .positive mantissa exponent h.pos) =
      packComponents .binary64 .positive (BitVec.ofNat 11 (exponent + 1075).toNat)
        (BitVec.ofNat 52 mantissa) := by
    rw [UnpackedFloat.pack]
    simp only [h.log2_eq, bias]
    rw [if_neg (by change ¬2048 ≤ _; omega), if_pos (by rfl)]
  change UnpackedFloat.unpack .binary64 (UnpackedFloat.pack .binary64 _) = _
  rw [packed, UnpackedFloat.unpack]
  simp only [unpackMantissa_packComponents, unpackExponent_packComponents, unpackSign_positive]
  have notLast : BitVec.ofNat 11 (exponent + 1075).toNat ≠ -1#11 := by
    intro same
    have value := congrArg BitVec.toNat same
    rw [BitVec.toNat_ofNat] at value
    change _ = 2047 at value
    omega
  have notFirst : BitVec.ofNat 11 (exponent + 1075).toNat ≠ 0#11 := by
    intro same
    have value := congrArg BitVec.toNat same
    rw [BitVec.toNat_ofNat] at value
    change _ = 0 at value
    omega
  have unbiased : ((BitVec.ofNat 11 (exponent + 1075).toNat).toNat : Int) -
      (Format.binary64.exponentBias + (52 : Nat)) = exponent := by
    rw [BitVec.toNat_ofNat]
    change (((exponent + 1075).toNat % 2048 : Nat) : Int) - ((1023 : Nat) + (52 : Nat)) = exponent
    omega
  rw [if_neg notLast, if_neg notFirst]
  simp only [toNat_leading_one h, unbiased]
  rfl

/-- A positive whole number below 2^53, shifted to the left end of a mantissa. -/
theorem normal_of_whole {n : Nat} (pos : 0 < n) (small : n < 9007199254740992) :
    Normal (n <<< (52 - n.log2)) (-((52 - n.log2 : Nat) : Int)) := by
  have nonzero : n ≠ 0 := Nat.ne_of_gt pos
  have bits : n.log2 < 53 := (Nat.log2_lt nonzero).mpr small
  have least : Nat.pow 2 n.log2 ≤ n := Nat.log2_self_le nonzero
  have greatest : n < Nat.pow 2 (n.log2 + 1) := Nat.lt_log2_self
  have lowEnd : Nat.pow 2 n.log2 * Nat.pow 2 (52 - n.log2) = 4503599627370496 := by
    refine (Nat.pow_add 2 n.log2 (52 - n.log2)).symm.trans ?_
    rw [Nat.add_sub_of_le (by omega)]
  have highEnd : Nat.pow 2 (n.log2 + 1) * Nat.pow 2 (52 - n.log2) = 9007199254740992 := by
    refine (Nat.pow_add 2 (n.log2 + 1) (52 - n.log2)).symm.trans ?_
    rw [Nat.add_right_comm, Nat.add_sub_of_le (by omega)]
  refine ⟨?_, ?_, by omega, by omega⟩
  · rw [Nat.shiftLeft_eq, ← lowEnd]
    exact Nat.mul_le_mul_right _ least
  · rw [Nat.shiftLeft_eq, ← highEnd]
    exact Nat.mul_lt_mul_of_pos_right greatest (Nat.two_pow_pos _)

/-- A whole number below 2^53 is its own binary digits, and no rounding is done. -/
theorem ofUInt64_of_whole {n : Nat} (pos : 0 < n) (small : n < 9007199254740992) :
    UnpackedFloat.ofUInt64 .binary64 n.toUInt64 =
      .finite .positive (n <<< (52 - n.log2)) (-((52 - n.log2 : Nat) : Int))
        (normal_of_whole pos small).pos := by
  have bits : n.log2 < 53 := (Nat.log2_lt (Nat.ne_of_gt pos)).mpr small
  have value : n.toUInt64.toNat = n :=
    Nat.mod_eq_of_lt (Nat.lt_trans small (by decide))
  have total : totalExponent n 0 = 53 + (-((52 - n.log2 : Nat) : Int)) := by
    rw [totalExponent]
    omega
  have places : (-(-((52 - n.log2 : Nat) : Int))).toNat = 52 - n.log2 := by omega
  have positive : compare (n : Int) 0 = .gt :=
    Int.compare_eq_gt.mpr (Int.natCast_pos.mpr pos)
  have rounded := round_of_normal (normal_of_whole pos small) 0
  rw [Nat.shiftLeft_zero, Int.natCast_zero, Int.sub_zero] at rounded
  rw [UnpackedFloat.ofUInt64, value, UnpackedFloat.ofNat, UnpackedFloat.ofInt,
    UnpackedFloat.normalize]
  simp only [positive, Int.toNat_natCast, UnpackedFloat.round, total,
    targetExponent_of_normal (normal_of_whole pos small).least, decreaseExponent, Int.zero_sub,
    places]
  exact rounded

theorem unpack_ofNat {n : Nat} (pos : 0 < n) (small : n < 9007199254740992) :
    ∃ mantissa exponent, ∃ h : Normal mantissa exponent,
      (Float.ofNat n).toModel.unpack = .finite .positive mantissa exponent h.pos := by
  have normal := normal_of_whole pos small
  -- a short mantissa is multiplied by a power of ten, here by one
  have one : (Float.exactlyRepresentablePowersOfTen[0]).toModel.unpack =
      .finite .positive 4503599627370496 (-52) (by decide) := rfl
  have multiplied :
      Float.ofNat n = n.toUInt64.toFloat * Float.exactlyRepresentablePowersOfTen[0] :=
    dif_pos ⟨small, Nat.zero_le 22⟩
  have shifted := round_of_normal normal 52
  rw [Nat.shiftLeft_eq] at shifted
  have left : n.toUInt64.toFloat.toModel.unpack = .finite .positive (n <<< (52 - n.log2))
      (-((52 - n.log2 : Nat) : Int)) normal.pos := by
    change (Float.Model.pack (UnpackedFloat.ofUInt64 .binary64 n.toUInt64)).unpack = _
    rw [ofUInt64_of_whole pos small, unpack_pack_of_normal normal]
  refine ⟨_, _, normal, ?_⟩
  rw [multiplied]
  change (Float.Model.pack (UnpackedFloat.mul .binary64 n.toUInt64.toFloat.toModel.unpack
    (Float.exactlyRepresentablePowersOfTen[0]).toModel.unpack)).unpack = _
  rw [left, one]
  exact (congrArg (fun x => (Float.Model.pack x).unpack) shifted).trans
    (unpack_pack_of_normal normal)

theorem isFinite_ofNat {n : Nat} (pos : 0 < n) (small : n < 9007199254740992) :
    (Float.ofNat n).isFinite = true := by
  obtain ⟨mantissa, exponent, h, unpacked⟩ := unpack_ofNat pos small
  rw [Float.isFinite, Float.Model.isFinite, unpacked]
  rfl

theorem zero_lt_ofNat {n : Nat} (pos : 0 < n) (small : n < 9007199254740992) :
    0.0 < Float.ofNat n := by
  obtain ⟨mantissa, exponent, h, unpacked⟩ := unpack_ofNat pos small
  have zero : (0.0 : Float).toModel.unpack = .zero .positive := rfl
  refine decide_eq_true (?_ : (0.0 : Float).toModel < (Float.ofNat n).toModel)
  change UnpackedFloat.lt (0.0 : Float).toModel.unpack (Float.ofNat n).toModel.unpack = true
  rw [zero, unpacked]
  rfl

section Digits

variable {cs : List Char}

theorem toLower_of_isDigit {c : Char} (h : c.isDigit = true) : c.toLower = c := by
  have high : c.val ≤ 57 := by
    simp only [Char.isDigit, Bool.and_eq_true, decide_eq_true_eq] at h
    exact h.2
  refine dif_neg fun upper => ?_
  exact absurd (UInt32.le_trans upper.1 high) (by decide)

/-- A word that starts with a letter is no row of digits. -/
theorem ne_word_of_digits (digits : ∀ c ∈ cs, c.isDigit = true) {letter : Char}
    {letters : List Char} (h : letter.isDigit = false) :
    String.ofList (cs.map Char.toLower) ≠ String.ofList (letter :: letters) := by
  have folded : cs.map Char.toLower = cs := by
    refine (List.map_congr_left fun c inside => ?_).trans (List.map_id cs)
    exact toLower_of_isDigit (digits c inside)
  rw [folded]
  intro same
  have first : letter ∈ cs := by
    rw [String.ofList_injective same]
    exact List.mem_cons_self ..
  rw [digits letter first] at h
  cases h

theorem readDecimal?_of_digits (nonempty : cs ≠ []) (digits : ∀ c ∈ cs, c.isDigit = true) :
    readDecimal? cs = some (Float.ofNat (ofDigits cs)) := by
  have whole : cs.takeWhile Char.isDigit = cs := List.takeWhile_eq_self_iff.mpr digits
  have rest : cs.dropWhile Char.isDigit = [] := List.dropWhile_eq_nil_iff.mpr digits
  simp only [readDecimal?, whole, rest, List.append_nil, if_neg nonempty, readExponent?]
  rfl

/-- A row of digits is read as the float of the number that it writes. -/
theorem readFloat?_of_digits (nonempty : cs ≠ []) (digits : ∀ c ∈ cs, c.isDigit = true) :
    readFloat? cs = some (Float.ofNat (ofDigits cs)) := by
  have magnitude : readMagnitude? cs = some (Float.ofNat (ofDigits cs)) := by
    unfold readMagnitude?
    split
    · exact absurd ‹_› (@ne_word_of_digits cs digits 'i' ['n', 'f'] (by decide))
    · exact absurd ‹_› (@ne_word_of_digits cs digits 'i' ['n', 'f', 'i', 'n', 'i', 't', 'y']
        (by decide))
    · exact absurd ‹_› (@ne_word_of_digits cs digits 'n' ['a', 'n'] (by decide))
    · exact readDecimal?_of_digits nonempty digits
  unfold readFloat?
  split
  · exact absurd (digits '-' (List.mem_cons_self ..)) (by decide)
  · exact absurd (digits '+' (List.mem_cons_self ..)) (by decide)
  · exact magnitude

theorem isDigit_toDigits (n : Nat) : ∀ c ∈ Nat.toDigits 10 n, c.isDigit = true :=
  fun _ inside => Nat.isDigit_of_mem_toDigits (by decide) (by decide) inside

theorem ofDigits_toDigits (n : Nat) : ofDigits (Nat.toDigits 10 n) = n :=
  Nat.ofDigitChars_eq_foldl.symm.trans Nat.ofDigitChars_ten_toDigits

/-- Writing a whole number and reading it gives its float. -/
theorem readFloat?_toDigits (n : Nat) :
    readFloat? (Nat.toDigits 10 n) = some (Float.ofNat n) := by
  rw [readFloat?_of_digits Nat.toDigits_ne_nil (isDigit_toDigits n), ofDigits_toDigits]

end Digits

end KeyScore.Number
