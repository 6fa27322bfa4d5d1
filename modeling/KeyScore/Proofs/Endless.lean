import KeyScore.Proofs.Number.Difference
import KeyScore.Proofs.Settings
import Mathlib

/-!
# Notes without an end

A rest of at least 2^64 seconds is given the longest duration and lasts until it is cut off. A
press of the same length is held for a part of it and silent for the rest of it, and one of the
two is at least 2^63 seconds: what is left of 2^64 seconds after less than 2^63 is more than
that. The exception are lengths that overflow to infinity where keys are not held at all: the
two parts of them are no numbers, and the note is over at once.
-/

namespace KeyScore

open Number Float.Model Float.Model.UnpackedFloat

namespace Number

theorem le_roundHalfEven {num den bound : Nat} (pos : 0 < den) (h : bound * den ≤ num) :
    bound ≤ roundHalfEven num den := by
  obtain ⟨near, -⟩ := roundHalfEven_near num pos
  by_contra less
  have next : (roundHalfEven num den + 1) * den ≤ bound * den :=
    Nat.mul_le_mul_right den (Nat.lt_of_not_le less)
  rw [Nat.add_mul, Nat.one_mul] at next
  omega

theorem roundHalfEven_le {num den bound : Nat} (pos : 0 < den) (h : num ≤ bound * den) :
    roundHalfEven num den ≤ bound := by
  obtain ⟨-, near⟩ := roundHalfEven_near num pos
  by_contra more
  have next : (bound + 1) * den ≤ roundHalfEven num den * den :=
    Nat.mul_le_mul_right den (Nat.lt_of_not_le more)
  rw [Nat.add_mul, Nat.one_mul] at next
  omega

end Number

namespace Duration

variable {x : Float}

/-- The duration of a positive float, in whole numbers. -/
theorem ofSeconds_of_finite {mantissa : Nat} {exponent : Int} {pos : 0 < mantissa}
    (h : x.toModel.unpack = .finite .positive mantissa exponent pos) :
    (ofSeconds x).nanoseconds =
      min (roundHalfEven (mantissa * perSecond * Nat.pow 2 exponent.toNat)
        (Nat.pow 2 (-exponent).toNat)) longest.nanoseconds := by
  rw [ofSeconds, h]

theorem ofSeconds_of_infinite (h : x.toModel.unpack = .infinity .positive) :
    ofSeconds x = longest := by
  rw [ofSeconds, h]

/-- A float of at least a power of two seconds lasts that long, up to the longest duration. -/
theorem le_ofSeconds {k : Nat} (h : AtLeast k x) :
    min (2 ^ k * perSecond) longest.nanoseconds ≤ (ofSeconds x).nanoseconds := by
  rcases h with infinite | ⟨high, mantissa, exponent, pos, unpacked, above, -⟩
  · rw [ofSeconds_of_infinite infinite]
    exact Nat.min_le_right _ _
  · rw [ofSeconds_of_finite unpacked]
    refine min_le_min_right _ (le_roundHalfEven (Nat.two_pow_pos _) ?_)
    have total : totalExponent mantissa exponent = mantissa.log2 + 1 + exponent := rfl
    have scaled : 2 ^ k * 2 ^ (-exponent).toNat ≤ mantissa * 2 ^ exponent.toNat := by
      calc 2 ^ k * 2 ^ (-exponent).toNat = 2 ^ (k + (-exponent).toNat) := (Nat.pow_add ..).symm
        _ ≤ 2 ^ (mantissa.log2 + exponent.toNat) := Nat.pow_le_pow_right (by decide) (by omega)
        _ = 2 ^ mantissa.log2 * 2 ^ exponent.toNat := Nat.pow_add ..
        _ ≤ mantissa * 2 ^ exponent.toNat :=
            Nat.mul_le_mul_right _ (Nat.log2_self_le (Nat.ne_of_gt pos))
    calc 2 ^ k * perSecond * 2 ^ (-exponent).toNat
        = perSecond * (2 ^ k * 2 ^ (-exponent).toNat) := by ring
      _ ≤ perSecond * (mantissa * 2 ^ exponent.toNat) := Nat.mul_le_mul_left _ scaled
      _ = mantissa * perSecond * 2 ^ exponent.toNat := by ring

/-- Below 2^64 seconds there is some time left to the longest duration: a float with a fraction
is below 2^53, and one without is a whole second less. -/
theorem ofSeconds_lt_longest {low : Int} (h : Within low 64 x) :
    (ofSeconds x).nanoseconds < longest.nanoseconds := by
  obtain ⟨mantissa, exponent, pos, unpacked, -, below⟩ := h
  have total : totalExponent mantissa exponent = mantissa.log2 + 1 + exponent := rfl
  rw [ofSeconds_of_finite unpacked]
  refine Nat.lt_of_le_of_lt (Nat.min_le_left _ _) ?_
  rcases Int.le_total 0 exponent with whole | fraction
  · have exact : (-exponent).toNat = 0 := by omega
    have seconds : mantissa * 2 ^ exponent.toNat < 2 ^ 64 := by
      calc mantissa * 2 ^ exponent.toNat
          < 2 ^ (mantissa.log2 + 1) * 2 ^ exponent.toNat :=
            Nat.mul_lt_mul_of_pos_right Nat.lt_log2_self (Nat.two_pow_pos _)
        _ = 2 ^ (mantissa.log2 + 1 + exponent.toNat) := (Nat.pow_add ..).symm
        _ ≤ 2 ^ 64 := Nat.pow_le_pow_right (by decide) (by omega)
    have rounded : roundHalfEven (mantissa * perSecond * Nat.pow 2 exponent.toNat)
        (Nat.pow 2 (-exponent).toNat) ≤ mantissa * 2 ^ exponent.toNat * perSecond := by
      refine roundHalfEven_le (Nat.two_pow_pos _) (Nat.le_of_eq ?_)
      rw [exact]
      change mantissa * perSecond * 2 ^ exponent.toNat = _ * 1
      ring
    have step := Nat.mul_le_mul_right perSecond (Nat.succ_le_of_lt seconds)
    change _ * 1000000000 ≤ 18446744073709551616 * 1000000000 at step
    change _ ≤ mantissa * 2 ^ exponent.toNat * 1000000000 at rounded
    change _ < 18446744073709551615999999999
    omega
  · have short : mantissa < 9007199254740992 := (rounded_of_unpack unpacked).1.high
    have rounded : roundHalfEven (mantissa * perSecond * Nat.pow 2 exponent.toNat)
        (Nat.pow 2 (-exponent).toNat) ≤ mantissa * perSecond := by
      have noShift : exponent.toNat = 0 := by omega
      refine roundHalfEven_le (Nat.two_pow_pos _) ?_
      rw [noShift]
      exact Nat.mul_le_mul_left _ (Nat.two_pow_pos _)
    change _ ≤ mantissa * 1000000000 at rounded
    change _ < 18446744073709551615999999999
    omega

/-- The longest duration stands for 2^64 seconds and more, and for nothing else. -/
theorem ofSeconds_eq_longest_iff : ofSeconds x = longest ↔ AtLeast 64 x := by
  constructor
  · intro same
    have notLess : ¬(ofSeconds x).nanoseconds < longest.nanoseconds := by
      rw [same]
      exact Nat.lt_irrefl _
    match unpacked : x.toModel.unpack with
    | .infinity .positive => exact .inl unpacked
    | .finite .positive mantissa exponent pos =>
      have some_length : AtLeast (totalExponent mantissa exponent - 1) x :=
        .inr ⟨_, mantissa, exponent, pos, unpacked, by omega, Int.le_refl _⟩
      rcases some_length.or_below 64 with long | ⟨sign, zero⟩ | ⟨low, within⟩
      · exact long
      · rw [unpacked] at zero
        cases zero
      · exact absurd (ofSeconds_lt_longest within) notLess
    | .infinity .negative | .finite .negative _ _ _ | .zero _ | .notANumber =>
      rw [ofSeconds, unpacked] at same
      cases same
  · intro long
    have most := le_ofSeconds (k := 64) long
    have least := ofSeconds_le_longest x
    have capped : min (2 ^ 64 * perSecond) longest.nanoseconds = longest.nanoseconds :=
      Nat.min_eq_right (by decide)
    rw [capped] at most
    cases same : ofSeconds x with
    | mk nanoseconds =>
      rw [same] at most least
      exact congrArg Duration.mk (Nat.le_antisymm least most)

end Duration

section Parts

variable {total hold : Float} {sign : Sign}

/-- The two parts of a long event of which the keys are held for some fraction. -/
theorem long_of_held (long : AtLeast 64 total)
    (held : Within (-1074) 1024 hold) :
    AtLeast 63 (total * hold) ∨ AtLeast 63 (total - total * hold) := by
  rcases (long.mul held (by decide)).or_below 63 with down | short
  · exact .inl down
  · exact .inr (long.sub short (by decide))

/-- All of a finite length is silence if the keys are not held. -/
theorem long_of_not_held (long : AtLeast 64 total) (finite : total.isFinite = true)
    (zero : hold.toModel.unpack = .zero sign) :
    AtLeast 63 (total - total * hold) := by
  refine long.sub (.inl ?_) (by decide)
  rcases long with infinite | ⟨high, m, e, pos, unpacked, -⟩
  · change UnpackedFloat.isFinite total.toModel.unpack = true at finite
    rw [infinite] at finite
    cases finite
  · have nothing : (total * hold).toModel.unpack = (Float.Model.pack
        (UnpackedFloat.mul .binary64 total.toModel.unpack hold.toModel.unpack)).unpack := rfl
    have product : UnpackedFloat.mul .binary64 (.finite .positive m e pos) (.zero sign) =
        .zero (.positive * sign) := rfl
    rw [unpacked, zero, product] at nothing
    rw [nothing]
    cases sign with
    | positive => exact ⟨.positive, rfl⟩
    | negative => exact ⟨.negative, rfl⟩

/-- Infinity times zero is no number, and what is left of infinity after that is none either. -/
theorem parts_of_infinite (infinite : total.toModel.unpack = .infinity .positive)
    (zero : hold.toModel.unpack = .zero sign) :
    Duration.ofSeconds (total * hold) = .zero ∧
      Duration.ofSeconds (total - total * hold) = .zero := by
  have none : UnpackedFloat.mul .binary64 (.infinity .positive) (.zero sign) =
    .notANumber := rfl
  have product : (total * hold).toModel.unpack = .notANumber := by
    change (Float.Model.pack
      (UnpackedFloat.mul .binary64 total.toModel.unpack hold.toModel.unpack)).unpack = _
    rw [infinite, zero, none]
    rfl
  have difference : (total - total * hold).toModel.unpack = .notANumber := by
    change (Float.Model.pack (UnpackedFloat.sub .binary64 total.toModel.unpack
      (total * hold).toModel.unpack)).unpack = _
    rw [infinite, product]
    rfl
  constructor
  · rw [Duration.ofSeconds, product]
  · rw [Duration.ofSeconds, difference]

end Parts

namespace Settings

variable {s : Settings} {units : UInt32}

/-- A fraction that keys are held for is a finite float. -/
theorem Playable.within_hold (playable : s.Playable) (held : 0.0 < s.hold) :
    Within (-1074) 1024 s.hold := by
  refine within_of_finite ?_ held
  have zero : (0.0 : Float).toModel.unpack = .zero .positive := rfl
  have one : (1.0 : Float).toModel.unpack =
      .finite .positive 4503599627370496 (-52) (by decide) := rfl
  have fraction := playable.fraction
  change UnpackedFloat.isFinite s.hold.toModel.unpack = true
  rw [lt_iff, zero] at held
  rw [le_iff, one] at fraction
  generalize s.hold.toModel.unpack = hold at held fraction ⊢
  match hold, held, fraction with
  | .finite .positive _ _ _, _, _ => rfl
  | .infinity .positive, _, ⟨_, rfl, notMore⟩ => exact absurd rfl notMore

/-- Long events are long in one of their parts, unless they are infinite and the keys not held. -/
theorem Playable.long_holdAndGap (playable : s.Playable)
    (endless : s.durationOf units = .longest)
    (parted : 0.0 < s.hold ∨ (s.secondsPerUnit * units.toFloat).isFinite = true) :
    2 ^ 63 * Duration.perSecond ≤
      (s.holdAndGap units).1.nanoseconds + (s.holdAndGap units).2.nanoseconds := by
  have long : AtLeast 64 (s.secondsPerUnit * units.toFloat) :=
    Duration.ofSeconds_eq_longest_iff.mp endless
  have half {seconds : Float} (h : AtLeast 63 seconds) :
      2 ^ 63 * Duration.perSecond ≤ (Duration.ofSeconds seconds).nanoseconds :=
    Nat.le_trans (by decide) (Duration.le_ofSeconds (k := 63) h)
  by_cases held : 0.0 < s.hold
  · rcases long_of_held long (playable.within_hold held) with down | gap
    · exact Nat.le_add_right_of_le (half down)
    · exact Nat.le_add_left_of_le (half gap)
  · obtain ⟨sign, zero⟩ := zero_of_le playable.nonnegative held
    exact Nat.le_add_left_of_le
      (half (long_of_not_held long (parted.resolve_left held) zero))

theorem Playable.over_at_once (playable : s.Playable)
    (endless : s.durationOf units = .longest)
    (unparted : ¬(0.0 < s.hold ∨ (s.secondsPerUnit * units.toFloat).isFinite = true)) :
    s.holdAndGap units = (.zero, .zero) := by
  rw [not_or, Bool.not_eq_true] at unparted
  obtain ⟨sign, zero⟩ := zero_of_le playable.nonnegative unparted.1
  rcases Duration.ofSeconds_eq_longest_iff.mp endless with infinite | ⟨high, within⟩
  · obtain ⟨down, gap⟩ := parts_of_infinite infinite zero
    exact Prod.ext down gap
  · have finite := within.isFinite
    rw [unparted.2] at finite
    cases finite

/-- From all settings that can be reached and for every length that is given the longest
duration: the keys are held and then left for at least 2^63 seconds together, unless the length
is infinite and the fraction that they are held for is zero. Then both are over at once. -/
theorem endless_notes_last_iff (changes : List Change) (units : UInt32)
    (endless : (reached changes).durationOf units = .longest) :
    let s := reached changes
    let parted := 0.0 < s.hold ∨ (s.secondsPerUnit * units.toFloat).isFinite = true
    (2 ^ 63 * Duration.perSecond ≤
        (s.holdAndGap units).1.nanoseconds + (s.holdAndGap units).2.nanoseconds ↔ parted) ∧
      (¬parted → s.holdAndGap units = (.zero, .zero)) := by
  intro s parted
  have playable : s.Playable := playable_reached changes
  have atOnce (unparted : ¬parted) : s.holdAndGap units = (.zero, .zero) :=
    playable.over_at_once endless unparted
  refine ⟨⟨fun lasting => ?_, playable.long_holdAndGap endless⟩, atOnce⟩
  by_contra unparted
  rw [atOnce unparted] at lasting
  exact absurd lasting (by decide)

/-- The least part of an infinite length is infinite. -/
theorem endless_note_held_briefly :
    (reached [.bpm 1e-310, .hold 5e-324]).durationOf 1 = .longest ∧
      2 ^ 63 * Duration.perSecond ≤
        ((reached [.bpm 1e-310, .hold 5e-324]).holdAndGap 1).1.nanoseconds +
          ((reached [.bpm 1e-310, .hold 5e-324]).holdAndGap 1).2.nanoseconds := by
  have endless : (reached [.bpm 1e-310, .hold 5e-324]).durationOf 1 = .longest := by
    decide +kernel
  have held : 0.0 < (reached [.bpm 1e-310, .hold 5e-324]).hold := by decide +kernel
  exact ⟨endless, (endless_notes_last_iff _ 1 endless).1.mpr (.inl held)⟩

/-- A rest of one unit lasts until it is cut off, and a press of one unit does not last. -/
theorem endless_note_over_at_once :
    (reached [.bpm 1e-310, .hold 0.0]).durationOf 1 = .longest ∧
      (reached [.bpm 1e-310, .hold 0.0]).holdAndGap 1 = (.zero, .zero) ∧
      ¬2 ^ 63 * Duration.perSecond ≤
        ((reached [.bpm 1e-310, .hold 0.0]).holdAndGap 1).1.nanoseconds +
          ((reached [.bpm 1e-310, .hold 0.0]).holdAndGap 1).2.nanoseconds := by
  decide +kernel

end Settings

end KeyScore
