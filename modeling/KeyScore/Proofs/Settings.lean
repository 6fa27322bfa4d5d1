import KeyScore.Notation.Compile
import KeyScore.Proofs.Number.Order
import Mathlib

/-!
# Settings that can be played

Whatever is done to the settings, starting from the first ones, they describe a playable tempo:
the tempo is finite and positive, there is a unit, the hold is a fraction, and the length of a
unit is the one that belongs to tempo and unit. That length is never zero and never NaN, however
fast the tempo and however short the unit.
-/

namespace KeyScore

open Number

/-- Seconds in a unit at a usable tempo: the quotients round to no less than 2^-1019 and 2^-30. -/
theorem atLeast_unitSeconds {bpm : Float} (finite : bpm.isFinite = true) (positive : 0.0 < bpm)
    {unit : UInt32} (nonzero : unit ≠ 0) : AtLeast (-1049) (unitSeconds bpm unit) :=
  (within_sixty.atLeast.div (within_of_finite finite positive) (by decide)).mul
    (within_four.div (within_toFloat nonzero) (by decide) (by decide)) (by decide)

theorem isNaN_of_isFinite {x : Float} (h : x.isFinite = true) : x.isNaN = false := by
  rw [isNaN_eq_false_iff]
  intro nan
  change Float.Model.UnpackedFloat.isFinite x.toModel.unpack = true at h
  rw [nan] at h
  cases h

/-- A fit needs units to fit, a unit to measure them in and a time that is finite and positive. -/
theorem solveBpm_isSome_iff {units : Nat} {seconds : Float} {unit : UInt32} :
    (solveBpm units seconds unit).isSome = true ↔
      units ≠ 0 ∧ unit ≠ 0 ∧ seconds.isFinite = true ∧ 0.0 < seconds := by
  have number : (0.0 : Float).isNaN = false := rfl
  rw [solveBpm]
  split
  · rename_i nothing
    simp only [Option.isSome_none, Bool.false_eq_true, false_iff]
    rintro ⟨some_units, some_unit, finite, positive⟩
    rcases nothing with none | none | infinite | none
    · exact some_units none
    · exact some_unit none
    · rw [finite] at infinite
      cases infinite
    · exact not_lt_of_le none positive
  · rename_i usable
    simp only [not_or, Bool.not_eq_false] at usable
    obtain ⟨some_units, some_unit, finite, notLess⟩ := usable
    refine iff_of_true rfl ⟨some_units, some_unit, finite, ?_⟩
    by_contra notPositive
    exact notLess (le_of_not_lt number (isNaN_of_isFinite finite) notPositive)

/-- The tempo of a fit is a number, from the slowest to the fastest one. -/
theorem solveBpm_bounds {units : Nat} {seconds bpm : Float} {unit : UInt32}
    (h : solveBpm units seconds unit = some bpm) :
    bpm.isNaN = false ∧ slowestFit ≤ bpm ∧ bpm ≤ fastestFit := by
  have given : (solveBpm units seconds unit).isSome = true := by
    rw [h]
    rfl
  obtain ⟨some_units, some_unit, finite, positive⟩ := solveBpm_isSome_iff.mp given
  have factor := within_sixty.mul
    (within_four.div (within_toFloat some_unit) (by decide) (by decide)) (by decide) (by decide)
  have quotient : (Float.ofNat units / seconds).isNaN = false :=
    isNaN_div (isNaN_ofNat units) (within_of_finite finite positive)
  have tempo := clamp_bounds (by decide +kernel : slowestFit ≤ fastestFit) (by rfl) (by rfl)
    (isNaN_mul factor quotient)
  rw [solveBpm] at h
  split at h
  · cases h
  · rw [← Option.some.inj h]
    exact tempo

/-- So it is one that the settings take. -/
theorem usable_of_solveBpm {units : Nat} {seconds bpm : Float} {unit : UInt32}
    (h : solveBpm units seconds unit = some bpm) : bpm.isFinite = true ∧ 0.0 < bpm := by
  obtain ⟨-, above, below⟩ := solveBpm_bounds h
  have within : Within (-1074) 1024 bpm := within_of_le within_ten within_fastest above below
  exact ⟨within.isFinite, within.atLeast.zero_lt⟩

namespace Settings

section Fits

variable {s fitted : Settings} {units : Nat} {seconds : Float}

theorem setBpm_of_usable {bpm : Float} (usable : bpm.isFinite = true ∧ 0.0 < bpm)
    (s : Settings) : s.setBpm bpm = retimed { s with bpm := bpm } := if_pos usable

theorem fitUnits?_isSome_iff : (s.fitUnits? units seconds).isSome = true ↔
    units ≠ 0 ∧ s.unit ≠ 0 ∧ seconds.isFinite = true ∧ 0.0 < seconds := by
  rw [fitUnits?, Option.isSome_map, solveBpm_isSome_iff]

/-- A fit sets the tempo and what depends on it. -/
theorem exists_of_fitUnits? (h : s.fitUnits? units seconds = some fitted) :
    ∃ bpm, fitted = retimed { s with bpm := bpm } := by
  obtain ⟨bpm, solved, rfl⟩ := Option.map_eq_some_iff.mp h
  exact ⟨bpm, setBpm_of_usable (usable_of_solveBpm solved) s⟩

/-- A fit forgets the tempo there was. -/
theorem fitUnits?_retimed (s : Settings) (bpm : Float) (units : Nat) (seconds : Float) :
    (retimed { s with bpm := bpm }).fitUnits? units seconds = s.fitUnits? units seconds := by
  refine Option.map_congr fun tempo solved => ?_
  have usable := usable_of_solveBpm solved
  rw [setBpm_of_usable usable, setBpm_of_usable usable]
  rfl

/-- There is nothing to fit in an empty sequence, which has no units. -/
theorem fitEvents?_eq (events : List Event) (seconds : Float) (s : Settings) :
    s.fitEvents? events seconds = s.fitUnits? (totalUnits events) seconds := by
  rw [fitEvents?]
  split
  · rename_i empty
    have nothing : totalUnits events = 0 := by
      rw [empty]
      rfl
    rw [fitUnits?, solveBpm, if_pos (.inl nothing), Option.map_none]
  · rfl

end Fits

/-- What is true of all settings that can be reached. -/
structure Playable (s : Settings) : Prop where
  finite : s.bpm.isFinite = true
  positive : 0.0 < s.bpm
  some_unit : 1 ≤ s.unit
  number : s.hold.isNaN = false
  nonnegative : 0.0 ≤ s.hold
  fraction : s.hold ≤ 1.0
  /-- The length of a unit is never stale. -/
  timed : s.secondsPerUnit = unitSeconds s.bpm s.unit

namespace Playable

variable {s : Settings}

theorem unit_ne_zero (playable : s.Playable) : s.unit ≠ 0 := by
  intro none
  have least := playable.some_unit
  rw [none] at least
  exact absurd least (by decide)

theorem initial : Settings.initial.Playable where
  finite := rfl
  positive := by decide +kernel
  some_unit := by decide
  number := rfl
  nonnegative := by decide +kernel
  fraction := by decide +kernel
  timed := rfl

/-- A unit has a length, maybe an infinite one. -/
theorem atLeast (h : s.Playable) : AtLeast (-1049) s.secondsPerUnit := by
  have some_unit : s.unit ≠ 0 := by
    intro none
    have least := h.some_unit
    rw [none] at least
    exact absurd least (by decide)
  rw [h.timed]
  exact atLeast_unitSeconds h.finite h.positive some_unit

theorem setBpm (h : s.Playable) (bpm : Float) : (s.setBpm bpm).Playable := by
  rw [Settings.setBpm]
  split
  · rename_i usable
    exact ⟨usable.1, usable.2, h.some_unit, h.number, h.nonnegative, h.fraction, rfl⟩
  · exact h

theorem setUnit (h : s.Playable) (unit : UInt32) : (s.setUnit unit).Playable := by
  rw [Settings.setUnit]
  split
  · exact h
  · rename_i nonzero
    have least : 1 ≤ unit := by
      rw [UInt32.le_iff_toNat_le]
      exact Nat.pos_of_ne_zero fun zero => nonzero (UInt32.toNat_inj.mp zero)
    exact ⟨h.finite, h.positive, least, h.number, h.nonnegative, h.fraction, rfl⟩

theorem setHold (h : s.Playable) (hold : Float) : (s.setHold hold).Playable := by
  rw [Settings.setHold]
  split
  · exact h
  · rename_i notNaN
    have number : hold.isNaN = false := by simpa using notNaN
    obtain ⟨clamped, low, high⟩ :=
      clamp_bounds (by decide +kernel : (0.0 : Float) ≤ 1.0) (by rfl) (by rfl) number
    exact ⟨h.finite, h.positive, h.some_unit, clamped, low, high, h.timed⟩

/-- Weights and the meaning of spaces have no part in it. -/
theorem setOther (h : s.Playable) (pipeWeight spaceWeight : UInt32) (spaceRests : Bool) :
    { s with
      pipeWeight := pipeWeight
      spaceWeight := spaceWeight
      spaceRests := spaceRests }.Playable :=
  ⟨h.finite, h.positive, h.some_unit, h.number, h.nonnegative, h.fraction, h.timed⟩

theorem fitUnits? (h : s.Playable) {units : Nat} {seconds : Float} :
    ∀ fitted ∈ s.fitUnits? units seconds, fitted.Playable := by
  intro fitted solved
  obtain ⟨bpm, -, rfl⟩ := Option.map_eq_some_iff.mp solved
  exact h.setBpm bpm

theorem fitEvents? (h : s.Playable) {events : List Event} {seconds : Float} :
    ∀ fitted ∈ s.fitEvents? events seconds, fitted.Playable := by
  rw [Settings.fitEvents?]
  split
  · simp
  · exact h.fitUnits?

theorem getD (h : s.Playable) {fitted : Option Settings}
    (all : ∀ t ∈ fitted, t.Playable) : (fitted.getD s).Playable := by
  cases fitted with
  | none => exact h
  | some t => exact all t rfl

/-- Directives do no more than setters do. -/
theorem apply (h : s.Playable) (d : Notation.Directive) : (d.apply s).Playable :=
  match d with
  | .bpm value => h.setBpm value
  | .unit value => h.setUnit value
  | .hold value => h.setHold value
  | .spaceRest on => h.setOther s.pipeWeight s.spaceWeight on
  | .fit _ => h

theorem settings (h : s.Playable) (source : Notation.Source) : (source.settings s).Playable := by
  rw [Notation.Source.settings]
  induction source.directives generalizing s with
  | nil => exact h
  | cons d directives ih => exact ih (h.apply d)

theorem compile (h : s.Playable) (text : String) :
    (Notation.compile text s).settings.Playable := by
  have before := h.settings (Notation.Source.ofText text)
  refine before.getD fun fitted inside => ?_
  obtain ⟨seconds, -, solved⟩ := Option.mem_bind_iff.mp inside
  exact before.fitUnits? fitted solved

end Playable

/-- What can be done to settings. -/
inductive Change where
  | bpm (value : Float)
  | unit (value : UInt32)
  | hold (value : Float)
  | pipeWeight (value : UInt32)
  | spaceWeight (value : UInt32)
  | spaceRests (on : Bool)
  | fitUnits (units : Nat) (seconds : Float)
  | fitEvents (events : List Event) (seconds : Float)
  | compile (text : String)

/-- Settings after a change; a fit that cannot be done leaves them as they are. -/
def change (s : Settings) : Change → Settings
  | .bpm value => s.setBpm value
  | .unit value => s.setUnit value
  | .hold value => s.setHold value
  | .pipeWeight value => s.setPipeWeight value
  | .spaceWeight value => s.setSpaceWeight value
  | .spaceRests on => s.setSpaceRests on
  | .fitUnits units seconds => (s.fitUnits? units seconds).getD s
  | .fitEvents events seconds => (s.fitEvents? events seconds).getD s
  | .compile text => (Notation.compile text s).settings

theorem Playable.change {s : Settings} (h : s.Playable) (c : Change) : (s.change c).Playable :=
  match c with
  | .bpm value => h.setBpm value
  | .unit value => h.setUnit value
  | .hold value => h.setHold value
  | .pipeWeight value => h.setOther value s.spaceWeight s.spaceRests
  | .spaceWeight value => h.setOther s.pipeWeight value s.spaceRests
  | .spaceRests on => h.setOther s.pipeWeight s.spaceWeight on
  | .fitUnits _ _ => h.getD h.fitUnits?
  | .fitEvents _ _ => h.getD h.fitEvents?
  | .compile text => h.compile text

/-- Settings reached from the first ones. -/
def reached (changes : List Change) : Settings := changes.foldl change initial

theorem playable_reached (changes : List Change) : (reached changes).Playable := by
  have run (s : Settings) (h : s.Playable) : (changes.foldl change s).Playable := by
    induction changes generalizing s with
    | nil => exact h
    | cons c changes ih => exact ih (s.change c) (h.change c)
  exact run initial .initial

/-- Settings always describe a playable tempo, and the length of a unit is always that of the
present tempo and unit, positive and not NaN. -/
theorem always_playable (changes : List Change) :
    (reached changes).Playable ∧
      (reached changes).secondsPerUnit.toBits =
        (unitSeconds (reached changes).bpm (reached changes).unit).toBits ∧
      (reached changes).secondsPerUnit.isNaN = false ∧
      0.0 < (reached changes).secondsPerUnit := by
  have playable := playable_reached changes
  exact ⟨playable, congrArg Float.toBits playable.timed, playable.atLeast.isNaN,
    playable.atLeast.zero_lt⟩

end Settings

end KeyScore
