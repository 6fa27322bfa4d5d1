import KeyScore.Proofs.Settings
import Mathlib

/-!
# Fits

A fit is made as a whole or not at all. It is made if there is something to fit and a time to
fit it in, however large or small the two are: no product and no quotient on the way to the
tempo overflows into a tempo that is none. Where it is not made, nothing is changed.
-/

namespace KeyScore.Settings

/-- Settings after a fit. The tempo is the one at which the units last so long, as far as a fit
may go; the length of a unit follows it, and all else stays. -/
structure Fitted (s : Settings) (units : Nat) (seconds : Float) (after : Settings) : Prop where
  solved : solveBpm units seconds s.unit = some after.bpm
  number : after.bpm.isNaN = false
  slowest : 10.0 ≤ after.bpm
  fastest : after.bpm ≤ 480.0
  timed : after.secondsPerUnit = unitSeconds after.bpm after.unit
  others : after = { s with bpm := after.bpm, secondsPerUnit := after.secondsPerUnit }

variable {s after : Settings} {units : Nat} {seconds : Float}

/-- The tempo of a fit is one that the settings take, so it is set. -/
theorem fitted_of_fitUnits? (h : s.fitUnits? units seconds = some after) :
    Fitted s units seconds after := by
  obtain ⟨bpm, solved, rfl⟩ := Option.map_eq_some_iff.mp h
  obtain ⟨number, slowest, fastest⟩ := solveBpm_bounds solved
  rw [setBpm_of_usable (usable_of_solveBpm solved)]
  exact ⟨solved, number, slowest, fastest, rfl, rfl⟩

/-- Where there is a unit, as there always is, only the sequence and the time can be at fault. -/
theorem Playable.fitUnits?_isSome_iff (playable : s.Playable) :
    (s.fitUnits? units seconds).isSome = true ↔
      0 < units ∧ seconds.isFinite = true ∧ 0.0 < seconds := by
  rw [Settings.fitUnits?_isSome_iff, Nat.pos_iff_ne_zero]
  constructor
  · rintro ⟨some_units, -, usable⟩
    exact ⟨some_units, usable⟩
  · rintro ⟨some_units, usable⟩
    exact ⟨some_units, playable.unit_ne_zero, usable⟩

/-- From all settings that can be reached, for any number of units and any time: a fit succeeds
exactly if there are units and the time is finite and positive. Then the tempo is a number from
10 to 480, the length of a unit is made anew and all else is kept; otherwise everything is. To
fit a sequence is to fit its units, for any sequence. -/
theorem fits_all_or_nothing (changes : List Change) (units : Nat) (seconds : Float)
    (events : List Event) :
    let s := reached changes
    let after := s.change (.fitUnits units seconds)
    ((s.fitUnits? units seconds).isSome = true ↔
        0 < units ∧ seconds.isFinite = true ∧ 0.0 < seconds) ∧
      (if (s.fitUnits? units seconds).isSome then Fitted s units seconds after else after = s) ∧
      s.fitEvents? events seconds = s.fitUnits? (totalUnits events) seconds ∧
      s.change (.fitEvents events seconds) =
        s.change (.fitUnits (totalUnits events) seconds) := by
  intro s after
  have playable : s.Playable := playable_reached changes
  have sequence := fitEvents?_eq events seconds s
  refine ⟨playable.fitUnits?_isSome_iff, ?_, sequence, ?_⟩
  · cases fit : s.fitUnits? units seconds with
    | none =>
      have kept : after = s := congrArg (Option.getD · s) fit
      rw [Option.isSome_none, if_neg Bool.false_ne_true]
      exact kept
    | some fitted =>
      have made : after = fitted := congrArg (Option.getD · s) fit
      rw [Option.isSome_some, if_pos rfl, made]
      exact fitted_of_fitUnits? fit
  · exact congrArg (Option.getD · s) sequence

end KeyScore.Settings
