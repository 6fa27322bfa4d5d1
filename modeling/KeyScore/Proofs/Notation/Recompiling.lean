import KeyScore.Proofs.Notation.LastWord
import KeyScore.Proofs.Player.Trace
import Mathlib

/-!
# Compiling again

A text has said all that it has to say after it has been compiled once: with the settings that it
has left behind it compiles to the same events and leaves the same settings. So it makes no
difference how often one compiler is given the text, and an engine that has loaded it does not move
when it is loaded again.
-/

namespace KeyScore

namespace Notation

/-- A fit makes nothing else of the notes. -/
theorem Source.events_settle {s : Settings} (timed : s.secondsPerUnit = unitSeconds s.bpm s.unit)
    (source : Source) (fit? : Option Float) (events : List Event) :
    source.events (settle fit? events s) = source.events s := by
  rw [settle_eq_retimed fit? events timed]
  rfl

theorem settle_retimed (fit? : Option Float) (events : List Event) (s : Settings) (bpm : Float) :
    settle fit? events (Settings.retimed { s with bpm := bpm }) = Settings.retimed { s with
      bpm := (fit?.bind fun seconds => solveBpm (totalUnits events) seconds s.unit).getD bpm } :=
  settle_eq_retimed fit? events rfl

section Again

variable {bpm? hold? : Option Float} {unit? : Option UInt32} {spaceRests? : Option Bool}
  {s : Settings}

/-- Said again, the same words change nothing but a tempo that has been changed since. -/
theorem overridden_retimed (bpm : Float) :
    overridden bpm? unit? hold? spaceRests?
        (Settings.retimed { overridden bpm? unit? hold? spaceRests? s with bpm := bpm }) =
      Settings.retimed { overridden bpm? unit? hold? spaceRests? s with bpm := bpm?.getD bpm } := by
  have twice {α : Type} (word? : Option α) (a : α) : word?.getD (word?.getD a) = word?.getD a := by
    cases word? <;> rfl
  simp only [overridden, Settings.retimed, twice]

/-- A fit is made from any tempo, so it is made again from what it has made before; where it cannot
be had the tempo is the one that was said, or else the one there was. -/
theorem settle_overridden (fit? : Option Float) (events : List Event) :
    settle fit? events (overridden bpm? unit? hold? spaceRests?
        (settle fit? events (overridden bpm? unit? hold? spaceRests? s))) =
      settle fit? events (overridden bpm? unit? hold? spaceRests? s) := by
  have tempo (fitted? : Option Float) : fitted?.getD (bpm?.getD (fitted?.getD (bpm?.getD s.bpm))) =
      fitted?.getD (bpm?.getD s.bpm) := by
    cases fitted? with
    | some _ => rfl
    | none => cases bpm? <;> rfl
  have first : (overridden bpm? unit? hold? spaceRests? s).bpm = bpm?.getD s.bpm := rfl
  rw [settle_eq_retimed fit? events (s := overridden bpm? unit? hold? spaceRests? s) rfl,
    overridden_retimed, settle_retimed, first, tempo]

end Again

theorem compile_again {s : Settings} (playable : s.Playable) (text : String) :
    compile text (compile text s).settings = compile text s := by
  let source := Source.ofText text
  let first := source.settings s
  let left := settle source.fitSeconds? (source.events first) first
  let second := source.settings left
  have once : compile text s = ⟨source.events first, left⟩ := compile_eq rfl s
  have leftPlayable : left.Playable := by
    have compiled := playable.compile text
    rw [once] at compiled
    exact compiled
  have said : first = overridden _ _ _ _ s := Source.settings_ofText playable.timed text
  have saidAgain : second = overridden _ _ _ _ left :=
    Source.settings_ofText leftPlayable.timed text
  have settledAgain : settle source.fitSeconds? (source.events first) second = left := by
    simp only [saidAgain, left, said]
    exact settle_overridden source.fitSeconds? _
  have events : source.events second = source.events first :=
    calc source.events second
        = source.events (settle source.fitSeconds? (source.events first) second) :=
          (Source.events_settle (leftPlayable.settings source).timed ..).symm
      _ = source.events left := by rw [settledAgain]
      _ = source.events first := Source.events_settle (playable.settings source).timed ..
  have again : compile text left =
      ⟨source.events second, settle source.fitSeconds? (source.events second) second⟩ :=
    compile_eq rfl left
  rw [once, again, events, settledAgain]

theorem compileAll_replicate {text : String} {s : Settings}
    (again : compile text (compile text s).settings = compile text s) (n : Nat) :
    compileAll (List.replicate n text) s = List.replicate n (compile text s) := by
  induction n generalizing s with
  | zero => rfl
  | succ n ih =>
    have later := ih (s := (compile text s).settings) (by rw [again, again])
    rw [List.replicate_succ, List.replicate_succ, compileAll, later, again]

end Notation

namespace Player.Engine

/-- A text that has just been loaded is not heard of when it is loaded again. -/
theorem load_again {e : Engine} {text : String}
    (again : Notation.compile text (Notation.compile text e.settings).settings =
      Notation.compile text e.settings) :
    (e.load text).1.load text = ((e.load text).1, []) := by
  rw [load_engine]
  simp only [load, again]
  rfl

end Player.Engine

namespace Notation

/-- Compiled with the settings that it has left behind a text gives the same events and leaves the
same settings. A compiler that is given it any number of times gives the same each time, and an
engine that has loaded it stays as it is when it loads it again. -/
theorem recompiling_changes_nothing (changes : List Settings.Change) (text : String) :
    let s := Settings.reached changes
    let once := compile text s
    compile text once.settings = once ∧
    (∀ n, compileAll (List.replicate n text) s = List.replicate n once) ∧
    ∀ e : Player.Engine,
      let loaded := ({ e with settings := s }.load text).1
      loaded.load text = (loaded, []) := by
  intro s once
  have again : compile text once.settings = once :=
    compile_again (Settings.playable_reached changes) text
  exact ⟨again, compileAll_replicate again, fun e => Player.Engine.load_again again⟩

/-- The second time the text starts from the fitted tempo, sets its own and fits it again. -/
example :
    let once := compile "@fit 9m\n@spacerest 1\n@bpm 90\na -|" .initial
    once.settings.bpm.toBits = slowestFit.toBits ∧
      (compile "@fit 9m\n@spacerest 1\n@bpm 90\na -|" once.settings).settings.bpm.toBits =
        slowestFit.toBits := by
  decide +kernel

end Notation

end KeyScore
