import KeyScore.Proofs.Notation.Gaps
import KeyScore.Proofs.Player.Forgetting
import Mathlib

/-!
# What can be loaded

A text plays keys that stand for themselves, chords of keys that can stand in brackets, and
silence, each for one unit at least, and never one rest after another. An engine keeps rests apart
whatever it is given; what it is given by hand it does not look at otherwise.
-/

namespace KeyScore

open Notation

namespace Event

/-- The event is one that a text can play. -/
def Notated : Event → Prop
  | press key units => (isKey key = true ∧ key ≠ '[' ∧ key ≠ '|') ∧ 1 ≤ units
  | chord keys units => (keys ≠ [] ∧ ∀ key ∈ keys, StandsInChord key) ∧ 1 ≤ units
  | rest units => 1 ≤ units

end Event

/-- The events are ones that a text can play, and no two rests are side by side. -/
structure WellFormed (events : List Event) : Prop where
  apart : RestsApart events
  notated : ∀ e ∈ events, e.Notated

theorem one_le_cappedUnits {n : Nat} (some_units : 1 ≤ n) : 1 ≤ cappedUnits n := by
  rw [UInt32.le_iff_toNat_le, toNat_cappedUnits]
  exact Nat.le_min.mpr ⟨some_units, by decide⟩

/-- Rests that are joined last no less than the first of them. -/
theorem notated_consMerged {e : Event} {events : List Event} (first : e.Notated)
    (others : ∀ e' ∈ events, e'.Notated) : ∀ e' ∈ consMerged e events, e'.Notated := by
  have unmerged : ∀ e' ∈ e :: events, e'.Notated := List.forall_mem_cons.mpr ⟨first, others⟩
  match e, events with
  | .rest a, .rest b :: events =>
    have some_units : 1 ≤ a.toNat + b.toNat :=
      Nat.le_add_right_of_le (UInt32.le_iff_toNat_le.mp first)
    obtain ⟨_, later⟩ := List.forall_mem_cons.mp others
    exact List.forall_mem_cons.mpr ⟨one_le_cappedUnits some_units, later⟩
  | .rest _, [] => exact unmerged
  | .rest _, .press _ _ :: _ => exact unmerged
  | .rest _, .chord _ _ :: _ => exact unmerged
  | .press _ _, _ => exact unmerged
  | .chord _ _, _ => exact unmerged

theorem wellFormed_mergeRests {events : List Event} (notated : ∀ e ∈ events, e.Notated) :
    WellFormed (mergeRests events) := by
  refine ⟨restsApart_mergeRests events, ?_⟩
  induction events with
  | nil => exact notated
  | cons e events ih =>
    obtain ⟨first, others⟩ := List.forall_mem_cons.mp notated
    exact notated_consMerged first (ih others)

namespace Notation

/-- A token that is of its kind plays an event of its kind, whatever a pipe weighs. -/
theorem Token.notated_of_event? {w : UInt32} {t : Token} {e : Event} (proper : t.Proper)
    (plays : t.event? w = some e) : e.Notated := by
  cases t with
  | press key ties =>
    cases plays
    exact ⟨proper, one_le_cappedUnits (Nat.le_add_left 1 ties)⟩
  | chord keys ties =>
    rw [event?, Event.ofKeys?] at plays
    split at plays
    · cases plays
    · rename_i some_keys
      cases plays
      refine ⟨⟨some_keys, proper⟩, ?_⟩
      rw [UInt32.le_iff_toNat_le, toNat_max]
      exact Nat.le_max_right _ _
  | pipes count =>
    cases plays
    rw [Event.Notated, pipeUnits, UInt32.le_iff_toNat_le, toNat_max]
    exact Nat.le_max_left _ _
  | inert c => cases plays

theorem wellFormed_compile (text : String) (s : Settings) :
    WellFormed (compile text s).events := by
  refine wellFormed_mergeRests fun e played => ?_
  obtain ⟨t, read, plays⟩ := List.mem_filterMap.mp played
  -- of the tokens that are not of their kind, the gaps, none plays anything
  have sounds : t.isGap = false := by
    cases t with
    | inert c => cases plays
    | press key ties => rfl
    | chord keys ties => rfl
    | pipes count => rfl
  exact Token.notated_of_event? (Token.proper_of_mem_scan _ t read sounds) plays

end Notation

namespace Player

/-- A move that hands over events hands over such as a text can play. -/
def Move.Notated : Move → Prop
  | call (.loadEvents events) => ∀ e ∈ events, e.Notated
  | _ => True

theorem Engine.wellFormed_make {e : Engine} (sound : e.Sound) (formed : WellFormed e.events)
    {m : Move} (notated : m.Notated) : WellFormed (m.make e).1.events := by
  rcases events_make sound m with same | ⟨text, s, compiled⟩ | ⟨events, rfl, merged⟩
  · rw [same]
    exact formed
  · rw [compiled]
    exact wellFormed_compile text s
  · rw [merged]
    exact wellFormed_mergeRests notated

theorem Run.wellFormed_follow {r : Run} (sound : r.engine.Sound)
    (formed : WellFormed r.engine.events) {history : List Move}
    (notated : ∀ m ∈ history, m.Notated) : WellFormed (r.follow history).engine.events := by
  induction history generalizing r with
  | nil => exact formed
  | cons m history ih =>
    obtain ⟨first, others⟩ := List.forall_mem_cons.mp notated
    exact ih (r := r.move m) (sound.make m) (Engine.wellFormed_make sound formed first) others

/-- What a text plays is well formed under any settings. Of the sequence of an engine the rests are
apart after any history, and all of it is well formed if the events that were handed over are ones
that a text can play. -/
theorem loaded_sequences_well_formed :
    (∀ text s, WellFormed (Notation.compile text s).events) ∧
    ∀ (settings : Settings) (history : List Move),
      let run := (Run.ofSettings settings).follow history
      RestsApart run.engine.events ∧
        ((∀ m ∈ history, m.Notated) → WellFormed run.engine.events) := by
  refine ⟨Notation.wellFormed_compile, ?_⟩
  intro settings history run
  have sound : (Run.ofSettings settings).engine.Sound := .rewound settings []
  constructor
  · exact Run.restsApart_follow sound .nil history
  · intro notated
    exact Run.wellFormed_follow sound ⟨.nil, by simp [Run.ofSettings]⟩ notated

/-- A text with an empty chord between rests, then rests handed over and played in part. -/
theorem rests_handed_over_joined :
    let history : List Move := [.call (.load "|[]|\n|"),
      .call (.loadEvents [.rest 1, .rest 2, .chord ['a', '|'] 3]), .call .start, .loop]
    let run := (Run.ofSettings .initial).follow history
    (∀ m ∈ history, m.Notated) ∧ run.engine.events = [.rest 3, .chord ['a', '|'] 3] ∧
      WellFormed run.engine.events := by
  intro history run
  have inChord : ∀ key ∈ ['a', '|'], StandsInChord key :=
    List.forall_mem_cons.mpr ⟨by decide, List.forall_mem_cons.mpr ⟨by decide, by simp⟩⟩
  have two : (1 : UInt32) ≤ 2 := by decide
  have handed : ∀ e ∈ [.rest 1, .rest 2, .chord ['a', '|'] 3], Event.Notated e :=
    List.forall_mem_cons.mpr ⟨UInt32.le_refl 1, List.forall_mem_cons.mpr ⟨two,
      List.forall_mem_singleton.mpr ⟨⟨by decide, inChord⟩, by decide⟩⟩⟩
  have notated : ∀ m ∈ history, m.Notated :=
    List.forall_mem_cons.mpr ⟨trivial, List.forall_mem_cons.mpr ⟨handed,
      List.forall_mem_cons.mpr ⟨trivial, List.forall_mem_singleton.mpr trivial⟩⟩⟩
  exact ⟨notated, rfl, (loaded_sequences_well_formed.2 .initial history).2 notated⟩

end Player

end KeyScore
