import KeyScore.Event
import Mathlib.Data.List.Chain

/-!
# Merging rests

Merging joins adjacent rests and does nothing else: what sounds stays in its order, and as long
as the units of all events together can be counted, none is lost. Afterwards no two rests are
side by side, so that merging again changes nothing.
-/

namespace KeyScore

theorem mergeRests_cons (e : Event) (events : List Event) :
    mergeRests (e :: events) = consMerged e (mergeRests events) := rfl

/-- Two rests in a row may be joined first. -/
theorem consMerged_rest_rest (a b : UInt32) (events : List Event) :
    consMerged (.rest a) (consMerged (.rest b) events) =
      consMerged (.rest (cappedUnits (a.toNat + b.toNat))) events := by
  match events with
  | [] => rfl
  | .press _ _ :: _ => rfl
  | .chord _ _ :: _ => rfl
  | .rest c :: events =>
    have sum : cappedUnits (a.toNat + (cappedUnits (b.toNat + c.toNat)).toNat) =
        cappedUnits ((cappedUnits (a.toNat + b.toNat)).toNat + c.toNat) := by
      apply UInt32.toNat_inj.mp
      simp only [toNat_cappedUnits]
      omega
    simp only [consMerged, sum]

/-- No two rests are side by side. -/
def RestsApart (events : List Event) : Prop :=
  events.IsChain fun a b => ¬(a.isRest = true ∧ b.isRest = true)

theorem consMerged_of_restsApart {e : Event} {events : List Event}
    (apart : RestsApart (e :: events)) : consMerged e events = e :: events := by
  match e, events with
  | .rest _, .rest _ :: _ => exact absurd ⟨rfl, rfl⟩ (List.isChain_cons_cons.mp apart).1
  | .rest _, [] => rfl
  | .rest _, .press _ _ :: _ => rfl
  | .rest _, .chord _ _ :: _ => rfl
  | .press _ _, _ => rfl
  | .chord _ _, _ => rfl

theorem restsApart_consMerged (e : Event) {events : List Event} (apart : RestsApart events) :
    RestsApart (consMerged e events) := by
  match e, events with
  | .rest a, .rest b :: events =>
    -- the joined rest has the same neighbour as the second one had
    obtain ⟨next, later⟩ := List.isChain_cons.mp apart
    exact List.isChain_cons.mpr ⟨next, later⟩
  | .rest _, [] => exact .singleton _
  | .rest _, .press _ _ :: _ => exact .cons apart (by rintro first ⟨⟩ ⟨_, ⟨⟩⟩)
  | .rest _, .chord _ _ :: _ => exact .cons apart (by rintro first ⟨⟩ ⟨_, ⟨⟩⟩)
  | .press _ _, _ => exact .cons apart (by rintro first _ ⟨⟨⟩, _⟩)
  | .chord _ _, _ => exact .cons apart (by rintro first _ ⟨⟨⟩, _⟩)

theorem restsApart_mergeRests (events : List Event) : RestsApart (mergeRests events) := by
  induction events with
  | nil => exact .nil
  | cons e events ih => exact restsApart_consMerged e ih

/-- A sequence without adjacent rests is left as it is. -/
theorem mergeRests_of_restsApart {events : List Event} (apart : RestsApart events) :
    mergeRests events = events := by
  induction events with
  | nil => rfl
  | cons e events ih =>
    have later : mergeRests events = events := ih (List.IsChain.tail apart)
    rw [mergeRests_cons, later, consMerged_of_restsApart apart]

theorem mergeRests_mergeRests (events : List Event) :
    mergeRests (mergeRests events) = mergeRests events :=
  mergeRests_of_restsApart (restsApart_mergeRests events)

/-- Merging in front of a sequence goes through the first event. -/
theorem foldr_consMerged (e : Event) (events others : List Event) :
    (consMerged e events).foldr consMerged others =
      consMerged e (events.foldr consMerged others) := by
  match e, events with
  | .rest a, .rest b :: events => exact (consMerged_rest_rest a b _).symm
  | .rest _, [] => rfl
  | .rest _, .press _ _ :: _ => rfl
  | .rest _, .chord _ _ :: _ => rfl
  | .press _ _, _ => rfl
  | .chord _ _, _ => rfl

theorem mergeRests_append_eq_foldr (events others : List Event) :
    mergeRests (events ++ others) = (mergeRests events).foldr consMerged (mergeRests others) := by
  induction events with
  | nil => rfl
  | cons e events ih =>
    rw [List.cons_append, mergeRests_cons, ih, mergeRests_cons, foldr_consMerged]

/-- Two parts may be merged before they are put together. -/
theorem mergeRests_append (events others : List Event) :
    mergeRests (events ++ others) = mergeRests (mergeRests events ++ mergeRests others) := by
  rw [mergeRests_append_eq_foldr, mergeRests_append_eq_foldr, mergeRests_mergeRests,
    mergeRests_mergeRests]

/-- The presses and chords of a sequence. -/
def sounding (events : List Event) : List Event := events.filter fun e => !e.isRest

theorem sounding_consMerged (e : Event) (events : List Event) :
    sounding (consMerged e events) = sounding (e :: events) := by
  match e, events with
  | .rest _, .rest _ :: _ => rfl
  | .rest _, [] => rfl
  | .rest _, .press _ _ :: _ => rfl
  | .rest _, .chord _ _ :: _ => rfl
  | .press _ _, _ => rfl
  | .chord _ _, _ => rfl

/-- Presses and chords are not touched. -/
theorem sounding_mergeRests (events : List Event) :
    sounding (mergeRests events) = sounding events := by
  induction events with
  | nil => rfl
  | cons e events ih =>
    rw [mergeRests_cons, sounding_consMerged, sounding, sounding, List.filter_cons,
      List.filter_cons, ← sounding, ih, ← sounding]

theorem totalUnits_append (events others : List Event) :
    totalUnits (events ++ others) = totalUnits events + totalUnits others := by
  induction events with
  | nil => rw [List.nil_append, totalUnits, Nat.zero_add]
  | cons e events ih => rw [List.cons_append, totalUnits, totalUnits, ih, Nat.add_assoc]

theorem totalUnits_consMerged {e : Event} {events : List Event}
    (h : e.units.toNat + totalUnits events ≤ maxUnits) :
    totalUnits (consMerged e events) = e.units.toNat + totalUnits events := by
  match e, events with
  | .rest a, .rest b :: events =>
    have fits : a.toNat + b.toNat ≤ maxUnits := by
      simp only [totalUnits, Event.units] at h
      omega
    simp only [consMerged, totalUnits, Event.units, toNat_cappedUnits, Nat.min_eq_left fits]
    omega
  | .rest _, [] => rfl
  | .rest _, .press _ _ :: _ => rfl
  | .rest _, .chord _ _ :: _ => rfl
  | .press _ _, _ => rfl
  | .chord _ _, _ => rfl

/-- No unit is lost while they can be counted. -/
theorem totalUnits_mergeRests {events : List Event} (h : totalUnits events ≤ maxUnits) :
    totalUnits (mergeRests events) = totalUnits events := by
  induction events with
  | nil => rfl
  | cons e events ih =>
    have rest : totalUnits events ≤ maxUnits := Nat.le_trans (Nat.le_add_left ..) h
    have same := ih rest
    rw [mergeRests_cons, totalUnits_consMerged (by rw [same]; exact h), same, totalUnits]

end KeyScore
