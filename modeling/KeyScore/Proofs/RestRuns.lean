import KeyScore.Proofs.Rests
import Mathlib.Data.List.SplitBy

/-!
# What becomes of a run of rests

A sequence falls into its longest runs of adjacent rests and the events that sound between them.
Merging makes one event of each of these parts: a run becomes one rest as long as the whole run, or
as long as a rest can be, and what sounds is kept. From this it can be read off when merging loses
time. The runs are those of the library's `List.splitBy`, which knows nothing of lengths.
-/

namespace KeyScore

/-- Both events belong to one run of rests. -/
def bothRest (a b : Event) : Bool := a.isRest && b.isRest

/-- The longest runs of adjacent rests, and between them each event that sounds by itself. -/
def runs (events : List Event) : List (List Event) := events.splitBy bothRest

/-- One event in place of a run: a rest of its length, as far as lengths go. -/
def joined : List Event → Event
  | [e] => e
  | run => .rest (cappedUnits (totalUnits run))

theorem cappedUnits_toNat (u : UInt32) : cappedUnits u.toNat = u := by
  have bound : u.toNat ≤ maxUnits := Nat.le_of_lt_succ u.toNat_lt
  apply UInt32.toNat_inj.mp
  rw [toNat_cappedUnits, Nat.min_eq_left bound]

/-- Rests in a row become one rest of their capped sum, in whatever order they are added up. -/
theorem mergeRests_of_rests {run : List Event} (nonempty : run ≠ [])
    (rests : ∀ e ∈ run, e.isRest = true) :
    mergeRests run = [.rest (cappedUnits (totalUnits run))] := by
  induction run with
  | nil => exact absurd rfl nonempty
  | cons e run ih =>
    obtain ⟨first, others⟩ := List.forall_mem_cons.mp rests
    match e, first with
    | .rest u, _ =>
      by_cases last : run = []
      · rw [last, totalUnits, totalUnits, Nat.add_zero, Event.units, cappedUnits_toNat]
        rfl
      · have sum : cappedUnits (u.toNat + (cappedUnits (totalUnits run)).toNat) =
            cappedUnits (u.toNat + totalUnits run) := by
          apply UInt32.toNat_inj.mp
          simp only [toNat_cappedUnits]
          omega
        rw [mergeRests_cons, ih last others, consMerged, sum]
        rfl

section Run

variable {run : List Event}

/-- A run of two events or more holds nothing but rests. -/
theorem isRest_of_mem_run {a b : Event}
    (chain : (a :: b :: run).IsChain fun a b => bothRest a b = true) :
    ∀ e ∈ a :: b :: run, e.isRest = true := by
  induction run generalizing a b with
  | nil =>
    obtain ⟨both, -⟩ := List.isChain_cons_cons.mp chain
    rw [bothRest, Bool.and_eq_true] at both
    simp [both.1, both.2]
  | cons c run ih =>
    obtain ⟨both, others⟩ := List.isChain_cons_cons.mp chain
    rw [bothRest, Bool.and_eq_true] at both
    exact List.forall_mem_cons.mpr ⟨both.1, ih others⟩

theorem mergeRests_run (nonempty : run ≠ [])
    (chain : run.IsChain fun a b => bothRest a b = true) : mergeRests run = [joined run] := by
  match run with
  | [e] => exact mergeRests_of_restsApart (.singleton e)
  | a :: b :: run => exact mergeRests_of_rests nonempty (isRest_of_mem_run chain)

/-- The event in place of a run is a rest if any event of the run is one. -/
theorem isRest_joined (chain : run.IsChain fun a b => bothRest a b = true) {e : Event}
    (inside : e ∈ run) : (joined run).isRest = e.isRest := by
  match run with
  | [_] => rw [List.mem_singleton.mp inside, joined]
  | a :: b :: run => exact (isRest_of_mem_run chain e inside).symm

theorem toNat_units_joined (run : List Event) :
    (joined run).units.toNat = min (totalUnits run) maxUnits := by
  match run with
  | [] => rfl
  | [e] =>
    have bound : e.units.toNat ≤ maxUnits := Nat.le_of_lt_succ e.units.toNat_lt
    rw [joined, totalUnits, totalUnits, Nat.add_zero, Nat.min_eq_left bound]
  | a :: b :: run => exact toNat_cappedUnits _

end Run

/-- Each part may be joined before the whole is merged. -/
theorem mergeRests_flatten {parts : List (List Event)} (nonempty : [] ∉ parts)
    (chains : ∀ run ∈ parts, run.IsChain fun a b => bothRest a b = true) :
    mergeRests parts.flatten = mergeRests (parts.map joined) := by
  induction parts with
  | nil => rfl
  | cons run parts ih =>
    obtain ⟨chain, chains⟩ := List.forall_mem_cons.mp chains
    rw [List.mem_cons, not_or] at nonempty
    have first : mergeRests run = mergeRests [joined run] := by
      rw [mergeRests_run (Ne.symm nonempty.1) chain]
      exact (mergeRests_of_restsApart (.singleton _)).symm
    calc mergeRests (run ++ parts.flatten)
        = mergeRests (mergeRests run ++ mergeRests parts.flatten) := mergeRests_append _ _
      _ = mergeRests (mergeRests [joined run] ++ mergeRests (parts.map joined)) := by
        rw [first, ih nonempty.2 chains]
      _ = mergeRests ([joined run] ++ parts.map joined) := (mergeRests_append _ _).symm

/-- Where one longest run ends and the next one starts, at least one of both sounds. -/
theorem restsApart_map_joined (events : List Event) : RestsApart ((runs events).map joined) := by
  refine (List.isChain_map joined).mpr ?_
  refine (List.isChain_getLast_head_splitBy bothRest events).imp_of_mem_imp ?_
  rintro before after inside inside' ⟨nonempty, nonempty', parted⟩
  rw [isRest_joined (List.isChain_of_mem_splitBy inside) (List.getLast_mem nonempty),
    isRest_joined (List.isChain_of_mem_splitBy inside') (List.head_mem nonempty')]
  rw [bothRest, Bool.and_eq_false_iff] at parted
  rintro ⟨last, first⟩
  rcases parted with sounds | sounds
  · exact absurd (last.symm.trans sounds) (by decide)
  · exact absurd (first.symm.trans sounds) (by decide)

/-- Each longest run of rests becomes one rest, and all else stays. -/
theorem mergeRests_eq_map_runs (events : List Event) :
    mergeRests events = (runs events).map joined := by
  calc mergeRests events
      = mergeRests (runs events).flatten := by rw [runs, List.flatten_splitBy]
    _ = mergeRests ((runs events).map joined) :=
      mergeRests_flatten (List.nil_notMem_splitBy _ _) fun _ => List.isChain_of_mem_splitBy
    _ = (runs events).map joined := mergeRests_of_restsApart (restsApart_map_joined events)

example : runs [.rest 3, .rest 1, .press 'a' 1, .press 'b' 2, .rest 2] =
    [[.rest 3, .rest 1], [.press 'a' 1], [.press 'b' 2], [.rest 2]] := by decide

theorem totalUnits_map_joined_le (parts : List (List Event)) :
    totalUnits (parts.map joined) ≤ totalUnits parts.flatten := by
  induction parts with
  | nil => exact Nat.le_refl _
  | cons run parts ih =>
    rw [List.map_cons, List.flatten_cons, totalUnits, totalUnits_append, toNat_units_joined]
    omega

/-- Only a run that is too long for one rest loses units. -/
theorem totalUnits_map_joined_eq_iff (parts : List (List Event)) :
    totalUnits (parts.map joined) = totalUnits parts.flatten ↔
      ∀ run ∈ parts, totalUnits run ≤ maxUnits := by
  induction parts with
  | nil => simp
  | cons run parts ih =>
    have others := totalUnits_map_joined_le parts
    rw [List.forall_mem_cons, ← ih, List.map_cons, List.flatten_cons, totalUnits,
      totalUnits_append, toNat_units_joined]
    omega

/-- Puts an event behind a sequence, lengthening a rest that comes last if both are rests. -/
def concatMerged (events : List Event) (e : Event) : List Event :=
  match events.getLast?, e with
  | some (.rest a), .rest b => events.dropLast ++ [.rest (cappedUnits (a.toNat + b.toNat))]
  | _, _ => events ++ [e]

theorem concatMerged_rest_rest (events : List Event) (a b : UInt32) :
    concatMerged (events ++ [.rest a]) (.rest b) =
      events ++ [.rest (cappedUnits (a.toNat + b.toNat))] := by
  simp only [concatMerged, List.getLast?_concat, List.dropLast_concat]

theorem concatMerged_of_parted {events : List Event} {e : Event}
    (parted : ∀ last ∈ events.getLast?, ¬(last.isRest = true ∧ e.isRest = true)) :
    concatMerged events e = events ++ [e] := by
  unfold concatMerged
  split
  · rename_i last
    exact absurd ⟨rfl, rfl⟩ (parted _ last)
  · rfl

/-- Whether two rests in a row are joined or the first one is lengthened is the same. -/
theorem concatMerged_of_restsApart {events : List Event} (apart : RestsApart events) (e : Event) :
    concatMerged events e = mergeRests (events ++ [e]) := by
  by_cases joins : ∃ before a b, events = before ++ [.rest a] ∧ e = .rest b
  · obtain ⟨before, a, b, rfl, rfl⟩ := joins
    obtain ⟨apart, -, parted⟩ := List.isChain_append.mp apart
    have lengthened : RestsApart (before ++ [.rest (cappedUnits (a.toNat + b.toNat))]) := by
      refine List.isChain_append.mpr ⟨apart, .singleton _, ?_⟩
      rintro last here _ ⟨⟩
      exact parted last here (.rest a) rfl
    calc concatMerged (before ++ [.rest a]) (.rest b)
        = before ++ [.rest (cappedUnits (a.toNat + b.toNat))] := concatMerged_rest_rest ..
      _ = mergeRests (before ++ [.rest (cappedUnits (a.toNat + b.toNat))]) :=
        (mergeRests_of_restsApart lengthened).symm
      _ = mergeRests (before ++ [.rest a, .rest b]) := by
        rw [mergeRests_append, mergeRests_append before]
        rfl
      _ = mergeRests (before ++ [.rest a] ++ [.rest b]) := by rw [List.append_assoc]; rfl
  · have parted : ∀ last ∈ events.getLast?, ¬(last.isRest = true ∧ e.isRest = true) := by
      rintro last here ⟨isRest, isRest'⟩
      match last, e, isRest, isRest' with
      | .rest a, .rest b, _, _ =>
        obtain ⟨before, rfl⟩ := List.getLast?_eq_some_iff.mp here
        exact joins ⟨before, a, b, rfl, rfl⟩
    have still : RestsApart (events ++ [e]) := by
      refine List.isChain_append.mpr ⟨apart, .singleton e, ?_⟩
      rintro last here _ ⟨⟩
      exact parted last here
    rw [concatMerged_of_parted parted, mergeRests_of_restsApart still]

/-- Going through the events from the front and lengthening the last rest in place comes to the
same. -/
theorem foldl_concatMerged (events : List Event) :
    events.foldl concatMerged [] = mergeRests events := by
  induction events using List.reverseRecOn with
  | nil => rfl
  | append_singleton events e ih =>
    calc (events ++ [e]).foldl concatMerged []
        = concatMerged (mergeRests events) e := by rw [List.foldl_concat, ih]
      _ = mergeRests (mergeRests events ++ [e]) :=
        concatMerged_of_restsApart (restsApart_mergeRests events) e
      _ = mergeRests (events ++ [e]) := by
        rw [mergeRests_append, mergeRests_mergeRests, ← mergeRests_append]

/-- Sequences may be merged before or after they are put together, merging twice is merging once,
what sounds is not touched, and each longest run of rests becomes one rest of its length, as far as
lengths go. So units are never won, and some are lost only where a run is too long for one rest. The
same comes out if the events are gone through once and the last rest is lengthened in place. -/
theorem merging_normalises (events others : List Event) :
    mergeRests (events ++ others) = mergeRests (mergeRests events ++ mergeRests others) ∧
      mergeRests (mergeRests events) = mergeRests events ∧
      sounding (mergeRests events) = sounding events ∧
      mergeRests events = (runs events).map joined ∧
      totalUnits (mergeRests events) ≤ totalUnits events ∧
      (totalUnits (mergeRests events) = totalUnits events ↔
        ∀ run ∈ runs events, totalUnits run ≤ maxUnits) ∧
      events.foldl concatMerged [] = mergeRests events := by
  have whole : (runs events).flatten = events := List.flatten_splitBy bothRest events
  have fewer := totalUnits_map_joined_le (runs events)
  have same := totalUnits_map_joined_eq_iff (runs events)
  rw [whole, ← mergeRests_eq_map_runs] at fewer same
  exact ⟨mergeRests_append events others, mergeRests_mergeRests events,
    sounding_mergeRests events, mergeRests_eq_map_runs events, fewer, same,
    foldl_concatMerged events⟩

end KeyScore
