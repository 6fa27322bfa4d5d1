import KeyScore.Proofs.Notation.Spelling
import KeyScore.Proofs.Rests
import Mathlib

/-!
# How long runs last

Dashes are counted up to the largest length, so a key is held the longer the more of them follow,
until it is held for the largest length. Pipes are counted in a word: a run that is too long for
it is counted from zero again, and that is not heard only if pipes weigh nothing or what is counted
is enough for the largest length as well.
-/

namespace KeyScore.Notation

namespace Token

/-- What a token plays if all of its run is counted and only its units stop at the largest
length. -/
def saturated (pipeWeight : UInt32) : Token → Option Event
  | press key ties => some (.press key (cappedUnits (ties + 1)))
  | chord [] _ => none
  | chord (key :: keys) ties => some (.chord (key :: keys) (cappedUnits (ties + 1)))
  | pipes count => some (.rest (cappedUnits (max 1 (count * pipeWeight.toNat))))
  | inert _ => none

/-- It is not heard that a run has more pipes than a word can count. -/
def Counted (pipeWeight : UInt32) : Token → Prop
  | pipes count =>
    count < UInt32.size ∨ pipeWeight = 0 ∨ maxUnits ≤ count % UInt32.size * pipeWeight.toNat
  | press _ _ | chord _ _ | inert _ => True

instance (pipeWeight : UInt32) (t : Token) : Decidable (t.Counted pipeWeight) :=
  match t with
  | pipes _ => inferInstanceAs (Decidable (_ ∨ _ ∨ _))
  | press _ _ | chord _ _ | inert _ => inferInstanceAs (Decidable True)

section Units

variable {w : UInt32} {count : Nat}

theorem pipeUnits_eq_iff :
    pipeUnits count w = cappedUnits (max 1 (count * w.toNat)) ↔ (pipes count).Counted w := by
  have large : 1 < maxUnits := by decide
  have units : pipeUnits count w = cappedUnits (max 1 (count * w.toNat)) ↔
      max 1 (min (count % UInt32.size * w.toNat) maxUnits) =
        min (max 1 (count * w.toNat)) maxUnits := by
    rw [← UInt32.toNat_inj, toNat_pipeUnits_mod, toNat_cappedUnits]
  rw [units, Counted]
  by_cases fits : count < UInt32.size
  · rw [Nat.mod_eq_of_lt fits]
    exact iff_of_true (by omega) (.inl fits)
  by_cases weightless : w = 0
  · rw [weightless, UInt32.toNat_zero, Nat.mul_zero, Nat.mul_zero]
    exact iff_of_true (by omega) (.inr (.inl rfl))
  · -- the run is longer than the largest length, so its units have to be that
    have pos : 1 ≤ w.toNat :=
      Nat.pos_of_ne_zero fun zero => weightless (UInt32.toNat_inj.mp zero)
    have whole : maxUnits < count * w.toNat :=
      Nat.lt_of_lt_of_le (Nat.lt_of_lt_of_le (by decide) (Nat.le_of_not_lt fits))
        (Nat.le_mul_of_pos_right count pos)
    simp only [fits, weightless, false_or]
    omega

/-- A token plays its full length exactly if its run is counted. -/
theorem event?_eq_saturated_iff (t : Token) (w : UInt32) :
    t.event? w = t.saturated w ↔ t.Counted w := by
  cases t with
  | press key ties => exact iff_of_true rfl trivial
  | chord keys ties =>
    refine iff_of_true ?_ trivial
    cases keys with
    | nil => rfl
    | cons key keys =>
      rw [event?, Event.ofKeys?, if_neg (List.cons_ne_nil key keys),
        max_cappedUnits_one, saturated]
  | pipes count =>
    rw [event?, saturated, Option.some.injEq, Event.rest.injEq]
    exact pipeUnits_eq_iff
  | inert c => exact iff_of_true rfl trivial

end Units

section Played

variable {w : UInt32} {tokens : List Token}

/-- Whether something is played, and whether it is a rest, does not depend on how a run is
counted. -/
theorem map_isRest_event? (t : Token) (w : UInt32) :
    (t.event? w).map Event.isRest = (t.saturated w).map Event.isRest := by
  match t with
  | press _ _ | chord [] _ | chord (_ :: _) _ | pipes _ | inert _ => rfl

theorem map_isRest_filterMap (tokens : List Token) (w : UInt32) :
    (tokens.filterMap (event? w)).map Event.isRest =
      (tokens.filterMap (saturated w)).map Event.isRest := by
  rw [List.map_filterMap, List.map_filterMap]
  exact List.filterMap_congr fun t _ => map_isRest_event? t w

theorem filterMap_event?_eq_iff :
    tokens.filterMap (event? w) = tokens.filterMap (saturated w) ↔ ∀ t ∈ tokens, t.Counted w := by
  induction tokens with
  | nil => simp
  | cons t tokens ih =>
    have kind := map_isRest_event? t w
    rw [List.forall_mem_cons, ← ih, ← event?_eq_saturated_iff, List.filterMap_cons,
      List.filterMap_cons]
    cases played : t.event? w with
    | none =>
      cases full : t.saturated w with
      | none => simp
      | some e => rw [played, full] at kind; cases kind
    | some e =>
      cases full : t.saturated w with
      | none => rw [played, full] at kind; cases kind
      | some e' => simp

end Played

end Token

/-- Whether rests are side by side does not depend on their units. -/
theorem restsApart_congr {events others : List Event}
    (same : events.map Event.isRest = others.map Event.isRest) :
    RestsApart events ↔ RestsApart others := by
  have kinds (events : List Event) :
      RestsApart events ↔ (events.map Event.isRest).IsChain fun a b => ¬(a = true ∧ b = true) := by
    rw [RestsApart, List.isChain_map]
  rw [kinds, kinds, same]

/-- A chord at the end leaves rests apart. -/
theorem restsApart_append_openMeaning {events : List Event} (apart : RestsApart events)
    (openChord : Option (List Char)) : RestsApart (events ++ openMeaning openChord) := by
  match openChord with
  | none | some [] => rwa [openMeaning, List.append_nil]
  | some (key :: keys) =>
    refine List.isChain_append.mpr ⟨apart, .singleton _, ?_⟩
    rintro e - _ ⟨⟩ ⟨-, ⟨⟩⟩

/-- However long the runs of a text are, it plays their full length if they are counted. Where
rests are not side by side, so that none makes up for another, it does so only then. -/
theorem compile_runs (s : Settings) {tokens : List Token} {openChord : Option (List Char)}
    (proper : ∀ t ∈ tokens, t.Proper) (parted : tokens.IsChain Token.Parted)
    (inChord : ∀ keys ∈ openChord, ∀ c ∈ keys, StandsInChord c)
    (noDirective : (spell tokens openChord).head? ≠ some '@') :
    let text := String.ofList (spell tokens openChord)
    let full := tokens.filterMap (Token.saturated s.pipeWeight)
    ((∀ t ∈ tokens, t.Counted s.pipeWeight) →
        compile text s = ⟨mergeRests (full ++ openMeaning openChord), s⟩) ∧
      (RestsApart full →
        (compile text s = ⟨full ++ openMeaning openChord, s⟩ ↔
          ∀ t ∈ tokens, t.Counted s.pipeWeight)) := by
  intro text full
  have compiled : compile text s = _ := compile_spell s proper parted inChord noDirective
  rw [compiled, ← Token.filterMap_event?_eq_iff]
  refine ⟨fun counted => by rw [counted], fun apart => ?_⟩
  have played := (restsApart_congr (Token.map_isRest_filterMap tokens s.pipeWeight)).mpr apart
  rw [mergeRests_of_restsApart (restsApart_append_openMeaning played openChord),
    Compiled.mk.injEq, and_iff_left rfl, List.append_left_inj]

/-- Runs that are longer than a word can count, on a key, in pipes and on a chord. The pipes are
still counted up to the largest length. -/
def longRuns : List Token :=
  [.press 'a' 4294967296, .pipes 8589934591, .chord ['b', 'c'] 4294967295]

theorem compile_longRuns :
    (∀ t ∈ longRuns, t.Proper ∧ t.Counted 3) ∧ longRuns.IsChain Token.Parted ∧
      compile (String.ofList (spell longRuns none)) Settings.initial =
        ⟨[.press 'a' 4294967295, .rest 4294967295, .chord ['b', 'c'] 4294967295],
          Settings.initial⟩ := by
  have proper : ∀ t ∈ longRuns, t.Proper := by decide
  have counted : ∀ t ∈ longRuns, t.Counted 3 := by decide
  have parted : longRuns.IsChain Token.Parted := by decide
  have inChord : ∀ keys ∈ (none : Option (List Char)), ∀ c ∈ keys, StandsInChord c := by
    rintro keys ⟨⟩
  have first : (spell longRuns none).head? = some 'a' := rfl
  have runs := compile_runs Settings.initial proper parted inChord
    (by rw [first]; decide)
  have apart : RestsApart (longRuns.filterMap (Token.saturated 3)) :=
    .cons_cons (by decide) (.cons_cons (by decide) (.singleton _))
  exact ⟨fun t inside => ⟨proper t inside, counted t inside⟩, parted, (runs.2 apart).mpr counted⟩

/-- A text of pipes is a single rest. -/
theorem compile_replicate_pipe (s : Settings) {count : Nat} (least : 1 ≤ count) :
    compile (String.ofList (List.replicate count '|')) s =
      ⟨[.rest (Token.pipeUnits count s.pipeWeight)], s⟩ := by
  obtain ⟨more, rfl⟩ := Nat.exists_eq_add_of_le' least
  have proper : ∀ t ∈ [Token.pipes (more + 1)], t.Proper := List.forall_mem_singleton.mpr least
  have noChord : ∀ keys ∈ (none : Option (List Char)), ∀ c ∈ keys, StandsInChord c := by
    rintro keys ⟨⟩
  have written : spell [.pipes (more + 1)] none = List.replicate (more + 1) '|' := by
    simp [spell, Token.spelling]
  have noDirective : (spell [.pipes (more + 1)] none).head? ≠ some '@' := by
    rw [written, List.replicate_succ]
    simp
  rw [← written, compile_spell s proper (.singleton _) noChord noDirective]
  rfl

/-- One pipe more than a word can count, and the rest is the shortest there is: one pipe alone
rests for longer. -/
theorem compile_wrapped_pipes :
    compile (String.ofList (List.replicate 4294967296 '|')) Settings.initial =
        ⟨[.rest 1], Settings.initial⟩ ∧
      (Token.pipes 4294967296).saturated Settings.initial.pipeWeight = some (.rest 4294967295) ∧
      compile (String.ofList (List.replicate 1 '|')) Settings.initial =
        ⟨[.rest 3], Settings.initial⟩ := by
  have wrapped : Token.pipeUnits 4294967296 Settings.initial.pipeWeight = 1 := by decide
  have full : cappedUnits (max 1 (4294967296 * Settings.initial.pipeWeight.toNat)) =
      4294967295 := by decide
  have single : Token.pipeUnits 1 Settings.initial.pipeWeight = 3 := by decide
  rw [compile_replicate_pipe _ (by decide), compile_replicate_pipe _ (by decide), wrapped, single,
    Token.saturated, full]
  exact ⟨rfl, rfl, rfl⟩

end KeyScore.Notation
