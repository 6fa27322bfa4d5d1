import KeyScore.Proofs.Player.Balance
import Mathlib.Data.List.Basic
import Mathlib.Data.List.Induction
import Mathlib.Data.List.Nodup
import Mathlib.Data.Set.Insert
import Mathlib.Order.Bounds.Basic

/-!
# What a recorder counts

A recorder keeps one list of held keys for all keys together, and each release takes the first one
that matches out of it. Yet every key has a counter of its own, which presses raise and releases
lower as long as there is something to lower; it is presses less releases just where the key never
comes up more often than it went down. The list has the order of the presses that are left when
each release cancels the oldest press of its key, so of each key the latest presses are left.
-/

namespace KeyScore.Player

/-- What can be done with a recorder. -/
inductive Use where
  | press (key : Key)
  | release (key : Key)
  | clear
deriving DecidableEq, Repr

/-- Whether a use can change how often the key is held. -/
def Use.concerns (key : Key) : Use → Bool
  | .press other | .release other => other == key
  | .clear => true

/-- The counter of a key after one more use: a press adds one, a release takes one away if there
is one, and clearing starts again from nothing. -/
def tally (key : Key) (count : Nat) : Use → Nat
  | .press other => if other = key then count + 1 else count
  | .release other => if other = key then count - 1 else count
  | .clear => 0

theorem tally_of_not_concerns {key : Key} {u : Use} (apart : u.concerns key = false)
    (count : Nat) : tally key count u = count := by
  cases u with
  | press other => exact if_neg (beq_eq_false_iff_ne.mp apart)
  | release other => exact if_neg (beq_eq_false_iff_ne.mp apart)
  | clear => cases apart

/-- The counter of a key takes no notice of what is done to other keys. -/
theorem foldl_tally_filter (key : Key) (uses : List Use) (count : Nat) :
    (uses.filter (Use.concerns key)).foldl (tally key) count = uses.foldl (tally key) count := by
  induction uses generalizing count with
  | nil => rfl
  | cons u uses ih =>
    cases apart : u.concerns key with
    | true => rw [List.filter_cons_of_pos apart, List.foldl_cons, List.foldl_cons, ih]
    | false =>
      rw [List.filter_cons_of_neg (ne_true_of_eq_false apart), List.foldl_cons,
        tally_of_not_concerns apart, ih]

namespace Recorder

def use (r : Recorder) : Use → Recorder
  | .press key => r.press key
  | .release key => r.release key
  | .clear => r.clear

/-- A new recorder after all that is done with it. -/
def ofUses (uses : List Use) : Recorder := uses.foldl use {}

section Counting

variable {key other : Key}

theorem count_held_down (keys : List Key) : (held keys (.down other)).count key =
    if other = key then keys.count key + 1 else keys.count key := by
  rw [held, List.count_append, List.count_singleton]
  simp only [beq_iff_eq]
  split <;> rfl

theorem count_held_up (keys : List Key) : (held keys (.up other)).count key =
    if other = key then keys.count key - 1 else keys.count key := by
  rw [held, List.count_erase]
  simp only [beq_iff_eq]
  split <;> rfl

theorem count_use (key : Key) (r : Recorder) (u : Use) :
    (r.use u).heldKeys.count key = tally key (r.heldKeys.count key) u := by
  cases u with
  | press other =>
    rw [use, heldKeys_press]
    exact count_held_down r.heldKeys
  | release other =>
    rw [use, heldKeys_release]
    exact count_held_up r.heldKeys
  | clear => rfl

theorem count_ofUses (key : Key) (uses : List Use) :
    (ofUses uses).heldKeys.count key = uses.foldl (tally key) 0 := by
  induction uses using List.reverseRecOn with
  | nil => rfl
  | append_singleton uses u ih =>
    rw [ofUses, List.foldl_concat, ← ofUses, count_use, ih, List.foldl_concat]

/-- Presses less releases is never more than a key is held, and just that much where no release
has come in vain. -/
theorem count_held_spec (key : Key) (log : List Action) :
    log.count (.down key) ≤ (log.foldl held []).count key + log.count (.up key) ∧
      (Matched key log ↔
        (log.foldl held []).count key + log.count (.up key) = log.count (.down key)) := by
  induction log using List.reverseRecOn with
  | nil => exact ⟨Nat.le_refl _, fun _ => rfl, fun _ => matched_nil key⟩
  | append_singleton log a ih =>
    obtain ⟨least, matched⟩ := ih
    rw [matched_concat, matched, List.foldl_concat]
    cases a with
    | down other =>
      simp only [count_held_down, List.count_append, List.count_singleton, beq_iff_eq,
        Action.down.injEq, reduceCtorEq, if_false]
      split <;> omega
    | up other =>
      -- A release in vain leaves the counter at zero, and from then on it is too high.
      simp only [count_held_up, List.count_append, List.count_singleton, beq_iff_eq,
        Action.up.injEq, reduceCtorEq, if_false]
      split <;> omega

end Counting

end Recorder

/-- The places of a log where the key is pressed. -/
def presses (log : List Action) (key : Key) : Set Nat := {place | log[place]? = some (.down key)}

instance (log : List Action) (key : Key) : DecidablePred (· ∈ presses log key) :=
  fun place => inferInstanceAs (Decidable (log[place]? = some (.down key)))

/-- The places of the presses that are outstanding after the first actions of a log. A release
cancels the oldest outstanding press of its key, and nothing if there is none. -/
def outstanding (log : List Action) : Nat → Set Nat
  | 0 => ∅
  | n + 1 =>
    match log[n]? with
    | some (.down _) => insert n (outstanding log n)
    | some (.up key) =>
      outstanding log n \ {place | IsLeast (outstanding log n ∩ presses log key) place}
    | none => outstanding log n

/-- Those of the places where the key is pressed. -/
def pressedAmong (log : List Action) (key : Key) (places : List Nat) : List Nat :=
  places.filter (· ∈ presses log key)

/-- The places of the outstanding presses in their order, after the first actions of a log. The
keys held then have been pressed there, and of each key it is the latest presses that are left. -/
structure Standing (log : List Action) (n : Nat) (places : List Nat) : Prop where
  ordered : places.Pairwise (· < ·)
  early : ∀ place ∈ places, place < n
  mem_iff : ∀ place, place ∈ places ↔ place ∈ outstanding log n
  keys : places.map (log[·]?) =
    ((log.take n).foldl Recorder.held []).map fun key => some (.down key)
  latest : ∀ key, pressedAmong log key places <:+ pressedAmong log key (List.range n)

section Order

variable {log : List Action} {key : Key} {place n : Nat} {places : List Nat}

theorem mem_presses : place ∈ presses log key ↔ log[place]? = some (.down key) := Iff.rfl

theorem outstanding_down (press : log[n]? = some (.down key)) :
    outstanding log (n + 1) = insert n (outstanding log n) := by
  rw [outstanding, press]

theorem outstanding_up (release : log[n]? = some (.up key)) : outstanding log (n + 1) =
    outstanding log n \ {place | IsLeast (outstanding log n ∩ presses log key) place} := by
  rw [outstanding, release]

theorem outstanding_none (ended : log[n]? = none) :
    outstanding log (n + 1) = outstanding log n := by
  rw [outstanding, ended]

theorem pressedAmong_append (places others : List Nat) : pressedAmong log key (places ++ others) =
    pressedAmong log key places ++ pressedAmong log key others :=
  List.filter_append ..

theorem pressedAmong_cons (pressed : place ∈ presses log key) :
    pressedAmong log key (place :: places) = place :: pressedAmong log key places :=
  List.filter_cons_of_pos (decide_eq_true pressed)

theorem pressedAmong_cons_of_notMem (silent : place ∉ presses log key) :
    pressedAmong log key (place :: places) = pressedAmong log key places :=
  List.filter_cons_of_neg (ne_true_of_eq_false (decide_eq_false silent))

theorem pressedAmong_eq_nil (silent : ∀ place ∈ places, place ∉ presses log key) :
    pressedAmong log key places = [] :=
  List.filter_eq_nil_iff.mpr fun place inside pressed =>
    silent place inside (of_decide_eq_true pressed)

theorem pressedAmong_range_succ (silent : n ∉ presses log key) :
    pressedAmong log key (List.range (n + 1)) = pressedAmong log key (List.range n) := by
  rw [List.range_succ, pressedAmong_append, pressedAmong_cons_of_notMem silent]
  exact List.append_nil _

theorem notMem_presses_of_up (release : log[n]? = some (.up key)) (other : Key) :
    n ∉ presses log other := by
  rw [mem_presses, release]
  intro same
  cases same

namespace Standing

theorem nothing (log : List Action) : Standing log 0 [] where
  ordered := .nil
  early := by simp
  mem_iff := by simp [outstanding]
  keys := rfl
  latest _ := List.nil_suffix

theorem down (standing : Standing log n places) (press : log[n]? = some (.down key)) :
    Standing log (n + 1) (places ++ [n]) where
  ordered := by
    refine List.pairwise_append.mpr ⟨standing.ordered, List.pairwise_singleton .., ?_⟩
    intro place inside last here
    rw [List.mem_singleton.mp here]
    exact standing.early place inside
  early := by
    intro place inside
    rcases List.mem_append.mp inside with before | last
    · exact Nat.lt_succ_of_lt (standing.early place before)
    · rw [List.mem_singleton.mp last]
      exact Nat.lt_succ_self n
  mem_iff := by
    intro place
    rw [outstanding_down press, List.mem_append, List.mem_singleton, Set.mem_insert_iff,
      standing.mem_iff, or_comm]
  keys := by
    rw [List.take_add_one, press, Option.toList_some, List.foldl_concat, Recorder.held,
      List.map_append, List.map_append, standing.keys, List.map_singleton, List.map_singleton,
      press]
  latest other := by
    obtain ⟨cancelled, all⟩ := standing.latest other
    refine ⟨cancelled, ?_⟩
    rw [List.range_succ, pressedAmong_append, pressedAmong_append, ← all, List.append_assoc]

/-- The keys held after a release, said by where they have been pressed. -/
theorem keys_of_up (standing : Standing log n places) (release : log[n]? = some (.up key)) :
    ((log.take (n + 1)).foldl Recorder.held []).map (fun key => some (Action.down key)) =
      (places.map (log[·]?)).erase (some (.down key)) := by
  have injective : Function.Injective fun key => some (Action.down key) := by
    intro key other same
    exact Action.down.inj (Option.some.inj same)
  rw [List.take_add_one, release, Option.toList_some, List.foldl_concat, Recorder.held,
    List.map_erase injective, standing.keys]

theorem notMem_map (silent : ∀ place ∈ places, place ∉ presses log key) :
    some (Action.down key) ∉ places.map (log[·]?) := by
  intro inside
  obtain ⟨place, here, pressed⟩ := List.mem_map.mp inside
  exact silent place here pressed

/-- A release that finds no press of its key changes nothing. -/
theorem up_of_none (standing : Standing log n places) (release : log[n]? = some (.up key))
    (silent : ∀ place ∈ places, place ∉ presses log key) : Standing log (n + 1) places where
  ordered := standing.ordered
  early place inside := Nat.lt_succ_of_lt (standing.early place inside)
  mem_iff := by
    intro place
    rw [outstanding_up release, standing.mem_iff]
    refine ⟨fun left => ⟨left, fun least => ?_⟩, And.left⟩
    exact silent place ((standing.mem_iff place).mpr left) least.1.2
  keys := by
    rw [standing.keys_of_up release, List.erase_of_not_mem (notMem_map silent)]
  latest other := by
    rw [pressedAmong_range_succ (notMem_presses_of_up release other)]
    exact standing.latest other

section First

variable {before after : List Nat} {oldest : Nat}
  (standing : Standing log n (before ++ oldest :: after))
  (pressed : oldest ∈ presses log key) (silent : ∀ place ∈ before, place ∉ presses log key)

include standing in
theorem notMem_rest : oldest ∉ before ++ after := by
  have once : (before ++ oldest :: after).Nodup := standing.ordered.imp Nat.ne_of_lt
  exact (List.nodup_cons.mp (List.perm_middle.nodup_iff.mp once)).1

include standing pressed silent in
theorem isLeast_of_first : IsLeast (outstanding log n ∩ presses log key) oldest := by
  obtain ⟨-, later, -⟩ := List.pairwise_append.mp standing.ordered
  refine ⟨⟨(standing.mem_iff oldest).mp (by simp), pressed⟩, ?_⟩
  rintro place ⟨left, same_key⟩
  rcases List.mem_append.mp ((standing.mem_iff place).mpr left) with earlier | inside
  · exact absurd same_key (silent place earlier)
  · rcases List.mem_cons.mp inside with rfl | behind
    · exact Nat.le_refl _
    · exact Nat.le_of_lt (List.rel_of_pairwise_cons later behind)

include standing pressed silent in
/-- A release that finds presses of its key cancels the first one of them. -/
theorem up_of_first (release : log[n]? = some (.up key)) :
    Standing log (n + 1) (before ++ after) where
  ordered := standing.ordered.sublist ((List.sublist_cons_self oldest after).append_left before)
  early := by
    intro place inside
    refine Nat.lt_succ_of_lt (standing.early place ?_)
    exact ((List.sublist_cons_self oldest after).append_left before).subset inside
  mem_iff := by
    intro place
    have least := standing.isLeast_of_first pressed silent
    have cancelled : place ∈ {p | IsLeast (outstanding log n ∩ presses log key) p} ↔
        place = oldest :=
      ⟨fun other => other.unique least, fun same => same ▸ least⟩
    rw [outstanding_up release, Set.mem_sdiff, ← standing.mem_iff, cancelled,
      List.perm_middle.mem_iff, List.mem_cons]
    constructor
    · intro left
      exact ⟨.inr left, fun same => standing.notMem_rest (same ▸ left)⟩
    · rintro ⟨same | left, different⟩
      · exact absurd same different
      · exact left
  keys := by
    rw [standing.keys_of_up release, List.map_append, List.map_append, List.map_cons,
      List.erase_append_right _ (notMem_map silent), mem_presses.mp pressed, List.erase_cons_head]
  latest other := by
    rw [pressedAmong_range_succ (notMem_presses_of_up release other)]
    refine List.IsSuffix.trans ?_ (standing.latest other)
    rw [pressedAmong_append, pressedAmong_append]
    by_cases same : other = key
    · rw [same, pressedAmong_eq_nil silent, pressedAmong_cons pressed]
      exact List.suffix_cons oldest _
    · have elsewhere : oldest ∉ presses log other := by
        intro also
        exact same (Action.down.inj (Option.some.inj (also.symm.trans pressed)))
      simp only [pressedAmong_cons_of_notMem elsewhere, List.suffix_rfl]

end First

theorem of_ended (standing : Standing log n places) (ended : log[n]? = none) :
    Standing log (n + 1) places where
  ordered := standing.ordered
  early place inside := Nat.lt_succ_of_lt (standing.early place inside)
  mem_iff := by
    rw [outstanding_none ended]
    exact standing.mem_iff
  keys := by
    rw [List.take_add_one, ended, Option.toList_none, List.append_nil]
    exact standing.keys
  latest other := by
    have silent : n ∉ presses log other := by
      rw [mem_presses, ended]
      intro same
      cases same
    rw [pressedAmong_range_succ silent]
    exact standing.latest other

end Standing

theorem exists_standing (log : List Action) (n : Nat) : ∃ places, Standing log n places := by
  induction n with
  | zero => exact ⟨[], .nothing log⟩
  | succ n ih =>
    obtain ⟨places, standing⟩ := ih
    cases next : log[n]? with
    | none => exact ⟨places, standing.of_ended next⟩
    | some a =>
      cases a with
      | down key => exact ⟨places ++ [n], standing.down next⟩
      | up key =>
        cases found : places.find? (· ∈ presses log key) with
        | none =>
          have silent := List.find?_eq_none.mp found
          exact ⟨places, standing.up_of_none next fun place inside pressed =>
            silent place inside (decide_eq_true pressed)⟩
        | some oldest =>
          obtain ⟨pressed, before, after, rfl, silent⟩ := List.find?_eq_some_iff_append.mp found
          exact ⟨before ++ after, standing.up_of_first (of_decide_eq_true pressed)
            (fun place earlier => by simpa using silent place earlier) next⟩

end Order

/-- Every key is counted by itself: presses raise its counter, releases lower it as long as it is
not zero, clearing sets it to zero, and what other keys do is nothing to it. It is presses less
releases just where the key has never been released more often than pressed. The held keys have
the order of the presses that are left when each release cancels the oldest press of its key; of
each key these are the latest presses. -/
theorem held_keys_counted (uses : List Use) :
    let r := Recorder.ofUses uses
    (∀ key, r.heldKeys.count key = uses.foldl (tally key) 0 ∧
      r.heldKeys.count key =
        (Recorder.ofUses (uses.filter (Use.concerns key))).heldKeys.count key ∧
      (Matched key r.log ↔
        r.heldKeys.count key + r.log.count (.up key) = r.log.count (.down key))) ∧
    ∃ places : List Nat, places.Pairwise (· < ·) ∧
      (∀ place, place ∈ places ↔ place ∈ outstanding r.log r.log.length) ∧
      places.map (r.log[·]?) = r.heldKeys.map (fun key => some (.down key)) ∧
      ∀ key, pressedAmong r.log key places <:+ pressedAmong r.log key (List.range r.log.length) := by
  intro r
  refine ⟨?_, ?_⟩
  · intro key
    have unmoved : r.heldKeys.count key =
        (Recorder.ofUses (uses.filter (Use.concerns key))).heldKeys.count key := by
      rw [Recorder.count_ofUses, Recorder.count_ofUses, foldl_tally_filter]
    exact ⟨Recorder.count_ofUses key uses, unmoved, (Recorder.count_held_spec key r.log).2⟩
  · obtain ⟨places, standing⟩ := exists_standing r.log r.log.length
    have keys := standing.keys
    rw [List.take_length] at keys
    exact ⟨places, standing.ordered, standing.mem_iff, keys, standing.latest⟩

example : (Recorder.ofUses [.press .shift, .press (.char 'a'), .press .shift, .release .shift,
    .release (.char 'b')]).heldKeys = [.char 'a', .shift] := by decide

end KeyScore.Player
