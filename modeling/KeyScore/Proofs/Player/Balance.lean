import KeyScore.Proofs.Player.Trace

/-!
# No key stays down

Everything an engine ever does to the keys is a row of finished events and what has been done
for the one in hand. A finished event presses each key as often as it releases it, and
presses it first; so a key is down only while an event that presses it is held.
-/

namespace KeyScore.Player

/-- At no time has the key been released more often than pressed. -/
def Matched (key : Key) (as : List Action) : Prop :=
  ∀ before, before <+: as → before.count (.up key) ≤ before.count (.down key)

/-- The key has been released as often as pressed. -/
def Balanced (key : Key) (as : List Action) : Prop := as.count (.down key) = as.count (.up key)

/-- How often an event presses a key. -/
def strikes (key : Key) (event : Event) : Nat := (event.keys.flatMap downs).count (.down key)

theorem count_up_downs (key : Key) (keys : List Char) :
    (keys.flatMap downs).count (.up key) = 0 := by
  induction keys with
  | nil => rfl
  | cons c keys ih =>
    rw [List.flatMap_cons, List.count_append, ih]
    by_cases capital : Text.isCapital c = true
    · simp [downs, capital]
    · simp [downs, capital]

theorem count_down_ups (key : Key) (keys : List Char) :
    (keys.flatMap ups).count (.down key) = 0 := by
  induction keys with
  | nil => rfl
  | cons c keys ih =>
    rw [List.flatMap_cons, List.count_append, ih]
    by_cases capital : Text.isCapital c = true
    · simp [ups, capital]
    · simp [ups, capital]

theorem count_up_ups (key : Key) (keys : List Char) :
    (keys.flatMap ups).count (.up key) = (keys.flatMap downs).count (.down key) := by
  induction keys with
  | nil => rfl
  | cons c keys ih =>
    rw [List.flatMap_cons, List.flatMap_cons, List.count_append, List.count_append, ih]
    by_cases capital : Text.isCapital c = true
    · simp [ups, downs, capital, List.count_cons, Nat.add_comm]
    · simp [ups, downs, capital, List.count_cons]

theorem balanced_append {key : Key} {as bs : List Action} (ha : Balanced key as)
    (hb : Balanced key bs) : Balanced key (as ++ bs) := by
  unfold Balanced at *
  rw [List.count_append, List.count_append, ha, hb]

theorem balanced_actionsFor (key : Key) (event : Event) : Balanced key (actionsFor event) := by
  simp [Balanced, actionsFor, count_up_downs, count_down_ups, count_up_ups]

theorem balanced_events (key : Key) (events : List Event) :
    Balanced key (events.flatMap actionsFor) := by
  induction events with
  | nil => rfl
  | cons event events ih =>
    rw [List.flatMap_cons]
    exact balanced_append (balanced_actionsFor key event) ih

theorem matched_nil (key : Key) : Matched key [] := by
  intro before h
  rw [List.prefix_nil.mp h]
  exact Nat.le_refl _

theorem matched_append {key : Key} {as bs : List Action} (ha : Matched key as)
    (hb : Matched key bs) : Matched key (as ++ bs) := by
  intro before h
  rcases List.prefix_or_prefix_of_prefix h (List.prefix_append as bs) with short | ⟨rest, rfl⟩
  · exact ha before short
  · have whole := ha as List.prefix_rfl
    have part := hb rest ((List.prefix_append_right_inj as).mp h)
    rw [List.count_append, List.count_append]
    omega

theorem matched_concat {key : Key} {as : List Action} {a : Action} : Matched key (as ++ [a]) ↔
    Matched key as ∧ (as ++ [a]).count (.up key) ≤ (as ++ [a]).count (.down key) := by
  constructor
  · intro matched
    exact ⟨fun before h => matched before (h.trans (List.prefix_append as [a])),
      matched _ List.prefix_rfl⟩
  · rintro ⟨matched, whole⟩ before h
    rcases List.prefix_concat_iff.mp h with rfl | shorter
    · exact whole
    · exact matched before shorter

theorem matched_downs (key : Key) (keys : List Char) : Matched key (keys.flatMap downs) := by
  intro before h
  have le := h.sublist.count_le (Action.up key)
  rw [count_up_downs] at le
  omega

theorem matched_actionsFor (key : Key) (event : Event) : Matched key (actionsFor event) := by
  intro before h
  rcases List.prefix_or_prefix_of_prefix h (List.prefix_append _ _) with short | ⟨rest, rfl⟩
  · exact matched_downs key event.keys before short
  · -- All the presses have come before, and no more releases can follow.
    have le := ((List.prefix_append_right_inj _).mp h).sublist.count_le (Action.up key)
    rw [count_up_ups] at le
    rw [List.count_append, List.count_append, count_up_downs]
    omega

theorem matched_events (key : Key) (events : List Event) :
    Matched key (events.flatMap actionsFor) := by
  induction events with
  | nil => exact matched_nil key
  | cons event events ih =>
    rw [List.flatMap_cons]
    exact matched_append (matched_actionsFor key event) ih

/-- What has been done for announced events leaves no key down, unless the last is held. -/
theorem balanced_doneForAll (key : Key) {loop : Loop}
    (free : ∀ keys wait gap, loop ≠ .holding keys wait gap) (events : List Event) :
    Balanced key (loop.doneForAll events) := by
  rcases List.eq_nil_or_concat events with rfl | ⟨init, last, rfl⟩
  · rfl
  · rw [List.concat_eq_append, Loop.doneForAll_concat]
    refine balanced_append (balanced_events key init) ?_
    cases loop with
    | announced event settings => rfl
    | holding keys wait gap => exact absurd rfl (free keys wait gap)
    | gone => exact balanced_actionsFor key last
    | boundary => exact balanced_actionsFor key last
    | trailing wait => exact balanced_actionsFor key last
    | resting wait => exact balanced_actionsFor key last

namespace Run

theorem balanced_log {r : Run} (faithful : r.Faithful) (key : Key)
    (free : ∀ keys wait gap, r.engine.loop ≠ .holding keys wait gap) :
    Balanced key (actionsOf r.log) := by
  obtain ⟨earlier, log⟩ := faithful.log
  rw [log]
  exact balanced_append (balanced_events key earlier) (balanced_doneForAll key free _)

/-- While an event is held, each key is down as often as the event presses it. -/
theorem count_log_of_holding {r : Run} (faithful : r.Faithful) (key : Key)
    {keys : List Char} {wait gap : Duration} (place : r.engine.loop = .holding keys wait gap) :
    ∃ event, r.engine.events[r.engine.cursor]? = some event ∧ event.keys = keys ∧
      (actionsOf r.log).count (.down key) =
        (actionsOf r.log).count (.up key) + strikes key event := by
  obtain ⟨earlier, log⟩ := faithful.log
  have fits := faithful.sound.fits
  rw [place] at fits
  obtain ⟨event, here, sounding⟩ := fits
  refine ⟨event, here, sounding, ?_⟩
  have before : Balanced key (earlier.flatMap actionsFor ++
      (r.engine.events.take r.engine.cursor).flatMap actionsFor) :=
    balanced_append (balanced_events key earlier) (balanced_events key _)
  have split : actionsOf r.log = earlier.flatMap actionsFor ++
      (r.engine.events.take r.engine.cursor).flatMap actionsFor ++ event.keys.flatMap downs := by
    rw [log, Engine.actions, Engine.played_of_busy (by rw [place]; rfl) here,
      Loop.doneForAll_concat, place, List.append_assoc]
    rfl
  rw [split, List.count_append, List.count_append (a := Action.up key), count_up_downs]
  exact congrArg (· + strikes key event) before

/-- The log of an engine that is put away now. -/
def dropped (r : Run) : List Notice := r.log ++ r.engine.cancel.2

theorem actions_dropped {r : Run} (faithful : r.Faithful) :
    ∃ events : List Event, actionsOf r.dropped = events.flatMap actionsFor := by
  obtain ⟨earlier, log⟩ := faithful.log
  refine ⟨earlier ++ r.engine.cancel.1.played, ?_⟩
  rw [dropped, actionsOf_append, log, List.append_assoc, Engine.actions_cancel faithful.sound,
    List.flatMap_append]

end Run

/-- Calls after which no event is held, made in this state: those that rewind, those that wait
for the loop, and a start or a resumption that ends a pause. -/
def Call.quiets (state : State) : Call → Prop
  | wait => True
  | start _ | resume _ => state = .paused
  | c => c.rewinds = true

theorem Call.loop_of_quiets {e : Engine} (sound : e.Sound) {c : Call} (quiet : c.quiets e.state) :
    ((Move.call c).make e).1.loop = .gone ∨ ((Move.call c).make e).1.loop = .boundary := by
  have rewound (back : c.rewinds = true) : ((Move.call c).make e).1.loop = .gone := by
    obtain ⟨settings, events, installed⟩ := e.make_rewinds (m := .call c) back
    rw [installed, Engine.install_engine]
  obtain ⟨_, _, drained⟩ := e.drain_eq_loopMoves
  cases c with
  | wait => exact .inl drained
  | start thread =>
    exact Loop.gone_or_boundary (Engine.busy_start (sound.startable quiet) thread)
  | resume thread => exact Loop.gone_or_boundary (Engine.busy_resume quiet thread)
  | load text => exact .inl (rewound quiet)
  | loadEvents events => exact .inl (rewound quiet)
  | importMidi bytes keymap => exact .inl (rewound quiet)
  | stop => exact .inl (rewound quiet)
  | pause meanwhile => cases quiet
  | configure edit => cases quiet
  | fit seconds => cases quiet

/-- In every history a key comes up only after it went down, and while an event is held, each
key is down as often as that event presses it. Otherwise no key is down: so it is after every
call that ends the event in hand, once the score is finished, and when the engine is put
away. -/
theorem no_key_stuck (settings : Settings) (history : List Move) (key : Key) :
    let run := (Run.ofSettings settings).follow history
    let log := actionsOf run.log
    Matched key (actionsOf run.dropped) ∧ Balanced key (actionsOf run.dropped) ∧
    (∀ keys wait gap, run.engine.loop = .holding keys wait gap →
      ∃ event, run.engine.events[run.engine.cursor]? = some event ∧ event.keys = keys ∧
        log.count (.down key) = log.count (.up key) + strikes key event) ∧
    ((∀ keys wait gap, run.engine.loop ≠ .holding keys wait gap) → Balanced key log) ∧
    (run.engine.state = .finished → Balanced key log) ∧
    (∀ c : Call, c.quiets run.engine.state →
      Balanced key (actionsOf (run.move (.call c)).log)) := by
  intro run log
  have faithful : run.Faithful := Run.faithful settings history
  obtain ⟨events, all⟩ := Run.actions_dropped faithful
  refine ⟨?_, ?_, ?_, Run.balanced_log faithful key, ?_, ?_⟩
  · rw [all]
    exact matched_events key events
  · rw [all]
    exact balanced_events key events
  · intro keys wait gap place
    exact Run.count_log_of_holding faithful key place
  · intro finished
    obtain ⟨_, gone⟩ := faithful.sound.finished finished
    refine Run.balanced_log faithful key fun keys wait gap place => ?_
    rw [gone] at place
    cases place
  · intro c quiet
    refine Run.balanced_log (Run.faithful_move faithful (.call c)) key fun keys wait gap place => ?_
    rcases Call.loop_of_quiets faithful.sound quiet with gone | boundary
    · rw [show (run.move (.call c)).engine.loop = .gone from gone] at place
      cases place
    · rw [show (run.move (.call c)).engine.loop = .boundary from boundary] at place
      cases place

/-- A held chord of two capitals has Shift down twice, and a stop lets go of it. -/
theorem shift_down_twice :
    let run := (Run.ofSettings .initial).follow
      [.call (.loadEvents [.chord ['A', 'B'] 2]), .call .start, .loop, .loop]
    (∃ wait gap, run.engine.loop = .holding ['A', 'B'] wait gap) ∧
    (actionsOf run.log).count (.down .shift) = (actionsOf run.log).count (.up .shift) + 2 ∧
    Balanced .shift (actionsOf (run.move (.call .stop)).log) := by
  intro run
  obtain ⟨_, _, held, _, _, quiet⟩ := no_key_stuck .initial
    [.call (.loadEvents [.chord ['A', 'B'] 2]), .call .start, .loop, .loop] .shift
  obtain ⟨event, here, _, count⟩ := held ['A', 'B'] _ _ rfl
  have chord : event = .chord ['A', 'B'] 2 := Option.some.inj (here.symm.trans rfl)
  subst chord
  exact ⟨⟨_, _, rfl⟩, count, quiet .stop rfl⟩

end KeyScore.Player
