import KeyScore.Proofs.Player.History

/-!
# What a history has played

Between two rewindings an engine announces its events one after the other and does to the
keys what they ask for, however often it is paused, resumed, started again or retuned. So
the steps and actions since the last rewinding can be read off the engine: `steps` from how
many events it has reached, `actions` from that and the place of the loop.
-/

namespace KeyScore.Player

/-- What playing an event does to the keys: they go down and come up in the order they are
listed in. A rest does nothing. -/
def actionsFor (event : Event) : List Action := event.keys.flatMap downs ++ event.keys.flatMap ups

/-- What has been done for the last event announced, with the loop where it stands. -/
def Loop.doneFor (event : Event) : Loop → List Action
  | announced _ _ => []
  | holding _ _ _ => event.keys.flatMap downs
  | gone | boundary | trailing _ | resting _ => actionsFor event

/-- What has been done for a run of announced events, of which only the last can be
incomplete. -/
def Loop.doneForAll (loop : Loop) (events : List Event) : List Action :=
  events.dropLast.flatMap actionsFor ++ events.getLast?.elim [] loop.doneFor

theorem Loop.doneForAll_concat (loop : Loop) (events : List Event) (event : Event) :
    loop.doneForAll (events ++ [event]) = events.flatMap actionsFor ++ loop.doneFor event := by
  simp [doneForAll]

theorem Loop.doneForAll_of_not_busy {loop : Loop} (idle : loop.busy = false)
    (events : List Event) : loop.doneForAll events = events.flatMap actionsFor := by
  rcases List.eq_nil_or_concat events with rfl | ⟨init, last, rfl⟩
  · simp [doneForAll]
  · rw [List.concat_eq_append, doneForAll_concat, List.flatMap_append]
    cases loop <;> simp_all [doneFor, busy]

namespace Engine

/-- The events announced since the last rewinding. -/
def played (e : Engine) : List Event := e.events.take e.reached

/-- The steps since the last rewinding. -/
def steps (e : Engine) : List (Nat × Event) := e.played.mapIdx fun index event => (index, event)

/-- The actions since the last rewinding. -/
def actions (e : Engine) : List Action := e.loop.doneForAll e.played

/-- A move that plays on from where the engine is: what it makes known is what is played
afterwards and was not before. -/
structure PlaysOn (e : Engine) (move : Engine × List Notice) : Prop where
  events : move.1.events = e.events
  steps : move.1.steps = e.steps ++ stepsOf move.2
  actions : move.1.actions = e.actions ++ actionsOf move.2

theorem played_of_busy {e : Engine} {event : Event} (busy : e.loop.busy = true)
    (here : e.events[e.cursor]? = some event) :
    e.played = e.events.take e.cursor ++ [event] := by
  simp only [played, reached, busy, if_true, List.take_add_one, here, Option.toList]

theorem played_of_not_busy {e : Engine} (idle : e.loop.busy = false) :
    e.played = e.events.take e.cursor := by
  simp [played, reached, idle]

@[simp]
theorem stepsOf_enter (s : State) (e : Engine) : stepsOf (e.enter s).2 = [] := by
  by_cases same : e.state = s
  · rw [enter, if_pos same]
    rfl
  · rw [enter, if_neg same]
    rfl

@[simp]
theorem actionsOf_enter (s : State) (e : Engine) : actionsOf (e.enter s).2 = [] := by
  by_cases same : e.state = s
  · rw [enter, if_pos same]
    rfl
  · rw [enter, if_neg same]
    rfl

/-- An event that is over leaves nothing to do, and its end does nothing by itself. -/
theorem conclude_silent (e : Engine) :
    e.conclude.1.loop.busy = false ∧ stepsOf e.conclude.2 = [] ∧ actionsOf e.conclude.2 = [] := by
  by_cases more : e.cursor + 1 < e.events.length
  · rw [conclude_of_lt more]
    exact ⟨rfl, rfl, rfl⟩
  · rw [conclude_of_not_lt more]
    exact ⟨rfl, stepsOf_enter _ _, actionsOf_enter _ _⟩

/-- With an event in hand the loop announces no other. -/
theorem stepsOf_advance {e : Engine} (busy : e.loop.busy = true) : stepsOf e.advance.2 = [] := by
  have step := e.advance_spec
  obtain ⟨_, silent, _⟩ := e.conclude_silent
  generalize e.advance = move at step ⊢
  cases step with
  | absent place => rfl
  | ended place nothing => rfl
  | announced place found =>
    rw [place] at busy
    cases busy
  | rested place => rfl
  | struck place sounds lengths => exact stepsOf_actions _
  | lifted place long => exact stepsOf_actions _
  | liftedOver place =>
    rw [stepsOf_append, silent]
    exact congrArg (· ++ []) (stepsOf_actions _)
  | passed place => exact silent

/-- A loop that is not to play on announces nothing. -/
theorem stepsOf_advance_of_still {e : Engine} (still : e.state ≠ .playing) :
    stepsOf e.advance.2 = [] := by
  have nothing : e.next? = none := if_neg still
  cases place : e.loop with
  | gone => simp [advance, place, stepsOf]
  | boundary => simp [advance, place, nothing, stepsOf]
  | _ => exact stepsOf_advance (by rw [place]; rfl)

theorem stepsOf_loopMoves_of_still {e : Engine} (still : e.state ≠ .playing) (n : Nat) :
    stepsOf (loopMoves n e).2 = [] := by
  induction n generalizing e with
  | zero => rfl
  | succ n ih =>
    rw [loopMoves, andThen, stepsOf_append, stepsOf_advance_of_still still,
      ih (e.state_advance still)]
    rfl

/-- Bytes that hold no file change nothing. -/
theorem make_of_refused (e : Engine) {bytes : List UInt8} (keymap : Keymap)
    (refused : (Midi.decode bytes).isOk = false) :
    (Move.call (.importMidi bytes keymap)).make e = (e, []) := by
  cases bad : Midi.decode bytes with
  | error fault =>
    simp only [Move.make, Call.perform, importMidi, bad]
    rfl
  | ok file =>
    rw [bad] at refused
    cases refused

namespace PlaysOn

variable {e : Engine}

theorem refl (e : Engine) : e.PlaysOn (e, []) where
  events := rfl
  steps := (List.append_nil _).symm
  actions := (List.append_nil _).symm

theorem andThen {move : Engine × List Notice} {next : Engine → Engine × List Notice}
    (first : e.PlaysOn move) (second : move.1.PlaysOn (next move.1)) :
    e.PlaysOn (andThen move next) where
  events := second.events.trans first.events
  steps := by
    simp only [Engine.andThen, second.steps, first.steps, stepsOf_append, List.append_assoc]
  actions := by
    simp only [Engine.andThen, second.actions, first.actions, actionsOf_append, List.append_assoc]

theorem silently {e' : Engine} {move : Engine × List Notice} (first : e.PlaysOn (e', []))
    (second : e'.PlaysOn move) : e.PlaysOn move :=
  (andThen first second : e.PlaysOn (Engine.andThen (e', []) fun _ => move))

theorem enter (s : State) (e : Engine) : e.PlaysOn (e.enter s) where
  events := rfl
  steps := by rw [stepsOf_enter, List.append_nil]; rfl
  actions := by rw [actionsOf_enter, List.append_nil]; rfl

/-- The loop of an engine with no event in hand comes or goes. -/
theorem relocate (idle : e.loop.busy = false) {loop : Loop} (still : loop.busy = false) :
    e.PlaysOn ({ e with loop := loop }, []) := by
  have same : ({ e with loop := loop } : Engine).played = e.played := by
    rw [played_of_not_busy idle, played_of_not_busy still]
  refine ⟨rfl, ?_, ?_⟩
  · simp [Engine.steps, same, stepsOf]
  · simp [Engine.actions, same, Loop.doneForAll_of_not_busy idle,
      Loop.doneForAll_of_not_busy still, actionsOf]

/-- More is done for the event in hand. -/
theorem ofEvent {e' : Engine} {event : Event} {notices : List Notice}
    (busy : e.loop.busy = true) (here : e.events[e.cursor]? = some event)
    (events : e'.events = e.events) (reached : e'.reached = e.reached)
    (done : e'.loop.doneFor event = e.loop.doneFor event ++ actionsOf notices)
    (silent : stepsOf notices = []) : e.PlaysOn (e', notices) := by
  have same : e'.played = e.played := by simp only [played, events, reached]
  refine ⟨events, ?_, ?_⟩
  · simp only [Engine.steps, same, silent, List.append_nil]
  · simp only [Engine.actions, same, played_of_busy busy here, Loop.doneForAll_concat, done,
      List.append_assoc]

theorem announce {event : Event} (idle : e.loop.busy = false)
    (here : e.events[e.cursor]? = some event) (settings : Settings) :
    e.PlaysOn ({ e with loop := .announced event settings }, [.step e.cursor event]) := by
  have lt := (List.getElem?_eq_some_iff.mp here).1
  have more : ({ e with loop := .announced event settings } : Engine).played =
      e.events.take e.cursor ++ [event] := played_of_busy rfl here
  refine ⟨rfl, ?_, ?_⟩
  · have length : (e.events.take e.cursor).length = e.cursor := by
      rw [List.length_take]
      omega
    simp [Engine.steps, more, played_of_not_busy idle, List.mapIdx_concat, length, stepsOf]
  · simp [Engine.actions, more, played_of_not_busy idle, Loop.doneForAll_concat,
      Loop.doneForAll_of_not_busy idle, Loop.doneFor, actionsOf]

/-- The event in hand is over, once all is done that there is to do for it. -/
theorem conclude {event : Event} (busy : e.loop.busy = true)
    (here : e.events[e.cursor]? = some event) (before : List Notice) (silent : stepsOf before = [])
    (done : actionsFor event = e.loop.doneFor event ++ actionsOf before) :
    e.PlaysOn (e.conclude.1, before ++ e.conclude.2) := by
  by_cases more : e.cursor + 1 < e.events.length
  · rw [conclude_of_lt more, List.append_nil]
    exact ofEvent busy here rfl (by simp [reached, busy]) done silent
  · rw [conclude_of_not_lt more]
    have moved : e.PlaysOn ({ e with cursor := e.cursor + 1, loop := .gone }, before) :=
      ofEvent busy here rfl (by simp [reached, busy]) done silent
    exact moved.andThen (enter .finished _)

theorem advance (sound : e.Sound) : e.PlaysOn e.advance := by
  have step := e.advance_spec
  have fits := sound.fits
  generalize e.advance = move at step ⊢
  cases step with
  | absent place => exact refl e
  | ended place nothing => exact relocate (by rw [place]; rfl) rfl
  | announced place found =>
    exact announce (by rw [place]; rfl) (next?_eq_some found) e.settings
  | rested place =>
    rw [place] at fits
    exact ofEvent (by rw [place]; rfl) fits rfl (by simp [reached, place, Loop.busy])
      (by simp [place, Loop.doneFor, actionsFor, Event.keys, actionsOf]) rfl
  | struck place sounds lengths =>
    rw [place] at fits
    exact ofEvent (by rw [place]; rfl) fits rfl (by simp [reached, place, Loop.busy])
      (by simp [place, Loop.doneFor, pressed]) (stepsOf_actions _)
  | lifted place long =>
    rw [place] at fits
    obtain ⟨event, here, rfl⟩ := fits
    exact ofEvent (by rw [place]; rfl) here rfl (by simp [reached, place, Loop.busy])
      (by simp [place, Loop.doneFor, actionsFor, released]) (stepsOf_actions _)
  | liftedOver place =>
    rw [place] at fits
    obtain ⟨event, here, rfl⟩ := fits
    exact conclude (by rw [place]; rfl) here _ (stepsOf_actions _)
      (by simp [place, Loop.doneFor, actionsFor, released])
  | passed place =>
    obtain ⟨event, here⟩ := fits.exists_event (by rcases place with h | h <;> rw [h] <;> rfl)
    refine conclude ?_ here [] rfl ?_
    · rcases place with h | h <;> rw [h] <;> rfl
    · rcases place with h | h <;> simp [h, Loop.doneFor, actionsOf]

theorem loopMoves (sound : e.Sound) (n : Nat) : e.PlaysOn (loopMoves n e) := by
  induction n generalizing e with
  | zero => exact refl e
  | succ n ih => exact (advance sound).andThen (ih sound.advance)

theorem drain (sound : e.Sound) : e.PlaysOn e.drain := by
  obtain ⟨n, moves, _⟩ := e.drain_eq_loopMoves
  rw [moves]
  exact loopMoves sound n

/-- A loop that is cut off still does for its event all that there is to do. -/
theorem cancel (sound : e.Sound) : e.PlaysOn e.cancel := by
  have fits := sound.fits
  -- The engine is the same wherever an event is in hand; only what is left to do differs.
  have cut {event : Event} {notices : List Notice} (busy : e.loop.busy = true)
      (here : e.events[e.cursor]? = some event) (silent : stepsOf notices = [])
      (done : actionsFor event = e.loop.doneFor event ++ actionsOf notices) :
      e.PlaysOn ({ e with cursor := e.cursor + 1, loop := .gone }, notices) :=
    ofEvent busy here rfl (by simp [reached, busy]) done silent
  unfold Engine.cancel
  cases place : e.loop with
  | gone => exact relocate (by rw [place]; rfl) rfl
  | boundary => exact relocate (by rw [place]; rfl) rfl
  | announced event settings =>
    rw [place] at fits
    exact cut (by rw [place]; rfl) fits (by simp [pressed, released])
      (by simp [place, Loop.doneFor, actionsFor, pressed, released])
  | holding keys wait gap =>
    rw [place] at fits
    obtain ⟨event, here, rfl⟩ := fits
    exact cut (by rw [place]; rfl) here (stepsOf_actions _)
      (by simp [place, Loop.doneFor, actionsFor, released])
  | trailing wait =>
    rw [place] at fits
    obtain ⟨event, here⟩ := fits
    exact cut (by rw [place]; rfl) here rfl (by simp [place, Loop.doneFor, actionsOf])
  | resting wait =>
    rw [place] at fits
    obtain ⟨units, here⟩ := fits
    exact cut (by rw [place]; rfl) here rfl (by simp [place, Loop.doneFor, actionsOf])

/-- A failed start says that the engine plays and takes it back. -/
theorem play (idle : e.loop.busy = false) (thread : Bool) : e.PlaysOn (e.play thread).move := by
  cases thread with
  | true => exact (relocate idle (rfl : Loop.boundary.busy = false)).silently (enter .playing _)
  | false =>
    exact (relocate idle (rfl : Loop.gone.busy = false)).silently
      ((enter .playing _).andThen (enter .idle _))

theorem start (sound : e.Sound) (thread : Bool) : e.PlaysOn (e.start thread).move := by
  have started := e.start_spec thread
  generalize e.start thread = outcome at started ⊢
  cases started with
  | refused none => exact refl e
  | exhausted some_events paused last => exact (cancel sound).andThen (enter .finished _)
  | played some_events still =>
    have cut : e.cancel.1.loop.busy = false := by rw [cancel_engine]; rfl
    rw [Outcome.move_after]
    exact (cancel sound).andThen (play cut thread)

theorem pause (sound : e.Sound) (meanwhile : Nat) : e.PlaysOn (e.pause meanwhile) := by
  by_cases playing : e.state = .playing
  · rw [Engine.pause, if_pos playing]
    have suspended : e.PlaysOn (e.suspend, []) :=
      ⟨rfl, (List.append_nil _).symm, (List.append_nil _).symm⟩
    refine suspended.silently ((loopMoves (sound.suspend playing) meanwhile).andThen ?_)
    exact ⟨rfl, (List.append_nil _).symm, (List.append_nil _).symm⟩
  · rw [Engine.pause, if_neg playing]
    exact refl e

theorem resume (sound : e.Sound) (thread : Bool) : e.PlaysOn (e.resume thread).move := by
  obtain ⟨_, _, gone⟩ := e.drain_eq_loopMoves
  have resumed := e.resume_spec thread
  generalize e.resume thread = outcome at resumed ⊢
  cases resumed with
  | refused none => exact refl e
  | ended paused finished => exact drain sound
  | played paused still =>
    have idle : e.drain.1.loop.busy = false := congrArg Loop.busy gone
    rw [Outcome.move_after]
    exact (drain sound).andThen (play idle thread)

theorem configure (edit : Settings → Settings) (e : Engine) : e.PlaysOn (e.configure edit, []) :=
  ⟨rfl, (List.append_nil _).symm, (List.append_nil _).symm⟩

theorem fit (seconds : Float) (e : Engine) : e.PlaysOn (e.fit seconds).move := by
  unfold Engine.fit
  split
  · rename_i settings _
    exact configure (fun _ => settings) e
  · exact refl e

/-- Every move but those that rewind plays on. -/
theorem make (sound : e.Sound) {m : Move} (onward : m.rewinds = false) : e.PlaysOn (m.make e) := by
  cases m with
  | loop => exact advance sound
  | call c =>
    cases c with
    | load text => cases onward
    | loadEvents events => cases onward
    | importMidi bytes keymap =>
      rw [e.make_of_refused keymap onward]
      exact refl e
    | start thread => exact start sound thread
    | pause meanwhile => exact pause sound meanwhile
    | resume thread => exact resume sound thread
    | stop => cases onward
    | wait => exact drain sound
    | configure edit => exact configure edit e
    | fit seconds => exact fit seconds e

end PlaysOn

/-- Every move that rewinds installs a sequence, a stop the one that was there. -/
theorem make_rewinds (e : Engine) {m : Move} (back : m.rewinds = true) :
    ∃ settings events, m.make e = install events { e with settings := settings } := by
  cases m with
  | loop => cases back
  | call c =>
    cases c with
    | load text => exact ⟨_, _, rfl⟩
    | loadEvents events => exact ⟨e.settings, _, rfl⟩
    | importMidi bytes keymap =>
      cases good : Midi.decode bytes with
      | error fault => simp [Move.rewinds, Call.rewinds, good, Except.isOk, Except.toBool] at back
      | ok file =>
        let compiled := Notation.compile (Midi.transcribe keymap file) e.settings
        refine ⟨compiled.settings, compiled.events, ?_⟩
        simp only [Move.make, Call.perform, importMidi, good]
        rfl
    | stop =>
      refine ⟨e.settings, e.events, ?_⟩
      simp only [Move.make, Call.perform, Outcome.move_ofMove, stop, install, andThen,
        cancel_engine]
    | start thread => cases back
    | pause meanwhile => cases back
    | resume thread => cases back
    | wait => cases back
    | configure edit => cases back
    | fit seconds => cases back

theorem install_engine (events : List Event) (e : Engine) :
    (e.install events).1 = { settings := e.settings, events := events } := by
  simp only [install, andThen, cancel_engine, enter]

theorem load_engine (text : String) (e : Engine) :
    (e.load text).1 = { settings := (Notation.compile text e.settings).settings
                        events := (Notation.compile text e.settings).events } := by
  simp only [load, install_engine]

/-- A fit is no more to an engine than other settings. -/
theorem fit_engine (seconds : Float) (e : Engine) :
    (e.fit seconds).engine =
      { e with settings := (e.settings.fitEvents? e.events seconds).getD e.settings } := by
  unfold fit
  split
  · rename_i fits
    rw [fits]
    rfl
  · rename_i refused
    rw [refused]
    rfl

theorem move_fit (seconds : Float) (e : Engine) : (e.fit seconds).move =
    ({ e with settings := (e.settings.fitEvents? e.events seconds).getD e.settings }, []) := by
  have silent : (e.fit seconds).notices = [] := by
    unfold fit
    split
    · rfl
    · rfl
  exact Prod.ext (fit_engine seconds e) silent

/-- Installing does to the keys what cutting the loop off does. -/
theorem actionsOf_install (events : List Event) (e : Engine) (settings : Settings) :
    actionsOf ({ e with settings := settings }.install events).2 = actionsOf e.cancel.2 := by
  have same : ({ e with settings := settings } : Engine).cancel.2 = e.cancel.2 := by
    cases e with
    | mk _ _ _ _ loop => cases loop <;> rfl
  simp only [install, andThen, actionsOf_append, actionsOf_enter, same, List.append_nil]

/-- A loop that is cut off completes what has been done to the keys. -/
theorem actions_cancel {e : Engine} (sound : e.Sound) :
    e.actions ++ actionsOf e.cancel.2 = e.cancel.1.played.flatMap actionsFor := by
  rw [← (PlaysOn.cancel sound).actions]
  refine Loop.doneForAll_of_not_busy ?_ _
  rw [e.cancel_engine]
  rfl

/-- An engine that has played everything, or plays and has more to play. -/
def Underway (e : Engine) : Prop :=
  e.state = .finished ∨ (e.state = .playing ∧ e.loop ≠ .gone ∧ e.cursor < e.events.length)

theorem underway_conclude {e : Engine} (underway : e.Underway) : e.conclude.1.Underway := by
  by_cases more : e.cursor + 1 < e.events.length
  · rw [conclude_of_lt more]
    rcases underway with finished | ⟨playing, _, _⟩
    · exact .inl finished
    · exact .inr ⟨playing, by simp, more⟩
  · rw [conclude_of_not_lt more]
    exact .inl rfl

theorem underway_advance {e : Engine} (underway : e.Underway) : e.advance.1.Underway := by
  have step := e.advance_spec
  generalize e.advance = move at step ⊢
  have relocate {loop : Loop} (here : loop ≠ .gone) :
      ({ e with loop := loop } : Engine).Underway := by
    rcases underway with finished | ⟨playing, _, more⟩
    · exact .inl finished
    · exact .inr ⟨playing, here, more⟩
  cases step with
  | absent place => exact underway
  | ended place nothing =>
    rcases underway with finished | ⟨playing, _, more⟩
    · exact .inl finished
    · have all := le_of_next?_eq_none nothing playing
      omega
  | announced place found => exact relocate (by simp)
  | rested place => exact relocate (by simp)
  | struck place sounds lengths => exact relocate (by simp)
  | lifted place long => exact relocate (by simp)
  | liftedOver place => exact underway_conclude underway
  | passed place => exact underway_conclude underway

/-- A loop that nobody interferes with plays to the end. -/
theorem finished_drain {e : Engine} (underway : e.Underway) : e.drain.1.state = .finished := by
  have loopMoves (n : Nat) {e : Engine} (underway : e.Underway) : (loopMoves n e).1.Underway := by
    induction n generalizing e with
    | zero => exact underway
    | succ n ih => exact ih (underway_advance underway)
  obtain ⟨n, moves, gone⟩ := e.drain_eq_loopMoves
  rw [moves] at gone ⊢
  rcases loopMoves n underway with finished | ⟨_, here, _⟩
  · exact finished
  · exact absurd gone here

end Engine

namespace Run

/-- What a run has made known can be read off its engine. -/
structure Faithful (r : Run) : Prop where
  sound : r.engine.Sound
  steps : stepsOf r.recent = r.engine.steps
  actions : actionsOf r.recent = r.engine.actions
  /-- Before the last rewinding, every event that was announced was done with. -/
  log : ∃ earlier : List Event,
    actionsOf r.log = earlier.flatMap actionsFor ++ r.engine.actions

theorem steps_of_reached_eq_zero {e : Engine} (start : e.reached = 0) : e.steps = [] := by
  simp [Engine.steps, Engine.played, start]

theorem actions_of_reached_eq_zero {e : Engine} (start : e.reached = 0) : e.actions = [] := by
  simp [Engine.actions, Engine.played, start, Loop.doneForAll]

theorem faithful_move {r : Run} (faithful : r.Faithful) (m : Move) : (r.move m).Faithful := by
  obtain ⟨earlier, log⟩ := faithful.log
  cases back : m.rewinds with
  | false =>
    have on := Engine.PlaysOn.make faithful.sound back
    exact {
      sound := faithful.sound.make m
      steps := by simp [move, back, on.steps, faithful.steps]
      actions := by simp [move, back, on.actions, faithful.actions]
      log := ⟨earlier, by simp [move, on.actions, log]⟩ }
  | true =>
    obtain ⟨settings, events, installed⟩ := r.engine.make_rewinds back
    have recent : (r.move m).recent = [] := by simp only [move, back, if_true]
    have start : (r.move m).engine.reached = 0 := by
      simp [move, installed, Engine.install_engine, Engine.reached]
    refine ⟨faithful.sound.make m, ?_, ?_, earlier ++ r.engine.cancel.1.played, ?_⟩
    · rw [recent, steps_of_reached_eq_zero start]
      rfl
    · rw [recent, actions_of_reached_eq_zero start]
      rfl
    · rw [actions_of_reached_eq_zero start, List.append_nil, List.flatMap_append,
        ← Engine.actions_cancel faithful.sound]
      simp [move, installed, Engine.actionsOf_install, log]

theorem faithful_follow {r : Run} (faithful : r.Faithful) (history : List Move) :
    (r.follow history).Faithful := by
  induction history generalizing r with
  | nil => exact faithful
  | cons m history ih => exact ih (faithful_move faithful m)

theorem faithful_rewound (settings : Settings) (events : List Event) :
    ({ engine := { settings := settings, events := events } } : Run).Faithful where
  sound := Engine.Sound.rewound settings events
  steps := (steps_of_reached_eq_zero rfl).symm
  actions := (actions_of_reached_eq_zero rfl).symm
  log := ⟨[], (actions_of_reached_eq_zero rfl).symm⟩

theorem faithful (settings : Settings) (history : List Move) :
    ((ofSettings settings).follow history).Faithful :=
  faithful_follow (faithful_rewound settings []) history

/-- Moves that do not rewind keep the sequence and what has been announced of it. -/
theorem follow_onward {r : Run} (faithful : r.Faithful) {later : List Move}
    (onward : ∀ m ∈ later, m.rewinds = false) :
    (r.follow later).engine.events = r.engine.events ∧
      r.engine.steps <+: (r.follow later).engine.steps := by
  induction later generalizing r with
  | nil => exact ⟨rfl, List.prefix_rfl⟩
  | cons m later ih =>
    have on := Engine.PlaysOn.make faithful.sound (onward m List.mem_cons_self)
    obtain ⟨events, steps⟩ := ih (faithful_move faithful m)
      fun m' h => onward m' (List.mem_cons_of_mem m h)
    have first : r.engine.steps <+: (r.move m).engine.steps := ⟨_, on.steps.symm⟩
    exact ⟨events.trans on.events, first.trans steps⟩

end Run

namespace Engine

theorem length_steps {e : Engine} (sound : e.Sound) : e.steps.length = e.reached := by
  simp only [steps, played, List.length_mapIdx, List.length_take]
  exact Nat.min_eq_left sound.reached_le

theorem map_snd_steps (e : Engine) : e.steps.map Prod.snd = e.played := by
  apply List.ext_getElem
  · simp [steps]
  · intro i _ _
    simp [steps]

theorem settings_advance (e : Engine) : e.advance.1.settings = e.settings := by
  have step := e.advance_spec
  generalize e.advance = move at step ⊢
  have concluded : e.conclude.1.settings = e.settings := by
    by_cases more : e.cursor + 1 < e.events.length
    · rw [conclude_of_lt more]
    · rw [conclude_of_not_lt more]
      rfl
  cases step with
  | liftedOver place => exact concluded
  | passed place => exact concluded
  | _ => rfl

theorem settings_loopMoves (n : Nat) (e : Engine) :
    (loopMoves n e).1.settings = e.settings := by
  induction n generalizing e with
  | zero => rfl
  | succ n ih => exact (ih e.advance.1).trans e.settings_advance

/-- A loop that is not to play on ends where it would be cut off, but for the state. -/
theorem drain_engine {e : Engine} (sound : e.Sound) (still : e.state ≠ .playing) :
    e.drain.1 = { e with cursor := e.reached, state := e.drain.1.state, loop := .gone } := by
  obtain ⟨n, moves, gone⟩ := e.drain_eq_loopMoves
  have on := PlaysOn.drain sound
  have settings : e.drain.1.settings = e.settings := by rw [moves, settings_loopMoves]
  have reached : e.drain.1.reached = e.reached := by
    have silent : stepsOf e.drain.2 = [] := by rw [moves, stepsOf_loopMoves_of_still still]
    have same : e.drain.1.steps = e.steps := by rw [on.steps, silent, List.append_nil]
    rw [← length_steps sound.drain, same, length_steps sound]
  have cursor : e.drain.1.cursor = e.reached := by
    rw [← reached, Engine.reached, gone]
    rfl
  rw [← settings, ← on.events, ← cursor, ← gone]

/-- A start from the first event leads to an engine that plays to the end. -/
theorem underway_start {e : Engine} (some_events : e.events ≠ []) (cursor : e.cursor = 0)
    (idle : e.state = .idle) (gone : e.loop = .gone) : (e.start true).engine.Underway := by
  have more : 0 < e.events.length := List.length_pos_iff.mpr some_events
  have started : (e.start true).engine = { e with state := .playing, loop := .boundary } := by
    simp [start, idle, some_events, Outcome.after, Outcome.ofMove, cancel, gone, play, enter]
  rw [started]
  exact .inr ⟨rfl, by simp, cursor ▸ more⟩

/-- A finished engine has announced everything and done for it all that there is to do. -/
theorem played_of_finished {e : Engine} (sound : e.Sound) (finished : e.state = .finished) :
    e.played = e.events ∧ e.actions = e.events.flatMap actionsFor := by
  obtain ⟨last, gone⟩ := sound.finished finished
  have played : e.played = e.events := by
    simp [Engine.played, reached, gone, last]
  refine ⟨played, ?_⟩
  rw [actions, played, Loop.doneForAll_of_not_busy (by rw [gone]; rfl)]

end Engine

/-- Since the last rewinding the events have been announced one by one from the first on, none
of them twice and none left out, up to the cursor or, with an event in hand, that one. Once
the score is finished no other is announced until it is rewound. -/
theorem steps_in_order (settings : Settings) (history : List Move) :
    let run := (Run.ofSettings settings).follow history
    (stepsOf run.recent).map Prod.fst = List.range run.engine.reached ∧
    (∀ step ∈ stepsOf run.recent, run.engine.events[step.1]? = some step.2) ∧
    run.engine.reached ≤ run.engine.events.length ∧
    (run.engine.state = .finished → ∀ later : List Move, (∀ m ∈ later, m.rewinds = false) →
      stepsOf (run.follow later).recent = stepsOf run.recent) := by
  intro run
  have faithful : run.Faithful := Run.faithful settings history
  have sound := faithful.sound
  refine ⟨?_, ?_, sound.reached_le, ?_⟩
  · rw [faithful.steps]
    apply List.ext_getElem
    · simp [Engine.length_steps sound]
    · intro i _ _
      simp [Engine.steps]
  · intro step mem
    rw [faithful.steps, Engine.steps, List.mem_mapIdx] at mem
    obtain ⟨i, lt, rfl⟩ := mem
    simp only [Engine.played, List.getElem_take]
    exact List.getElem?_eq_getElem _
  · intro finished later onward
    obtain ⟨events, more⟩ := Run.follow_onward faithful onward
    have later_faithful := Run.faithful_follow faithful later
    have le := later_faithful.sound.reached_le
    have all : run.engine.reached = run.engine.events.length := by
      obtain ⟨last, gone⟩ := sound.finished finished
      simp [Engine.reached, gone, last]
    rw [later_faithful.steps, faithful.steps]
    refine (more.eq_of_length_le ?_).symm
    rw [Engine.length_steps later_faithful.sound, Engine.length_steps sound, all, ← events]
    exact le

/-- A pause and a start give up the first event; a finished score that is started, paused and
resumed announces nothing any more. -/
theorem nothing_announced_after_finish :
    let run := (Run.ofSettings .initial).follow [.call (.loadEvents [.press 'A' 1, .rest 2]),
      .call .start, .loop, .call .pause, .call .start, .loop, .loop, .loop]
    run.engine.state = .finished ∧
    stepsOf run.recent = [(0, .press 'A' 1), (1, .rest 2)] ∧
    stepsOf (run.follow [.call .start, .loop, .call .pause, .call .resume]).recent =
      stepsOf run.recent := by
  intro run
  have finished : run.engine.state = .finished := rfl
  refine ⟨finished, rfl, ?_⟩
  obtain ⟨_, _, _, after⟩ := steps_in_order .initial [.call (.loadEvents [.press 'A' 1, .rest 2]),
    .call .start, .loop, .call .pause, .call .start, .loop, .loop, .loop]
  exact after finished _ (by simp [Move.rewinds, Call.rewinds])

/-- Since the last rewinding, the keys have been treated as the announced events ask for, one
event after the other, and only the last can be incomplete. So a run that has finished its
score has announced and done the same as one that starts at the first event and is left
alone. -/
theorem actions_in_order (settings : Settings) (history : List Move) :
    let run := (Run.ofSettings settings).follow history
    actionsOf run.recent =
      run.engine.loop.doneForAll ((stepsOf run.recent).map Prod.snd) ∧
    (run.engine.state = .finished → ∀ settings' : Settings,
      let whole := ({ engine := { settings := settings', events := run.engine.events } } : Run).follow
        [.call .start, .call .wait]
      whole.engine.state = .finished ∧ stepsOf run.recent = stepsOf whole.recent ∧
        actionsOf run.recent = actionsOf whole.recent) := by
  intro run
  have faithful : run.Faithful := Run.faithful settings history
  constructor
  · rw [faithful.actions, faithful.steps, Engine.map_snd_steps]
    rfl
  · intro finished settings' whole
    have start := Run.faithful_rewound settings' run.engine.events
    have some_events := faithful.sound.events_ne_nil (by rw [finished]; decide)
    have whole_finished : whole.engine.state = .finished :=
      Engine.finished_drain (Engine.underway_start some_events rfl rfl rfl)
    have onward : ∀ m ∈ [Move.call .start, Move.call .wait], m.rewinds = false := by
      simp [Move.rewinds, Call.rewinds]
    have whole_faithful : whole.Faithful := Run.faithful_follow start _
    have events : whole.engine.events = run.engine.events := (Run.follow_onward start onward).1
    obtain ⟨played, actions⟩ := Engine.played_of_finished faithful.sound finished
    obtain ⟨whole_played, whole_actions⟩ :=
      Engine.played_of_finished whole_faithful.sound whole_finished
    refine ⟨whole_finished, ?_, ?_⟩
    · rw [faithful.steps, whole_faithful.steps, Engine.steps, Engine.steps, played, whole_played,
        events]
    · rw [faithful.actions, whole_faithful.actions, actions, whole_actions, events]

/-- A capital given up by a pause and a start is pressed and released as in a run that is left
alone. -/
theorem given_up_is_played :
    let run := (Run.ofSettings .initial).follow [.call (.loadEvents [.press 'A' 1, .rest 2]),
      .call .start, .loop, .call .pause, .call .start, .loop, .loop, .loop]
    let whole := ({ engine := { settings := .initial, events := run.engine.events } } : Run).follow
      [.call .start, .call .wait]
    run.engine.state = .finished ∧
    actionsOf run.recent =
      [.down .shift, .down (.char 'a'), .up (.char 'a'), .up .shift] ∧
    actionsOf whole.recent = actionsOf run.recent := by
  intro run whole
  have finished : run.engine.state = .finished := rfl
  refine ⟨finished, rfl, ?_⟩
  obtain ⟨_, same⟩ := actions_in_order .initial [.call (.loadEvents [.press 'A' 1, .rest 2]),
    .call .start, .loop, .call .pause, .call .start, .loop, .loop, .loop]
  exact (same finished .initial).2.2.symm

end KeyScore.Player
