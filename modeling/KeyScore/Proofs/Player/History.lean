import KeyScore.Player.Session

/-!
# Histories of an engine

A history is any mix of moves of the loop and calls of the owner, from a new engine on. The
loop may move whenever it stands somewhere, so a history decides freely which waits run out
and which are cut short; and each call says whether it finds a thread for the loop, and how
far the loop moves in the middle of it. A wait that still runs out while a call is cutting the
loop off is a move of the loop before that call; for a start, which has looked at the state by
then, this is `start_overtaken`.

Every engine of every history is sound: the cursor, the state and the place of the loop
agree. No assumption is made on settings, events or the order of the moves.
-/

namespace KeyScore.Player

/-- Whether a call takes the engine back to the first event. -/
def Call.rewinds : Call → Bool
  | load _ | loadEvents _ | stop => true
  | importMidi bytes _ => (Midi.decode bytes).isOk
  | start _ | pause _ | resume _ | wait | configure _ | fit _ => false

inductive Move where
  /-- What the loop waited for is over. -/
  | loop
  | call (c : Call)

namespace Move

def rewinds : Move → Bool
  | loop => false
  | call c => c.rewinds

/-- The engine after a move, and what was made known meanwhile. -/
def make (e : Engine) : Move → Engine × List Notice
  | loop => e.advance
  | call c => (c.perform e).move

end Move

structure Run where
  engine : Engine
  /-- Everything made known since the engine is there. -/
  log : List Notice := []
  /-- What was made known since the last call that rewinds. The releases of a loop that such
  a call cuts off come before the rewinding. -/
  recent : List Notice := []

namespace Run

def ofSettings (settings : Settings) : Run := { engine := { settings := settings } }

def move (r : Run) (m : Move) : Run where
  engine := (m.make r.engine).1
  log := r.log ++ (m.make r.engine).2
  recent := if m.rewinds then [] else r.recent ++ (m.make r.engine).2

def follow (r : Run) (history : List Move) : Run := history.foldl move r

theorem follow_cons (r : Run) (m : Move) (later : List Move) :
    r.follow (m :: later) = (r.move m).follow later := rfl

theorem follow_append (r : Run) (first later : List Move) :
    r.follow (first ++ later) = (r.follow first).follow later := List.foldl_append

end Run

/-- The steps among the notices. -/
def stepsOf (notices : List Notice) : List (Nat × Event) :=
  notices.filterMap fun
    | .step index event => some (index, event)
    | _ => none

@[simp]
theorem stepsOf_append (a b : List Notice) : stepsOf (a ++ b) = stepsOf a ++ stepsOf b :=
  List.filterMap_append

@[simp]
theorem actionsOf_append (a b : List Notice) :
    actionsOf (a ++ b) = actionsOf a ++ actionsOf b := List.filterMap_append

@[simp]
theorem stepsOf_actions (as : List Action) : stepsOf (as.map .action) = [] := by
  simp [stepsOf]

@[simp]
theorem actionsOf_actions (as : List Action) : actionsOf (as.map .action) = as := by
  induction as with
  | nil => rfl
  | cons a as ih => exact congrArg (a :: ·) ih

/-- An event has been announced and is not over. -/
def Loop.busy : Loop → Bool
  | gone | boundary => false
  | announced _ _ | holding _ _ _ | trailing _ | resting _ => true

@[simp] theorem Loop.busy_gone : Loop.gone.busy = false := rfl

@[simp] theorem Loop.busy_boundary : Loop.boundary.busy = false := rfl

theorem Loop.ne_gone_of_busy {loop : Loop} (busy : loop.busy = true) : loop ≠ .gone := by
  rintro rfl
  cases busy

theorem Loop.gone_or_boundary {loop : Loop} (idle : loop.busy = false) :
    loop = .gone ∨ loop = .boundary := by
  cases loop with
  | gone => exact .inl rfl
  | boundary => exact .inr rfl
  | _ => cases idle

/-- The event at the cursor is one that the loop can have in hand where it stands. -/
def Loop.Fits (event : Option Event) : Loop → Prop
  | gone | boundary => True
  | announced event' _ => event = some event'
  | holding keys _ _ => ∃ event', event = some event' ∧ event'.keys = keys
  | trailing _ => ∃ event', event = some event'
  | resting _ => ∃ units, event = some (.rest units)

theorem Loop.Fits.exists_event {loop : Loop} {event : Option Event} (fits : loop.Fits event)
    (busy : loop.busy = true) : ∃ event', event = some event' := by
  cases loop with
  | gone => cases busy
  | boundary => cases busy
  | announced event' _ => exact ⟨event', fits⟩
  | holding keys _ _ =>
    obtain ⟨event', he, _⟩ := fits
    exact ⟨event', he⟩
  | trailing _ => exact fits
  | resting _ =>
    obtain ⟨units, he⟩ := fits
    exact ⟨.rest units, he⟩

namespace Engine

/-- How many events have been announced since the last rewinding, by the cursor: it passes
an event only once that is over. -/
def reached (e : Engine) : Nat := if e.loop.busy then e.cursor + 1 else e.cursor

/-- What holds of an engine at all times. -/
structure Sound (e : Engine) : Prop where
  within : e.cursor ≤ e.events.length
  fits : e.loop.Fits e.events[e.cursor]?
  idle : e.state = .idle → e.loop = .gone
  finished : e.state = .finished → e.cursor = e.events.length ∧ e.loop = .gone
  empty : e.events = [] → e.state = .idle
  /-- A loop that ends by itself while the engine plays has found nothing left. -/
  stalled : e.state = .playing → e.loop = .gone → e.cursor = e.events.length

theorem next?_eq_some {e : Engine} {event : Event} (found : e.next? = some event) :
    e.events[e.cursor]? = some event := by
  by_cases playing : e.state = .playing
  · rw [next?, if_pos playing] at found
    exact found
  · rw [next?, if_neg playing] at found
    cases found

theorem le_of_next?_eq_none {e : Engine} (nothing : e.next? = none) (playing : e.state = .playing) :
    e.events.length ≤ e.cursor := by
  rw [next?, if_pos playing] at nothing
  exact List.getElem?_eq_none_iff.mp nothing

theorem conclude_of_lt {e : Engine} (more : e.cursor + 1 < e.events.length) :
    e.conclude = ({ e with cursor := e.cursor + 1, loop := .boundary }, []) := if_pos more

theorem conclude_of_not_lt {e : Engine} (last : ¬e.cursor + 1 < e.events.length) :
    e.conclude = enter .finished { e with cursor := e.cursor + 1, loop := .gone } := if_neg last

/-- All that a move of the loop can do. -/
inductive Advance (e : Engine) : Engine × List Notice → Prop
  | absent (place : e.loop = .gone) : Advance e (e, [])
  | ended (place : e.loop = .boundary) (nothing : e.next? = none) :
      Advance e ({ e with loop := .gone }, [])
  | announced {event : Event} (place : e.loop = .boundary) (found : e.next? = some event) :
      Advance e ({ e with loop := .announced event e.settings }, [.step e.cursor event])
  | rested {units : UInt32} {settings : Settings}
      (place : e.loop = .announced (.rest units) settings) :
      Advance e ({ e with loop := .resting (settings.durationOf units) }, [])
  | struck {event : Event} {settings : Settings} {hold gap : Duration}
      (place : e.loop = .announced event settings) (sounds : event.isRest = false)
      (lengths : settings.holdAndGap event.units = (hold, gap)) :
      Advance e ({ e with loop := .holding event.keys hold gap }, pressed event.keys)
  | lifted {keys : List Char} {wait gap : Duration} (place : e.loop = .holding keys wait gap)
      (long : gap ≠ .zero) : Advance e ({ e with loop := .trailing gap }, released keys)
  | liftedOver {keys : List Char} {wait : Duration}
      (place : e.loop = .holding keys wait .zero) :
      Advance e (e.conclude.1, released keys ++ e.conclude.2)
  | passed {wait : Duration} (place : e.loop = .trailing wait ∨ e.loop = .resting wait) :
      Advance e e.conclude

theorem advance_spec (e : Engine) : Advance e e.advance := by
  cases place : e.loop with
  | gone => simpa only [advance, place] using Advance.absent place
  | boundary =>
    cases found : e.next? with
    | none => simpa only [advance, place, found] using Advance.ended place found
    | some event => simpa only [advance, place, found] using Advance.announced place found
  | announced event settings =>
    cases event with
    | rest units => simpa only [advance, place] using Advance.rested place
    | press key units =>
      simp only [advance, place]
      exact .struck place rfl rfl
    | chord keys units =>
      simp only [advance, place]
      exact .struck place rfl rfl
  | holding keys wait gap =>
    by_cases short : gap = .zero
    · subst short
      simpa only [advance, place, andThen, if_true] using Advance.liftedOver place
    · simpa only [advance, place, andThen, short, if_false, List.append_nil]
        using Advance.lifted place short
  | trailing wait => simpa only [advance, place] using Advance.passed (.inl place)
  | resting wait => simpa only [advance, place] using Advance.passed (.inr place)

theorem movesLeft_eq_zero {loop : Loop} : loop.movesLeft = 0 ↔ loop = .gone := by
  cases loop <;> simp [Loop.movesLeft]

/-- Waiting for the loop is nothing but letting it move until it is gone. -/
theorem drain_eq_loopMoves (e : Engine) :
    ∃ n, e.drain = loopMoves n e ∧ e.drain.1.loop = .gone := by
  induction h : e.movesLeft using Nat.strongRecOn generalizing e with
  | ind left ih =>
    rw [drain]
    split
    · rename_i here
      obtain ⟨n, later, gone⟩ := ih _ (h ▸ movesLeft_advance e here) e.advance.1 rfl
      exact ⟨n + 1, by simp only [loopMoves, andThen, later], gone⟩
    · rename_i absent
      exact ⟨0, rfl, movesLeft_eq_zero.mp (Nat.eq_zero_of_not_pos absent)⟩

theorem drain_of_gone {e : Engine} (gone : e.loop = .gone) : e.drain = (e, []) := by
  rw [drain, dif_neg (by simp [gone, Loop.movesLeft])]

/-- What a loop that is cut off leaves behind. -/
theorem cancel_engine (e : Engine) :
    e.cancel.1 = { e with cursor := e.reached, loop := .gone } := by
  cases place : e.loop <;> simp [cancel, reached, place, Loop.busy]

/-- All that a start can do. -/
inductive Start (e : Engine) (thread : Bool) : Outcome → Prop
  | refused (none : e.state = .playing ∨ e.events = []) : Start e thread { engine := e }
  | exhausted (some_events : e.events ≠ []) (paused : e.state = .paused)
      (last : e.events.length ≤ e.reached) :
      Start e thread (.after e.cancel fun e => .ofMove (e.enter .finished))
  | played (some_events : e.events ≠ []) (still : e.state ≠ .playing) :
      Start e thread (.after e.cancel (play thread))

theorem start_spec (thread : Bool) (e : Engine) : Start e thread (e.start thread) := by
  by_cases none : e.state = .playing ∨ e.events = []
  · rw [start, if_pos none]
    exact .refused none
  · obtain ⟨still, some_events⟩ := not_or.mp none
    by_cases given_up : e.state = .paused ∧ e.events.length ≤ e.reached
    · have finished : e.start thread = .after e.cancel fun e => .ofMove (e.enter .finished) := by
        simp only [start, if_neg none, Outcome.after, cancel_engine, if_pos given_up]
      rw [finished]
      exact .exhausted some_events given_up.1 given_up.2
    · have played : e.start thread = .after e.cancel (play thread) := by
        simp only [start, if_neg none, Outcome.after, cancel_engine, if_neg given_up]
      rw [played]
      exact .played some_events still

/-- All that a resumption can do. -/
inductive Resume (e : Engine) (thread : Bool) : Outcome → Prop
  | refused (none : e.state ≠ .paused) : Resume e thread { engine := e }
  | ended (paused : e.state = .paused) (finished : e.drain.1.state ≠ .paused) :
      Resume e thread (.ofMove e.drain)
  | played (paused : e.state = .paused) (still : e.drain.1.state = .paused) :
      Resume e thread (.after e.drain (play thread))

theorem resume_spec (thread : Bool) (e : Engine) : Resume e thread (e.resume thread) := by
  by_cases paused : e.state = .paused
  · by_cases still : e.drain.1.state = .paused
    · have played : e.resume thread = .after e.drain (play thread) := by
        simp only [resume, if_pos paused, Outcome.after, if_pos still]
      rw [played]
      exact .played paused still
    · have ended : e.resume thread = .ofMove e.drain := by
        simp [resume, paused, Outcome.after, Outcome.ofMove, still]
      rw [ended]
      exact .ended paused still
  · rw [resume, if_neg paused]
    exact .refused paused

/-- A loop that has just been started has no event in hand, nor has one that could not be. -/
theorem busy_play (thread : Bool) (e : Engine) : (e.play thread).engine.loop.busy = false := by
  cases thread with
  | true => rfl
  | false => rfl

/-- A start gives up an event in hand, unless it comes to nothing. -/
theorem busy_start {e : Engine} (allowed : ¬(e.state = .playing ∨ e.events = [])) (thread : Bool) :
    (e.start thread).engine.loop.busy = false := by
  have started := e.start_spec thread
  generalize e.start thread = outcome at started ⊢
  cases started with
  | refused none => exact absurd none allowed
  | exhausted some_events paused last =>
    simp only [Outcome.after, Outcome.ofMove, enter, cancel_engine, Loop.busy_gone]
  | played some_events still => exact busy_play thread _

theorem busy_resume {e : Engine} (allowed : e.state = .paused) (thread : Bool) :
    (e.resume thread).engine.loop.busy = false := by
  obtain ⟨_, _, gone⟩ := e.drain_eq_loopMoves
  have resumed := e.resume_spec thread
  generalize e.resume thread = outcome at resumed ⊢
  cases resumed with
  | refused none => exact absurd allowed none
  | ended paused finished => exact congrArg Loop.busy gone
  | played paused still => exact busy_play thread _

theorem answer_play (thread : Bool) (e : Engine) :
    (e.play thread).answer = .done ∨ (e.play thread).answer = .noThread := by
  cases thread with
  | true => exact .inl rfl
  | false => exact .inr rfl

theorem answer_start (thread : Bool) (e : Engine) :
    (e.start thread).answer = .done ∨ (e.start thread).answer = .noThread := by
  have started := e.start_spec thread
  generalize e.start thread = outcome at started ⊢
  cases started with
  | refused none => exact .inl rfl
  | exhausted some_events paused last => exact .inl rfl
  | played some_events still => exact answer_play thread _

theorem answer_resume (thread : Bool) (e : Engine) :
    (e.resume thread).answer = .done ∨ (e.resume thread).answer = .noThread := by
  have resumed := e.resume_spec thread
  generalize e.resume thread = outcome at resumed ⊢
  cases resumed with
  | refused none => exact .inl rfl
  | ended paused finished => exact .inl rfl
  | played paused still => exact answer_play thread _

namespace Sound

variable {e : Engine}

theorem cursor_lt (sound : e.Sound) (busy : e.loop.busy = true) :
    e.cursor < e.events.length := by
  obtain ⟨event, he⟩ := sound.fits.exists_event busy
  exact (List.getElem?_eq_some_iff.mp he).1

theorem reached_le (sound : e.Sound) : e.reached ≤ e.events.length := by
  by_cases busy : e.loop.busy = true
  · rw [reached, if_pos busy]
    exact sound.cursor_lt busy
  · rw [reached, if_neg busy]
    exact sound.within

/-- An engine with a loop is playing or paused. -/
theorem not_idle (sound : e.Sound) (here : e.loop ≠ .gone) : e.state ≠ .idle :=
  fun h => here (sound.idle h)

theorem not_finished (sound : e.Sound) (here : e.loop ≠ .gone) : e.state ≠ .finished :=
  fun h => here (sound.finished h).2

theorem events_ne_nil (sound : e.Sound) (active : e.state ≠ .idle) : e.events ≠ [] :=
  fun none => active (sound.empty none)

theorem startable (sound : e.Sound) (paused : e.state = .paused) :
    ¬(e.state = .playing ∨ e.events = []) := by
  have some_events := sound.events_ne_nil (by rw [paused]; decide)
  simp [paused, some_events]

/-- Another place for the loop of an engine that has one, with the cursor where it is. -/
theorem relocate (sound : e.Sound) (here : e.loop ≠ .gone) {loop : Loop} (there : loop ≠ .gone)
    (fits : loop.Fits e.events[e.cursor]?) : ({ e with loop := loop } : Engine).Sound where
  within := sound.within
  fits := fits
  idle h := absurd h (sound.not_idle here)
  finished h := absurd h (sound.not_finished here)
  empty := sound.empty
  stalled _ h := absurd h there

/-- The last event of a sequence is over. -/
theorem completed (some_events : e.events ≠ []) (last : e.cursor = e.events.length)
    (gone : e.loop = .gone) : (e.enter .finished).1.Sound where
  within := Nat.le_of_eq last
  fits := by simp only [enter, gone, Loop.Fits]
  idle h := nomatch h
  finished _ := ⟨last, gone⟩
  empty h := absurd h some_events
  stalled h := nomatch h

theorem conclude (sound : e.Sound) (busy : e.loop.busy = true) : e.conclude.1.Sound := by
  have here : e.loop ≠ .gone := Loop.ne_gone_of_busy busy
  have lt := sound.cursor_lt busy
  by_cases more : e.cursor + 1 < e.events.length
  · rw [conclude_of_lt more]
    exact {
      within := Nat.le_of_lt more
      fits := trivial
      idle h := absurd h (sound.not_idle here)
      finished h := absurd h (sound.not_finished here)
      empty := sound.empty
      stalled _ h := nomatch h }
  · have last : e.cursor + 1 = e.events.length := by omega
    rw [conclude_of_not_lt more]
    exact completed (sound.events_ne_nil (sound.not_idle here)) last rfl

theorem advance (sound : e.Sound) : e.advance.1.Sound := by
  have step := e.advance_spec
  have fits := sound.fits
  generalize e.advance = move at step ⊢
  cases step with
  | absent place => exact sound
  | ended place nothing =>
    have here : e.loop ≠ .gone := by simp [place]
    exact {
      within := sound.within
      fits := trivial
      idle h := absurd h (sound.not_idle here)
      finished h := absurd h (sound.not_finished here)
      empty := sound.empty
      stalled h _ := Nat.le_antisymm sound.within (le_of_next?_eq_none nothing h) }
  | announced place found =>
    exact sound.relocate (by simp [place]) (by simp) (next?_eq_some found)
  | rested place =>
    rw [place] at fits
    exact sound.relocate (by simp [place]) (by simp) ⟨_, fits⟩
  | struck place sounds lengths =>
    rw [place] at fits
    exact sound.relocate (by simp [place]) (by simp) ⟨_, fits, rfl⟩
  | lifted place long =>
    rw [place] at fits
    obtain ⟨event, he, _⟩ := fits
    exact sound.relocate (by simp [place]) (by simp) ⟨event, he⟩
  | liftedOver place => exact sound.conclude (by simp [place, Loop.busy])
  | passed place => exact sound.conclude (by rcases place with h | h <;> simp [h, Loop.busy])

theorem loopMoves (sound : e.Sound) (n : Nat) : (loopMoves n e).1.Sound := by
  induction n generalizing e with
  | zero => exact sound
  | succ n ih => exact ih sound.advance

theorem drain (sound : e.Sound) : e.drain.1.Sound := by
  obtain ⟨n, moves, _⟩ := e.drain_eq_loopMoves
  rw [moves]
  exact sound.loopMoves n

/-- An engine taken back to its first event. -/
theorem rewound (settings : Settings) (events : List Event) :
    ({ settings := settings, events := events } : Engine).Sound where
  within := Nat.zero_le _
  fits := trivial
  idle _ := rfl
  finished h := nomatch h
  empty _ := rfl
  stalled h := nomatch h

theorem play (within : e.cursor ≤ e.events.length) (some_events : e.events ≠ [])
    (thread : Bool) : (e.play thread).engine.Sound := by
  cases thread with
  | true =>
    exact {
      within := within
      fits := trivial
      idle h := nomatch h
      finished h := nomatch h
      empty h := absurd h some_events
      stalled _ h := nomatch h }
  | false =>
    exact {
      within := within
      fits := trivial
      idle _ := rfl
      finished h := nomatch h
      empty _ := rfl
      stalled h := nomatch h }

theorem start (sound : e.Sound) (thread : Bool) : (e.start thread).engine.Sound := by
  have started := e.start_spec thread
  generalize e.start thread = outcome at started ⊢
  cases started with
  | refused none => exact sound
  | exhausted some_events paused last =>
    refine completed ?_ ?_ ?_
    · rwa [cancel_engine]
    · rw [cancel_engine]
      exact Nat.le_antisymm sound.reached_le last
    · rw [cancel_engine]
  | played some_events still =>
    refine play ?_ ?_ thread
    · rw [cancel_engine]
      exact sound.reached_le
    · rwa [cancel_engine]

theorem suspend (sound : e.Sound) (playing : e.state = .playing) : e.suspend.Sound where
  within := sound.within
  fits := sound.fits
  idle h := nomatch h
  finished h := nomatch h
  empty h := absurd h (sound.events_ne_nil (by rw [playing]; decide))
  stalled h := nomatch h

theorem pause (sound : e.Sound) (meanwhile : Nat) : (e.pause meanwhile).1.Sound := by
  by_cases playing : e.state = .playing
  · rw [Engine.pause, if_pos playing]
    exact (sound.suspend playing).loopMoves meanwhile
  · rw [Engine.pause, if_neg playing]
    exact sound

theorem resume (sound : e.Sound) (thread : Bool) : (e.resume thread).engine.Sound := by
  have resumed := e.resume_spec thread
  generalize e.resume thread = outcome at resumed ⊢
  cases resumed with
  | refused none => exact sound
  | ended paused finished => exact sound.drain
  | played paused still =>
    have some_events := sound.drain.events_ne_nil (by rw [still]; decide)
    exact play sound.drain.within some_events thread

theorem install (events : List Event) (e : Engine) : (e.install events).1.Sound := by
  simp only [Engine.install, andThen, cancel_engine]
  exact rewound e.settings events

theorem stop (e : Engine) : e.stop.1.Sound := by
  simp only [Engine.stop, andThen, cancel_engine]
  exact rewound e.settings e.events

theorem configure (sound : e.Sound) (edit : Settings → Settings) : (e.configure edit).Sound :=
  ⟨sound.within, sound.fits, sound.idle, sound.finished, sound.empty, sound.stalled⟩

theorem fit (sound : e.Sound) (seconds : Float) : (e.fit seconds).engine.Sound := by
  unfold Engine.fit
  split
  · rename_i settings _
    exact sound.configure fun _ => settings
  · exact sound

theorem importMidi (sound : e.Sound) (bytes : List UInt8) (keymap : Keymap) :
    (e.importMidi bytes keymap).engine.Sound := by
  unfold Engine.importMidi
  split
  · exact sound
  · exact install _ _

theorem make (sound : e.Sound) (m : Move) : (m.make e).1.Sound := by
  cases m with
  | loop => exact sound.advance
  | call c =>
    cases c with
    | load text => exact install _ _
    | loadEvents events => exact install _ _
    | importMidi bytes keymap => exact sound.importMidi bytes keymap
    | start thread => exact sound.start thread
    | pause meanwhile => exact sound.pause meanwhile
    | resume thread => exact sound.resume thread
    | stop => exact stop e
    | wait => exact sound.drain
    | configure edit => exact sound.configure edit
    | fit seconds => exact sound.fit seconds

end Sound

/-- What a start does that has found the engine in this state. -/
def startFrom (found : State) (thread : Bool) (e : Engine) : Outcome :=
  if found = .playing ∨ e.events = [] then { engine := e }
  else .after e.cancel fun after =>
    if found = .paused ∧ after.events.length ≤ after.cursor then .ofMove (after.enter .finished)
    else after.play thread

theorem startFrom_state (thread : Bool) (e : Engine) :
    e.startFrom e.state thread = e.start thread := rfl

section Overtaken

variable {e : Engine} {thread : Bool}

/-- A loop that had moved on makes no difference where it is cut off with the same outcome. -/
theorem startFrom_of_cancel {e' : Engine} {notices : List Notice} (some_events : e.events ≠ [])
    (events : e'.events = e.events) (cut : andThen (e', notices) cancel = e.cancel) :
    .after (e', notices) (startFrom .paused thread) = e.startFrom .paused thread := by
  have some_events' : e'.events ≠ [] := events ▸ some_events
  simp only [startFrom, some_events', some_events, reduceCtorEq, or_self, if_false, ← cut,
    Outcome.after, andThen, List.append_assoc]

/-- Nor does the end of the event in hand: after the last one the loop has finished the score,
which is what the start would do. -/
theorem startFrom_conclude (before : List Notice) (some_events : e.events ≠ [])
    (paused : e.state = .paused)
    (cut : e.cancel = ({ e with cursor := e.cursor + 1, loop := .gone }, before)) :
    .after (e.conclude.1, before ++ e.conclude.2) (startFrom .paused thread) =
      e.startFrom .paused thread := by
  by_cases more : e.cursor + 1 < e.events.length
  · rw [conclude_of_lt more]
    exact startFrom_of_cancel some_events rfl (by rw [cut]; simp [andThen, cancel])
  · have last : e.events.length ≤ e.cursor + 1 := by omega
    have finished : e.conclude = ({ e with
        cursor := e.cursor + 1, loop := .gone, state := .finished }, [.state .finished]) := by
      simp [conclude_of_not_lt more, enter, paused]
    have stays : startFrom .paused thread { e with
        cursor := e.cursor + 1, loop := .gone, state := .finished } = { engine := { e with
        cursor := e.cursor + 1, loop := .gone, state := .finished } } := by
      simp [startFrom, some_events, Outcome.after, Outcome.ofMove, cancel, enter, last]
    simp only [finished, Outcome.after, stays, List.append_nil]
    simp [startFrom, some_events, cut, Outcome.after, Outcome.ofMove, enter, last, paused]

theorem startFrom_advance (sound : e.Sound) (still : e.state ≠ .playing) :
    .after e.advance (startFrom .paused thread) = e.startFrom .paused thread := by
  have step := e.advance_spec
  generalize e.advance = move at step ⊢
  by_cases gone : e.loop = .gone
  · cases step <;> simp_all [Outcome.after]
  have some_events := sound.events_ne_nil (sound.not_idle gone)
  have paused : e.state = .paused := by
    cases state : e.state with
    | idle => exact absurd state (sound.not_idle gone)
    | playing => exact absurd state still
    | paused => rfl
    | finished => exact absurd state (sound.not_finished gone)
  cases step with
  | absent place => exact absurd place gone
  | ended place nothing =>
    exact startFrom_of_cancel some_events rfl (by simp [andThen, cancel, place])
  | announced place found => simp [next?, paused] at found
  | rested place =>
    exact startFrom_of_cancel some_events rfl
      (by simp [andThen, cancel, place, pressed, released, Event.keys])
  | struck place sounds lengths =>
    exact startFrom_of_cancel some_events rfl (by simp [andThen, cancel, place])
  | lifted place long =>
    exact startFrom_of_cancel some_events rfl (by simp [andThen, cancel, place])
  | liftedOver place => exact startFrom_conclude _ some_events paused (by simp [cancel, place])
  | passed place =>
    refine startFrom_conclude [] some_events paused ?_
    rcases place with h | h <;> simp [cancel, h]

theorem state_advance (e : Engine) (still : e.state ≠ .playing) : e.advance.1.state ≠ .playing := by
  have step := e.advance_spec
  generalize e.advance = move at step ⊢
  have concluded : e.conclude.1.state ≠ .playing := by
    by_cases more : e.cursor + 1 < e.events.length
    · rw [conclude_of_lt more]
      exact still
    · rw [conclude_of_not_lt more]
      simp [enter]
  cases step with
  | liftedOver place => exact concluded
  | passed place => exact concluded
  | _ => exact still

theorem startFrom_loopMoves (n : Nat) (sound : e.Sound) (still : e.state ≠ .playing) :
    .after (loopMoves n e) (startFrom .paused thread) = e.startFrom .paused thread := by
  induction n generalizing e with
  | zero => rfl
  | succ n ih =>
    have later := ih sound.advance (e.state_advance still)
    calc Outcome.after (loopMoves (n + 1) e) (startFrom .paused thread)
        = .after e.advance fun e' => .after (loopMoves n e') (startFrom .paused thread) := by
          simp only [loopMoves, andThen, Outcome.after, List.append_assoc]
      _ = .after e.advance (startFrom .paused thread) := by
          simp only [Outcome.after] at later ⊢
          rw [← later]
      _ = e.startFrom .paused thread := startFrom_advance sound still

/-- A start of a paused engine comes to the same, however many moves the loop still makes
between the look at the state and the cut. -/
theorem start_overtaken (sound : e.Sound) (paused : e.state = .paused) (n : Nat) :
    .after (loopMoves n e) (startFrom .paused thread) = e.start thread := by
  have still : e.state ≠ .playing := by
    rw [paused]
    decide
  rw [startFrom_loopMoves n sound still, ← paused, startFrom_state]

end Overtaken

end Engine

end KeyScore.Player
