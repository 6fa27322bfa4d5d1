import KeyScore.Proofs.Player.States
import Mathlib.Data.List.Chain

/-!
# What is told of the state

An observer who knows that an engine was idle at first hears of every change of its state. Each
call and each move of the loop tells of its changes in their order, with one exception: a pause
tells of its change late, and the loop may have finished the score by then. What is told is the
history of the state if no pause has been overtaken like this.
-/

namespace KeyScore.Player

namespace State

/-- The changes of state there are. Nothing but playing leads to a pause, and an engine that is
idle or finished can only play. -/
inductive Change : State → State → Prop
  | started : Change idle playing
  | paused : Change playing paused
  | resumed : Change paused playing
  | completed : Change playing finished
  | completedPaused : Change paused finished
  | stalled : Change finished playing
  | quit {s : State} (away : s ≠ idle) : Change s idle

theorem Change.ne {s t : State} (change : Change s t) : s ≠ t := by
  rintro rfl
  cases change with
  | quit away => exact away rfl

/-- Whatever comes after the end can come after a pause as well. -/
theorem Change.of_finished {t : State} (change : Change finished t) : Change State.paused t := by
  cases change with
  | stalled => exact .resumed
  | quit away => exact .quit (by decide)

/-- What can be told after a state: a change, or the pause that the end has overtaken. -/
def Tellable (s t : State) : Prop := Change s t ∨ (s = finished ∧ t = paused)

theorem Tellable.ne {s t : State} (tellable : Tellable s t) : s ≠ t := by
  rcases tellable with change | ⟨rfl, rfl⟩
  · exact change.ne
  · decide

/-- The states after the first one, on the way from it to the last one. -/
inductive Way : State → List State → State → Prop
  | stay (s : State) : Way s [] s
  | go {s t u : State} {states : List State} (change : Change s t) (rest : Way t states u) :
      Way s (t :: states) u

namespace Way

variable {s t u : State} {states others : List State}

theorem append (first : Way s states t) (second : Way t others u) :
    Way s (states ++ others) u := by
  induction first with
  | stay s => exact second
  | go change _ ih => exact .go change (ih second)

theorem isChain (way : Way s states t) : (s :: states).IsChain Change := by
  induction way with
  | stay s => exact .singleton s
  | go change _ ih => exact .cons_cons change ih

theorem getLast? (way : Way s states t) : (s :: states).getLast? = some t := by
  induction way with
  | stay s => rfl
  | go change _ ih => rwa [List.getLast?_cons_cons]

end Way

end State

/-- The loop finishes the score between the change of a pause and the notice of it. -/
def Move.Overtaken (e : Engine) : Move → Prop
  | call (.pause meanwhile) =>
    e.state = .playing ∧ (Engine.loopMoves meanwhile e.suspend).1.state = .finished
  | _ => False

namespace Engine

/-- A move makes known the states on the way from the one before it to the one after it. -/
def Tells (e : Engine) (move : Engine × List Notice) : Prop :=
  State.Way e.state (statesOf move.2) move.1.state

namespace Tells

variable {e : Engine}

theorem andThen {move : Engine × List Notice} {next : Engine → Engine × List Notice}
    (first : e.Tells move) (second : move.1.Tells (next move.1)) :
    e.Tells (andThen move next) := by
  unfold Tells at *
  rw [Engine.andThen, statesOf_append]
  exact first.append second

/-- A move that leaves the state alone and is silent about it. -/
theorem of_same {move : Engine × List Notice} (same : move.1.state = e.state)
    (silent : statesOf move.2 = []) : e.Tells move := by
  unfold Tells
  rw [silent, same]
  exact .stay e.state

theorem of_completes {move : Engine × List Notice} (completes : e.Completes move) :
    e.Tells move := by
  cases completes with
  | going same silent => exact of_same same silent
  | finished active done told =>
    unfold Tells
    rw [told, done]
    rcases active with playing | paused
    · rw [playing]
      exact .go .completed (.stay _)
    · rw [paused]
      exact .go .completedPaused (.stay _)

/-- Entering a state, with anything else changed on the way. -/
theorem enter {e' : Engine} (same : e'.state = e.state) {s : State}
    (change : e.state ≠ s → State.Change e.state s) : e.Tells (e'.enter s) := by
  by_cases there : e.state = s
  · rw [Engine.enter, if_pos (same.trans there)]
    exact of_same there.symm rfl
  · rw [Engine.enter, if_neg (same ▸ there)]
    exact .go (change there) (.stay s)

/-- Cutting the loop off leaves the state to the call that does it. -/
theorem cancel (e : Engine) : e.Tells e.cancel := by
  refine of_same (by rw [cancel_engine]) ?_
  unfold Engine.cancel
  cases e.loop with
  | announced event settings => simp [pressed, released]
  | holding keys wait gap => exact statesOf_actions _
  | gone => rfl
  | boundary => rfl
  | trailing wait => rfl
  | resting wait => rfl

theorem install (events : List Event) (e : Engine) : e.Tells (e.install events) :=
  (cancel e).andThen (enter rfl .quit)

/-- A start that fails has been told by then, and is told to be over. -/
theorem play (still : e.state ≠ .playing) (thread : Bool) : e.Tells (e.play thread).move := by
  have change : State.Change e.state .playing := by
    cases state : e.state with
    | idle => exact .started
    | playing => exact absurd state still
    | paused => exact .resumed
    | finished => exact .stalled
  cases thread with
  | true =>
    rw [move_play_true]
    exact enter rfl fun _ => change
  | false =>
    have plays : e.Tells (Engine.enter .playing { e with loop := .gone }) :=
      enter rfl fun _ => change
    rw [move_play_false]
    exact plays.andThen (enter rfl .quit)

theorem start (thread : Bool) (e : Engine) : e.Tells (e.start thread).move := by
  have started := e.start_spec thread
  generalize e.start thread = outcome at started ⊢
  cases started with
  | refused none => exact of_same rfl rfl
  | exhausted some_events paused last =>
    refine (cancel e).andThen (enter rfl fun _ => ?_)
    rw [cancel_engine, paused]
    exact .completedPaused
  | played some_events still =>
    have still' : e.cancel.1.state ≠ .playing := by rwa [cancel_engine]
    rw [Outcome.move_after]
    exact (cancel e).andThen (play still' thread)

theorem resume (sound : e.Sound) (thread : Bool) : e.Tells (e.resume thread).move := by
  have drained : e.Tells e.drain := of_completes (.drain sound)
  have resumed := e.resume_spec thread
  generalize e.resume thread = outcome at resumed ⊢
  cases resumed with
  | refused none => exact of_same rfl rfl
  | ended paused finished => exact drained
  | played paused still =>
    rw [Outcome.move_after]
    exact drained.andThen (play (by rw [still]; decide) thread)

theorem pause (sound : e.Sound) {meanwhile : Nat}
    (smooth : ¬(Move.call (.pause meanwhile)).Overtaken e) : e.Tells (e.pause meanwhile) := by
  by_cases playing : e.state = .playing
  · rw [Engine.pause, if_pos playing]
    have completes := Completes.loopMoves (sound.suspend playing) meanwhile
    cases completes with
    | going same silent =>
      unfold Tells
      rw [Engine.andThen, statesOf_append, silent, playing, same]
      exact .go .paused (.stay _)
    | finished active done told => exact absurd ⟨playing, done⟩ smooth
  · rw [Engine.pause, if_neg playing]
    exact of_same rfl rfl

/-- Every move but a pause that is overtaken tells all there is. -/
theorem make (sound : e.Sound) {m : Move} (smooth : ¬m.Overtaken e) : e.Tells (m.make e) := by
  cases back : m.rewinds with
  | true =>
    obtain ⟨settings, events, installed⟩ := e.make_rewinds back
    rw [installed]
    exact install events { e with settings := settings }
  | false =>
    cases m with
    | loop => exact of_completes (.advance sound)
    | call c =>
      cases c with
      | start thread => exact start thread e
      | pause meanwhile => exact pause sound smooth
      | resume thread => exact resume sound thread
      | wait => exact of_completes (.drain sound)
      | configure edit => exact of_same rfl rfl
      | fit seconds =>
        rw [Move.make, Call.perform, move_fit]
        exact of_same rfl rfl
      | importMidi bytes keymap =>
        rw [e.make_of_refused keymap back]
        exact of_same rfl rfl
      | load text => cases back
      | loadEvents events => cases back
      | stop => cases back

end Tells

/-- A pause that is overtaken is told after the end, and the score stays finished. -/
theorem tells_overtaken {e : Engine} (sound : e.Sound) {m : Move} (overtaken : m.Overtaken e) :
    e.state = .playing ∧ statesOf (m.make e).2 = [.finished, .paused] ∧
      (m.make e).1.state = .finished := by
  cases m with
  | loop => cases overtaken
  | call c =>
    cases c with
    | pause meanwhile =>
      obtain ⟨playing, done⟩ := overtaken
      have completes := Completes.loopMoves (sound.suspend playing) meanwhile
      simp only [Move.make, Call.perform, Outcome.move_ofMove, Engine.pause, if_pos playing,
        Engine.andThen, statesOf_append]
      cases completes with
      | going same silent =>
        rw [same] at done
        cases done
      | finished active done told =>
        rw [told]
        exact ⟨playing, rfl, done⟩
    | _ => cases overtaken

end Engine

namespace Run

/-- What an observer has been told of the state, behind the idle state of the beginning. -/
def told (r : Run) : List State := .idle :: statesOf r.log

theorem told_move (r : Run) (m : Move) :
    (r.move m).told = r.told ++ statesOf (m.make r.engine).2 := by
  rw [told, move, statesOf_append]
  rfl

theorem told_prefix_follow (r : Run) (history : List Move) :
    r.told <+: (r.follow history).told := by
  induction history generalizing r with
  | nil => exact List.prefix_rfl
  | cons m history ih =>
    have first : r.told <+: (r.move m).told := ⟨_, (r.told_move m).symm⟩
    exact first.trans (ih (r.move m))

/-- In the history the move `m`, made after the moves `before`, is a pause that is overtaken. -/
def OvertakenAt (r : Run) (history before : List Move) (m : Move) : Prop :=
  before ++ [m] <+: history ∧ m.Overtaken (r.follow before).engine

/-- What has been told in the course of a history, and how far the observer is up to date. -/
structure Heard (r : Run) (history : List Move) : Prop where
  tellable : (r.follow history).told.IsChain State.Tellable
  smooth : (∀ before m, ¬r.OvertakenAt history before m) →
    (r.follow history).told.IsChain State.Change
  last : (r.follow history).told.getLast? = some (r.follow history).engine.state ∨
    ((r.follow history).engine.state = .finished ∧
      (r.follow history).told.getLast? = some .paused ∧
      ∃ before m, r.OvertakenAt history before m ∧
        (r.follow (before ++ [m])).told = (r.follow history).told)

/-- What can follow the state of the engine can also follow what has been told last. -/
theorem Heard.next {r : Run} {history : List Move} (heard : r.Heard history) {t : State}
    (change : State.Change (r.follow history).engine.state t) :
    ∀ s ∈ (r.follow history).told.getLast?, State.Change s t := by
  intro s told
  rcases heard.last with current | ⟨finished, late, _⟩
  · rw [current] at told
    cases told
    exact change
  · rw [late] at told
    cases told
    rw [finished] at change
    exact change.of_finished

theorem OvertakenAt.concat {r : Run} {history before : List Move} {m : Move}
    (overtaken : r.OvertakenAt history before m) (m' : Move) :
    r.OvertakenAt (history ++ [m']) before m :=
  ⟨overtaken.1.trans (List.prefix_append _ _), overtaken.2⟩

/-- A move that tells all there is brings the observer up to date, if it tells anything. -/
theorem Heard.concat_of_tells {r : Run} {history : List Move} (heard : r.Heard history) {m : Move}
    (tells : (r.follow history).engine.Tells (m.make (r.follow history).engine)) :
    r.Heard (history ++ [m]) := by
  have moved : r.follow (history ++ [m]) = (r.follow history).move m := follow_append r history [m]
  have told := (r.follow history).told_move m
  obtain ⟨first, rest⟩ := List.isChain_cons.mp tells.isChain
  refine ⟨?_, fun smooth => ?_, ?_⟩
  · rw [moved, told]
    exact List.isChain_append.mpr ⟨heard.tellable, rest.imp fun _ _ => .inl,
      fun s last t next => .inl (heard.next (first t next) s last)⟩
  · rw [moved, told]
    have smooth_before := heard.smooth fun before m' overtaken =>
      smooth before m' (overtaken.concat m)
    exact List.isChain_append.mpr ⟨smooth_before, rest, fun s last t next =>
      heard.next (first t next) s last⟩
  · have last := tells.getLast?
    rw [moved]
    cases states : statesOf (m.make (r.follow history).engine).2 with
    | nil =>
      have quiet : ((r.follow history).move m).told = (r.follow history).told := by
        rw [told, states, List.append_nil]
      rw [states] at last
      have same : ((r.follow history).move m).engine.state = (r.follow history).engine.state :=
        (Option.some.inj last).symm
      rw [quiet, same]
      rcases heard.last with current | ⟨finished, late, before, m', overtaken, since⟩
      · exact .inl current
      · exact .inr ⟨finished, late, before, m', overtaken.concat m, since⟩
    | cons s later =>
      rw [states, List.getLast?_cons_cons] at last
      refine .inl ?_
      rw [told, states, List.getLast?_append, last]
      rfl

/-- An overtaken pause leaves the observer with a pause where the score is finished. -/
theorem Heard.concat_of_overtaken {r : Run} {history : List Move} (heard : r.Heard history)
    (sound : (r.follow history).engine.Sound) {m : Move}
    (overtaken : m.Overtaken (r.follow history).engine) : r.Heard (history ++ [m]) := by
  have moved : r.follow (history ++ [m]) = (r.follow history).move m := follow_append r history [m]
  obtain ⟨playing, states, finished⟩ := Engine.tells_overtaken sound overtaken
  have told : (r.follow (history ++ [m])).told =
      (r.follow history).told ++ [.finished, .paused] := by
    rw [moved, told_move, states]
  have here : r.OvertakenAt (history ++ [m]) history m := ⟨List.prefix_rfl, overtaken⟩
  have ended : State.Change (r.follow history).engine.state .finished := by
    rw [playing]
    exact .completed
  refine ⟨?_, fun smooth => absurd here (smooth history m), .inr ⟨?_, ?_, history, m, here, rfl⟩⟩
  · rw [told]
    refine List.isChain_append.mpr ⟨heard.tellable, List.isChain_pair.mpr (.inr ⟨rfl, rfl⟩), ?_⟩
    intro s last t next
    cases next
    exact .inl (heard.next ended s last)
  · rw [moved]
    exact finished
  · rw [told, List.getLast?_append]
    rfl

theorem heard_follow (settings : Settings) (history : List Move) :
    (ofSettings settings).Heard history := by
  induction history using List.reverseRecOn with
  | nil => exact ⟨.singleton _, fun _ => .singleton _, .inl rfl⟩
  | append_singleton history m ih =>
    have sound := (faithful settings history).sound
    by_cases overtaken : m.Overtaken ((ofSettings settings).follow history).engine
    · exact ih.concat_of_overtaken sound overtaken
    · exact ih.concat_of_tells (.make sound overtaken)

/-- Nothing that is told later mends what an overtaken pause has told. -/
theorem not_isChain_of_overtaken {settings : Settings} {history before : List Move} {m : Move}
    (overtaken : (ofSettings settings).OvertakenAt history before m) :
    ¬((ofSettings settings).follow history).told.IsChain State.Change := by
  obtain ⟨⟨later, rfl⟩, late⟩ := overtaken
  obtain ⟨_, states, _⟩ := Engine.tells_overtaken (faithful settings before).sound late
  have told := told_prefix_follow (((ofSettings settings).follow before).move m) later
  intro chain
  rw [List.append_assoc, follow_append] at chain
  have upTo := chain.prefix told
  rw [told_move, states] at upTo
  cases List.isChain_pair.mp upTo.right_of_append

end Run

/-- What is told of the state never says the same twice in a row. It is a history of changes if and
only if no pause is overtaken by the end of the score; where one is, the end is told before the
pause. The last state told is that of the engine, or else it is such a pause and nothing has been
told since. A pause that finds the engine in any state but playing does nothing, and so does a
resumption that finds it in any state but paused. -/
theorem states_told_in_order (settings : Settings) (history : List Move) :
    let r := Run.ofSettings settings
    let run := r.follow history
    run.told.IsChain (· ≠ ·) ∧
    (run.told.IsChain State.Change ↔ ∀ before m, ¬r.OvertakenAt history before m) ∧
    (run.told.getLast? = some run.engine.state ∨
      (run.engine.state = .finished ∧ run.told.getLast? = some .paused ∧
        ∃ before m, r.OvertakenAt history before m ∧
          (r.follow (before ++ [m])).told = run.told)) ∧
    (run.engine.state ≠ .playing →
      ∀ meanwhile, run.engine.pause meanwhile = (run.engine, [])) ∧
    (run.engine.state ≠ .paused →
      ∀ thread, run.engine.resume thread = { engine := run.engine }) := by
  intro r run
  have heard : r.Heard history := Run.heard_follow settings history
  refine ⟨heard.tellable.imp fun _ _ => State.Tellable.ne, ⟨?_, heard.smooth⟩, heard.last, ?_, ?_⟩
  · intro chain before m overtaken
    exact Run.not_isChain_of_overtaken overtaken chain
  · intro still meanwhile
    exact if_neg still
  · intro going thread
    exact if_neg going

/-- A late pause is followed by a start, which stalls, and another pause, which is told in time and
cannot be repeated. -/
theorem stalled_after_late_pause :
    let run := (Run.ofSettings .initial).follow [.call (.loadEvents [.rest 1]), .call .start, .loop,
      .loop, .call (.pause 1), .call .start, .loop, .call .pause]
    run.told = [.idle, .playing, .finished, .paused, .playing, .paused] ∧
    run.told.IsChain (· ≠ ·) ∧ ¬run.told.IsChain State.Change ∧
    run.engine.state = .paused ∧
    ∀ meanwhile, run.engine.pause meanwhile = (run.engine, []) := by
  intro run
  obtain ⟨distinct, changes, _, pausing, _⟩ := states_told_in_order .initial
    [.call (.loadEvents [.rest 1]), .call .start, .loop, .loop, .call (.pause 1), .call .start,
      .loop, .call .pause]
  have paused : run.engine.state = .paused := rfl
  have late : (Run.ofSettings .initial).OvertakenAt _ [.call (.loadEvents [.rest 1]), .call .start,
    .loop, .loop] (.call (.pause 1)) := ⟨⟨[.call .start, .loop, .call .pause], rfl⟩, rfl, rfl⟩
  refine ⟨rfl, distinct, fun chain => changes.mp chain _ _ late, paused, ?_⟩
  exact pausing (by rw [paused]; decide)

/-- The last rest runs out while a pause is made: the end is told before the pause, and the engine
is not paused. -/
theorem end_told_before_pause :
    let run := (Run.ofSettings .initial).follow [.call (.loadEvents [.rest 1]), .call .start, .loop,
      .loop, .call (.pause 1)]
    run.told = [.idle, .playing, .finished, .paused] ∧
    run.engine.state = .finished ∧ run.engine.loop = .gone ∧
    ¬run.told.IsChain State.Change ∧ run.told.getLast? ≠ some run.engine.state := by
  intro run
  have told : run.told = [.idle, .playing, .finished, .paused] := rfl
  have finished : run.engine.state = .finished := rfl
  refine ⟨told, finished, rfl, ?_, ?_⟩
  · rw [told]
    intro chain
    simp only [List.isChain_cons_cons] at chain
    obtain ⟨_, _, change, _⟩ := chain
    cases change
  · rw [told, finished]
    decide

end KeyScore.Player
