import KeyScore.Proofs.Player.Trace
import Mathlib.Data.List.Induction

/-!
# State, cursor, sequence and loop

Whatever is asked of an engine and whenever its loop moves, state, cursor, sequence and loop agree
with each other. Rewound, an engine is idle at its first event. A start or a resumption that finds
no thread makes it idle too, and leaves the cursor behind the events announced so far.
-/

namespace KeyScore.Player

/-- The states among the notices. -/
def statesOf (notices : List Notice) : List State :=
  notices.filterMap fun
    | .state s => some s
    | _ => none

@[simp]
theorem statesOf_append (a b : List Notice) : statesOf (a ++ b) = statesOf a ++ statesOf b :=
  List.filterMap_append

@[simp]
theorem statesOf_actions (as : List Action) : statesOf (as.map .action) = [] := by
  simp [statesOf]

namespace Engine

/-- An engine with an event in hand is playing or paused. -/
theorem Sound.active {e : Engine} (sound : e.Sound) (here : e.loop ≠ .gone) :
    e.state = .playing ∨ e.state = .paused := by
  cases state : e.state with
  | idle => exact absurd state (sound.not_idle here)
  | playing => exact .inl rfl
  | paused => exact .inr rfl
  | finished => exact absurd state (sound.not_finished here)

/-- What the loop can make of the state: it leaves it as it is, or it finishes the score and says
so. -/
inductive Completes (e : Engine) (move : Engine × List Notice) : Prop
  | going (same : move.1.state = e.state) (silent : statesOf move.2 = [])
  | finished (active : e.state = .playing ∨ e.state = .paused)
      (done : move.1.state = .finished) (told : statesOf move.2 = [.finished])

namespace Completes

variable {e : Engine}

theorem andThen {move : Engine × List Notice} {next : Engine → Engine × List Notice}
    (first : e.Completes move) (second : move.1.Completes (next move.1)) :
    e.Completes (andThen move next) := by
  cases first with
  | going same silent =>
    cases second with
    | going same' silent' =>
      exact .going (same'.trans same) (by simp [Engine.andThen, silent, silent'])
    | finished active done told =>
      exact .finished (same ▸ active) done (by simp [Engine.andThen, silent, told])
  | finished active done told =>
    cases second with
    | going same silent =>
      exact .finished active (same.trans done) (by simp [Engine.andThen, silent, told])
    | finished active' done' told' => simp [done] at active'

theorem conclude (sound : e.Sound) (busy : e.loop.busy = true) : e.Completes e.conclude := by
  have here : e.loop ≠ .gone := Loop.ne_gone_of_busy busy
  by_cases more : e.cursor + 1 < e.events.length
  · rw [conclude_of_lt more]
    exact .going rfl rfl
  · rw [conclude_of_not_lt more]
    exact .finished (sound.active here) rfl (by simp [enter, sound.not_finished here, statesOf])

theorem advance (sound : e.Sound) : e.Completes e.advance := by
  have step := e.advance_spec
  generalize e.advance = move at step ⊢
  cases step with
  | absent place => exact .going rfl rfl
  | ended place nothing => exact .going rfl rfl
  | announced place found => exact .going rfl rfl
  | rested place => exact .going rfl rfl
  | struck place sounds lengths => exact .going rfl (statesOf_actions _)
  | lifted place long => exact .going rfl (statesOf_actions _)
  | @liftedOver keys wait place =>
    have lifted : e.Completes (e, released keys) := .going rfl (statesOf_actions _)
    have concluded : e.Completes e.conclude := conclude sound (by simp [place, Loop.busy])
    show e.Completes (Engine.andThen (e, released keys) Engine.conclude)
    exact lifted.andThen concluded
  | passed place => exact conclude sound (by rcases place with h | h <;> simp [h, Loop.busy])

theorem loopMoves (sound : e.Sound) (n : Nat) : e.Completes (loopMoves n e) := by
  induction n generalizing e with
  | zero => exact .going rfl rfl
  | succ n ih => exact (advance sound).andThen (ih sound.advance)

theorem drain (sound : e.Sound) : e.Completes e.drain := by
  obtain ⟨n, moves, _⟩ := e.drain_eq_loopMoves
  rw [moves]
  exact loopMoves sound n

theorem eq_or_finished {move : Engine × List Notice} (completes : e.Completes move) :
    move.1.state = e.state ∨ move.1.state = .finished := by
  cases completes with
  | going same silent => exact .inl same
  | finished active done told => exact .inr done

end Completes

/-- A call that finds no thread for the loop leaves nothing in hand, and all that has been announced
counts as played. -/
theorem engine_of_noThread {e : Engine} (sound : e.Sound) {c : Call}
    (failed : (c.perform e).answer = .noThread) :
    (c.perform e).engine = { e with cursor := e.reached, state := .idle, loop := .gone } := by
  have play {e : Engine} {thread : Bool} (failed : (e.play thread).answer = .noThread) :
      (e.play thread).engine = { e with state := .idle, loop := .gone } := by
    cases thread with
    | true => cases failed
    | false => rfl
  cases c with
  | start thread =>
    have started := e.start_spec thread
    simp only [Call.perform] at failed ⊢
    generalize e.start thread = outcome at started failed ⊢
    cases started with
    | refused none => cases failed
    | exhausted some_events paused last => cases failed
    | played some_events still =>
      rw [Outcome.after, play failed, cancel_engine]
  | resume thread =>
    have resumed := e.resume_spec thread
    simp only [Call.perform] at failed ⊢
    generalize e.resume thread = outcome at resumed failed ⊢
    cases resumed with
    | refused none => cases failed
    | ended paused finished => cases failed
    | played paused still =>
      rw [Outcome.after, play failed, drain_engine sound (by rw [paused]; decide)]
  | importMidi bytes keymap =>
    simp only [Call.perform, importMidi] at failed
    split at failed <;> cases failed
  | fit seconds =>
    simp only [Call.perform, fit] at failed
    split at failed <;> cases failed
  | _ => cases failed

/-- An engine that a move leaves idle, neither rewinding it nor finding no thread, was idle before
and has not stirred. -/
theorem still_of_idle {e : Engine} (sound : e.Sound) {m : Move} (onward : m.rewinds = false)
    (served : ∀ c, m = .call c → (c.perform e).answer ≠ .noThread)
    (idle : (m.make e).1.state = .idle) :
    e.state = .idle ∧ (m.make e).1.cursor = e.cursor ∧ (m.make e).2 = [] := by
  have completes {e : Engine} {move : Engine × List Notice} (completed : e.Completes move)
      (idle : move.1.state = .idle) : e.state = .idle := by
    rcases completed.eq_or_finished with same | done
    · rw [← same, idle]
    · rw [done] at idle
      cases idle
  cases m with
  | loop =>
    have was := completes (.advance sound) idle
    have absent : e.advance = (e, []) := by simp [advance, sound.idle was]
    rw [Move.make, absent]
    exact ⟨was, rfl, rfl⟩
  | call c =>
    cases c with
    | start thread =>
      have served := served (.start thread) rfl
      have started := e.start_spec thread
      simp only [Move.make, Call.perform] at served idle ⊢
      generalize e.start thread = outcome at started served idle ⊢
      cases started with
      | refused none => exact ⟨idle, rfl, rfl⟩
      | exhausted some_events paused last => cases idle
      | played some_events still =>
        cases thread with
        | true => cases idle
        | false => exact absurd rfl served
    | pause meanwhile =>
      by_cases playing : e.state = .playing
      · simp only [Move.make, Call.perform, pause, if_pos playing] at idle
        cases completes (.loopMoves (sound.suspend playing) meanwhile) idle
      · simp only [Move.make, Call.perform, pause, if_neg playing] at idle ⊢
        exact ⟨idle, rfl, rfl⟩
    | resume thread =>
      have served := served (.resume thread) rfl
      have resumed := e.resume_spec thread
      simp only [Move.make, Call.perform] at served idle ⊢
      generalize e.resume thread = outcome at resumed served idle ⊢
      cases resumed with
      | refused none => exact ⟨idle, rfl, rfl⟩
      | ended paused finished =>
        have was := completes (.drain sound) idle
        rw [paused] at was
        cases was
      | played paused still =>
        cases thread with
        | true => cases idle
        | false => exact absurd rfl served
    | wait =>
      have was := completes (.drain sound) idle
      have absent : e.drain = (e, []) := drain_of_gone (sound.idle was)
      simp only [Move.make, Call.perform, absent]
      exact ⟨was, rfl, rfl⟩
    | configure edit => exact ⟨idle, rfl, rfl⟩
    | fit seconds =>
      rw [Move.make, Call.perform, move_fit] at idle ⊢
      exact ⟨idle, rfl, rfl⟩
    | importMidi bytes keymap =>
      rw [e.make_of_refused keymap onward] at idle ⊢
      exact ⟨idle, rfl, rfl⟩
    | load text => cases onward
    | loadEvents events => cases onward
    | stop => cases onward

/-- The last step belongs to the event in hand. -/
theorem getLast?_steps_of_busy {e : Engine} {event : Event} (busy : e.loop.busy = true)
    (here : e.events[e.cursor]? = some event) : e.steps.getLast? = some (e.cursor, event) := by
  have length : (e.events.take e.cursor).length = e.cursor := by
    have lt := (List.getElem?_eq_some_iff.mp here).1
    rw [List.length_take]
    omega
  rw [steps, played_of_busy busy here, List.mapIdx_concat, List.getLast?_concat, length]

end Engine

namespace Run

/-- In the history a call `c`, made after the moves `before`, has found no thread. Nothing has been
made known since, and the cursor is still behind the events announced by then. -/
structure Denied (r : Run) (history before : List Move) (c : Call) : Prop where
  made : before ++ [.call c] <+: history
  answer : (c.perform (r.follow before).engine).answer = .noThread
  silent : (r.follow history).log = (r.follow (before ++ [.call c])).log
  cursor : (r.follow history).engine.cursor = (r.follow before).engine.reached

/-- The last move either rewinds, or finds no thread, or does nothing to an idle engine. -/
theorem denied_of_idle (settings : Settings) (history : List Move)
    (idle : ((ofSettings settings).follow history).engine.state = .idle) :
    ((ofSettings settings).follow history).engine.cursor = 0 ∨
      ∃ before c, (ofSettings settings).Denied history before c := by
  induction history using List.reverseRecOn with
  | nil => exact .inl rfl
  | append_singleton history m ih =>
    have moved : (ofSettings settings).follow (history ++ [m]) =
        ((ofSettings settings).follow history).move m := follow_append _ history [m]
    have sound := (faithful settings history).sound
    cases back : m.rewinds with
    | true =>
      obtain ⟨_, events, installed⟩ :=
        ((ofSettings settings).follow history).engine.make_rewinds back
      refine .inl ?_
      rw [moved, move, installed, Engine.install_engine]
    | false =>
      by_cases failed : ∃ c, m = .call c ∧
          (c.perform ((ofSettings settings).follow history).engine).answer = .noThread
      · obtain ⟨c, rfl, failed⟩ := failed
        refine .inr ⟨history, c, List.prefix_rfl, failed, rfl, ?_⟩
        rw [moved]
        exact congrArg Engine.cursor (Engine.engine_of_noThread sound failed)
      · rw [moved] at idle
        obtain ⟨was, cursor, silent⟩ := Engine.still_of_idle sound back
          (fun c call answer => failed ⟨c, call, answer⟩) idle
        rcases ih was with zero | ⟨before, c, denied⟩
        · refine .inl ?_
          rw [moved]
          exact cursor.trans zero
        · refine .inr ⟨before, c, denied.made.trans (List.prefix_append _ _), denied.answer, ?_, ?_⟩
          · rw [moved, move, silent, List.append_nil]
            exact denied.silent
          · rw [moved]
            exact cursor.trans denied.cursor

end Run

end KeyScore.Player
