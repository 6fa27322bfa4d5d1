import KeyScore.Proofs.Player.Trace
import KeyScore.Proofs.Rests

/-!
# Engines without a past

A stop leaves nothing of what has been played, and loading a text nothing of what had been loaded
either: from then on an engine cannot be told from one that is new. What can be told of an
engine are its replies, to any calls and with its loop moving at any time between them.
-/

namespace KeyScore.Player

/-- What a move shows of an engine: the answer to a call, what is made known meanwhile, and all
that can be looked at afterwards. -/
structure Reply where
  answer : Answer
  notices : List Notice
  state : State
  cursor : Nat
  events : List Event
  settings : Settings

namespace Move

/-- The answer to a call; the loop gives none. -/
def answer (e : Engine) : Move → Answer
  | loop => .done
  | call c => (c.perform e).answer

def reply (e : Engine) (m : Move) : Reply where
  answer := m.answer e
  notices := (m.make e).2
  state := (m.make e).1.state
  cursor := (m.make e).1.cursor
  events := (m.make e).1.events
  settings := (m.make e).1.settings

end Move

namespace Engine

/-- What an engine shows in the course of moves. -/
def replies (e : Engine) : List Move → List Reply
  | [] => []
  | m :: later => m.reply e :: replies (m.make e).1 later

/-- No moves tell the two engines apart. -/
def Alike (e other : Engine) : Prop := ∀ later : List Move, e.replies later = other.replies later

theorem stop_engine (e : Engine) :
    e.stop.1 = { settings := e.settings, events := e.events } := by
  simp only [stop, andThen, cancel_engine, enter]

/-- Where the sequence after a move comes from: it is the one there was, or that of a text, or one
that was handed over, without its runs of rests. -/
theorem events_make {e : Engine} (sound : e.Sound) (m : Move) :
    (m.make e).1.events = e.events ∨
      (∃ text s, (m.make e).1.events = (Notation.compile text s).events) ∨
      ∃ events, m = .call (.loadEvents events) ∧ (m.make e).1.events = mergeRests events := by
  cases back : m.rewinds with
  | false => exact .inl (PlaysOn.make sound back).events
  | true =>
    cases m with
    | loop => cases back
    | call c =>
      cases c with
      | load text =>
        refine .inr (.inl ⟨text, e.settings, ?_⟩)
        simp only [Move.make, Call.perform, Outcome.move_ofMove, load_engine]
      | loadEvents events =>
        refine .inr (.inr ⟨events, rfl, ?_⟩)
        simp only [Move.make, Call.perform, Outcome.move_ofMove, loadEvents, install_engine]
      | importMidi bytes keymap =>
        simp only [Move.make, Call.perform, importMidi]
        split
        · exact .inl rfl
        · rename_i file _
          refine .inr (.inl ⟨Midi.transcribe keymap file, e.settings, ?_⟩)
          simp only [Outcome.move, load_engine]
      | stop =>
        refine .inl ?_
        simp only [Move.make, Call.perform, Outcome.move_ofMove, stop_engine]
      | start thread => cases back
      | pause meanwhile => cases back
      | resume thread => cases back
      | wait => cases back
      | configure edit => cases back
      | fit seconds => cases back

/-- The sequence of an engine has been through merging, however it came there. -/
theorem restsApart_make {e : Engine} (sound : e.Sound) (apart : RestsApart e.events) (m : Move) :
    RestsApart (m.make e).1.events := by
  rcases events_make sound m with same | ⟨text, s, compiled⟩ | ⟨events, -, merged⟩
  · rw [same]
    exact apart
  · rw [compiled]
    exact restsApart_mergeRests _
  · rw [merged]
    exact restsApart_mergeRests events

end Engine

theorem Run.restsApart_follow {r : Run} (sound : r.engine.Sound)
    (apart : RestsApart r.engine.events) (history : List Move) :
    RestsApart (r.follow history).engine.events := by
  induction history generalizing r with
  | nil => exact apart
  | cons m history ih =>
    exact ih (r := r.move m) (sound.make m) (Engine.restsApart_make sound apart m)

/-- Stopped anywhere in any history, an engine is like a new one with its settings that has been
given its sequence; and once they have loaded the same text, any two engines with the same
settings are alike. -/
theorem stop_and_load_forget (settings : Settings) (history : List Move) :
    let e := ((Run.ofSettings settings).follow history).engine
    let fresh : Engine := { settings := e.settings }
    e.stop.1.Alike (fresh.loadEvents e.events).1 ∧
    (∀ (settings' : Settings) (history' : List Move),
      let other := ((Run.ofSettings settings').follow history').engine
      other.settings = e.settings → ∀ text, (e.load text).1.Alike (other.load text).1) := by
  intro e fresh
  constructor
  · have apart : RestsApart e.events :=
      Run.restsApart_follow (r := .ofSettings settings) (.rewound settings []) .nil history
    have same : e.stop.1 = (fresh.loadEvents e.events).1 := by
      rw [Engine.stop_engine, Engine.loadEvents, Engine.install_engine,
        mergeRests_of_restsApart apart]
    intro later
    rw [same]
  · intro settings' history' other equal text later
    have same : (e.load text).1 = (other.load text).1 := by
      simp only [Engine.load, Engine.install_engine, equal]
    rw [same]

/-- A held chord with a capital and a stalled engine: stopped, the one is like a new engine with
that chord, and the next text is played alike by both. -/
theorem held_chord_and_stall_forgotten :
    let held := ((Run.ofSettings .initial).follow
      [.call (.loadEvents [.chord ['a', 'B'] 2, .rest 1]), .call .start, .loop, .loop]).engine
    let stalled := ((Run.ofSettings .initial).follow [.call (.loadEvents [.rest 1]), .call .start,
      .loop, .loop, .loop, .call .start, .loop]).engine
    let fresh : Engine := { settings := .initial }
    (∃ wait gap, held.loop = .holding ['a', 'B'] wait gap) ∧ stalled.state = .playing ∧
    stalled.settings = held.settings ∧
    held.stop.1.Alike (fresh.loadEvents [.chord ['a', 'B'] 2, .rest 1]).1 ∧
    ∀ text, (held.load text).1.Alike (stalled.load text).1 := by
  intro held stalled fresh
  obtain ⟨stopped, loaded⟩ := stop_and_load_forget .initial
    [.call (.loadEvents [.chord ['a', 'B'] 2, .rest 1]), .call .start, .loop, .loop]
  exact ⟨⟨_, _, rfl⟩, rfl, rfl, stopped, loaded .initial [.call (.loadEvents [.rest 1]),
    .call .start, .loop, .loop, .loop, .call .start, .loop] rfl⟩

end KeyScore.Player
