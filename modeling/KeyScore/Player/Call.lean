import KeyScore.Midi.Decode
import KeyScore.Midi.Transcript
import KeyScore.Player.Engine

/-!
# Calls to the engine

A call is something that the owner of an engine asks of it, and what it meets with where that is
not up to the engine: whether a thread can be had for the loop, and how far the loop gets while a
pause is made. Its outcome is the engine after the call, the notices put out meanwhile and an
answer. Calls that make no sense in the state of the engine do nothing.
-/

namespace KeyScore.Player

inductive Call where
  | load (text : String)
  | loadEvents (events : List Event)
  /-- Loads the notation of a MIDI file. -/
  | importMidi (bytes : List UInt8) (keymap : Keymap)
  /-- Plays, if a thread can be had. -/
  | start (thread : Bool := true)
  /-- Pauses, with so many moves of the loop before that is made known. -/
  | pause (meanwhile : Nat := 0)
  /-- Plays on, if a thread can be had. -/
  | resume (thread : Bool := true)
  | stop
  /-- Waits until the loop has come to its end. -/
  | wait
  | configure (edit : Settings → Settings)
  /-- Changes the tempo so that the sequence lasts so many seconds. -/
  | fit (seconds : Float)

inductive Answer where
  | done
  | fitted (success : Bool)
  | imported (text : String)
  | refused (fault : Midi.Fault)
  /-- There was no thread to be had for the loop. -/
  | noThread

structure Outcome where
  engine : Engine
  notices : List Notice := []
  answer : Answer := .done

namespace Outcome

/-- The engine after a call and what was made known meanwhile. -/
def move (o : Outcome) : Engine × List Notice := (o.engine, o.notices)

/-- The outcome of a move. -/
def ofMove (move : Engine × List Notice) : Outcome := { engine := move.1, notices := move.2 }

/-- A move, and then a call from where it led. -/
def after (first : Engine × List Notice) (next : Engine → Outcome) : Outcome :=
  { next first.1 with notices := first.2 ++ (next first.1).notices }

@[simp] theorem move_ofMove (move : Engine × List Notice) : (ofMove move).move = move := rfl

@[simp]
theorem move_after (first : Engine × List Notice) (next : Engine → Outcome) :
    (after first next).move = Engine.andThen first fun e => (next e).move := rfl

end Outcome

namespace Engine

/-- Says that the engine plays, and starts the loop. If no thread can be had for that, the engine
turns idle and says so; the cursor stays where it is. -/
def play (thread : Bool) (e : Engine) : Outcome :=
  if thread then .ofMove (enter .playing { e with loop := .boundary })
  else { Outcome.ofMove (andThen (enter .playing { e with loop := .gone }) (enter .idle)) with
    answer := .noThread }

@[simp]
theorem move_play_true (e : Engine) :
    (e.play true).move = enter .playing { e with loop := .boundary } := rfl

@[simp]
theorem move_play_false (e : Engine) :
    (e.play false).move = andThen (enter .playing { e with loop := .gone }) (enter .idle) := rfl

/-- Plays from the cursor on. A paused event is given up for the one after it; if there is
none, the score is finished. A finished score has nothing left, but is said to play. -/
def start (thread : Bool) (e : Engine) : Outcome :=
  if e.state = .playing ∨ e.events = [] then { engine := e }
  else .after e.cancel fun after =>
    if e.state = .paused ∧ after.events.length ≤ after.cursor then .ofMove (after.enter .finished)
    else after.play thread

/-- Waits for a paused event to end and goes on after it. -/
def resume (thread : Bool) (e : Engine) : Outcome :=
  if e.state = .paused then
    .after e.drain fun e => if e.state = .paused then e.play thread else { engine := e }
  else { engine := e }

/-- Loads the notation of a MIDI file. Bytes that are none leave the engine as it is. -/
def importMidi (bytes : List UInt8) (keymap : Keymap) (e : Engine) : Outcome :=
  match Midi.decode bytes with
  | .error fault => { engine := e, answer := .refused fault }
  | .ok file =>
    let text := Midi.transcribe keymap file
    let (e, notices) := e.load text
    { engine := e, notices := notices, answer := .imported text }

/-- Changes the tempo so that the sequence lasts so many seconds, if it can. -/
def fit (seconds : Float) (e : Engine) : Outcome :=
  match e.settings.fitEvents? e.events seconds with
  | some settings => { engine := { e with settings := settings }, answer := .fitted true }
  | none => { engine := e, answer := .fitted false }

end Engine

def Call.perform (e : Engine) : Call → Outcome
  | load text => .ofMove (e.load text)
  | loadEvents events => .ofMove (e.loadEvents events)
  | importMidi bytes keymap => e.importMidi bytes keymap
  | start thread => e.start thread
  | pause meanwhile => .ofMove (e.pause meanwhile)
  | resume thread => e.resume thread
  | stop => .ofMove e.stop
  | wait => .ofMove e.drain
  | configure edit => { engine := e.configure edit }
  | fit seconds => e.fit seconds

end KeyScore.Player
