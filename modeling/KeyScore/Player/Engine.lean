import KeyScore.Notation.Compile
import KeyScore.Player.Key

/-!
# The playback engine

The engine holds a sequence of events, a cursor into it and the settings. While it plays, a
loop goes through the events one at a time: it announces an event, presses its keys, waits
while they are held, releases them, and waits out the gap. The settings in force when an
event is announced govern all of it.

Two kinds of moves change the engine: those of the loop (`advance`), which may come at any
time that its current wait is over, and those of the caller. Time itself is no part of the
engine; a wait is only known by its length. Every move gives the engine after it and the
notices it put out on the way.

A caller who changes the state has waited for the loop or cut it off before, and so has heard
all of it. Only a pause is made beside a loop that goes on: its change of the state and the
notice of it are two moves, and the loop may move between them.
-/

namespace KeyScore.Player

inductive State where
  | idle
  | playing
  | paused
  | finished
deriving DecidableEq, Repr

/-- What the engine makes known: a change of state, the event about to be played, or
something done to a key. -/
inductive Notice where
  | state (s : State)
  | step (index : Nat) (event : Event)
  | action (a : Action)
deriving DecidableEq, Repr

/-- Where the playback loop stands. -/
inductive Loop where
  /-- There is none, or it has come to its end. -/
  | gone
  /-- Between two events. -/
  | boundary
  /-- The event has been announced and nothing of it played. -/
  | announced (event : Event) (settings : Settings)
  /-- The keys are down for a while; the gap comes next. -/
  | holding (keys : List Char) (wait gap : Duration)
  /-- The keys are up again, and the event lasts on. -/
  | trailing (wait : Duration)
  | resting (wait : Duration)

namespace Loop

/-- How long the loop waits where it stands. -/
def wait? : Loop → Option Duration
  | holding _ wait _ | trailing wait | resting wait => some wait
  | gone | boundary | announced _ _ => none

/-- The moves left to an event in hand, and one more for looking for the next one. -/
def movesLeft : Loop → Nat
  | gone => 0
  | trailing _ | resting _ => 1
  | holding _ _ _ => 2
  | announced _ _ => 3
  | boundary => 4

end Loop

structure Engine where
  settings : Settings
  events : List Event := []
  /-- The index of the next event to be played, or of the one in hand. -/
  cursor : Nat := 0
  state : State := .idle
  loop : Loop := .gone

/-- What pressing the keys makes known. -/
def pressed (keys : List Char) : List Notice := (keys.flatMap downs).map .action

/-- What releasing the keys makes known. They are released in the order they were pressed. -/
def released (keys : List Char) : List Notice := (keys.flatMap ups).map .action

namespace Engine

/-- A move, and then another from where it led. -/
def andThen (first : Engine × List Notice) (next : Engine → Engine × List Notice) :
    Engine × List Notice :=
  ((next first.1).1, first.2 ++ (next first.1).2)

/-- Changes the state; staying in it is not worth a notice. -/
def enter (s : State) (e : Engine) : Engine × List Notice :=
  ({ e with state := s }, if e.state = s then [] else [.state s])

/-- What the loop finds at the cursor: nothing unless the engine is playing. -/
def next? (e : Engine) : Option Event :=
  if e.state = .playing then e.events[e.cursor]? else none

/-- The event in hand is over. After the last one the loop ends and the score is
finished, even if it has been paused meanwhile. -/
def conclude (e : Engine) : Engine × List Notice :=
  if e.cursor + 1 < e.events.length then
    ({ e with cursor := e.cursor + 1, loop := .boundary }, [])
  else enter .finished { e with cursor := e.cursor + 1, loop := .gone }

/-- The loop's own next move: what it does as soon as it has nothing to wait for. -/
def advance (e : Engine) : Engine × List Notice :=
  match e.loop with
  | .gone => (e, [])
  | .boundary =>
    match e.next? with
    | some event => ({ e with loop := .announced event e.settings }, [.step e.cursor event])
    | none => ({ e with loop := .gone }, [])
  | .announced (.rest units) settings =>
    ({ e with loop := .resting (settings.durationOf units) }, [])
  | .announced event settings =>
    let (hold, gap) := settings.holdAndGap event.units
    ({ e with loop := .holding event.keys hold gap }, pressed event.keys)
  | .holding keys _ gap =>
    andThen (e, released keys) fun e =>
      if gap = .zero then e.conclude else ({ e with loop := .trailing gap }, [])
  | .trailing _ | .resting _ => e.conclude

/-- No more moves than these are left to the loop while nobody interferes. -/
def movesLeft (e : Engine) : Nat := 4 * (e.events.length - e.cursor) + e.loop.movesLeft

theorem movesLeft_conclude (e : Engine) (h : 0 < e.loop.movesLeft) :
    e.conclude.1.movesLeft < e.movesLeft := by
  unfold conclude
  split
  · simp only [movesLeft, Loop.movesLeft] at *
    omega
  · simp only [enter, movesLeft, Loop.movesLeft] at *
    omega

theorem movesLeft_advance (e : Engine) (h : 0 < e.loop.movesLeft) :
    e.advance.1.movesLeft < e.movesLeft := by
  unfold advance
  split
  · simp_all [Loop.movesLeft]
  · split <;> simp_all [movesLeft, Loop.movesLeft]
  · simp_all [movesLeft, Loop.movesLeft]
  · simp_all [movesLeft, Loop.movesLeft]
  · unfold andThen
    split
    · exact movesLeft_conclude e h
    · simp_all [movesLeft, Loop.movesLeft]
  · exact movesLeft_conclude e h
  · exact movesLeft_conclude e h

/-- Lets the loop come to its end, whatever it has to wait for. -/
def drain (e : Engine) : Engine × List Notice :=
  if _h : 0 < e.loop.movesLeft then
    let move := e.advance
    let later := drain move.1
    (later.1, move.2 ++ later.2)
  else (e, [])
termination_by e.movesLeft
decreasing_by exact movesLeft_advance e _h

/-- Ends the loop where it stands. An event in hand counts as played, and its keys go down
if they have not yet and come up again. -/
def cancel (e : Engine) : Engine × List Notice :=
  let given := { e with cursor := e.cursor + 1, loop := .gone }
  match e.loop with
  | .gone | .boundary => ({ e with loop := .gone }, [])
  | .announced event _ => (given, pressed event.keys ++ released event.keys)
  | .holding keys _ _ => (given, released keys)
  | .trailing _ | .resting _ => (given, [])

/-- Puts a new sequence in the place of the old one, from its start. -/
def install (events : List Event) (e : Engine) : Engine × List Notice :=
  andThen e.cancel fun e => enter .idle { e with events := events, cursor := 0 }

/-- Compiles a text with the settings in force and installs what it plays; the settings that
the text leaves behind stay. -/
def load (text : String) (e : Engine) : Engine × List Notice :=
  let compiled := Notation.compile text e.settings
  install compiled.events { e with settings := compiled.settings }

/-- Installs a sequence as it is, but for runs of rests. -/
def loadEvents (events : List Event) (e : Engine) : Engine × List Notice :=
  install (mergeRests events) e

/-- So many moves of the loop. -/
def loopMoves : Nat → Engine → Engine × List Notice
  | 0, e => (e, [])
  | n + 1, e => andThen e.advance (loopMoves n)

/-- The first move of a pause: the state changes, and nothing is known of it yet. -/
def suspend (e : Engine) : Engine := { e with state := .paused }

/-- Stops once the event in hand is over. The loop makes so many moves between the change of the
state and the notice of it, which may find the score finished. -/
def pause (meanwhile : Nat) (e : Engine) : Engine × List Notice :=
  if e.state = .playing then
    andThen (loopMoves meanwhile e.suspend) fun e => (e, [.state .paused])
  else (e, [])

/-- Gives up at once and goes back to the first event. -/
def stop (e : Engine) : Engine × List Notice :=
  andThen e.cancel fun e => enter .idle { e with cursor := 0 }

/-- Changes the settings. An event in hand keeps those it was announced with. -/
def configure (edit : Settings → Settings) (e : Engine) : Engine :=
  { e with settings := edit e.settings }

/-- Seconds that the whole sequence lasts at the present tempo. -/
def expectedSeconds (e : Engine) : Float := e.settings.expectedSeconds e.events

end Engine

end KeyScore.Player
