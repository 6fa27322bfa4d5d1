import KeyScore.Keymap.Document
import KeyScore.Player.Call

/-!
# Sessions without a clock

A session runs an engine by a script. After each instruction the loop goes on as far as it
can: short waits pass at once, and a wait longer than the session's patience lasts until
something ends it. A gate holds the loop up once, when a given event is announced and
before its keys go down. Calls that need the loop to move let it go on first.
-/

namespace KeyScore.Player

/-- The longest wait that passes at once, one second. -/
def patience : Duration := ⟨Duration.perSecond⟩

inductive Instruction where
  | call (c : Call)
  /-- Imports with the key map of a document, which is read first. -/
  | importWith (bytes : List UInt8) (document : Option String)
  /-- Holds the loop up when it announces the event of this index, once. -/
  | gate (index : Nat)
  /-- Lets a loop that is held up go on. -/
  | release
  /-- Empties the recorder. -/
  | clear
  /-- Only looks. -/
  | look

structure Session where
  engine : Engine
  recorder : Recorder := {}
  gate : Option Nat := none
  /-- The loop is held up by a gate. -/
  parked : Bool := false

/-- What an instruction comes to: the answer of a call, or a key map that is refused before
there is one. -/
inductive Result where
  | answer (a : Answer)
  | badKeymap (fault : DocumentFault)

/-- What a session shows after an instruction. -/
structure Report where
  result : Result
  /-- What the engine has made known since the last report. -/
  notices : List Notice
  engine : Engine
  held : List Key

/-- The presses and releases among the notices. -/
def actionsOf (notices : List Notice) : List Action :=
  notices.filterMap fun
    | .action a => some a
    | _ => none

namespace Session

def ofSettings (settings : Settings) : Session := { engine := { settings := settings } }

/-- The loop can move without outside help. -/
def Ready (s : Session) : Prop :=
  s.parked = false ∧ 0 < s.engine.loop.movesLeft ∧
    ∀ wait ∈ s.engine.loop.wait?, wait.nanoseconds ≤ patience.nanoseconds

instance (s : Session) : Decidable s.Ready := by
  unfold Ready
  cases h : s.engine.loop.wait? <;> simp only [Option.mem_def] <;> infer_instance

/-- The session after the loop's next move. -/
def moved (s : Session) (e : Engine) : Session :=
  match e.loop with
  | .announced _ _ =>
    if s.gate = some e.cursor then { s with engine := e, gate := none, parked := true }
    else { s with engine := e }
  | _ => { s with engine := e }

@[simp]
theorem engine_moved (s : Session) (e : Engine) : (s.moved e).engine = e := by
  unfold moved
  split
  · split <;> rfl
  · rfl

/-- Lets the loop go on as far as it can. -/
def settle (s : Session) : Session × List Notice :=
  if _h : s.Ready then
    let move := s.engine.advance
    let later := settle (s.moved move.1)
    (later.1, move.2 ++ later.2)
  else (s, [])
termination_by s.engine.movesLeft
decreasing_by
  rw [engine_moved]
  exact Engine.movesLeft_advance s.engine _h.2.1

/-- Whether a call lets a loop that is held up go on; those that only set something leave it
where it is. -/
def frees : Call → Bool
  | .pause _ | .configure _ | .fit _ => false
  | _ => true

/-- The session right after a call, what was made known meanwhile, and the answer. -/
def call (s : Session) (c : Call) : Session × List Notice × Result :=
  let outcome := c.perform s.engine
  ({ s with engine := outcome.engine, parked := s.parked && !frees c },
    outcome.notices, .answer outcome.answer)

/-- The session right after an instruction, what was made known meanwhile, and the result. -/
def perform (s : Session) : Instruction → Session × List Notice × Result
  | .call c => s.call c
  | .importWith bytes document =>
    match Keymap.ofDocument? document with
    | .ok keymap => s.call (.importMidi bytes keymap)
    | .error fault => ({ s with parked := false }, [], .badKeymap fault)
  | .gate index => ({ s with gate := some index }, [], .answer .done)
  | .release => ({ s with parked := false }, [], .answer .done)
  | .clear => ({ s with recorder := s.recorder.clear }, [], .answer .done)
  | .look => (s, [], .answer .done)

/-- Adds the presses and releases among the notices to the recorder. -/
def recording (notices : List Notice) (s : Session) : Session :=
  { s with recorder := (actionsOf notices).foldl Recorder.record s.recorder }

/-- An instruction and everything that follows from it. -/
def follow (s : Session) (i : Instruction) : Session × Report :=
  let (s, first, result) := s.perform i
  let (s, more) := s.settle
  let s := s.recording (first ++ more)
  (s, ⟨result, first ++ more, s.engine, s.recorder.heldKeys⟩)

/-- Puts the engine away, which ends its loop. -/
def finish (s : Session) : Report :=
  let (e, notices) := s.engine.cancel
  let s := { s with engine := e }.recording notices
  ⟨.answer .done, notices, e, s.recorder.heldKeys⟩

/-- The reports of a script, and the one of the end. -/
def run (s : Session) : List Instruction → List Report × Report
  | [] => ([], s.finish)
  | i :: script =>
    let (s, report) := s.follow i
    let (reports, last) := s.run script
    (report :: reports, last)

end Session

end KeyScore.Player
