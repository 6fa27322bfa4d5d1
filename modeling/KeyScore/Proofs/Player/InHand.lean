import KeyScore.Proofs.Player.Trace
import Mathlib

/-!
# The event in hand

An event is played to its end under the settings of the moment it was announced. What it takes is
known from then on: the keys that go down and come up, and the waits between them. The place of
the loop says how much of that is still ahead, and a change of the settings leaves the loop where
it stands, so it tells only on the events that are announced after it.
-/

namespace KeyScore.Player

/-- A piece of what an event takes: something done to a key, or a wait. -/
inductive Deed where
  | act (a : Action)
  | wait (length : Duration)
deriving DecidableEq, Repr

/-- The keys come up, and then there is silence if the gap lasts at all. -/
def lifting (keys : List Char) (gap : Duration) : List Deed :=
  (keys.flatMap ups).map .act ++ if gap = .zero then [] else [.wait gap]

/-- The keys go down, are held, and are lifted. -/
def striking (keys : List Char) (lengths : Duration × Duration) : List Deed :=
  (keys.flatMap downs).map .act ++ .wait lengths.1 :: lifting keys lengths.2

/-- All that an event takes under the settings it is announced with. -/
def deedsFor (s : Settings) : Event → List Deed
  | .rest units => [.wait (s.durationOf units)]
  | .press key units => striking [key] (s.holdAndGap units)
  | .chord keys units => striking keys (s.holdAndGap units)

theorem deedsFor_of_sounds (s : Settings) {event : Event} (sounds : event.isRest = false) :
    deedsFor s event = striking event.keys (s.holdAndGap event.units) := by
  cases event with
  | rest units => cases sounds
  | press key units => rfl
  | chord keys units => rfl

/-- The actions among the deeds. -/
def actionsIn (deeds : List Deed) : List Action :=
  deeds.filterMap fun
    | .act a => some a
    | .wait _ => none

@[simp]
theorem actionsIn_append (a b : List Deed) : actionsIn (a ++ b) = actionsIn a ++ actionsIn b :=
  List.filterMap_append

@[simp]
theorem actionsIn_acts (as : List Action) : actionsIn (as.map .act) = as := by
  induction as with
  | nil => rfl
  | cons a as ih => exact congrArg (a :: ·) ih

@[simp]
theorem actionsIn_wait (length : Duration) (deeds : List Deed) :
    actionsIn (.wait length :: deeds) = actionsIn deeds := rfl

theorem actionsIn_lifting (keys : List Char) (gap : Duration) :
    actionsIn (lifting keys gap) = keys.flatMap ups := by
  rw [lifting, actionsIn_append, actionsIn_acts]
  split
  · exact List.append_nil _
  · exact List.append_nil _

theorem actionsIn_striking (keys : List Char) (lengths : Duration × Duration) :
    actionsIn (striking keys lengths) = keys.flatMap downs ++ keys.flatMap ups := by
  rw [striking, actionsIn_append, actionsIn_acts, actionsIn_wait, actionsIn_lifting]

/-- Of an event the actions are the same under all settings. -/
theorem actionsIn_deedsFor (s : Settings) (event : Event) :
    actionsIn (deedsFor s event) = actionsFor event := by
  cases event with
  | rest units => rfl
  | press key units => exact actionsIn_striking [key] _
  | chord keys units => exact actionsIn_striking keys _

/-- What is still to be done for the event in hand. -/
def Loop.ahead : Loop → List Deed
  | gone | boundary => []
  | announced event settings => deedsFor settings event
  | holding keys wait gap => .wait wait :: lifting keys gap
  | trailing wait | resting wait => [.wait wait]

theorem Loop.ahead_of_not_busy {loop : Loop} (idle : loop.busy = false) : loop.ahead = [] := by
  cases loop <;> first | rfl | cases idle

namespace Engine

/-- What a move of the loop does: its wait is over, and then come the keys. -/
def loopDeed (e : Engine) : List Deed :=
  (e.loop.wait?.map .wait).toList ++ (actionsOf e.advance.2).map .act

/-- What so many moves of the loop do. -/
def loopDeeds : Nat → Engine → List Deed
  | 0, _ => []
  | n + 1, e => e.loopDeed ++ loopDeeds n e.advance.1

theorem actionsIn_loopDeed (e : Engine) : actionsIn e.loopDeed = actionsOf e.advance.2 := by
  rw [loopDeed, actionsIn_append, actionsIn_acts]
  cases e.loop.wait? with
  | none => rfl
  | some length => rfl

theorem actionsIn_loopDeeds (n : Nat) (e : Engine) :
    actionsIn (e.loopDeeds n) = actionsOf (loopMoves n e).2 := by
  induction n generalizing e with
  | zero => rfl
  | succ n ih =>
    rw [loopDeeds, loopMoves, andThen, actionsIn_append, actionsOf_append, actionsIn_loopDeed, ih]

end Engine

namespace Move

/-- What is done in a move: of the loop, its own and those made in the course of a pause, the waits
that run out and what follows; of any other call what it does to the keys. -/
def deeds (e : Engine) : Move → List Deed
  | loop => e.loopDeed
  | call (.pause meanwhile) => if e.state = .playing then e.suspend.loopDeeds meanwhile else []
  | call c => (actionsOf (c.perform e).notices).map .act

/-- The move is one of the loop. -/
def isLoop : Move → Bool
  | loop => true
  | call _ => false

/-- The move changes the settings and nothing else. -/
def edits : Move → Bool
  | call (.configure _) | call (.fit _) => true
  | _ => false

/-- The move lets the event in hand take its course: one of the loop, a pause, or an edit. -/
def lets : Move → Bool
  | loop | call (.pause _) => true
  | m => m.edits

/-- Of what is done, the actions are what is made known. -/
theorem actionsIn_deeds (e : Engine) (m : Move) :
    actionsIn (m.deeds e) = actionsOf (m.make e).2 := by
  cases m with
  | loop => exact e.actionsIn_loopDeed
  | call c =>
    cases c with
    | pause meanwhile =>
      by_cases playing : e.state = .playing
      · have done := e.suspend.actionsIn_loopDeeds meanwhile
        rw [deeds, if_pos playing, done, make, Call.perform, Outcome.move_ofMove, Engine.pause,
          if_pos playing, Engine.andThen, actionsOf_append]
        exact (List.append_nil _).symm
      · rw [deeds, if_neg playing, make, Call.perform, Outcome.move_ofMove, Engine.pause,
          if_neg playing]
        rfl
    | _ => exact actionsIn_acts _

theorem cases_of_edits {m : Move} (edits : m.edits = true) :
    (∃ edit, m = call (.configure edit)) ∨ ∃ seconds, m = call (.fit seconds) := by
  cases m with
  | loop => cases edits
  | call c =>
    cases c with
    | configure edit => exact .inl ⟨edit, rfl⟩
    | fit seconds => exact .inr ⟨seconds, rfl⟩
    | _ => cases edits

theorem cases_of_lets {m : Move} (lets : m.lets = true) :
    m = loop ∨ (∃ meanwhile, m = call (.pause meanwhile)) ∨ m.edits = true := by
  cases m with
  | loop => exact .inl rfl
  | call c =>
    cases c with
    | pause meanwhile => exact .inr (.inl ⟨meanwhile, rfl⟩)
    | configure edit => exact .inr (.inr rfl)
    | fit seconds => exact .inr (.inr rfl)
    | _ => cases lets

end Move

namespace Run

/-- All that is done in the course of the moves. -/
def deeds (r : Run) : List Move → List Deed
  | [] => []
  | m :: moves => m.deeds r.engine ++ (r.move m).deeds moves

theorem deeds_concat (r : Run) (moves : List Move) (m : Move) :
    r.deeds (moves ++ [m]) = r.deeds moves ++ m.deeds (r.follow moves).engine := by
  induction moves generalizing r with
  | nil => simp [deeds, follow]
  | cons m' moves ih =>
    simp only [List.cons_append, deeds, ih, List.append_assoc]
    rfl

end Run

namespace Engine

theorem make_of_edits (e : Engine) {m : Move} (edits : m.edits = true) :
    ∃ settings, m.make e = ({ e with settings := settings }, []) := by
  rcases Move.cases_of_edits edits with ⟨edit, rfl⟩ | ⟨seconds, rfl⟩
  · exact ⟨edit e.settings, rfl⟩
  · exact ⟨_, move_fit seconds e⟩

theorem deeds_of_edits (e : Engine) {m : Move} (edits : m.edits = true) : m.deeds e = [] := by
  obtain ⟨settings, edited⟩ := e.make_of_edits edits
  have silent : (m.make e).2 = [] := congrArg Prod.snd edited
  rcases Move.cases_of_edits edits with ⟨edit, rfl⟩ | ⟨seconds, rfl⟩
  · rfl
  · exact congrArg (fun notices => (actionsOf notices).map Deed.act) silent

/-- A move of the loop that announces nothing does the next part of what is ahead. -/
theorem ahead_advance {e : Engine} (silent : stepsOf e.advance.2 = []) :
    e.loopDeed ++ e.advance.1.loop.ahead = e.loop.ahead := by
  have step := e.advance_spec
  obtain ⟨idle, _, quiet⟩ := e.conclude_silent
  have nothing := Loop.ahead_of_not_busy idle
  simp only [loopDeed]
  generalize e.advance = move at step silent ⊢
  cases step with
  | absent place => simp [place, Loop.wait?, Loop.ahead, actionsOf]
  | ended place found => simp [place, Loop.wait?, Loop.ahead, actionsOf]
  | announced place found => cases silent
  | rested place => simp [place, Loop.wait?, Loop.ahead, deedsFor, actionsOf]
  | struck place sounds lengths =>
    simp [place, Loop.wait?, Loop.ahead, deedsFor_of_sounds _ sounds, lengths, striking, pressed]
  | lifted place long => simp [place, Loop.wait?, Loop.ahead, lifting, long, released]
  | liftedOver place =>
    rw [nothing, actionsOf_append, quiet]
    simp [place, Loop.wait?, Loop.ahead, lifting, released]
  | passed place =>
    rw [nothing, quiet]
    rcases place with place | place <;> simp [place, Loop.wait?, Loop.ahead]

/-- Until an event is over, only the place of the loop changes. -/
theorem advance_of_busy {e : Engine} (after : e.advance.1.loop.busy = true) :
    e.advance.1 = { e with loop := e.advance.1.loop } := by
  have step := e.advance_spec
  obtain ⟨idle, _, _⟩ := e.conclude_silent
  generalize e.advance = move at step after ⊢
  cases step with
  | absent place => rfl
  | ended place nothing => rfl
  | announced place found => rfl
  | rested place => rfl
  | struck place sounds lengths => rfl
  | lifted place long => rfl
  | liftedOver place =>
    rw [idle] at after
    cases after
  | passed place =>
    rw [idle] at after
    cases after

theorem loop_movesLeft_advance {e : Engine} (before : e.loop.busy = true)
    (after : e.advance.1.loop.busy = true) : e.advance.1.loop.movesLeft < e.loop.movesLeft := by
  have some_left : 0 < e.loop.movesLeft :=
    Nat.pos_of_ne_zero fun none => Loop.ne_gone_of_busy before (movesLeft_eq_zero.mp none)
  have fewer := movesLeft_advance e some_left
  rw [advance_of_busy after] at fewer
  exact Nat.lt_of_add_lt_add_left fewer

/-- A loop without an event in hand gets one only by announcing it. -/
theorem announces_of_busy {e : Engine} (before : e.loop.busy = false)
    (after : e.advance.1.loop.busy = true) :
    e.loop = .boundary ∧ ∃ event,
      e.advance = ({ e with loop := .announced event e.settings }, [.step e.cursor event]) := by
  have step := e.advance_spec
  generalize e.advance = move at step after ⊢
  cases step with
  | announced place found => exact ⟨place, _, rfl⟩
  | absent place =>
    rw [before] at after
    cases after
  | ended place nothing => cases after
  | rested place =>
    rw [place] at before
    cases before
  | struck place sounds lengths =>
    rw [place] at before
    cases before
  | lifted place long =>
    rw [place] at before
    cases before
  | liftedOver place =>
    rw [place] at before
    cases before
  | passed place => rcases place with place | place <;> rw [place] at before <;> cases before

/-- A move that goes on with the event in hand: it announces no other and does the next part of
what is ahead. -/
structure GoesOn (e : Engine) (move : Engine × List Notice) (deeds : List Deed) : Prop where
  steps : stepsOf move.2 = []
  ahead : deeds ++ move.1.loop.ahead = e.loop.ahead
  stays : move.1.loop.busy = true → e.loop.busy = true ∧ move.1.cursor = e.cursor ∧
    move.1.loop.movesLeft ≤ e.loop.movesLeft

namespace GoesOn

variable {e : Engine}

/-- A move that has nothing to do with the event in hand. -/
theorem of_same {move : Engine × List Notice} (loop : move.1.loop = e.loop)
    (cursor : move.1.cursor = e.cursor) (steps : stepsOf move.2 = []) : e.GoesOn move [] where
  steps := steps
  ahead := congrArg Loop.ahead loop
  stays busy := ⟨loop ▸ busy, cursor, Nat.le_of_eq (congrArg Loop.movesLeft loop)⟩

theorem andThen {move : Engine × List Notice} {next : Engine → Engine × List Notice}
    {deeds others : List Deed} (first : e.GoesOn move deeds)
    (second : move.1.GoesOn (next move.1) others) :
    e.GoesOn (andThen move next) (deeds ++ others) where
  steps := by rw [Engine.andThen, stepsOf_append, first.steps, second.steps]; rfl
  ahead := by rw [List.append_assoc, ← first.ahead, ← second.ahead]; rfl
  stays busy := by
    obtain ⟨between, there, fewer⟩ := second.stays busy
    obtain ⟨before, here, few⟩ := first.stays between
    exact ⟨before, there.trans here, fewer.trans few⟩

theorem advance (silent : stepsOf e.advance.2 = []) : e.GoesOn e.advance e.loopDeed where
  steps := silent
  ahead := ahead_advance silent
  stays after := by
    have before : e.loop.busy = true := by
      by_contra idle
      obtain ⟨_, event, announced⟩ := announces_of_busy (by simpa using idle) after
      rw [announced] at silent
      cases silent
    refine ⟨before, ?_, (loop_movesLeft_advance before after).le⟩
    rw [advance_of_busy after]

/-- A loop that is not to play on has only the event in hand to go on with. -/
theorem loopMoves (still : e.state ≠ .playing) (n : Nat) :
    e.GoesOn (loopMoves n e) (e.loopDeeds n) := by
  induction n generalizing e with
  | zero => exact of_same rfl rfl rfl
  | succ n ih =>
    exact (advance (stepsOf_advance_of_still still)).andThen (ih (e.state_advance still))

theorem pause (meanwhile : Nat) (e : Engine) :
    e.GoesOn (e.pause meanwhile) ((Move.call (.pause meanwhile)).deeds e) := by
  by_cases playing : e.state = .playing
  · rw [Engine.pause, if_pos playing, Move.deeds, if_pos playing]
    have moved : e.suspend.GoesOn _ _ := loopMoves (by simp [suspend]) meanwhile
    exact ⟨by rw [Engine.andThen, stepsOf_append, moved.steps]; rfl, moved.ahead, moved.stays⟩
  · rw [Engine.pause, if_neg playing, Move.deeds, if_neg playing]
    exact of_same rfl rfl rfl

theorem of_edits (e : Engine) {m : Move} (edits : m.edits = true) :
    e.GoesOn (m.make e) (m.deeds e) := by
  obtain ⟨settings, edited⟩ := e.make_of_edits edits
  rw [edited, deeds_of_edits e edits]
  exact of_same rfl rfl rfl

/-- A call after which an event is in hand goes on with it. -/
theorem of_busy {c : Call} (busy : ((Move.call c).make e).1.loop.busy = true) :
    e.GoesOn ((Move.call c).make e) ((Move.call c).deeds e) := by
  have gives_up (idle : ((Move.call c).make e).1.loop.busy = false) :
      e.GoesOn ((Move.call c).make e) ((Move.call c).deeds e) := by
    rw [busy] at idle
    cases idle
  have rewound (back : c.rewinds = true) : ((Move.call c).make e).1.loop.busy = false := by
    obtain ⟨settings, events, installed⟩ := e.make_rewinds (m := .call c) back
    rw [installed, install_engine]
    rfl
  obtain ⟨_, _, drained⟩ := e.drain_eq_loopMoves
  cases c with
  | load text => exact gives_up (rewound rfl)
  | loadEvents events => exact gives_up (rewound rfl)
  | stop => exact gives_up (rewound rfl)
  | importMidi bytes keymap =>
    cases back : (Midi.decode bytes).isOk with
    | true => exact gives_up (rewound back)
    | false =>
      have refused := e.make_of_refused keymap back
      have silent : ((Move.call (.importMidi bytes keymap)).make e).2 = [] :=
        congrArg Prod.snd refused
      have nothing : (Move.call (.importMidi bytes keymap)).deeds e = [] :=
        congrArg (fun notices => (actionsOf notices).map Deed.act) silent
      rw [refused, nothing]
      exact of_same rfl rfl rfl
  | wait => exact gives_up (congrArg Loop.busy drained)
  | start thread =>
    by_cases refused : e.state = .playing ∨ e.events = []
    · simp only [Move.make, Move.deeds, Call.perform, start, if_pos refused]
      exact of_same rfl rfl rfl
    · exact gives_up (busy_start refused thread)
  | resume thread =>
    by_cases paused : e.state = .paused
    · exact gives_up (busy_resume paused thread)
    · simp only [Move.make, Move.deeds, Call.perform, resume, if_neg paused]
      exact of_same rfl rfl rfl
  | pause meanwhile => exact pause meanwhile e
  | configure edit => exact of_edits e rfl
  | fit seconds => exact of_edits e rfl

/-- A move that leaves an event in hand, and announces none where there is one, goes on with it. -/
theorem make {m : Move} (before : e.loop.busy = true) (after : (m.make e).1.loop.busy = true) :
    e.GoesOn (m.make e) (m.deeds e) := by
  cases m with
  | loop => exact advance (stepsOf_advance before)
  | call c => exact of_busy after

end GoesOn

end Engine

namespace Run

/-- The event that a run has in hand: the loop announced it as its next move after `start`, and the
moves `later` have done a part of what it takes under the settings of that moment. -/
structure InHand (start : Run) (later : List Move) (event : Event) : Prop where
  announced : Move.loop.make start.engine =
    ({ start.engine with loop := .announced event start.engine.settings },
      [.step start.engine.cursor event])
  cursor : (start.follow (.loop :: later)).engine.cursor = start.engine.cursor
  steps : stepsOf (start.follow (.loop :: later)).log =
    stepsOf start.log ++ [(start.engine.cursor, event)]
  deeds : start.deeds (.loop :: later) ++ (start.follow (.loop :: later)).engine.loop.ahead =
    deedsFor start.engine.settings event

theorem inHand_of_announced {r : Run} {m : Move} (before : r.engine.loop.busy = false)
    (after : (r.move m).engine.loop.busy = true) : m = .loop ∧ ∃ event, r.InHand [] event := by
  cases m with
  | call c =>
    obtain ⟨busy, _⟩ := (Engine.GoesOn.of_busy after).stays after
    rw [before] at busy
    cases busy
  | loop =>
    obtain ⟨place, event, announced⟩ := Engine.announces_of_busy before after
    have moved : r.follow [.loop] = r.move .loop := rfl
    refine ⟨rfl, event, announced, ?_, ?_, ?_⟩
    · simp only [moved, move, Move.make, announced]
    · simp [moved, move, Move.make, announced, stepsOf]
    · simp [moved, move, Move.make, announced, Run.deeds, Move.deeds, Engine.loopDeed, place,
        Loop.wait?, Loop.ahead, actionsOf]

/-- While the event is in hand, each move does a part of what it takes. -/
theorem InHand.concat {start : Run} {later : List Move} {event : Event}
    (inHand : start.InHand later event) {m : Move}
    (before : (start.follow (.loop :: later)).engine.loop.busy = true)
    (after : ((start.follow (.loop :: later)).move m).engine.loop.busy = true) :
    start.InHand (later ++ [m]) event := by
  have goes_on := Engine.GoesOn.make before after
  obtain ⟨_, cursor, _⟩ := goes_on.stays after
  have moved : start.follow (.loop :: (later ++ [m])) = (start.follow (.loop :: later)).move m :=
    follow_append start (.loop :: later) [m]
  refine ⟨inHand.announced, ?_, ?_, ?_⟩
  · rw [moved]
    exact cursor.trans inHand.cursor
  · rw [moved, move, stepsOf_append, goes_on.steps, List.append_nil]
    exact inHand.steps
  · have done := deeds_concat start (.loop :: later) m
    rw [List.cons_append] at done
    rw [moved, done, List.append_assoc, ← inHand.deeds, ← goes_on.ahead]
    rfl

theorem exists_inHand (settings : Settings) (history : List Move)
    (busy : ((ofSettings settings).follow history).engine.loop.busy = true) :
    ∃ before later event, history = before ++ .loop :: later ∧
      ((ofSettings settings).follow before).InHand later event := by
  induction history using List.reverseRecOn with
  | nil => cases busy
  | append_singleton history m ih =>
    rw [follow_append] at busy
    cases still : ((ofSettings settings).follow history).engine.loop.busy with
    | false =>
      obtain ⟨rfl, event, inHand⟩ := inHand_of_announced still busy
      exact ⟨history, [], event, rfl, inHand⟩
    | true =>
      obtain ⟨before, later, event, split, inHand⟩ := ih still
      rw [split, follow_append] at still busy
      refine ⟨before, later ++ [m], event, ?_, inHand.concat still busy⟩
      rw [split, List.append_assoc, List.cons_append]

end Run

namespace Engine

/-- The engine with other settings. -/
def tuned (s : Settings) (e : Engine) : Engine := { e with settings := s }

theorem conclude_tuned (s : Settings) (e : Engine) :
    (e.tuned s).conclude = (e.conclude.1.tuned s, e.conclude.2) := by
  by_cases more : e.cursor + 1 < e.events.length
  · rw [conclude_of_lt more]
    exact conclude_of_lt (e := e.tuned s) more
  · rw [conclude_of_not_lt more]
    exact conclude_of_not_lt (e := e.tuned s) more

/-- The settings are looked at only when an event is announced. -/
theorem advance_tuned (s : Settings) {e : Engine} (silent : stepsOf e.advance.2 = []) :
    (e.tuned s).advance = (e.advance.1.tuned s, e.advance.2) := by
  have here : (e.tuned s).loop = e.loop := rfl
  have next : (e.tuned s).next? = e.next? := rfl
  cases place : e.loop with
  | gone => simp only [advance, here, place]
  | boundary =>
    cases found : e.next? with
    | none =>
      simp only [advance, here, place, next, found]
      rfl
    | some event => simp [advance, place, found, stepsOf] at silent
  | announced event settings =>
    cases event <;> simp only [advance, here, place] <;> rfl
  | holding keys wait gap =>
    by_cases short : gap = .zero
    · simp only [advance, here, place, andThen, if_pos short, conclude_tuned]
    · simp only [advance, here, place, andThen, if_neg short]
      rfl
  | trailing wait => simp only [advance, here, place, conclude_tuned]
  | resting wait => simp only [advance, here, place, conclude_tuned]

theorem loopDeed_tuned (s : Settings) {e : Engine} (silent : stepsOf e.advance.2 = []) :
    (e.tuned s).loopDeed = e.loopDeed := by
  rw [loopDeed, loopDeed, advance_tuned s silent]
  rfl

theorem loopMoves_tuned (s : Settings) {e : Engine} (still : e.state ≠ .playing) (n : Nat) :
    loopMoves n (e.tuned s) = ((loopMoves n e).1.tuned s, (loopMoves n e).2) ∧
      loopDeeds n (e.tuned s) = loopDeeds n e := by
  induction n generalizing e with
  | zero => exact ⟨rfl, rfl⟩
  | succ n ih =>
    have silent := stepsOf_advance_of_still still
    obtain ⟨moves, deeds⟩ := ih (e.state_advance still)
    constructor
    · simp only [loopMoves, andThen, advance_tuned s silent, moves]
    · simp only [loopDeeds, loopDeed_tuned s silent, advance_tuned s silent, deeds]

/-- What lets the event in hand take its course looks at no settings, and so does the loop
meanwhile. -/
theorem make_tuned (s : Settings) {e : Engine} {m : Move} (lets : m.lets = true)
    (keeps : m.edits = false) (silent : stepsOf (m.make e).2 = []) :
    m.make (e.tuned s) = ((m.make e).1.tuned s, (m.make e).2) ∧
      m.deeds (e.tuned s) = m.deeds e := by
  rcases Move.cases_of_lets lets with rfl | ⟨meanwhile, rfl⟩ | edits
  · exact ⟨advance_tuned s silent, loopDeed_tuned s silent⟩
  · have same : (e.tuned s).state = e.state := rfl
    simp only [Move.make, Move.deeds, Call.perform, Outcome.move_ofMove, pause, same]
    by_cases playing : e.state = .playing
    · obtain ⟨moves, deeds⟩ := loopMoves_tuned s (e := e.suspend) (by simp [suspend]) meanwhile
      have suspended : (e.tuned s).suspend = e.suspend.tuned s := rfl
      simp only [if_pos playing, andThen, suspended, moves, deeds, and_self]
    · simp only [if_neg playing, and_self]
  · rw [keeps] at edits
    cases edits

theorem GoesOn.of_lets {e : Engine} {m : Move} (lets : m.lets = true)
    (silent : stepsOf (m.make e).2 = []) : e.GoesOn (m.make e) (m.deeds e) := by
  rcases Move.cases_of_lets lets with rfl | ⟨meanwhile, rfl⟩ | edits
  · exact advance silent
  · exact pause meanwhile e
  · exact of_edits e edits

end Engine

/-- Calls that give up the event in hand, made in this state: those that rewind, and a start that
ends a pause. -/
def Call.cutsOff (state : State) : Call → Prop
  | start _ => state = .paused
  | c => c.rewinds = true

namespace Engine

theorem actionsOf_cancel (e : Engine) : actionsOf e.cancel.2 = actionsIn e.loop.ahead := by
  unfold cancel
  cases place : e.loop with
  | gone => rfl
  | boundary => rfl
  | announced event settings =>
    simp [Loop.ahead, actionsIn_deedsFor, actionsFor, pressed, released]
  | holding keys wait gap => simp [Loop.ahead, actionsIn_lifting, released]
  | trailing wait => rfl
  | resting wait => rfl

/-- An event that is given up still gets all that is to be done to the keys, and no wait. -/
theorem actionsOf_cutsOff {e : Engine} (sound : e.Sound) {c : Call} (cuts : c.cutsOff e.state) :
    actionsOf ((Move.call c).make e).2 = actionsIn e.loop.ahead := by
  have rewound (back : c.rewinds = true) :
      actionsOf ((Move.call c).make e).2 = actionsIn e.loop.ahead := by
    obtain ⟨settings, events, installed⟩ := e.make_rewinds (m := .call c) back
    rw [installed, actionsOf_install, actionsOf_cancel]
  cases c with
  | start thread =>
    have started := e.start_spec thread
    simp only [Move.make, Call.perform]
    generalize e.start thread = outcome at started ⊢
    cases started with
    | refused none => exact absurd none (sound.startable cuts)
    | exhausted some_events paused last => simp [andThen, actionsOf_cancel]
    | played some_events still => cases thread <;> simp [andThen, actionsOf_cancel]
  | _ => exact rewound cuts

end Engine

namespace Run

/-- The run as it would be with other settings now. -/
def tuned (s : Settings) (r : Run) : Run := { r with engine := r.engine.tuned s }

/-- The moves let the event in hand take its course, and no other is announced. -/
def StaysWith (r : Run) (moves : List Move) : Prop :=
  (∀ m ∈ moves, m.lets = true) ∧ stepsOf (r.follow moves).log = stepsOf r.log

theorem steps_follow_prefix (r : Run) (moves : List Move) :
    stepsOf r.log <+: stepsOf (r.follow moves).log := by
  induction moves generalizing r with
  | nil => exact List.prefix_rfl
  | cons m moves ih =>
    have first : stepsOf r.log <+: stepsOf (r.move m).log := by
      rw [move, stepsOf_append]
      exact List.prefix_append _ _
    exact first.trans (ih (r.move m))

theorem StaysWith.cons {r : Run} {m : Move} {moves : List Move} (stays : r.StaysWith (m :: moves)) :
    m.lets = true ∧ stepsOf (m.make r.engine).2 = [] ∧ (r.move m).StaysWith moves := by
  obtain ⟨lets, silent⟩ := stays
  obtain ⟨first, others⟩ := List.forall_mem_cons.mp lets
  have moved : stepsOf (r.move m).log = stepsOf r.log ++ stepsOf (m.make r.engine).2 :=
    stepsOf_append _ _
  have later := steps_follow_prefix (r.move m) moves
  rw [← follow_cons, silent, moved] at later
  have none : stepsOf (m.make r.engine).2 = [] :=
    List.append_right_eq_self.mp (later.eq_of_length_le (by simp))
  refine ⟨first, none, others, ?_⟩
  rw [moved, none, List.append_nil]
  exact silent

theorem ahead_follow {r : Run} {moves : List Move} (stays : r.StaysWith moves) :
    r.deeds moves ++ (r.follow moves).engine.loop.ahead = r.engine.loop.ahead := by
  induction moves generalizing r with
  | nil => rfl
  | cons m moves ih =>
    obtain ⟨lets, silent, later⟩ := stays.cons
    have first := (Engine.GoesOn.of_lets lets silent).ahead
    rw [deeds, List.append_assoc, ← first]
    exact congrArg (m.deeds r.engine ++ ·) (ih later)

theorem tuned_move_of_edits (s : Settings) (r : Run) {m : Move} (edits : m.edits = true) :
    (r.move m).tuned s = r.tuned s ∧ m.deeds r.engine = [] := by
  obtain ⟨settings, edited⟩ := r.engine.make_of_edits edits
  have onward : m.rewinds = false := by
    rcases Move.cases_of_edits edits with ⟨edit, rfl⟩ | ⟨seconds, rfl⟩
    · rfl
    · rfl
  constructor
  · simp [tuned, move, edited, onward, Engine.tuned]
  · exact Engine.deeds_of_edits r.engine edits

theorem tuned_move (s : Settings) {r : Run} {m : Move} (lets : m.lets = true)
    (keeps : m.edits = false) (silent : stepsOf (m.make r.engine).2 = []) :
    (r.tuned s).move m = (r.move m).tuned s ∧ m.deeds (r.tuned s).engine = m.deeds r.engine := by
  obtain ⟨made, deeds⟩ := Engine.make_tuned s lets keeps silent
  constructor
  · simp only [tuned, move, made]
  · exact deeds

/-- Without its edits a stretch of moves does the same, under the settings it started with. -/
theorem follow_tuned {r : Run} {moves : List Move} (stays : r.StaysWith moves) (s : Settings) :
    (r.tuned s).follow (moves.filter (!·.edits)) = (r.follow moves).tuned s ∧
      (r.tuned s).deeds (moves.filter (!·.edits)) = r.deeds moves := by
  induction moves generalizing r with
  | nil => exact ⟨rfl, rfl⟩
  | cons m moves ih =>
    obtain ⟨lets, silent, later⟩ := stays.cons
    obtain ⟨follows, does⟩ := ih later
    cases edits : m.edits with
    | true =>
      obtain ⟨same, nothing⟩ := tuned_move_of_edits s r edits
      rw [List.filter_cons_of_neg (by simp [edits]), ← same, deeds, nothing]
      exact ⟨follows, does⟩
    | false =>
      obtain ⟨same, part⟩ := tuned_move s lets edits silent
      rw [List.filter_cons_of_pos (by simp [edits]), follow_cons, deeds, deeds, part, same, does]
      exact ⟨follows, rfl⟩

/-- An event in hand at the end has been in hand all along. -/
theorem busy_of_follow {r : Run} {moves : List Move} (stays : r.StaysWith moves)
    (busy : (r.follow moves).engine.loop.busy = true) : r.engine.loop.busy = true := by
  induction moves generalizing r with
  | nil => exact busy
  | cons m moves ih =>
    obtain ⟨_, silent, later⟩ := stays.cons
    by_contra idle
    rw [Bool.not_eq_true] at idle
    obtain ⟨rfl, event, inHand⟩ := inHand_of_announced idle (ih later busy)
    rw [inHand.announced] at silent
    cases silent

/-- An event lasts no more moves of the loop than are left to it. -/
theorem movesLeft_follow {r : Run} {moves : List Move} (stays : r.StaysWith moves)
    (busy : (r.follow moves).engine.loop.busy = true) :
    (r.follow moves).engine.loop.movesLeft + moves.countP Move.isLoop ≤
      r.engine.loop.movesLeft := by
  induction moves generalizing r with
  | nil => exact Nat.le_refl _
  | cons m moves ih =>
    obtain ⟨_, _, later⟩ := stays.cons
    have rest := ih later busy
    have before := busy_of_follow stays busy
    have after := busy_of_follow later busy
    cases m with
    | loop =>
      have fewer := Engine.loop_movesLeft_advance before after
      rw [List.countP_cons_of_pos rfl, follow_cons, ← Nat.add_assoc]
      exact Nat.le_trans (Nat.succ_le_succ rest) fewer
    | call c =>
      obtain ⟨_, _, fewer⟩ := (Engine.GoesOn.of_busy after).stays after
      rw [List.countP_cons_of_neg (by simp [Move.isLoop]), follow_cons]
      exact Nat.le_trans rest fewer

theorem deeds_of_movesLeft {r : Run} {moves : List Move} (stays : r.StaysWith moves)
    (enough : r.engine.loop.movesLeft ≤ moves.countP Move.isLoop) :
    r.deeds moves = r.engine.loop.ahead := by
  have idle : (r.follow moves).engine.loop.busy = false := by
    by_contra busy
    rw [Bool.not_eq_false] at busy
    have le := movesLeft_follow stays busy
    have here := Loop.ne_gone_of_busy busy
    exact here (Engine.movesLeft_eq_zero.mp (by omega))
  have all := ahead_follow stays
  rw [Loop.ahead_of_not_busy idle, List.append_nil] at all
  exact all

end Run

/-- Calls that wait for the loop to come to its end, made in this state. -/
def Call.waits (state : State) : Call → Prop
  | wait => True
  | resume _ => state = .paused
  | _ => False

namespace Run

theorem follow_loops (n : Nat) (r : Run) :
    r.follow (List.replicate n .loop) =
      { engine := (Engine.loopMoves n r.engine).1
        log := r.log ++ (Engine.loopMoves n r.engine).2
        recent := r.recent ++ (Engine.loopMoves n r.engine).2 } := by
  induction n generalizing r with
  | zero => simp [follow, Engine.loopMoves]
  | succ n ih =>
    rw [List.replicate_succ, follow_cons, ih]
    simp [move, Move.make, Move.rewinds, Engine.loopMoves, Engine.andThen]

/-- A call that waits for the loop is one made after the moves that it waits for. -/
theorem move_of_waits {r : Run} {c : Call} (waits : c.waits r.engine.state) :
    ∃ n, (r.follow (List.replicate n .loop)).engine.loop = .gone ∧
      r.move (.call c) = (r.follow (List.replicate n .loop)).move (.call c) := by
  obtain ⟨n, moves, gone⟩ := r.engine.drain_eq_loopMoves
  have rested := Engine.drain_of_gone gone
  refine ⟨n, ?_⟩
  rw [follow_loops, ← moves]
  refine ⟨gone, ?_⟩
  cases c with
  | wait => simp [move, Move.make, Move.rewinds, Call.rewinds, Call.perform, rested]
  | resume thread =>
    have paused : r.engine.state = .paused := waits
    -- by then the last event may be over, and with it the pause
    by_cases still : r.engine.drain.1.state = .paused
    · simp [move, Move.make, Move.rewinds, Call.rewinds, Call.perform, Outcome.move, Outcome.after,
        rested, Engine.resume, paused, still]
    · simp [move, Move.make, Move.rewinds, Call.rewinds, Call.perform, Outcome.move, Outcome.after,
        Engine.resume, paused, still]
  | _ => exact waits.elim

end Run

/-- Whatever an event takes is settled when it is announced, by the settings of that moment: what
has been done for the event in hand and what is ahead of it make up the whole. What is ahead is
done as it would be without any edits that come in between, which change the settings and nothing
else, and a call that gives the event up does what is ahead to the keys. Calls that wait for the
loop are made after the moves they wait for, so all of this holds of those moves too. -/
theorem event_in_hand_keeps_its_settings (settings : Settings) (history : List Move) :
    let run := (Run.ofSettings settings).follow history
    (run.engine.loop.busy = true → ∃ before later event, history = before ++ .loop :: later ∧
      ((Run.ofSettings settings).follow before).InHand later event) ∧
    (∀ moves, run.StaysWith moves →
      let plain := moves.filter (!·.edits)
      run.deeds moves ++ (run.follow moves).engine.loop.ahead = run.engine.loop.ahead ∧
      run.deeds plain = run.deeds moves ∧
      run.follow plain = (run.follow moves).tuned run.engine.settings ∧
      (run.engine.loop.movesLeft ≤ moves.countP Move.isLoop →
        run.deeds moves = run.engine.loop.ahead)) ∧
    (∀ c : Call, c.cutsOff run.engine.state →
      actionsOf ((Move.call c).make run.engine).2 = actionsIn run.engine.loop.ahead) ∧
    (∀ c : Call, c.waits run.engine.state →
      ∃ n, (run.follow (List.replicate n .loop)).engine.loop = .gone ∧
        run.move (.call c) = (run.follow (List.replicate n .loop)).move (.call c)) := by
  intro run
  have sound : run.engine.Sound := (Run.faithful settings history).sound
  refine ⟨Run.exists_inHand settings history, ?_, ?_, fun c => Run.move_of_waits⟩
  · intro moves stays plain
    obtain ⟨follows, does⟩ := Run.follow_tuned stays run.engine.settings
    exact ⟨Run.ahead_follow stays, does, follows, Run.deeds_of_movesLeft stays⟩
  · intro c cuts
    exact Engine.actionsOf_cutsOff sound cuts

/-- A capital of a quarter of a second, with the settings changed before its keys go down, while
they are down and in the gap. -/
theorem retuned_while_held :
    let history : List Move := [.call (.loadEvents [.press 'A' 2, .rest 1]), .call .start, .loop,
      .call (.configure (Settings.setHold 0.25)), .loop]
    let moves : List Move := [.call (.fit 60.0), .loop, .call (.configure (Settings.setBpm 30.0)),
      .call .pause, .loop]
    let run := (Run.ofSettings .initial).follow history
    (∃ before later event, history = before ++ .loop :: later ∧
      ((Run.ofSettings .initial).follow before).InHand later event) ∧
    run.deeds moves = [.wait ⟨225000000⟩, .act (.up (.char 'a')), .act (.up .shift),
      .wait ⟨25000000⟩] ∧
    actionsOf ((Move.call .stop).make run.engine).2 = [.up (.char 'a'), .up .shift] ∧
    ∃ n, run.move (.call .wait) = (run.follow (List.replicate n .loop)).move (.call .wait) := by
  intro history moves run
  obtain ⟨announced, courses, given_up, waited⟩ := event_in_hand_keeps_its_settings .initial history
  have stays : run.StaysWith moves := ⟨by simp [moves, Move.lets, Move.edits], by decide +kernel⟩
  have ahead : run.engine.loop.ahead = [.wait ⟨225000000⟩, .act (.up (.char 'a')),
      .act (.up .shift), .wait ⟨25000000⟩] := by decide +kernel
  obtain ⟨_, _, _, whole⟩ := courses moves stays
  obtain ⟨n, _, same⟩ := waited .wait trivial
  refine ⟨announced rfl, ?_, ?_, n, same⟩
  · exact (whole (by decide +kernel)).trans ahead
  · exact (given_up .stop rfl).trans (congrArg actionsIn ahead)

end KeyScore.Player
