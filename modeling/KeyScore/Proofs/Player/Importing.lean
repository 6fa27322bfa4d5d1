import KeyScore.Proofs.Player.Forgetting

/-!
# Imports

An import is all or nothing. Bytes that hold no MIDI file are refused, and nothing comes of that:
the loop goes on with the event in hand, and no call that follows can find out that there was an
import. An import that succeeds is a load of the notation of the file. So every history is like
one in which nothing is imported.
-/

namespace KeyScore.Player

/-- What a move comes to if nothing is imported: a refused import to nothing at all, any other one
to loading the notation of its file. -/
def Move.withoutImport? : Move → Option Move
  | call (.importMidi bytes keymap) =>
    (Midi.decode bytes).toOption.map fun file => call (.load (Midi.transcribe keymap file))
  | m => some m

/-- What is left of a reply if nothing is imported. -/
def Reply.withoutImport? (r : Reply) : Option Reply :=
  match r.answer with
  | .refused _ => none
  | .imported _ => some { r with answer := .done }
  | .done | .fitted _ | .noThread => some r

namespace Move

section Import

variable {bytes : List UInt8} (keymap : Keymap) (e : Engine)

theorem importing_of_error {fault : Midi.Fault} (failed : Midi.decode bytes = .error fault) :
    let m := call (.importMidi bytes keymap)
    m.make e = (e, []) ∧ m.answer e = .refused fault ∧ m.rewinds = false := by
  intro m
  have performed : e.importMidi bytes keymap = { engine := e, answer := .refused fault } := by
    simp only [Engine.importMidi, failed]
  refine ⟨?_, ?_, ?_⟩
  · rw [make, Call.perform, performed]
    rfl
  · rw [answer, Call.perform, performed]
  · rw [rewinds, Call.rewinds, failed]
    rfl

theorem importing_of_ok {file : Midi.File} (decoded : Midi.decode bytes = .ok file) :
    let m := call (.importMidi bytes keymap)
    let text := Midi.transcribe keymap file
    m.make e = (call (.load text)).make e ∧ m.answer e = .imported text ∧ m.rewinds = true := by
  intro m text
  have performed : e.importMidi bytes keymap =
      { engine := (e.load text).1, notices := (e.load text).2, answer := .imported text } := by
    simp only [Engine.importMidi, decoded, text]
  refine ⟨?_, ?_, ?_⟩
  · rw [make, Call.perform, performed]
    rfl
  · rw [answer, Call.perform, performed]
  · rw [rewinds, Call.rewinds, decoded]
    rfl

/-- A second track that breaks off behind a good one. -/
example : Midi.decode [0x4D, 0x54, 0x68, 0x64, 0, 0, 0, 6, 0, 1, 0, 2, 0, 96,
    0x4D, 0x54, 0x72, 0x6B, 0, 0, 0, 4, 0, 0x90, 60, 100,
    0x4D, 0x54, 0x72, 0x6B, 0, 0, 0, 4, 0, 0x90, 60] = .error .endOfData := by
  cbv

end Import

/-- What answers is said of no import. -/
theorem withoutImport?_reply {e : Engine} {m : Move}
    (plain : m.answer e = .done ∨ m.answer e = .noThread) :
    (m.reply e).withoutImport? = some (m.reply e) := by
  rcases plain with done | failed
  · rw [Reply.withoutImport?, reply, done]
  · rw [Reply.withoutImport?, reply, failed]

/-- All that a move can come to. -/
inductive ComesTo (e : Engine) (m : Move) : Prop
  | nothing (plain : m.withoutImport? = none) (rewinds : m.rewinds = false)
      (made : m.make e = (e, [])) (reply : (m.reply e).withoutImport? = none)
  | load {text : String} (plain : m.withoutImport? = some (call (.load text)))
      (rewinds : m.rewinds = true) (made : m.make e = (call (.load text)).make e)
      (reply : (m.reply e).withoutImport? = some ((call (.load text)).reply e))
  | itself (plain : m.withoutImport? = some m)
      (reply : (m.reply e).withoutImport? = some (m.reply e))

theorem comesTo (e : Engine) (m : Move) : ComesTo e m := by
  cases m with
  | loop => exact .itself rfl rfl
  | call c =>
    cases c with
    | importMidi bytes keymap =>
      cases decoded : Midi.decode bytes with
      | error fault =>
        obtain ⟨made, answer, rewinds⟩ := importing_of_error keymap e decoded
        refine .nothing ?_ rewinds made ?_
        · rw [withoutImport?, decoded]
          rfl
        · rw [Reply.withoutImport?, reply, answer]
      | ok file =>
        obtain ⟨made, answer, rewinds⟩ := importing_of_ok keymap e decoded
        refine .load ?_ rewinds made ?_
        · rw [withoutImport?, decoded]
          rfl
        · rw [Reply.withoutImport?, reply, answer, made]
          rfl
    | fit seconds =>
      refine .itself rfl ?_
      rw [reply, answer, Call.perform, Engine.fit]
      split <;> rfl
    | load text => exact .itself rfl rfl
    | loadEvents events => exact .itself rfl rfl
    | start thread => exact .itself rfl (withoutImport?_reply (Engine.answer_start thread e))
    | pause meanwhile => exact .itself rfl rfl
    | resume thread => exact .itself rfl (withoutImport?_reply (Engine.answer_resume thread e))
    | stop => exact .itself rfl rfl
    | wait => exact .itself rfl rfl
    | configure edit => exact .itself rfl rfl

end Move

namespace Run

variable {m : Move} (r : Run)

/-- A move that does nothing leaves everything as it was. -/
theorem move_of_nothing (made : m.make r.engine = (r.engine, [])) (rewinds : m.rewinds = false) :
    r.move m = r := by
  simp [move, made, rewinds]

/-- Moves that do the same cannot be told apart. -/
theorem move_of_same {m' : Move} (made : m.make r.engine = m'.make r.engine)
    (rewinds : m.rewinds = m'.rewinds) : r.move m = r.move m' := by
  simp only [move, made, rewinds]

/-- A history leads to the same run if nothing is imported in it. -/
theorem follow_withoutImports (history : List Move) :
    r.follow (history.filterMap Move.withoutImport?) = r.follow history := by
  induction history generalizing r with
  | nil => rfl
  | cons m history ih =>
    rw [follow_cons]
    cases m.comesTo r.engine with
    | nothing plain rewinds made reply =>
      rw [List.filterMap_cons_none plain, ih, r.move_of_nothing made rewinds]
    | load plain rewinds made reply =>
      rw [List.filterMap_cons_some plain, follow_cons, ih, r.move_of_same made rewinds]
    | itself plain reply => rw [List.filterMap_cons_some plain, follow_cons, ih]

end Run

/-- Nor is anything shown that would not be shown then, but for the answers to imports. -/
theorem Engine.replies_withoutImports (e : Engine) (history : List Move) :
    e.replies (history.filterMap Move.withoutImport?) =
      (e.replies history).filterMap Reply.withoutImport? := by
  induction history generalizing e with
  | nil => rfl
  | cons m history ih =>
    rw [replies]
    cases m.comesTo e with
    | nothing plain rewinds made reply =>
      rw [List.filterMap_cons_none plain, List.filterMap_cons_none reply, ih, made]
    | load plain rewinds made reply =>
      rw [List.filterMap_cons_some plain, List.filterMap_cons_some reply, replies, ih, made]
    | itself plain reply =>
      rw [List.filterMap_cons_some plain, List.filterMap_cons_some reply, replies, ih]

/-- After any history an import is refused because the bytes hold no file, and then engine and log
are what they were and all replies from there on those that would have been given without it; or
else it gives the notation of the file that the bytes hold, and engine and log are those of a load
of that text. So in a whole history nothing depends on imports but the answers to them. -/
theorem import_all_or_nothing (settings : Settings) (history : List Move) (bytes : List UInt8)
    (keymap : Keymap) :
    let run := (Run.ofSettings settings).follow history
    let tried := Move.call (.importMidi bytes keymap)
    ((∃ fault, Midi.decode bytes = .error fault ∧ tried.answer run.engine = .refused fault ∧
        run.move tried = run ∧
        ∀ later, run.engine.replies (tried :: later) =
          tried.reply run.engine :: run.engine.replies later) ∨
      ∃ file, Midi.decode bytes = .ok file ∧
        tried.answer run.engine = .imported (Midi.transcribe keymap file) ∧
        run.move tried = run.move (.call (.load (Midi.transcribe keymap file)))) ∧
    run = (Run.ofSettings settings).follow (history.filterMap Move.withoutImport?) ∧
    ∀ later, (run.engine.replies later).filterMap Reply.withoutImport? =
      run.engine.replies (later.filterMap Move.withoutImport?) := by
  intro run tried
  refine ⟨?_, (Run.follow_withoutImports _ history).symm,
    fun later => (run.engine.replies_withoutImports later).symm⟩
  cases decoded : Midi.decode bytes with
  | error fault =>
    obtain ⟨made, answer, rewinds⟩ := Move.importing_of_error keymap run.engine decoded
    refine .inl ⟨fault, rfl, answer, run.move_of_nothing made rewinds, fun later => ?_⟩
    rw [Engine.replies, made]
  | ok file =>
    obtain ⟨made, answer, rewinds⟩ := Move.importing_of_ok keymap run.engine decoded
    exact .inr ⟨file, rfl, answer, run.move_of_same made rewinds⟩

end KeyScore.Player
