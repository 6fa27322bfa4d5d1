import KeyScore.Command.Arguments
import KeyScore.Command.Documents
import KeyScore.Command.Job
import KeyScore.Gzip
import KeyScore.Player.Import

/-!
# The programs

One program compiles, plays and imports scores; the other prints MIDI files. Both end with
code 0, with 1 if their work failed and with 2 if their arguments are wrong.
-/

namespace KeyScore.Command

def utf8 (text : String) : Bytes := text.toUTF8.toList

def usage : String :=
  "nanomidi [-v] compile [FILE] [-c] [--bpm F] [--unit N] [--hold F] [--fit F]\n" ++
  "nanomidi [-v] play [FILE] [--bpm F] [--unit N] [--hold F] [--fit F]\n" ++
  "nanomidi [-v] import FILE [-k FILE] [-o FILE]\n" ++
  "midi2json FILE [-o FILE] [-c] [-n]\n"

/-- Ends a program called `name` that has read its arguments no further. -/
def Stop.job (name : String) : Stop → Job
  | misuse => .tell usage (.done 2)
  | version => .print (name ++ " 0.1.0\n") (.done 0)
  | help => .print usage (.done 0)

def verboseOption : Opt := ⟨"verbose", some 'v', .flag⟩
def versionOption : Opt := ⟨"version", some 'V', .version⟩
def helpOption : Opt := ⟨"help", some 'h', .help⟩
def compactOption : Opt := ⟨"compact", some 'c', .flag⟩
def outputOption : Opt := ⟨"output", some 'o', .path⟩

def tempoOptions : List Opt := [
  ⟨"bpm", none, .real⟩, ⟨"unit", none, .word⟩, ⟨"hold", none, .real⟩, ⟨"fit", none, .real⟩]

namespace Given

def real? (given : Given) (name : String) : Option Float :=
  (given.value? name).bind fun text => Number.readFloat? text.toList

def word? (given : Given) (name : String) : Option UInt32 :=
  (given.value? name).bind fun text => readCount? text.toList

/-- The settings that the tempo options lead to; values that make no sense are ignored. -/
def settings (given : Given) : Settings :=
  let setBpm := (given.real? "bpm").elim id Settings.setBpm
  let setUnit := (given.word? "unit").elim id Settings.setUnit
  let setHold := (given.real? "hold").elim id Settings.setHold
  setHold (setUnit (setBpm .initial))

end Given

/-- A path that stands for the input of the program. -/
def isInput (path : String) : Bool :=
  path.startsWith "-" &&
    (path.splitOn "/").filter (fun part => part ≠ "" ∧ part ≠ ".") = ["-"]

/-- Goes on with a text from a file, or from the input where no file is named. -/
def withText (path? : Option String) (next : String → Job) : Job :=
  let read := fun content : Option Bytes =>
    match content.bind textOf? with
    | some text => next text
    | none => .fail "The text cannot be read."
  match path? with
  | none => .readInput fun content => read (some content)
  | some path =>
    if isInput path then .readInput fun content => read (some content)
    else .readFile path read

/-- Goes on with the key map of a file, or with the standard one. -/
def withKeymap (path? : Option String) (next : Keymap → Job) : Job :=
  match path? with
  | none => next .standard
  | some path => .readFile path fun content =>
    match Keymap.ofFile content with
    | .ok keymap => next keymap
    | .error _ => .fail "The key map cannot be used."

/-- Goes on with the MIDI file that the bytes hold. -/
def withMidi (bytes : Bytes) (next : Midi.File → Job) : Job :=
  match Midi.decode bytes with
  | .ok file => next file
  | .error fault => .fail fault.message

/-- Writes a text to a file. -/
def save (path text : String) : Job :=
  .writeFile path (utf8 text) fun written =>
    if written then .done 0 else .fail "The output cannot be written."

/-- Prints a compiled score. A fit comes after everything that the text itself asks for. -/
def compileJob (given : Given) : Job :=
  withText given.operands.head? fun text =>
    let compiled := Notation.compile text given.settings
    let fitted := (given.real? "fit").bind fun seconds =>
      compiled.settings.fitEvents? compiled.events seconds
    let score := ofScore compiled.events (fitted.getD compiled.settings)
    .print ((if given.has "compact" then score.compact else score.pretty) ++ "\n") (.done 0)

/-- What is said about a notice, one line each. -/
def describe : Player.Notice → String
  | .state .idle => "idle"
  | .state .playing => "playing"
  | .state .paused => "paused"
  | .state .finished => "finished"
  | .step index _ => s!"step {index}"
  | .action (.down (.char c)) => "down " ++ String.ofList [c]
  | .action (.up (.char c)) => "up " ++ String.ofList [c]
  | .action (.down .shift) => "down Shift"
  | .action (.up .shift) => "up Shift"

def tellAll (notices : List Player.Notice) (next : Job) : Job :=
  notices.foldr (fun notice job => .tell (describe notice) job) next

/-- Plays to the end, waiting where the loop waits. -/
def playOut (e : Player.Engine) : Job :=
  if _h : 0 < e.loop.movesLeft then
    let move := e.advance
    let rest := tellAll move.2 (playOut move.1)
    match e.loop.wait? with
    | some length => .wait length rest
    | none => rest
  else .done 0
termination_by e.movesLeft
decreasing_by exact Player.Engine.movesLeft_advance e _h

/-- Plays a score. The program goes through the loop itself and has its own thread for it. -/
def playJob (given : Given) : Job :=
  withText given.operands.head? fun text =>
    let loaded := (Player.Engine.load text { settings := given.settings }).1
    let fitted := (given.real? "fit").elim loaded fun seconds => (loaded.fit seconds).engine
    let started := fitted.start true
    tellAll started.notices (playOut started.engine)

/-- Prints the notation of a MIDI file, or writes it to a file as it is. -/
def importJob (given : Given) : Job :=
  withKeymap (given.value? "keymap") fun keymap =>
    .readFile (given.operands.headD "") fun content =>
      match content with
      | none => .fail "The file cannot be read."
      | some bytes => withMidi bytes fun file =>
        let text := Midi.transcribe keymap file
        match given.value? "output" with
        | some path => save path text
        | none => .print (text ++ "\n") (.done 0)

/-- A command under a name of its own. -/
structure Subcommand where
  name : String
  grammar : Grammar
  /-- The fewest operands there may be. -/
  needed : Nat
  job : Given → Job

def subcommands : List Subcommand := [
  { name := "compile"
    grammar := ⟨verboseOption :: helpOption :: compactOption :: tempoOptions, 1⟩
    needed := 0
    job := compileJob },
  { name := "play"
    grammar := ⟨verboseOption :: helpOption :: tempoOptions, 1⟩
    needed := 0
    job := playJob },
  { name := "import"
    grammar := ⟨[verboseOption, helpOption, ⟨"keymap", some 'k', .path⟩, outputOption], 1⟩
    needed := 1
    job := importJob }]

/-- Runs a command, if its arguments are right. -/
def Subcommand.run (program : String) (c : Subcommand) (args : List String) : Job :=
  match c.grammar.read args with
  | .error stop => stop.job program
  | .ok given =>
    if given.operands.length < c.needed then Stop.misuse.job program else c.job given

/-- Explains the program, or the one command that is named, which may be `help` itself. -/
def helpJob (program : String) : List String → Job
  | [] => Stop.help.job program
  | [topic] =>
    if topic = "help" ∨ topic ∈ subcommands.map Subcommand.name then Stop.help.job program
    else Stop.misuse.job program
  | _ => Stop.misuse.job program

/-- The program that compiles, plays and imports. Its own options stand in front of the
name of a command. -/
def scoreProgram (args : List String) : Job :=
  let program := "nanomidi"
  let own := args.takeWhile looksLikeOption
  match Grammar.read ⟨[verboseOption, versionOption, helpOption], 0⟩ own with
  | .error stop => stop.job program
  | .ok _ =>
    match args.dropWhile looksLikeOption with
    | [] => Stop.misuse.job program
    | name :: rest =>
      match own.contains "--", name, subcommands.find? fun c => c.name == name with
      | false, _, some c => c.run program rest
      | false, "help", none => helpJob program rest
      | _, _, _ => Stop.misuse.job program

/-- Goes on with the bytes of a MIDI file, taken out of a gzip file if they are in one. -/
def withPlainBytes (bytes : Bytes) (next : Bytes → Job) : Job :=
  if Gzip.isGzip bytes then
    match Gzip.expand? bytes with
    | some bytes => next bytes
    | none => .fail "The compressed file is damaged."
  else next bytes

/-- The text that a MIDI file is printed as, without the newline at its end. -/
def dumpText (given : Given) (file : Midi.File) : String :=
  if given.has "notation" then Midi.transcribe .standard file
  else if given.has "compact" then (ofFile file).compact
  else (ofFile file).pretty

def dumpJob (given : Given) : Job :=
  .readFile (given.operands.headD "") fun content =>
    match content with
    | none => .fail "The file cannot be read."
    | some bytes => withPlainBytes bytes fun bytes => withMidi bytes fun file =>
      let text := dumpText given file ++ "\n"
      match given.value? "output" with
      | some path => save path text
      | none => .print text (.done 0)

/-- The program that prints MIDI files. -/
def dumpProgram (args : List String) : Job :=
  Subcommand.run "midi2json"
    { name := "dump"
      grammar := ⟨[outputOption, compactOption, ⟨"notation", some 'n', .flag⟩, versionOption,
        helpOption], 1⟩
      needed := 1
      job := dumpJob } args

/-- The program of a name. -/
def program? (name : String) : Option (List String → Job) :=
  match name with
  | "nanomidi" => some scoreProgram
  | "midi2json" => some dumpProgram
  | _ => none

end KeyScore.Command
