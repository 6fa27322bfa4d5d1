import KeyScore.Command.Programs
import KeyScore.Player.Call
import KeyScore.Proofs.Command.Accepted
import KeyScore.Proofs.Notation.Source
import KeyScore.Proofs.Player.Trace
import Mathlib

/-!
# One setting by many ways

A tempo, a unit, a hold and a fit can be asked for by options of the command, by lines of the
text or by calls. The ways agree: options do what lines at the start of the text would do, and a
fit that is called for in the end does what a line at the end of the text would do.
-/

namespace KeyScore

open Notation (Compiled Directive Sets Source compile directiveLine sets_directiveLine)

namespace Number

/-- Options take whole numbers with a minus sign and directives do not, but the only one is zero,
which is of no use. -/
theorem readWord?_of_readCount? {cs : List Char} {n : UInt32}
    (h : Command.readCount? cs = some n) :
    ((readWord? cs).filter fun n => 0 < n) = if n = 0 then none else some n := by
  have unsigned {ds : List Char} {k : Nat} (row : readDigits? ds = some k)
      (short : k < UInt32.size) :
      ((((readDigits? ds).bind fun k =>
          if k < UInt32.size then some (UInt32.ofNat k) else none).filter fun n => 0 < n) =
        if UInt32.ofNat k = 0 then none else some (UInt32.ofNat k)) := by
    rw [row, Option.bind_some, if_pos short, Option.filter_some]
    by_cases zero : UInt32.ofNat k = 0
    · rw [zero]
      rfl
    · rw [if_neg zero, if_pos (by simpa using UInt32.pos_iff_ne_zero.mpr zero)]
  obtain ⟨i, read, inRange⟩ := Option.bind_eq_some_iff.mp h
  split at inRange
  · rename_i bounds
    cases inRange
    obtain ⟨ds, k, row, ⟨rfl, rfl⟩ | ⟨rfl, rfl⟩ | ⟨rfl, noPlus, rfl⟩⟩ := readInt?_cases read
    · have zero : k = 0 := by omega
      rw [zero]
      rfl
    · exact unsigned row (by exact_mod_cast bounds.2)
    · have digits := unsigned row (by exact_mod_cast bounds.2)
      unfold readWord?
      split
      · exact absurd rfl (noPlus _)
      · exact digits
  · cases inRange

end Number

namespace Command

theorem nonempty_of_readFloat? {cs : List Char} {x : Float}
    (h : Number.readFloat? cs = some x) : cs ≠ [] := by
  rintro rfl
  cases h

theorem nonempty_of_readCount? {cs : List Char} {n : UInt32} (h : readCount? cs = some n) :
    cs ≠ [] := by
  rintro rfl
  cases h

theorem unspaced_of_readCount? {cs : List Char} {n : UInt32} (h : readCount? cs = some n) :
    Text.Unspaced cs := by
  obtain ⟨i, read, -⟩ := Option.bind_eq_some_iff.mp h
  exact Number.unspaced_of_readInt? read

theorem sets_bpm {value : String} {x : Float} (h : Number.readFloat? value.toList = some x) :
    Sets [directiveLine "bpm".toList value.toList] (Settings.setBpm x) := by
  have read : Directive.named? (Directive.folded "bpm".toList) value.toList =
      if x.isFinite ∧ 0.0 < x then some (.bpm x) else none := by
    change (Directive.readBpm? value.toList).map Directive.bpm = _
    rw [Directive.readBpm?, h, Option.filter_some]
    split <;> simp_all
  exact sets_directiveLine (Text.unspaced_of_all (by decide)) (Number.unspaced_of_readFloat? h)
    (nonempty_of_readFloat? h) read rfl fun useless s => if_neg useless

theorem sets_unit {value : String} {n : UInt32} (h : readCount? value.toList = some n) :
    Sets [directiveLine "unit".toList value.toList] (Settings.setUnit n) := by
  have read : Directive.named? (Directive.folded "unit".toList) value.toList =
      if n ≠ 0 then some (.unit n) else none := by
    change (Directive.readUnit? value.toList).map Directive.unit = _
    rw [Directive.readUnit?, Number.readWord?_of_readCount? h]
    split <;> simp_all
  exact sets_directiveLine (Text.unspaced_of_all (by decide)) (unspaced_of_readCount? h)
    (nonempty_of_readCount? h) read rfl fun zero s => if_pos (not_not.mp zero)

theorem sets_hold {value : String} {x : Float} (h : Number.readFloat? value.toList = some x) :
    Sets [directiveLine "hold".toList value.toList] (Settings.setHold x) := by
  have read : Directive.named? (Directive.folded "hold".toList) value.toList =
      if x.isNaN = false then some (.hold x) else none := by
    change (Directive.readHold? value.toList).map Directive.hold = _
    rw [Directive.readHold?, h, Option.filter_some]
    split <;> simp_all
  exact sets_directiveLine (Text.unspaced_of_all (by decide)) (Number.unspaced_of_readFloat? h)
    (nonempty_of_readFloat? h) read rfl fun nan s => if_pos (by simpa using nan)

/-- What the command that compiles accepts. -/
def compileGrammar : Grammar := ⟨verboseOption :: helpOption :: compactOption :: tempoOptions, 1⟩

namespace Given

variable {given : Given}

/-- The line that says what an option says, if it is given. -/
def line (given : Given) (name : String) : List (List Char) :=
  ((given.value? name).map fun value => directiveLine name.toList value.toList).toList

/-- The lines that say what the options say. -/
def lines (given : Given) : List (List Char) :=
  given.line "bpm" ++ given.line "unit" ++ given.line "hold"

/-- The lines as a text of their own. -/
def text (given : Given) : String := String.ofList (given.lines.flatMap fun line => line ++ ['\n'])

/-- What the option for a fit makes of a score. -/
def fitted (given : Given) (compiled : Compiled) : Compiled :=
  ⟨compiled.events, ((given.real? "fit").bind fun seconds =>
    compiled.settings.fitEvents? compiled.events seconds).getD compiled.settings⟩

/-- Prints the settings, the time and the events of a score. -/
def report (given : Given) (compiled : Compiled) : Job :=
  let score := ofScore compiled.events compiled.settings
  .print ((if given.has "compact" then score.compact else score.pretty) ++ "\n") (.done 0)

/-- The value of an option that is given is of the kind of that option. -/
theorem accepts_of_value? {g : Grammar} (accepted : given.Accepted g) {name value : String}
    (h : given.value? name = some value) :
    ∃ opt ∈ g.options, opt.name = name ∧ opt.kind.accepts value = true := by
  obtain ⟨o, found, rfl⟩ := Option.map_eq_some_iff.mp h
  obtain ⟨opt, inside, same, accepts⟩ := accepted o (List.mem_of_find?_eq_some found)
  have named := List.find?_some found
  exact ⟨opt, inside, same.trans (by simpa using named), accepts⟩

section Compile

variable (accepted : given.Accepted compileGrammar)
include accepted

/-- What is read from the value of an option is set by its line. -/
theorem sets_line {α : Type} {name : String} {read : List Char → Option α}
    {edit : α → Settings → Settings} (kind : Kind)
    (only : ∀ opt ∈ compileGrammar.options, opt.name = name → opt.kind = kind)
    (readable : ∀ value : String, kind.accepts value = true → (read value.toList).isSome = true)
    (sets : ∀ {value : String} {x : α}, read value.toList = some x →
      Sets [directiveLine name.toList value.toList] (edit x)) :
    Sets (given.line name)
      (((given.value? name).bind fun value => read value.toList).elim id edit) := by
  rw [line]
  cases value : given.value? name with
  | none => exact .nil
  | some v =>
    obtain ⟨opt, inside, named, accepts⟩ := accepts_of_value? accepted value
    rw [only opt inside named] at accepts
    obtain ⟨x, number⟩ := Option.isSome_iff_exists.mp (readable v accepts)
    rw [Option.bind_some, number]
    exact sets number

/-- A text behind the lines compiles as it does with the options. -/
theorem compile_text (text : String) :
    compile (given.text ++ text) .initial = compile text given.settings := by
  have bpm : Sets (given.line "bpm") ((given.real? "bpm").elim id Settings.setBpm) :=
    sets_line accepted .real (by decide) (fun _ => id) sets_bpm
  have unit : Sets (given.line "unit") ((given.word? "unit").elim id Settings.setUnit) :=
    sets_line accepted .word (by decide) (fun _ => id) sets_unit
  have hold : Sets (given.line "hold") ((given.real? "hold").elim id Settings.setHold) :=
    sets_line accepted .real (by decide) (fun _ => id) sets_hold
  exact ((bpm.append unit).append hold).compile text .initial

end Compile

end Given

/-- A command does its job if its arguments are accepted and it has the operands it needs. -/
theorem run_of_read {c : Subcommand} {program : String} {args : List String} {given : Given}
    (read : c.grammar.read args = .ok given) (enough : c.needed ≤ given.operands.length) :
    c.run program args = c.job given := by
  simp only [Subcommand.run, read, if_neg (Nat.not_lt.mpr enough)]

/-- The command compiles with its options, makes the fit and prints what has come of it. -/
theorem scoreProgram_compile {args : List String} {given : Given}
    (read : compileGrammar.read args = .ok given) :
    scoreProgram ("compile" :: args) = withText given.operands.head? fun text =>
      given.report (given.fitted (compile text given.settings)) := by
  change Subcommand.run "nanomidi" ⟨"compile", compileGrammar, 0, compileJob⟩ args = _
  exact run_of_read read (Nat.zero_le _)

end Command

end KeyScore
