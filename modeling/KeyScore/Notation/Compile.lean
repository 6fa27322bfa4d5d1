import KeyScore.Notation.Directive
import KeyScore.Notation.Token
import KeyScore.Text.Lines

/-!
# Compiling notation

A text is split into directive lines and note lines. The directives are applied first, in
their order and wherever they stand; the note lines, run together, are then read as one
text. The last `@fit` is settled at the end, when it is known how much there is to play.
Nothing fails: what cannot be used is left out.
-/

namespace KeyScore.Notation

/-- A text taken apart. -/
structure Source where
  directives : List Directive
  notes : List Char

namespace Source

/-- What a directive line says after its `@`; none for a note line. -/
def directiveBody? (line : List Char) : Option (List Char) :=
  match Text.trim line with
  | '@' :: body => some body
  | _ => none

def ofText (text : String) : Source :=
  let lines := Text.lines text.toList
  { directives := (lines.filterMap directiveBody?).filterMap Directive.read?
    notes := (lines.filter fun line => (directiveBody? line).isNone).flatten }

/-- The last `@fit` decides. -/
def fitSeconds? (source : Source) : Option Float :=
  (source.directives.filterMap Directive.fitSeconds?).getLast?

/-- The settings that the directives lead to, before any fit. -/
def settings (source : Source) (s : Settings) : Settings :=
  source.directives.foldl (fun s d => d.apply s) s

/-- The notes as events. Blanks are left out first, unless they are to be rests; even then
they are skipped, and only keep apart what stands on either side of them. -/
def events (source : Source) (s : Settings) : List Event :=
  let notes := if s.spaceRests then source.notes
    else source.notes.filter fun c => !Text.isBlank c
  mergeRests ((Token.scan notes).filterMap (Token.event? s.pipeWeight))

end Source

structure Compiled where
  events : List Event
  settings : Settings

/-- The events of a text, and the settings that it leaves behind. -/
def compile (text : String) (s : Settings) : Compiled :=
  let source := Source.ofText text
  let s := source.settings s
  let events := source.events s
  let fitted := source.fitSeconds?.bind fun seconds => s.fitUnits? (totalUnits events) seconds
  ⟨events, fitted.getD s⟩

/-- Texts compiled in turn, each with the settings that the one before it left. -/
def compileAll : List String → Settings → List Compiled
  | [], _ => []
  | text :: texts, s =>
    let compiled := compile text s
    compiled :: compileAll texts compiled.settings

end KeyScore.Notation
