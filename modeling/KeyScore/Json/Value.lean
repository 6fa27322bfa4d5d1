import KeyScore.Json.Number
import KeyScore.Json.Text

/-!
# JSON documents

Values are written in one of two styles: compact, without any blanks, or laid out with one
item a line and two more spaces of indent at each level. The fields of a record keep their
order. Empty lists and records are a pair of brackets in both styles.
-/

namespace KeyScore

inductive Json where
  | null
  | bool (b : Bool)
  | whole (n : Nat)
  | real (x : Float)
  | text (s : String)
  | list (items : List Json)
  | record (fields : List (String × Json))

namespace Json

def quoted (s : String) : String := String.ofList (quote s.toList)

/-- What separates the parts of a document. -/
structure Style where
  /-- What stands before an item at a level of nesting. -/
  lineStart : Nat → String
  colon : String

namespace Style

def compact : Style := ⟨fun _ => "", ":"⟩

def pretty : Style := ⟨fun level => "\n" ++ String.ofList (List.replicate (2 * level) ' '), ": "⟩

/-- Items between brackets, one level further in than the brackets. -/
def block (style : Style) (opening closing : String) (level : Nat) (items : List String) :
    String :=
  if items.isEmpty then opening ++ closing
  else
    let start := style.lineStart (level + 1)
    opening ++ start ++ ("," ++ start).intercalate items ++ style.lineStart level ++ closing

end Style

mutual

/-- Writes a value that stands at a level of nesting. -/
def write (style : Style) (level : Nat) : Json → String
  | null => "null"
  | bool b => if b then "true" else "false"
  | whole n => toString n
  | real x => floatText x
  | text s => quoted s
  | list items => style.block "[" "]" level (writeItems style (level + 1) items)
  | record fields => style.block "\x7b" "\x7d" level (writeFields style (level + 1) fields)

def writeItems (style : Style) (level : Nat) : List Json → List String
  | [] => []
  | value :: items => write style level value :: writeItems style level items

def writeFields (style : Style) (level : Nat) : List (String × Json) → List String
  | [] => []
  | (name, value) :: fields =>
    (quoted name ++ style.colon ++ write style level value) :: writeFields style level fields

end

def compact (value : Json) : String := value.write .compact 0

def pretty (value : Json) : String := value.write .pretty 0

end Json

end KeyScore
