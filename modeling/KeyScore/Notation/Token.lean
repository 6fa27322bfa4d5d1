import KeyScore.Event
import KeyScore.Text.Alphanumeric
import KeyScore.Text.Blank

/-!
# Tokens of the note text

A key stands for itself, keys in brackets sound together, dashes after either make it
longer, and a run of pipes is a rest. Every other character is skipped, but it does end a
run. Reading never fails: a chord that is not closed runs to the end of the text.

Pipes are counted in a 32-bit word, which wraps; dashes are counted up to the largest
length of an event.
-/

namespace KeyScore.Notation

inductive Token where
  | press (key : Char) (ties : Nat)
  | chord (keys : List Char) (ties : Nat)
  | pipes (count : Nat)
  | inert (c : Char)
deriving DecidableEq, Repr

/-- ASCII characters that print and are neither letter nor digit. -/
def isPunctuation (c : Char) : Bool :=
  '!' ≤ c && c ≤ '~' && !c.isAlphanum

/-- Letters and digits of any script and ASCII punctuation stand for keys. -/
def isKey (c : Char) : Bool := isPunctuation c || Text.isAlphanumeric c

namespace Token

/-- Reads the tokens of a text from left to right. -/
def scan : List Char → List Token
  | [] => []
  | c :: cs =>
    if c = '[' then
      let inside := cs.takeWhile (· ≠ ']')
      let after := (cs.dropWhile (· ≠ ']')).tail
      chord (inside.filter fun c => !Text.isBlank c) (after.takeWhile (· = '-')).length ::
        scan (after.dropWhile (· = '-'))
    else if c = '|' then
      pipes ((cs.takeWhile (· = '|')).length + 1) :: scan (cs.dropWhile (· = '|'))
    else if isKey c then
      press c (cs.takeWhile (· = '-')).length :: scan (cs.dropWhile (· = '-'))
    else inert c :: scan cs
termination_by cs => cs.length
decreasing_by
  · have := (List.dropWhile_suffix (p := (· ≠ ']')) (l := cs)).length_le
    have := (List.dropWhile_suffix (p := (· = '-'))
      (l := (cs.dropWhile (· ≠ ']')).tail)).length_le
    simp only [List.length_tail, List.length_cons] at *
    omega
  · have := (List.dropWhile_suffix (p := (· = '|')) (l := cs)).length_le
    simp only [List.length_cons]
    omega
  · have := (List.dropWhile_suffix (p := (· = '-')) (l := cs)).length_le
    simp only [List.length_cons]
    omega
  · simp

/-- How long a run of pipes rests, one unit at least. -/
def pipeUnits (count : Nat) (weight : UInt32) : UInt32 :=
  max 1 (cappedUnits ((UInt32.ofNat count).toNat * weight.toNat))

/-- What a token plays; a chord without keys plays nothing. -/
def event? (pipeWeight : UInt32) : Token → Option Event
  | press key ties => some (.press key (cappedUnits (ties + 1)))
  | chord keys ties => Event.ofKeys? keys (cappedUnits (ties + 1))
  | pipes count => some (.rest (pipeUnits count pipeWeight))
  | inert _ => none

end Token

end KeyScore.Notation
