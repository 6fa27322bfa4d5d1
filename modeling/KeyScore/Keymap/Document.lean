import KeyScore.Json.Text
import KeyScore.Keymap.Basic
import KeyScore.Number.Decimal

/-!
# Key map documents

A key map is written as a JSON object from note numbers to keys, such as `60: "a"` with
the number in quotes. Reading takes the last of several values for a note. The content is
looked at once the object is complete, note by note in ascending order, and before any
text that follows it: so a document whose object holds a bad key is refused for that key.
-/

namespace KeyScore

/-- Why a document is refused. -/
inductive DocumentFault where
  /-- It is no JSON object from note numbers to strings. -/
  | malformed
  /-- It is one, but no key map. -/
  | content (fault : KeymapFault)
deriving DecidableEq, Repr

/-- What is wrong with the content; a malformed document is not explained. -/
def DocumentFault.message? : DocumentFault → Option String
  | malformed => none
  | content fault => some ("JSON error: " ++ fault.message)

namespace Keymap

/-- The blanks that JSON allows between its parts. -/
def isGap (c : Char) : Bool := c == ' ' || c == '\t' || c == '\n' || c == '\r'

def skipGap (cs : List Char) : List Char := cs.dropWhile isGap

/-- The text after a given character, with blanks allowed in front of it. -/
def skipPast? (c : Char) (cs : List Char) : Option (List Char) :=
  match skipGap cs with
  | d :: rest => if d = c then some rest else none
  | [] => none

/-- A number from 0 to 255 in decimal, without leading zeros. -/
def readNote? (cs : List Char) : Option (UInt8 × List Char) :=
  let digits := cs.takeWhile Char.isDigit
  let value := Number.ofDigits digits
  if Nat.toDigits 10 value = digits ∧ value < 256 then
    some (UInt8.ofNat value, cs.dropWhile Char.isDigit)
  else none

/-- The text after a quote that stands right at its start. -/
def readQuote? (cs : List Char) : Option (List Char) :=
  if cs.head? = some '"' then some cs.tail else none

/-- A note number in quotes, a colon and a string. -/
def readMember? (cs : List Char) : Option ((UInt8 × List Char) × List Char) := do
  let cs ← skipPast? '"' cs
  let (note, cs) ← readNote? cs
  let cs ← readQuote? cs
  let cs ← skipPast? ':' cs
  let cs ← skipPast? '"' cs
  let (text, cs) ← Json.readQuoted? cs
  return ((note, text), cs)

theorem length_skipGap_le (cs : List Char) : (skipGap cs).length ≤ cs.length :=
  (List.dropWhile_suffix isGap).length_le

theorem length_lt_of_skipPast? {c : Char} {cs rest : List Char}
    (h : skipPast? c cs = some rest) : rest.length < cs.length := by
  have shorter := length_skipGap_le cs
  unfold skipPast? at h
  split at h
  · rename_i eq
    rw [eq, List.length_cons] at shorter
    split at h
    · cases h
      exact shorter
    · simp at h
  · simp at h

theorem length_le_of_readNote? {cs rest : List Char} {note : UInt8}
    (h : readNote? cs = some (note, rest)) : rest.length ≤ cs.length := by
  simp only [readNote?, Option.ite_none_right_eq_some, Option.some.injEq, Prod.mk.injEq] at h
  rw [← h.2.2]
  exact (List.dropWhile_suffix _).length_le

theorem length_lt_of_readQuote? {cs rest : List Char} (h : readQuote? cs = some rest) :
    rest.length < cs.length := by
  cases cs <;> simp_all [readQuote?]

theorem length_lt_of_readMember? {cs rest : List Char} {entry : UInt8 × List Char}
    (h : readMember? cs = some (entry, rest)) : rest.length < cs.length := by
  simp only [readMember?, Option.bind_eq_bind, Option.bind_eq_some_iff] at h
  obtain ⟨c1, h1, ⟨note, c2⟩, h2, c3, h3, c4, h4, c5, h5, ⟨text, c6⟩, h6, h⟩ := h
  have l1 := length_lt_of_skipPast? h1
  have l2 := length_le_of_readNote? h2
  have l4 := length_lt_of_skipPast? h4
  have l5 := length_lt_of_skipPast? h5
  have l6 := Json.length_lt_of_readQuoted? h6
  simp only [Option.pure_def, Option.some.injEq, Prod.mk.injEq] at h
  have l3 : c3.length < c2.length := length_lt_of_readQuote? h3
  rw [← h.2]
  omega

/-- The members of an object up to and including the brace that closes it, at least one. -/
def readMembers? (cs : List Char) : Option (List (UInt8 × List Char) × List Char) :=
  match _h : readMember? cs with
  | none => none
  | some (entry, after) =>
    match _hr : skipGap after with
    | '\x7d' :: rest => some ([entry], rest)
    | ',' :: rest => (readMembers? rest).map fun (entries, rest) => (entry :: entries, rest)
    | _ => none
termination_by cs.length
decreasing_by
  all_goals
    have member := length_lt_of_readMember? _h
    have gap := length_skipGap_le after
    rw [_hr, List.length_cons] at gap
    omega

/-- An object from note numbers to strings, and the text after it. -/
def readObject? (cs : List Char) : Option (List (UInt8 × List Char) × List Char) := do
  let cs ← skipPast? '\x7b' cs
  match skipGap cs with
  | '\x7d' :: rest => some ([], rest)
  | _ => readMembers? cs

/-- The last value that the members give a note. -/
def lastValue? (members : List (UInt8 × List Char)) (note : UInt8) : Option (List Char) :=
  (members.reverse.find? fun entry => entry.1 == note).map Prod.snd

/-- The members that count, in ascending order of their notes. -/
def resolve (members : List (UInt8 × List Char)) : List (UInt8 × List Char) :=
  (List.range 256).filterMap fun note =>
    (lastValue? members (UInt8.ofNat note)).map (UInt8.ofNat note, ·)

/-- Maps a note to a key given as text, which has to be one character. -/
def insertText (m : Keymap) (note : UInt8) : List Char → Except KeymapFault Keymap
  | [key] => m.insert note key
  | text => .error (.notOneCharacter note text)

/-- The key map of an object's members. -/
def ofMembers (members : List (UInt8 × List Char)) : Except KeymapFault Keymap :=
  (resolve members).foldlM (fun m entry => m.insertText entry.1 entry.2) empty

/-- Reads a document; only blanks may follow the object. -/
def ofDocument (text : String) : Except DocumentFault Keymap :=
  match readObject? text.toList with
  | none => .error .malformed
  | some (members, rest) =>
    match ofMembers members with
    | .error fault => .error (.content fault)
    | .ok m => if skipGap rest = [] then .ok m else .error .malformed

/-- The key map of a document, or the standard one where there is none. -/
def ofDocument? : Option String → Except DocumentFault Keymap
  | none => .ok standard
  | some text => ofDocument text

/-- A note and its key as a member of an object. -/
def member (entry : UInt8 × Char) : List Char :=
  Json.quote (Nat.toDigits 10 entry.1.toNat) ++ ':' :: Json.quote [entry.2]

/-- The document of a key map, in ascending order and without blanks. -/
def document (m : Keymap) : String :=
  String.ofList ('\x7b' :: [','].intercalate (m.toList.map member) ++ ['\x7d'])

end Keymap

end KeyScore
