/-!
# JSON strings

Writing escapes the quote, the backslash and the control characters below U+0020, each in
its shortest form, and nothing else. Reading knows every escape of the format; a
surrogate has to be followed by the other half of its pair. Control characters may not
stand in a string as they are.
-/

namespace KeyScore.Json

def hexDigit (n : Nat) : Char := if n < 10 then Char.ofNat (48 + n) else Char.ofNat (87 + n)

/-- How a character is written between quotes. -/
def escape (c : Char) : List Char :=
  match c with
  | '"' => ['\\', '"']
  | '\\' => ['\\', '\\']
  | '\u0008' => ['\\', 'b']
  | '\u000c' => ['\\', 'f']
  | '\n' => ['\\', 'n']
  | '\r' => ['\\', 'r']
  | '\t' => ['\\', 't']
  | c =>
    if c.toNat < 0x20 then
      ['\\', 'u', '0', '0', hexDigit (c.toNat / 16), hexDigit (c.toNat % 16)]
    else [c]

def quote (cs : List Char) : List Char := '"' :: cs.flatMap escape ++ ['"']

def hexValue? (c : Char) : Option Nat :=
  if '0' ≤ c ∧ c ≤ '9' then some (c.toNat - 48)
  else if 'a' ≤ c ∧ c ≤ 'f' then some (c.toNat - 87)
  else if 'A' ≤ c ∧ c ≤ 'F' then some (c.toNat - 55)
  else none

/-- The code unit that four hexadecimal digits write. -/
def codeUnit? (a b c d : Char) : Option Nat :=
  match hexValue? a, hexValue? b, hexValue? c, hexValue? d with
  | some a, some b, some c, some d => some (((a * 16 + b) * 16 + c) * 16 + d)
  | _, _, _, _ => none

/-- The character of a code unit that is no half of a pair. -/
def ofUnit? (unit : Nat) : Option Char :=
  if 0xD800 ≤ unit ∧ unit < 0xE000 then none else some (Char.ofNat unit)

/-- The character of a pair of code units. -/
def ofPair? (high low : Nat) : Option Char :=
  if 0xD800 ≤ high ∧ high < 0xDC00 ∧ 0xDC00 ≤ low ∧ low < 0xE000 then
    some (Char.ofNat (0x10000 + (high - 0xD800) * 0x400 + (low - 0xDC00)))
  else none

/-- The character that a single letter stands for after a backslash. -/
def ofLetter? (c : Char) : Option Char :=
  match c with
  | '"' => some '"'
  | '\\' => some '\\'
  | '/' => some '/'
  | 'b' => some '\u0008'
  | 'f' => some '\u000c'
  | 'n' => some '\n'
  | 'r' => some '\r'
  | 't' => some '\t'
  | _ => none

/-- Reads one character of a string, which may be written in several. -/
def readChar? : List Char → Option (Char × List Char)
  | '\\' :: 'u' :: a :: b :: c :: d :: rest =>
    match codeUnit? a b c d with
    | none => none
    | some unit =>
      match ofUnit? unit, rest with
      | some c, rest => some (c, rest)
      | none, '\\' :: 'u' :: a :: b :: c :: d :: rest =>
        ((codeUnit? a b c d).bind (ofPair? unit)).map (·, rest)
      | none, _ => none
  | '\\' :: c :: rest => (ofLetter? c).map (·, rest)
  | c :: rest => if c = '\\' ∨ c.toNat < 0x20 then none else some (c, rest)
  | [] => none

theorem length_lt_of_readChar? {cs rest : List Char} {c : Char}
    (h : readChar? cs = some (c, rest)) : rest.length < cs.length := by
  unfold readChar? at h
  split at h
  · split at h
    · simp at h
    · split at h
      · simp only [Option.some.injEq, Prod.mk.injEq] at h
        simp only [← h.2, List.length_cons]
        omega
      · simp only [Option.map_eq_some_iff, Prod.mk.injEq] at h
        obtain ⟨_, _, _, rfl⟩ := h
        simp only [List.length_cons]
        omega
      · simp at h
  · simp only [Option.map_eq_some_iff, Prod.mk.injEq] at h
    obtain ⟨_, _, _, rfl⟩ := h
    simp only [List.length_cons]
    omega
  · split at h
    · simp at h
    · simp only [Option.some.injEq, Prod.mk.injEq] at h
      simp [← h.2]
  · simp at h

/-- Reads a string up to and including the quote that closes it; the one that opens it has
been read. -/
def readQuoted? (cs : List Char) : Option (List Char × List Char) :=
  if cs.head? = some '"' then some ([], cs.tail)
  else match _h : readChar? cs with
    | none => none
    | some (c, rest) => (readQuoted? rest).map fun (text, rest) => (c :: text, rest)
termination_by cs.length
decreasing_by exact length_lt_of_readChar? _h

theorem length_lt_of_readQuoted? {cs text rest : List Char}
    (h : readQuoted? cs = some (text, rest)) : rest.length < cs.length := by
  fun_induction readQuoted? cs generalizing text with
  | case1 cs hc =>
    simp only [Option.some.injEq, Prod.mk.injEq] at h
    cases cs <;> simp_all
  | case2 => simp at h
  | case3 cs _ c rest' hr ih =>
    simp only [Option.map_eq_some_iff, Prod.mk.injEq] at h
    obtain ⟨⟨t, r⟩, h1, _, rfl⟩ := h
    exact Nat.lt_trans (ih h1) (length_lt_of_readChar? hr)

end KeyScore.Json
