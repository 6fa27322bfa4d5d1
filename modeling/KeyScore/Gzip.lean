/-!
# Gzip files

The first member of a gzip file, with its header, its checksum and its length verified;
what follows it is not looked at. Data is read from stored blocks. A block that is
compressed is refused like a damaged one.
-/

namespace KeyScore.Gzip

/-- The number that bytes write with the lowest first. -/
def littleEndian : List UInt8 → Nat
  | [] => 0
  | b :: bs => b.toNat + 256 * littleEndian bs

/-- Bit `i` of a byte. -/
def bit (b : UInt8) (i : Nat) : Bool := b.toNat.testBit i

def crcShift (crc : UInt32) : UInt32 :=
  if crc &&& 1 = 1 then (crc >>> 1) ^^^ 0xEDB88320 else crc >>> 1

/-- The remainder after one more byte: eight shifts. -/
def crcByte (crc : UInt32) (b : UInt8) : UInt32 :=
  Nat.repeat crcShift 8 (crc ^^^ b.toUInt32)

/-- The checksum of a member's data. -/
def crc32 (data : List UInt8) : UInt32 := ~~~(data.foldl crcByte 0xFFFFFFFF)

/-- The first `count` bytes and the rest; none if there are fewer. -/
def split? (count : Nat) (data : List UInt8) : Option (List UInt8 × List UInt8) :=
  let taken := data.take count
  if taken.length = count then some (taken, data.drop count) else none

/-- The longest name or comment in a header, in bytes. -/
def longestText : Nat := 65535

/-- What follows a text that a zero byte ends. -/
def skipText? (data : List UInt8) : Option (List UInt8) :=
  match data.dropWhile (· ≠ 0) with
  | [] => none
  | _ :: rest =>
    if (data.takeWhile (· ≠ 0)).length ≤ longestText then some rest else none

/-- What follows an extra field, which starts with its length. -/
def skipExtra? (data : List UInt8) : Option (List UInt8) := do
  let (length, rest) ← split? 2 data
  let (_, rest) ← split? (littleEndian length) rest
  return rest

/-- What follows a part of the header that is there only if its flag is set. -/
def optional (present : Bool) (skip? : List UInt8 → Option (List UInt8)) (data : List UInt8) :
    Option (List UInt8) :=
  if present then skip? data else some data

/-- What follows a header. Its own checksum is the low half of the checksum of all that
stands before it. -/
def skipHeader? (data : List UInt8) : Option (List UInt8) :=
  match data with
  | 0x1F :: 0x8B :: 8 :: flags :: rest => do
    if bit flags 5 || bit flags 6 || bit flags 7 then none
    let (_, rest) ← split? 6 rest
    let rest ← optional (bit flags 2) skipExtra? rest
    let rest ← optional (bit flags 3) skipText? rest
    let rest ← optional (bit flags 4) skipText? rest
    if bit flags 1 then
      let (sum, after) ← split? 2 rest
      let before := data.take (data.length - rest.length)
      if littleEndian sum = (crc32 before).toNat % 65536 then some after else none
    else some rest
  | _ => none

theorem length_of_split? {count : Nat} {data taken rest : List UInt8}
    (h : split? count data = some (taken, rest)) : rest.length + count = data.length := by
  simp only [split?, Option.ite_none_right_eq_some, Option.some.injEq, Prod.mk.injEq] at h
  obtain ⟨full, _, rfl⟩ := h
  simp only [List.length_take, List.length_drop] at *
  omega

/-- The data of a stored block, whose length is given twice, once with all bits flipped. -/
def storedBlock? (data : List UInt8) : Option (List UInt8 × List UInt8) := do
  let (length, rest) ← split? 2 data
  let (check, rest) ← split? 2 rest
  if littleEndian length + littleEndian check = 65535 then split? (littleEndian length) rest
  else none

theorem length_lt_of_storedBlock? {data block rest : List UInt8}
    (h : storedBlock? data = some (block, rest)) : rest.length < data.length := by
  simp only [storedBlock?, Option.bind_eq_bind, Option.bind_eq_some_iff] at h
  obtain ⟨⟨length, r₁⟩, h₁, ⟨check, r₂⟩, h₂, h⟩ := h
  dsimp only at h₂ h
  have l₁ := length_of_split? h₁
  have l₂ := length_of_split? h₂
  split at h
  · have l₃ := length_of_split? h
    omega
  · simp at h

/-- The data of all blocks up to the one marked as the last, and what follows it. -/
def blocks? : List UInt8 → Option (List UInt8 × List UInt8)
  | [] => none
  | head :: data =>
    if bit head 1 || bit head 2 then none
    else match _h : storedBlock? data with
      | none => none
      | some (block, rest) =>
        if bit head 0 then some (block, rest)
        else (blocks? rest).map fun (more, rest) => (block ++ more, rest)
termination_by data => data.length
decreasing_by
  have := length_lt_of_storedBlock? _h
  simp only [List.length_cons]
  omega

/-- The data of the first member. -/
def expand? (data : List UInt8) : Option (List UInt8) := do
  let data ← skipHeader? data
  let (content, rest) ← blocks? data
  let (sum, rest) ← split? 4 rest
  let (length, _) ← split? 4 rest
  if littleEndian sum = (crc32 content).toNat ∧
      littleEndian length = content.length % 4294967296 then some content
  else none

/-- Whether data starts as a gzip file does. -/
def isGzip : List UInt8 → Bool
  | 0x1F :: 0x8B :: _ => true
  | _ => false

end KeyScore.Gzip
