/-!
# Reading bytes

A reader stands at an offset in a sequence of bytes and holds what lies ahead of it. Each
read gives a value and moves past the bytes it used, or gives a fault; after a fault the
reader stands where the read got to. Numbers are big-endian.
-/

namespace KeyScore.Midi

structure Reader where
  offset : Nat
  /-- The bytes not read yet. -/
  rest : List UInt8

/-- Why bytes are no MIDI file. -/
inductive Fault where
  | endOfData
  | longQuantity (offset : Nat)
  | noHeader
  | wrongHeaderTag
  | headerLength (length : UInt32)
  | noTrack (offset : Nat)
  | overrun (stop : Nat)
  | strayData (byte : UInt8) (offset : Nat)
deriving DecidableEq, Repr

namespace Fault

/-- A byte as two hexadecimal digits. -/
def hexByte (b : UInt8) : String :=
  String.ofList ([b.toNat / 16, b.toNat % 16].map fun n => (Nat.digitChar n).toUpper)

def reason : Fault → String
  | endOfData => "Unexpected end of data"
  | longQuantity offset =>
    s!"Variable-length quantity longer than 4 bytes at offset {offset}"
  | noHeader => "File too small for MIDI header"
  | wrongHeaderTag => "Missing MThd header tag"
  | headerLength length => s!"Header length is {length}, expected 6"
  | noTrack offset => s!"Expected MTrk chunk at offset {offset}"
  | overrun stop => s!"Track event overruns chunk end at offset {stop}"
  | strayData byte offset =>
    "Data byte 0x" ++ hexByte byte ++ s!" without running status at offset {offset}"

def message (fault : Fault) : String := "Invalid MIDI format: " ++ fault.reason

end Fault

/-- A read. A fault keeps the reader it left behind. -/
abbrev Read := EStateM Fault Reader

namespace Reader

def ofBytes (bytes : List UInt8) : Reader := ⟨0, bytes⟩

def atEnd (r : Reader) : Bool := r.rest.isEmpty

end Reader

namespace Read

def offset : Read Nat := fun r => .ok r.offset r

def byte : Read UInt8 := fun r =>
  match r.rest with
  | [] => .error .endOfData r
  | b :: rest => .ok b ⟨r.offset + 1, rest⟩

/-- So many bytes at once; a reader that has fewer does not move. -/
def bytes (count : Nat) : Read (List UInt8) := fun r =>
  let taken := r.rest.take count
  if taken.length = count then .ok taken ⟨r.offset + count, r.rest.drop count⟩
  else .error .endOfData r

/-- So many bytes one after the other; a reader that has fewer moves to the end. -/
def eachByte : Nat → Read (List UInt8)
  | 0 => pure []
  | count + 1 => do
    let b ← byte
    let bs ← eachByte count
    return b :: bs

def word16 : Read UInt16 := do
  let high ← byte
  let low ← byte
  return UInt16.ofNat (high.toNat * 256 + low.toNat)

def word32 : Read UInt32 := do
  let high ← word16
  let low ← word16
  return UInt32.ofNat (high.toNat * 65536 + low.toNat)

/-- Goes on with a quantity that has come to `value`, for up to so many more bytes. -/
def quantityFrom (value : Nat) : Nat → Read Nat
  | 0 => do
    let stop ← offset
    throw (.longQuantity stop)
  | count + 1 => do
    let b ← byte
    let value := value * 128 + b.toNat % 128
    if b < 128 then return value
    quantityFrom value count

/-- A variable-length quantity: seven bits a byte, in four bytes at most. Every byte but
the last has its high bit set. -/
def quantity : Read Nat := quantityFrom 0 4

/-- A read that never goes back. -/
def Advances {α : Type} (p : Read α) : Prop :=
  ∀ r a r', p r = .ok a r' → r'.rest.length ≤ r.rest.length

/-- A read that uses at least one byte. -/
def Consumes {α : Type} (p : Read α) : Prop :=
  ∀ r a r', p r = .ok a r' → r'.rest.length < r.rest.length

theorem Consumes.advances {α : Type} {p : Read α} (h : Consumes p) : Advances p :=
  fun r a r' e => Nat.le_of_lt (h r a r' e)

theorem advances_pure {α : Type} (a : α) : Advances (pure a : Read α) := by
  intro r b r' e
  cases e
  exact Nat.le_refl _

theorem advances_throw {α : Type} (fault : Fault) : Advances (throw fault : Read α) := by
  intro r a r' e
  cases e

theorem bind_eq_ok {α β : Type} {p : Read α} {q : α → Read β} {r r' : Reader} {b : β}
    (h : (p >>= q) r = .ok b r') : ∃ a r₁, p r = .ok a r₁ ∧ q a r₁ = .ok b r' := by
  change EStateM.bind p q r = _ at h
  unfold EStateM.bind at h
  split at h
  · exact ⟨_, _, by assumption, h⟩
  · cases h

theorem Advances.bind {α β : Type} {p : Read α} {q : α → Read β} (hp : Advances p)
    (hq : ∀ a, Advances (q a)) : Advances (p >>= q) := by
  intro r b r' h
  obtain ⟨a, r₁, h₁, h₂⟩ := bind_eq_ok h
  exact Nat.le_trans (hq a _ _ _ h₂) (hp _ _ _ h₁)

theorem Consumes.bind {α β : Type} {p : Read α} {q : α → Read β} (hp : Consumes p)
    (hq : ∀ a, Advances (q a)) : Consumes (p >>= q) := by
  intro r b r' h
  obtain ⟨a, r₁, h₁, h₂⟩ := bind_eq_ok h
  exact Nat.lt_of_le_of_lt (hq a _ _ _ h₂) (hp _ _ _ h₁)

theorem advances_offset : Advances offset := by
  intro r a r' h
  cases h
  exact Nat.le_refl _

theorem consumes_byte : Consumes byte := by
  intro r a r' h
  unfold byte at h
  split at h
  · cases h
  · rename_i eq
    cases h
    simp [eq]

theorem advances_bytes (count : Nat) : Advances (bytes count) := by
  intro r a r' h
  simp only [bytes] at h
  split at h
  · cases h
    simp
  · cases h

theorem advances_eachByte (count : Nat) : Advances (eachByte count) := by
  induction count with
  | zero => exact advances_pure _
  | succ count ih =>
    exact consumes_byte.advances.bind fun _ => ih.bind fun _ => advances_pure _

theorem advances_quantityFrom (value count : Nat) : Advances (quantityFrom value count) := by
  induction count generalizing value with
  | zero => exact advances_offset.bind fun _ => advances_throw _
  | succ count ih =>
    refine consumes_byte.advances.bind fun b => ?_
    by_cases h : b < 128
    · simp only [h, if_true]
      exact advances_pure _
    · simp only [h, if_false]
      exact ih _

theorem consumes_quantity : Consumes quantity := by
  refine consumes_byte.bind fun b => ?_
  by_cases h : b < 128
  · simp only [h, if_true]
    exact advances_pure _
  · simp only [h, if_false]
    exact advances_quantityFrom _ _

end Read

end KeyScore.Midi
