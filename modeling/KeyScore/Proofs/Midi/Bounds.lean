import KeyScore.Proofs.Midi.Courses
import KeyScore.Proofs.Midi.Layout
import KeyScore.Proofs.Midi.Quantities
import Mathlib

/-!
# Reading inside the bounds

A machine reads by a position of 64 bits in data that it holds as a whole. It crashes where an
addition of positions runs over, and where a slice is asked for that is not in the data. Walking any
course it never does, wherever a reader can stand in the data, and it finds what the reader finds.
So this holds for all calls to a reader in any order, those after a failed one included. The declared
end of a track is not among these additions: it stops at the largest position, and is cut to the
length of the data in any case.
-/

namespace KeyScore.Midi

/-- Data that a machine can hold: every place in it has a number of 64 bits. -/
structure Buffer where
  bytes : List UInt8
  fits : bytes.length < UInt64.size

/-- So many places further on; nothing if that needs more than 64 bits. -/
def checkedAdd (position : UInt64) (count : Nat) : Option UInt64 :=
  if position.toNat + count < UInt64.size then some (UInt64.ofNat (position.toNat + count)) else none

/-- The bytes between two positions; nothing unless they are in the data, in this order. -/
def Buffer.slice? (data : Buffer) (start stop : UInt64) : Option (List UInt8) :=
  if start ≤ stop ∧ stop.toNat ≤ data.bytes.length then
    some (data.bytes.extract start.toNat stop.toNat)
  else none

/-- How a course ends on a machine. -/
inductive Outcome (α : Type) where
  | value (a : α) (position : UInt64)
  | fault (cause : Fault) (position : UInt64)
  /-- An addition ran over, or a slice was out of range. -/
  | crash

/-- What a machine should come to, which is never a crash. -/
def Outcome.ofResult {α : Type} : EStateM.Result Fault Reader α → Outcome α
  | .ok a r => .value a (UInt64.ofNat r.offset)
  | .error cause r => .fault cause (UInt64.ofNat r.offset)

/-- The course on a machine. A byte is asked for by its position, which is then one more; the end
of several bytes is added up first, and a slice is made only if the data reaches that far. -/
def Course.walk {α : Type} (data : Buffer) : Course α → UInt64 → Outcome α
  | done a, position => .value a position
  | fail fault, position => .fault fault position
  | byte next, position =>
    match data.bytes[position.toNat]? with
    | none => .fault .endOfData position
    | some b =>
      match checkedAdd position 1 with
      | none => .crash
      | some position => (next b).walk data position
  | bytes count next fewer, position =>
    match checkedAdd position count with
    | none => fewer.walk data position
    | some stop =>
      if stop.toNat ≤ data.bytes.length then
        match data.slice? position stop with
        | none => .crash
        | some bs => (next bs).walk data stop
      else fewer.walk data position
  | look next, position => (next position.toNat data.bytes.length).walk data position

section Asking

variable {data : List UInt8} {r : Reader}

/-- A byte is the one at the position of the reader, and is missing at the end of the data only. -/
theorem byte_cases (h : r.In data) :
    data[r.offset]? = none ∧ Read.byte r = .error .endOfData r ∨
      ∃ b r', data[r.offset]? = some b ∧ Read.byte r = .ok b r' ∧ r'.offset = r.offset + 1 ∧
        r'.In data := by
  have here : data[r.offset]? = r.rest[0]? := by rw [h.rest, List.getElem?_drop, Nat.add_zero]
  rw [here]
  obtain ⟨offset, rest⟩ := r
  cases rest with
  | nil => exact .inl ⟨rfl, rfl⟩
  | cons b rest =>
    have moved : (⟨offset + 1, rest⟩ : Reader).In data := h.onward List.singleton_append.symm rfl
    exact .inr ⟨b, ⟨offset + 1, rest⟩, rfl, rfl, rfl, moved⟩

/-- Several bytes are a slice of the data; if the data does not reach that far, the reader does not
move. -/
theorem bytes_cases (h : r.In data) (count : Nat) :
    data.length < r.offset + count ∧ Read.bytes count r = .error .endOfData r ∨
      r.offset + count ≤ data.length ∧
        ∃ r', Read.bytes count r = .ok (data.extract r.offset (r.offset + count)) r' ∧
          r'.offset = r.offset + count ∧ r'.In data := by
  have whole := h.length_rest
  have taken : data.extract r.offset (r.offset + count) = r.rest.take count := by
    rw [List.extract_eq_take_drop, Nat.add_sub_cancel_left, h.rest]
  by_cases enough : r.offset + count ≤ data.length
  · have length : (r.rest.take count).length = count := List.length_take_of_le (by omega)
    refine .inr ⟨enough, ⟨r.offset + count, r.rest.drop count⟩, ?_, rfl,
      h.onward (List.take_append_drop count r.rest).symm (by rw [length])⟩
    simp only [Read.bytes, if_pos length, taken]
  · have length : (r.rest.take count).length ≠ count := by
      rw [List.length_take]
      omega
    exact .inl ⟨Nat.lt_of_not_le enough, by simp only [Read.bytes, if_neg length]⟩

end Asking

namespace Course

variable {α : Type} {data : Buffer} {r : Reader}

theorem toNat_position (h : r.In data.bytes) : (UInt64.ofNat r.offset).toNat = r.offset :=
  UInt64.toNat_ofNat_of_lt' (Nat.lt_of_le_of_lt h.inside data.fits)

/-- A sum of positions that is in the data does not run over. -/
theorem checkedAdd_position (h : r.In data.bytes) {count : Nat}
    (inside : r.offset + count ≤ data.bytes.length) :
    checkedAdd (UInt64.ofNat r.offset) count = some (UInt64.ofNat (r.offset + count)) := by
  rw [checkedAdd, toNat_position h, if_pos (Nat.lt_of_le_of_lt inside data.fits)]

theorem walk_byte {next : UInt8 → Course α} (h : r.In data.bytes)
    (onward : ∀ b r', r'.In data.bytes → (next b).walk data (.ofNat r'.offset) =
      .ofResult ((next b).read r')) :
    (byte next).walk data (.ofNat r.offset) = .ofResult ((byte next).read r) := by
  rw [walk, toNat_position h]
  rcases byte_cases h with ⟨none, failed⟩ | ⟨b, r', here, asked, moved, inside⟩
  · rw [none, read, Read.bind_of_error failed]
    rfl
  · have reached := inside.inside
    rw [moved] at reached
    rw [here, read, Read.bind_of_ok asked, ← onward b r' inside, moved]
    simp only [checkedAdd_position h reached]

theorem walk_bytes {count : Nat} {next : List UInt8 → Course α} {fewer : Course α}
    (h : r.In data.bytes)
    (onward : ∀ bs r', r'.In data.bytes → (next bs).walk data (.ofNat r'.offset) =
      .ofResult ((next bs).read r'))
    (instead : fewer.walk data (.ofNat r.offset) = .ofResult (fewer.read r)) :
    (bytes count next fewer).walk data (.ofNat r.offset) =
      .ofResult ((bytes count next fewer).read r) := by
  rw [walk]
  rcases bytes_cases h count with ⟨far, failed⟩ | ⟨enough, r', asked, moved, inside⟩
  · rw [read_bytes_of_error failed, ← instead, checkedAdd, toNat_position h]
    -- The end lies beyond the data, and possibly beyond all positions.
    split
    · rfl
    · rename_i stop sum
      split at sum
      · rename_i fits
        cases sum
        rw [if_neg (by rw [UInt64.toNat_ofNat_of_lt' fits]; omega)]
      · cases sum
  · -- The end is a place in the data, so it has a position, and behind that of the reader.
    have stop : (UInt64.ofNat (r.offset + count)).toNat = r.offset + count := by
      rw [← moved, toNat_position inside]
    have forward : UInt64.ofNat r.offset ≤ UInt64.ofNat (r.offset + count) := by
      rw [UInt64.le_iff_toNat_le, stop, toNat_position h]
      exact Nat.le_add_right _ _
    have slice : data.slice? (.ofNat r.offset) (.ofNat (r.offset + count)) =
        some (data.bytes.extract r.offset (r.offset + count)) := by
      rw [Buffer.slice?, stop, toNat_position h, if_pos ⟨forward, enough⟩]
    rw [read_bytes_of_ok asked, ← onward _ r' inside, moved]
    simp only [checkedAdd_position h enough, stop, if_pos enough, slice]

/-- From wherever a reader can stand, the machine does not crash and ends as the reader does. -/
theorem walk_eq (c : Course α) (h : r.In data.bytes) :
    c.walk data (.ofNat r.offset) = .ofResult (c.read r) := by
  induction c generalizing r with
  | done a => rfl
  | fail fault => rfl
  | byte next ih => exact walk_byte h fun b _ inside => ih b inside
  | bytes count next fewer ih ih' => exact walk_bytes h (fun bs _ inside => ih bs inside) (ih' h)
  | look next ih =>
    rw [walk, read_look, toNat_position h, h.length_rest]
    exact ih _ _ h

/-- So many bytes that the end of them has no place of 64 bits are too many, and no crash. -/
example : (bytes 0xFFFFFFFFFFFFFFFF done (fail .endOfData)).walk ⟨[7, 8], by decide⟩ 1 =
    .fault .endOfData 1 := by rfl

end Course

/-- The reader that a read leaves behind, whether it gave a value or a fault. -/
def Read.after {α : Type} (p : Read α) (r : Reader) : Reader :=
  match p r with
  | .ok _ r => r
  | .error _ r => r

/-- The second reader stands in the data too, and not before the first. -/
structure Onward (data : List UInt8) (r r' : Reader) : Prop where
  inside : r'.In data
  forward : r.offset ≤ r'.offset

/-- Wherever a course stops, the reader has stayed in the data and has not gone back. -/
theorem Course.onward {α : Type} {data : List UInt8} (c : Course α) {r : Reader} (h : r.In data) :
    Onward data r (c.read.after r) := by
  induction c generalizing r with
  | done a => exact ⟨h, Nat.le_refl _⟩
  | fail fault => exact ⟨h, Nat.le_refl _⟩
  | byte next ih =>
    rw [Read.after, read]
    rcases byte_cases h with ⟨-, failed⟩ | ⟨b, r', -, asked, moved, inside⟩
    · rw [Read.bind_of_error failed]
      exact ⟨h, Nat.le_refl _⟩
    · rw [Read.bind_of_ok asked]
      have rest := ih b inside
      exact ⟨rest.inside, Nat.le_trans (by omega) rest.forward⟩
  | bytes count next fewer ih ih' =>
    rw [Read.after]
    rcases bytes_cases h count with ⟨-, failed⟩ | ⟨-, r', asked, moved, inside⟩
    · rw [read_bytes_of_error failed]
      exact ih' h
    · rw [read_bytes_of_ok asked]
      have rest := ih (data.extract r.offset (r.offset + count)) inside
      exact ⟨rest.inside, Nat.le_trans (by omega) rest.forward⟩
  | look next ih => exact ih _ _ h

/-- The number that bytes make, the highest first. -/
def ofBigEndian (bs : List UInt8) : Nat := Nat.ofDigits 256 (bs.map UInt8.toNat).reverse

theorem ofBigEndian_concat (bs : List UInt8) (b : UInt8) :
    ofBigEndian (bs ++ [b]) = ofBigEndian bs * 256 + b.toNat := by
  rw [ofBigEndian, List.map_append, List.map_singleton, ofDigits_reverse_concat, ← ofBigEndian]

theorem ofBigEndian_bigEndian {count n : Nat} (fits : n < 256 ^ count) :
    ofBigEndian (bigEndian count n) = n := by
  induction count generalizing n with
  | zero => rw [bigEndian, Nat.lt_one_iff.mp fits]; rfl
  | succ count ih =>
    have upper : n / 256 < 256 ^ count := Nat.div_lt_of_lt_mul (Nat.pow_succ' ▸ fits)
    rw [bigEndian, ofBigEndian_concat, ih upper, UInt8.toNat_ofNat']
    omega

/-- What a reader can be asked for. -/
inductive Request where
  | byte
  | word16
  | word32
  | quantity
  | bytes (count : UInt64)
  | file

inductive Answer where
  | number (n : Nat)
  | bytes (bs : List UInt8)
  | file (file : File)

namespace Request

def read : Request → Read Answer
  | byte => do return .number (← Read.byte).toNat
  | word16 => do return .number (← Read.word16).toNat
  | word32 => do return .number (← Read.word32).toNat
  | quantity => do return .number (← Read.quantity)
  | bytes count => do return .bytes (← Read.bytes count.toNat)
  | file => do return .file (← Read.file)

/-- How many bytes make the number, if that is fixed. -/
def width? : Request → Option Nat
  | byte => some 1
  | word16 => some 2
  | word32 => some 4
  | _ => none

theorem isCourse_read (request : Request) : Read.IsCourse request.read := by
  cases request with
  | byte => exact Read.isCourse_byte.bind fun _ => .pure _
  | word16 => exact Read.isCourse_word16.bind fun _ => .pure _
  | word32 => exact Read.isCourse_word32.bind fun _ => .pure _
  | quantity => exact Read.isCourse_quantity.bind fun _ => .pure _
  | bytes count => exact (Read.isCourse_bytes _).bind fun _ => .pure _
  | file => exact Read.isCourse_file.bind fun _ => .pure _

theorem onward {data : List UInt8} {r : Reader} (request : Request) (h : r.In data) :
    Onward data r (request.read.after r) := by
  obtain ⟨c, same⟩ := request.isCourse_read
  rw [← same]
  exact c.onward h

/-- A number that is read from its big-endian bytes is the one that these bytes make. -/
theorem uses_number {α : Type} {p : Read α} {toNat : α → Nat} {width : Nat}
    (hp : Read.Uses p fun a bs => bs = bigEndian width (toNat a))
    (fits : ∀ a, toNat a < 256 ^ width) :
    Read.Uses (p >>= fun a => pure (Answer.number (toNat a))) fun answer used =>
      used.length = width ∧ answer = .number (ofBigEndian used) := by
  refine hp.bind fun a used spelt => Read.Uses.pure ?_
  rw [List.append_nil, spelt, length_bigEndian, ofBigEndian_bigEndian (fits a)]
  exact ⟨rfl, rfl⟩

theorem uses_read_of_width {request : Request} {width : Nat} (fixed : request.width? = some width) :
    Read.Uses request.read fun answer used =>
      used.length = width ∧ answer = .number (ofBigEndian used) := by
  cases request with
  | byte =>
    cases fixed
    refine uses_number (Read.uses_byte.mono fun b bs single => ?_) UInt8.toNat_lt
    rw [single, bigEndian, bigEndian, UInt8.ofNat_toNat, List.nil_append]
  | word16 =>
    cases fixed
    exact uses_number Read.uses_word16 UInt16.toNat_lt
  | word32 =>
    cases fixed
    exact uses_number Read.uses_word32 UInt32.toNat_lt
  | quantity => cases fixed
  | bytes count => cases fixed
  | file => cases fixed

theorem uses_read_bytes (count : UInt64) :
    Read.Uses (bytes count).read fun answer used =>
      used.length = count.toNat ∧ answer = .bytes used := by
  refine (Read.uses_bytes count.toNat).bind fun bs used both => Read.Uses.pure ?_
  obtain ⟨rfl, length⟩ := both
  rw [List.append_nil]
  exact ⟨length, rfl⟩

end Request

/-- The reader after all the requests, each made whether or not the ones before it failed. -/
def Reader.serve (r : Reader) (requests : List Request) : Reader :=
  requests.foldl (fun r request => request.read.after r) r

theorem Reader.In.serve {data : List UInt8} {r : Reader} (h : r.In data) (requests : List Request) :
    (r.serve requests).In data := by
  induction requests generalizing r with
  | nil => exact h
  | cons request requests ih => exact ih (request.onward h).inside

theorem Reader.In.atEnd_iff {data : List UInt8} {r : Reader} (h : r.In data) :
    r.atEnd = true ↔ r.offset = data.length := by
  have whole := h.length_rest
  rw [Reader.atEnd_iff]
  omega

/-- What a read has used is what stands in the data between where the reader stood and where it
stands now. -/
theorem Read.Uses.between {α : Type} {p : Read α} {spells : α → List UInt8 → Prop}
    (uses : Read.Uses p spells) {data : List UInt8} {r r' : Reader} (h : r.In data) {a : α}
    (read : p r = .ok a r') :
    r'.offset = r.offset + (data.extract r.offset r'.offset).length ∧
      spells a (data.extract r.offset r'.offset) := by
  obtain ⟨used, split, moved, spelt⟩ := uses r a r' read
  rw [h.extract split moved]
  exact ⟨moved, spelt⟩

theorem Request.eq_of_bytes_error {data : List UInt8} {count : UInt64} {r r' : Reader}
    {fault : Fault} (h : r.In data) (failed : (bytes count).read r = .error fault r') :
    r' = r := by
  rcases bytes_cases h count.toNat with ⟨-, stays⟩ | ⟨-, _, asked, -⟩
  · rw [read, Read.bind_of_error stays] at failed
    cases failed
    rfl
  · rw [read, Read.bind_of_ok asked] at failed
    cases failed

/-- After whatever requests, failed ones included, the reader stands in the data, and knows whether
it stands at the end. The next request moves it forward if at all, and not out of the data; a
machine that goes the same course does not crash and ends at the same place with the same answer. A
number of fixed width is the one that the bytes passed over make, and bytes are those passed over.
Where there are fewer than were asked for, the reader stays where it is. -/
theorem reads_stay_in_bounds (data : Buffer) (requests : List Request) :
    let r := (Reader.ofBytes data.bytes).serve requests
    r.In data.bytes ∧ (r.atEnd = true ↔ r.offset = data.bytes.length) ∧
      ∀ request : Request,
        Onward data.bytes r (request.read.after r) ∧
        (Read.IsCourse request.read ∧ ∀ c : Course Answer, c.read = request.read →
          c.walk data (.ofNat r.offset) = .ofResult (request.read r)) ∧
        (∀ answer r', request.read r = .ok answer r' →
          let used := data.bytes.extract r.offset r'.offset
          (∀ width, request.width? = some width →
            r'.offset = r.offset + width ∧ answer = .number (ofBigEndian used)) ∧
          ∀ count, request = .bytes count →
            r'.offset = r.offset + count.toNat ∧ answer = .bytes used) ∧
        ∀ count, request = .bytes count →
          ∀ fault r', request.read r = .error fault r' → r' = r := by
  intro r
  have h : r.In data.bytes := Reader.In.serve ⟨rfl, Nat.zero_le _⟩ requests
  refine ⟨h, h.atEnd_iff, fun request => ⟨request.onward h, ⟨request.isCourse_read, ?_⟩, ?_, ?_⟩⟩
  · intro c same
    rw [← same]
    exact c.walk_eq h
  · intro answer r' read used
    constructor
    · intro width fixed
      obtain ⟨moved, rfl, value⟩ := (Request.uses_read_of_width fixed).between h read
      exact ⟨moved, value⟩
    · rintro count rfl
      obtain ⟨moved, length, value⟩ := (Request.uses_read_bytes count).between h read
      exact ⟨length ▸ moved, value⟩
  · rintro count rfl fault r' failed
    exact Request.eq_of_bytes_error h failed

end KeyScore.Midi
