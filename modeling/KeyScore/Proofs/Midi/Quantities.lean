import KeyScore.Proofs.Midi.Reads
import Mathlib

/-!
# Variable-length quantities

A quantity ends with the first byte that has its high bit clear, if that is one of the next four
bytes. What is read then is the number in base 128 whose digits are the low seven bits of the bytes;
a machine that shifts a 32-bit word loses no bit of it. Every number below 128 to the fourth can be
written in as many bytes as have room for it, up to four, and is read back from them.
-/

namespace KeyScore.Midi

/-- The number that the low seven bits of the bytes make, the highest first. -/
def base128 (bs : List UInt8) : Nat := Nat.ofDigits 128 (bs.map fun b => b.toNat % 128).reverse

/-- The same number as a machine word makes it, by shifting in seven bits at a time. -/
def shifted (bs : List UInt8) : UInt32 :=
  bs.foldl (fun word b => word <<< 7 ||| (b &&& 0x7F).toUInt32) 0

/-- A digit that is written behind others is the one that counts least. -/
theorem ofDigits_reverse_concat (base : Nat) (digits : List Nat) (d : Nat) :
    Nat.ofDigits base (digits ++ [d]).reverse = Nat.ofDigits base digits.reverse * base + d := by
  rw [List.reverse_append, List.reverse_singleton, List.singleton_append, Nat.ofDigits_cons]
  ring

theorem base128_concat (bs : List UInt8) (b : UInt8) :
    base128 (bs ++ [b]) = base128 bs * 128 + b.toNat % 128 := by
  rw [base128, List.map_append, List.map_singleton, ofDigits_reverse_concat, ← base128]

theorem base128_lt (bs : List UInt8) : base128 bs < 128 ^ bs.length := by
  have digits : ∀ d ∈ (bs.map fun b => b.toNat % 128).reverse, d < 128 := by
    intro d inside
    obtain ⟨b, -, rfl⟩ := List.mem_map.mp (List.mem_reverse.mp inside)
    exact Nat.mod_lt _ (by decide)
  have bound := Nat.ofDigits_lt_base_pow_length (by decide) digits
  rw [List.length_reverse, List.length_map] at bound
  exact bound

theorem foldl_eq_base128 (bs : List UInt8) :
    bs.foldl (fun n b => n * 128 + b.toNat % 128) 0 = base128 bs := by
  induction bs using List.reverseRecOn with
  | nil => rfl
  | append_singleton bs b ih => rw [List.foldl_concat, ih, base128_concat]

/-- Shifting a word by seven bits is exact as long as its upper seven bits are clear. -/
theorem toNat_shift_in {word : UInt32} (clear : word.toNat < 2 ^ 25) (b : UInt8) :
    (word <<< 7 ||| (b &&& 0x7F).toUInt32).toNat = word.toNat * 128 + b.toNat % 128 := by
  have low : (b &&& 0x7F).toUInt32.toNat = b.toNat % 128 := by
    rw [UInt8.toNat_toUInt32, UInt8.toNat_and]
    exact Nat.and_two_pow_sub_one_eq_mod b.toNat 7
  have high : (word <<< 7).toNat = 2 ^ 7 * word.toNat := by
    rw [UInt32.toNat_shiftLeft]
    have seven : (7 : UInt32).toNat % 32 = 7 := rfl
    rw [seven, Nat.shiftLeft_eq, Nat.mod_eq_of_lt (by omega), Nat.mul_comm]
  rw [UInt32.toNat_or, low, high, ← Nat.two_pow_add_eq_or_of_lt (Nat.mod_lt _ (by decide))]
  ring

/-- Four bytes fill 28 bits of a word. -/
theorem toNat_shifted {bs : List UInt8} (few : bs.length ≤ 4) :
    (shifted bs).toNat = base128 bs := by
  induction bs using List.reverseRecOn with
  | nil => rfl
  | append_singleton bs b ih =>
    rw [List.length_append, List.length_singleton] at few
    have value : (shifted bs).toNat = base128 bs := ih (by omega)
    have clear : (shifted bs).toNat < 2 ^ 25 := by
      calc (shifted bs).toNat = base128 bs := value
        _ < 128 ^ bs.length := base128_lt bs
        _ ≤ 128 ^ 3 := Nat.pow_le_pow_right (by decide) (by omega)
        _ < 2 ^ 25 := by decide
    rw [shifted, List.foldl_concat, ← shifted, toNat_shift_in clear, value, base128_concat]

namespace Quantity

theorem value_eq (q : Quantity) : q.value = base128 q.bytes := foldl_eq_base128 q.bytes

/-- So many groups of seven bits, all of them with the high bit set. -/
def groups : Nat → Nat → List UInt8
  | 0, _ => []
  | count + 1, n => groups count (n / 128) ++ [UInt8.ofNat (128 + n % 128)]

theorem length_groups (count n : Nat) : (groups count n).length = count := by
  induction count generalizing n with
  | zero => rfl
  | succ count ih => rw [groups, List.length_append, ih, List.length_singleton]

theorem goes_on_groups (count n : Nat) : ∀ b ∈ groups count n, 128 ≤ b := by
  induction count generalizing n with
  | zero => simp [groups]
  | succ count ih =>
    intro b inside
    rcases List.mem_append.mp inside with front | last
    · exact ih _ b front
    · rw [List.mem_singleton.mp last]
      apply UInt8.le_iff_toNat_le.mpr
      rw [UInt8.toNat_ofNat']
      change 128 ≤ _
      omega

theorem base128_groups {count n : Nat} (fits : n < 128 ^ count) : base128 (groups count n) = n := by
  induction count generalizing n with
  | zero => rw [groups, Nat.lt_one_iff.mp fits]; rfl
  | succ count ih =>
    have upper : n / 128 < 128 ^ count := Nat.div_lt_of_lt_mul (Nat.pow_succ' ▸ fits)
    rw [groups, base128_concat, ih upper, UInt8.toNat_ofNat']
    omega

/-- A number in so many bytes more than one, with as many empty groups in front as it takes. -/
def ofNat (n : Nat) {more : Nat} (short : more ≤ 3) : Quantity where
  front := groups more (n / 128)
  last := UInt8.ofNat (n % 128)
  goes_on := goes_on_groups _ _
  ends := by
    apply UInt8.lt_iff_toNat_lt.mpr
    rw [UInt8.toNat_ofNat']
    change _ < 128
    omega
  short := by rw [length_groups]; exact short

/-- A number can be written in so many bytes if they have room for it. -/
theorem exists_spelling_iff {n length : Nat} :
    (∃ q : Quantity, q.bytes.length = length ∧ q.value = n) ↔
      1 ≤ length ∧ length ≤ 4 ∧ n < 128 ^ length := by
  constructor
  · rintro ⟨q, rfl, rfl⟩
    have short := q.short
    have count : q.bytes.length = q.front.length + 1 := by simp [bytes]
    exact ⟨by omega, by omega, q.value_eq ▸ base128_lt q.bytes⟩
  · rintro ⟨some_bytes, few, fits⟩
    obtain ⟨more, rfl⟩ : ∃ more, length = more + 1 := ⟨length - 1, by omega⟩
    have upper : n / 128 < 128 ^ more := Nat.div_lt_of_lt_mul (Nat.pow_succ' ▸ fits)
    refine ⟨ofNat n (by omega : more ≤ 3), ?_, ?_⟩
    · simp [bytes, ofNat, length_groups]
    · rw [value_eq, bytes, base128_concat, ofNat, base128_groups upper, UInt8.toNat_ofNat']
      omega

end Quantity

namespace Read

/-- Where none of so many bytes ends the quantity, the read stops behind them, or at the end of
the data if that comes first. -/
theorem quantityFrom_of_endless {value count offset : Nat} {rest : List UInt8}
    (endless : ∀ b ∈ rest.take count, 128 ≤ b) :
    quantityFrom value count ⟨offset, rest⟩ =
      .error (if count ≤ rest.length then .longQuantity (offset + count) else .endOfData)
        ⟨offset + min count rest.length, rest.drop count⟩ := by
  induction count generalizing value offset rest with
  | zero =>
    rw [if_pos (Nat.zero_le _), Nat.zero_min]
    rfl
  | succ count ih =>
    match rest with
    | [] => rfl
    | b :: rest =>
      obtain ⟨first, others⟩ := List.forall_mem_cons.mp endless
      have high : ¬b < 128 := UInt8.not_lt.mpr first
      change (if b < 128 then pure (value * 128 + b.toNat % 128)
        else quantityFrom (value * 128 + b.toNat % 128) count : Read Nat) ⟨offset + 1, rest⟩ = _
      rw [if_neg high, ih others]
      simp only [List.length_cons, List.drop_succ_cons, Nat.add_le_add_iff_right,
        Nat.add_min_add_right, Nat.add_assoc, Nat.add_comm 1]

/-- A quantity goes up to the first byte that has its high bit clear. -/
theorem quantity_of_ending {front rest : List UInt8} {last : UInt8} (short : front.length ≤ 3)
    (goes_on : ∀ b ∈ front, 128 ≤ b) (ends : last < 128) (offset : Nat) :
    quantity ⟨offset, front ++ last :: rest⟩ =
      .ok (base128 (front ++ [last])) ⟨offset + (front.length + 1), rest⟩ := by
  have read := reads_quantity ⟨front, last, goes_on, ends, short⟩ offset rest
  rw [Quantity.value_eq] at read
  simpa [Quantity.bytes] using read

end Read

section Data

variable {data : List UInt8} {position index : Nat}

/-- Of the bytes from a place on, this one is the first that has its high bit clear, and it is one
of four. -/
structure FirstEnding (data : List UInt8) (position index : Nat) : Prop where
  short : index < 4
  ends : ∃ last, data[position + index]? = some last ∧ last < 128
  goes_on : ∀ earlier < index, ∀ b, data[position + earlier]? = some b → 128 ≤ b

theorem exists_firstEnding (ending : ∃ index < 4, ∃ b, data[position + index]? = some b ∧ b < 128) :
    ∃ index, FirstEnding data position index := by
  classical
  obtain ⟨short, ends⟩ := Nat.find_spec ending
  refine ⟨Nat.find ending, short, ends, fun earlier before b here => ?_⟩
  have goes_on := Nat.find_min ending before
  exact UInt8.not_lt.mp fun clear => goes_on ⟨by omega, b, here, clear⟩

theorem forall_mem_take_drop_iff {count : Nat} :
    (∀ b ∈ (data.drop position).take count, 128 ≤ b) ↔
      ∀ index < count, ∀ b, data[position + index]? = some b → 128 ≤ b := by
  constructor
  · intro all index inside b here
    refine all b (List.mem_of_getElem? (i := index) ?_)
    rw [List.getElem?_take_of_lt inside, List.getElem?_drop, here]
  · intro all b inside
    obtain ⟨index, here⟩ := List.getElem?_of_mem inside
    rw [List.getElem?_take] at here
    split at here
    · rw [List.getElem?_drop] at here
      exact all index (by assumption) b here
    · cases here

/-- The bytes up to the first ending one, and what follows them. -/
theorem FirstEnding.split (h : FirstEnding data position index) :
    ∃ front last, data.extract position (position + (index + 1)) = front ++ [last] ∧
      data.drop position = front ++ last :: data.drop (position + (index + 1)) ∧
      front.length = index ∧ (∀ b ∈ front, 128 ≤ b) ∧ last < 128 := by
  obtain ⟨last, here, ends⟩ := h.ends
  rw [← List.getElem?_drop] at here
  obtain ⟨inside, here⟩ := List.getElem?_eq_some_iff.mp here
  refine ⟨(data.drop position).take index, last, ?_, ?_, ?_, forall_mem_take_drop_iff.mpr h.goes_on,
    ends⟩
  · rw [List.extract_eq_take_drop, Nat.add_sub_cancel_left, ← here, List.take_concat_get']
  · rw [← List.drop_drop, ← here, ← List.drop_eq_getElem_cons inside, List.take_append_drop]
  · exact List.length_take_of_le (Nat.le_of_lt inside)

theorem quantity_of_firstEnding (h : FirstEnding data position index) :
    Read.quantity ⟨position, data.drop position⟩ =
        .ok (base128 (data.extract position (position + (index + 1))))
          ⟨position + (index + 1), data.drop (position + (index + 1))⟩ ∧
      (data.extract position (position + (index + 1))).length = index + 1 := by
  obtain ⟨front, last, used, ahead, length, goes_on, ends⟩ := h.split
  have short := h.short
  have few : front.length ≤ 3 := by omega
  rw [used, ahead, Read.quantity_of_ending few goes_on ends, length]
  exact ⟨rfl, by rw [List.length_append, length]; rfl⟩

theorem quantity_of_endless
    (endless : ∀ index < 4, ∀ b, data[position + index]? = some b → 128 ≤ b) :
    Read.quantity ⟨position, data.drop position⟩ =
      .error (if position + 4 ≤ data.length then .longQuantity (position + 4) else .endOfData)
        ⟨position + min 4 (data.length - position), data.drop (position + 4)⟩ := by
  have read := @Read.quantityFrom_of_endless 0 4 position _ (forall_mem_take_drop_iff.mpr endless)
  rw [List.length_drop, List.drop_drop] at read
  have whole : 4 ≤ data.length - position ↔ position + 4 ≤ data.length := by omega
  simp only [whole] at read
  exact read

/-- The read succeeds where one of four bytes ends the quantity, and nowhere else. -/
theorem exists_quantity_iff :
    (∃ n r, Read.quantity ⟨position, data.drop position⟩ = .ok n r) ↔
      ∃ index < 4, ∃ b, data[position + index]? = some b ∧ b < 128 := by
  constructor
  · rintro ⟨n, r, read⟩
    by_contra none
    have endless : ∀ index < 4, ∀ b, data[position + index]? = some b → 128 ≤ b :=
      fun index short b here => UInt8.not_lt.mp fun ends => none ⟨index, short, b, here, ends⟩
    rw [quantity_of_endless endless] at read
    cases read
  · intro ending
    obtain ⟨index, first⟩ := exists_firstEnding ending
    exact ⟨_, _, (quantity_of_firstEnding first).1⟩

end Data

/-- Wherever a reader stands in whatever data, a quantity is there if and only if one of the next
four bytes has its high bit clear. It ends with the first such byte and is the number that the
bytes up to there make, which fits into 28 bits and of which a 32-bit word loses none on the way.
Otherwise the read stops behind four bytes, or at the end of the data. Every number of 28 bits is
read back from all its spellings, and it has one of each length up to four that has room for it. -/
theorem quantity_ends_with_first_clear_bit :
    (∀ data position,
      ((∃ n r, Read.quantity ⟨position, data.drop position⟩ = .ok n r) ↔
        ∃ index < 4, ∃ b, data[position + index]? = some b ∧ b < 128) ∧
      (∀ index, FirstEnding data position index →
        let used := data.extract position (position + (index + 1))
        Read.quantity ⟨position, data.drop position⟩ =
            .ok (base128 used) ⟨position + (index + 1), data.drop (position + (index + 1))⟩ ∧
          used.length = index + 1 ∧ base128 used < 2 ^ 28 ∧
          ∀ n, (shifted (used.take n)).toNat = base128 (used.take n)) ∧
      ((∀ index < 4, ∀ b, data[position + index]? = some b → 128 ≤ b) →
        Read.quantity ⟨position, data.drop position⟩ =
          .error (if position + 4 ≤ data.length then .longQuantity (position + 4) else .endOfData)
            ⟨position + min 4 (data.length - position), data.drop (position + 4)⟩)) ∧
    ∀ n < 2 ^ 28,
      (∀ length, (∃ q : Quantity, q.bytes.length = length ∧ q.value = n) ↔
        1 ≤ length ∧ length ≤ 4 ∧ n < 128 ^ length) ∧
      ∀ q : Quantity, q.value = n → ∀ offset rest,
        Read.quantity ⟨offset, q.bytes ++ rest⟩ = .ok n ⟨offset + q.bytes.length, rest⟩ := by
  refine ⟨fun data position => ⟨exists_quantity_iff, ?_, quantity_of_endless⟩, fun n _ =>
    ⟨fun _ => Quantity.exists_spelling_iff, ?_⟩⟩
  · intro index first used
    have short := first.short
    obtain ⟨read, length⟩ := quantity_of_firstEnding first
    have few : used.length ≤ 4 := length.le.trans short
    refine ⟨read, length, ?_, fun n => toNat_shifted ((List.length_take_le' n used).trans few)⟩
    calc base128 used < 128 ^ used.length := base128_lt used
      _ ≤ 128 ^ 4 := Nat.pow_le_pow_right (by decide) few
      _ = 2 ^ 28 := by decide
  · rintro q rfl offset rest
    exact Read.reads_quantity q offset rest

end KeyScore.Midi
