import KeyScore.Proofs.Midi.Written

/-!
# Reads that give back what was written

A read gives back a value from some bytes when it uses exactly these bytes, wherever they
stand and whatever follows them.
-/

namespace KeyScore.Midi.Read

/-- The read finds this value in these bytes and leaves alone what follows them. -/
def Reads {α : Type} (p : Read α) (bs : List UInt8) (a : α) : Prop :=
  ∀ offset rest, p ⟨offset, bs ++ rest⟩ = .ok a ⟨offset + bs.length, rest⟩

theorem bind_of_ok {α β : Type} {p : Read α} {r r' : Reader} {a : α} (h : p r = .ok a r')
    (q : α → Read β) : (p >>= q) r = q a r' := by
  change EStateM.bind p q r = _
  unfold EStateM.bind
  rw [h]

theorem Reads.pure {α : Type} (a : α) : Reads (Pure.pure a : Read α) [] a := by
  intro offset rest
  rfl

theorem Reads.bind {α β : Type} {p : Read α} {q : α → Read β} {bs cs : List UInt8} {a : α}
    {b : β} (hp : Reads p bs a) (hq : Reads (q a) cs b) : Reads (p >>= q) (bs ++ cs) b := by
  intro offset rest
  have first := hp offset (cs ++ rest)
  have second := hq (offset + bs.length) rest
  rw [List.append_assoc, bind_of_ok first, second, List.length_append, Nat.add_assoc]

/-- A read that gives its value right away uses no bytes of its own. -/
theorem Reads.map {α β : Type} {p : Read α} {bs : List UInt8} {a : α} (hp : Reads p bs a)
    (f : α → β) : Reads (p >>= fun a => Pure.pure (f a)) bs (f a) := by
  have both : Reads (p >>= fun a => Pure.pure (f a)) (bs ++ []) (f a) := hp.bind (Reads.pure (f a))
  rw [List.append_nil] at both
  exact both

/-- Where two values could be read from the same bytes, they are one, and leave the same bytes. -/
theorem Reads.unique {α : Type} {p : Read α} {bs bs' rest rest' : List UInt8} {a a' : α}
    (h : Reads p bs a) (h' : Reads p bs' a') (same : bs ++ rest = bs' ++ rest') :
    a = a' ∧ rest = rest' := by
  have read := h 0 rest
  rw [same, h' 0 rest'] at read
  simp only [EStateM.Result.ok.injEq, Reader.mk.injEq] at read
  exact ⟨read.1.symm, read.2.2.symm⟩

theorem reads_byte (b : UInt8) : Reads byte [b] b := by
  intro offset rest
  rfl

theorem reads_byte_cons {α : Type} {q : UInt8 → Read α} {b : UInt8} {bs : List UInt8} {a : α}
    (hq : Reads (q b) bs a) : Reads (byte >>= q) (b :: bs) a :=
  (reads_byte b).bind hq

theorem reads_bytes (bs : List UInt8) : Reads (bytes bs.length) bs bs := by
  intro offset rest
  simp [bytes]

theorem reads_eachByte (bs : List UInt8) : Reads (eachByte bs.length) bs bs := by
  induction bs with
  | nil => exact Reads.pure []
  | cons b bs ih => exact reads_byte_cons (ih.map (b :: ·))

theorem reads_word16 (n : Nat) : Reads word16 (bigEndian 2 n) (UInt16.ofNat n) := by
  have low := (reads_byte (UInt8.ofNat n)).map fun low =>
    UInt16.ofNat ((UInt8.ofNat (n / 256)).toNat * 256 + low.toNat)
  have both : Reads word16 (bigEndian 2 n) _ := (reads_byte (UInt8.ofNat (n / 256))).bind low
  have value : UInt16.ofNat ((UInt8.ofNat (n / 256)).toNat * 256 + (UInt8.ofNat n).toNat) =
      UInt16.ofNat n := by
    apply UInt16.toNat_inj.mp
    simp only [UInt8.toNat_ofNat', UInt16.toNat_ofNat']
    omega
  rw [value] at both
  exact both

theorem bigEndian_four (n : Nat) : bigEndian 4 n = bigEndian 2 (n / 65536) ++ bigEndian 2 n := by
  simp [bigEndian, Nat.div_div_eq_div_mul]

theorem reads_word32 (n : Nat) : Reads word32 (bigEndian 4 n) (UInt32.ofNat n) := by
  have low := (reads_word16 n).map fun low =>
    UInt32.ofNat ((UInt16.ofNat (n / 65536)).toNat * 65536 + low.toNat)
  have both : Reads word32 (bigEndian 2 (n / 65536) ++ bigEndian 2 n) _ :=
    (reads_word16 (n / 65536)).bind low
  have value : UInt32.ofNat ((UInt16.ofNat (n / 65536)).toNat * 65536 + (UInt16.ofNat n).toNat) =
      UInt32.ofNat n := by
    apply UInt32.toNat_inj.mp
    simp only [UInt16.toNat_ofNat', UInt32.toNat_ofNat']
    omega
  rw [value, ← bigEndian_four] at both
  exact both

/-- Every byte of a quantity but the last makes the read go on. -/
theorem reads_quantityFrom {front : List UInt8} {last : UInt8} {value count : Nat}
    (goes_on : ∀ b ∈ front, 128 ≤ b) (ends : last < 128) (short : front.length < count) :
    Reads (quantityFrom value count) (front ++ [last])
      ((front ++ [last]).foldl (fun n b => n * 128 + b.toNat % 128) value) := by
  induction front generalizing value count with
  | nil =>
    cases count with
    | zero => cases short
    | succ count =>
      apply reads_byte_cons
      simp only [ends, if_true]
      exact Reads.pure _
  | cons b front ih =>
    cases count with
    | zero => cases short
    | succ count =>
      have high : ¬b < 128 := UInt8.not_lt.mpr (goes_on b (List.mem_cons_self ..))
      apply reads_byte_cons
      simp only [high, if_false]
      apply ih
      · intro c hc
        exact goes_on c (List.mem_cons_of_mem b hc)
      · exact Nat.lt_of_succ_lt_succ short

theorem reads_quantity (q : Quantity) : Reads quantity q.bytes q.value :=
  reads_quantityFrom q.goes_on q.ends (Nat.lt_succ_of_le q.short)

end KeyScore.Midi.Read
