import KeyScore.Proofs.Midi.Reads
import KeyScore.Proofs.Midi.Status

/-!
# What a read has used

A read that succeeds has used the bytes between where the reader stood and where it stands
now, and nothing else. What these bytes can be is told by the tables of the format.
-/

namespace KeyScore.Midi

namespace Read

/-- Wherever the read succeeds, the bytes it has used are ones that stand for its value. -/
def Uses {α : Type} (p : Read α) (spells : α → List UInt8 → Prop) : Prop :=
  ∀ r a r', p r = .ok a r' →
    ∃ bs, r.rest = bs ++ r'.rest ∧ r'.offset = r.offset + bs.length ∧ spells a bs

namespace Uses

variable {α β : Type} {p : Read α} {q : α → Read β}

theorem mono {spells spells' : α → List UInt8 → Prop} (h : Uses p spells)
    (weaker : ∀ a bs, spells a bs → spells' a bs) : Uses p spells' := by
  intro r a r' read
  obtain ⟨bs, split, moved, spelt⟩ := h r a r' read
  exact ⟨bs, split, moved, weaker a bs spelt⟩

theorem pure {spells : α → List UInt8 → Prop} {a : α} (h : spells a []) :
    Uses (Pure.pure a : Read α) spells := by
  intro r b r' read
  cases read
  exact ⟨[], rfl, rfl, h⟩

theorem throw {spells : α → List UInt8 → Prop} (fault : Fault) :
    Uses (MonadExcept.throw fault : Read α) spells := by
  intro r a r' read
  cases read

/-- The second read goes on from the bytes that the first has used. -/
theorem bind {first : α → List UInt8 → Prop} {spells : β → List UInt8 → Prop}
    (hp : Uses p first)
    (hq : ∀ a bs, first a bs → Uses (q a) fun b cs => spells b (bs ++ cs)) :
    Uses (p >>= q) spells := by
  intro r b r' read
  obtain ⟨a, r₁, read₁, read₂⟩ := bind_eq_ok read
  obtain ⟨bs, split₁, moved₁, spelt₁⟩ := hp r a r₁ read₁
  obtain ⟨cs, split₂, moved₂, spelt₂⟩ := hq a bs spelt₁ r₁ b r' read₂
  refine ⟨bs ++ cs, ?_, ?_, spelt₂⟩
  · rw [split₁, split₂, List.append_assoc]
  · rw [moved₂, moved₁, List.length_append, Nat.add_assoc]

end Uses

theorem uses_offset : Uses offset fun _ bs => bs = [] := by
  intro r n r' read
  cases read
  exact ⟨[], rfl, rfl, rfl⟩

theorem uses_byte : Uses byte fun b bs => bs = [b] := by
  intro r b r' read
  unfold byte at read
  split at read
  · cases read
  · rename_i rest
    cases read
    exact ⟨[b], rest, rfl, rfl⟩

theorem uses_bytes (count : Nat) :
    Uses (bytes count) fun bs used => used = bs ∧ bs.length = count := by
  intro r bs r' read
  simp only [bytes] at read
  split at read
  · rename_i enough
    cases read
    refine ⟨_, (List.take_append_drop count r.rest).symm, ?_, rfl, enough⟩
    rw [enough]
  · cases read

theorem uses_eachByte (count : Nat) :
    Uses (eachByte count) fun bs used => used = bs ∧ bs.length = count := by
  induction count with
  | zero => exact Uses.pure ⟨rfl, rfl⟩
  | succ count ih =>
    refine uses_byte.bind fun b used single => ih.bind fun bs rest more => Uses.pure ?_
    obtain ⟨rfl, length⟩ := more
    rw [single]
    simp [length]

theorem uses_word16 : Uses word16 fun w bs => bs = bigEndian 2 w.toNat := by
  refine uses_byte.bind fun high _ first => uses_byte.bind fun low _ second => Uses.pure ?_
  subst first second
  have highBound := high.toNat_lt
  have lowBound := low.toNat_lt
  have value : (UInt16.ofNat (high.toNat * 256 + low.toNat)).toNat = high.toNat * 256 + low.toNat :=
    UInt16.toNat_ofNat_of_lt' (by change _ < 65536; omega)
  have upper : UInt8.ofNat ((high.toNat * 256 + low.toNat) / 256) = high := by
    apply UInt8.toNat_inj.mp
    rw [UInt8.toNat_ofNat']
    omega
  have lower : UInt8.ofNat (high.toNat * 256 + low.toNat) = low := by
    apply UInt8.toNat_inj.mp
    rw [UInt8.toNat_ofNat']
    omega
  rw [value]
  simp [bigEndian, upper, lower]

theorem bigEndian_words (high low : UInt16) :
    bigEndian 4 (high.toNat * 65536 + low.toNat) =
      bigEndian 2 high.toNat ++ bigEndian 2 low.toNat := by
  have bound := low.toNat_lt
  have upper : (high.toNat * 65536 + low.toNat) / 65536 = high.toNat := by omega
  have lower : bigEndian 2 (high.toNat * 65536 + low.toNat) = bigEndian 2 low.toNat := by
    simp only [bigEndian, List.nil_append, List.cons_append, List.cons.injEq, and_true,
      ← UInt8.toNat_inj, UInt8.toNat_ofNat']
    omega
  rw [bigEndian_four, upper, lower]

theorem uses_word32 : Uses word32 fun w bs => bs = bigEndian 4 w.toNat := by
  refine uses_word16.bind fun high _ first => uses_word16.bind fun low _ second => Uses.pure ?_
  subst first second
  have highBound := high.toNat_lt
  have lowBound := low.toNat_lt
  have value : (UInt32.ofNat (high.toNat * 65536 + low.toNat)).toNat =
      high.toNat * 65536 + low.toNat :=
    UInt32.toNat_ofNat_of_lt' (by change _ < 4294967296; omega)
  rw [value, bigEndian_words, List.append_nil]

/-- A quantity that has come to `value` goes on for as long as its bytes have their high bit
set, and ends with the first one that has not. -/
theorem uses_quantityFrom (value count : Nat) :
    Uses (quantityFrom value count) fun n bs => ∃ front last, bs = front ++ [last] ∧
      (∀ b ∈ front, 128 ≤ b) ∧ last < 128 ∧ front.length < count ∧
      n = bs.foldl (fun n b => n * 128 + b.toNat % 128) value := by
  induction count generalizing value with
  | zero => exact uses_offset.bind fun _ _ _ => Uses.throw _
  | succ count ih =>
    refine uses_byte.bind fun b _ single => ?_
    subst single
    by_cases ends : b < 128
    · simp only [ends, if_true]
      exact Uses.pure ⟨[], b, rfl, by simp, ends, by simp, rfl⟩
    · simp only [ends, if_false]
      refine (ih _).mono ?_
      rintro n bs ⟨front, last, rfl, goes_on, ends_last, short, rfl⟩
      refine ⟨b :: front, last, rfl, ?_, ends_last, Nat.succ_lt_succ short, rfl⟩
      intro c hc
      rcases List.mem_cons.mp hc with rfl | inFront
      · exact UInt8.not_lt.mp ends
      · exact goes_on c inFront

theorem uses_quantity : Uses quantity fun n bs => ∃ q : Quantity, q.bytes = bs ∧ q.value = n := by
  refine (uses_quantityFrom 0 4).mono ?_
  rintro n bs ⟨front, last, rfl, goes_on, ends, short, rfl⟩
  exact ⟨⟨front, last, goes_on, ends, Nat.le_of_lt_succ short⟩, rfl, rfl⟩

theorem uses_payload : Uses (quantity >>= bytes) fun payload bs =>
    ∃ length : Quantity, bs = length.bytes ++ payload ∧ length.value = payload.length := by
  refine uses_quantity.bind fun n _ ⟨length, spelt, value⟩ => (uses_bytes n).mono ?_
  rintro payload _ ⟨rfl, count⟩
  exact ⟨length, by rw [spelt], by rw [value, count]⟩

end Read

theorem one_le_dataLength {status : UInt8} (low : 128 ≤ status.toNat) (high : status.toNat < 240) :
    1 ≤ dataLength status := by
  apply Nat.pos_of_ne_zero
  intro empty
  obtain ⟨_, v⟩ := @exists_voice status [] low high empty
  exact v.data_ne_nil rfl

/-- A running status is the status byte of a channel message. -/
def RunningFits (running : Option UInt8) : Prop :=
  ∀ status ∈ running, 128 ≤ status.toNat ∧ status.toNat < 240

theorem RunningFits.none : RunningFits none := by
  intro status h
  cases h

namespace MessageWritten

variable {running next : Option UInt8} {message : Message} {bytes : List UInt8}

/-- Only a channel message changes the running status. -/
theorem fits (w : MessageWritten running message bytes next) (h : RunningFits running) :
    RunningFits next := by
  cases w with
  | voice means =>
    intro status same
    cases same
    exact means.status_range
  | runningVoice => exact h
  | system => exact h
  | metaEvent => exact h
  | sysEx => exact h

end MessageWritten

namespace Read

/-- A message of fixed length takes the data bytes that are missing. -/
theorem uses_messageOf_fixed (running : Option UInt8) {status : UInt8} (data : List UInt8)
    (notMeta : status ≠ 0xFF) (notSysEx : ¬(status = 0xF0 ∨ status = 0xF7)) :
    Uses (messageOf running status data) fun read more =>
      more.length = dataLength status - data.length ∧
        read = (.ofStatus status (data ++ more), if status < 0xF0 then some status else running) := by
  rw [messageOf, if_neg notMeta, if_neg notSysEx]
  refine (uses_eachByte _).bind fun more used h => Uses.pure ?_
  obtain ⟨rfl, length⟩ := h
  rw [List.append_nil]
  exact ⟨length, rfl⟩

/-- A message whose status byte has been read. -/
theorem uses_messageOf_status (running : Option UInt8) {status : UInt8} (high : 128 ≤ status) :
    Uses (messageOf running status []) fun read bs =>
      MessageWritten running read.1 (status :: bs) read.2 := by
  have high : 128 ≤ status.toNat := UInt8.le_iff_toNat_le.mp high
  have top := status.toNat_lt
  by_cases isMeta : status = 0xFF
  · rw [messageOf, if_pos isMeta, isMeta]
    refine uses_byte.bind fun kind _ single => uses_payload.bind fun payload used h => Uses.pure ?_
    obtain ⟨length, rfl, fits⟩ := h
    rw [single, List.append_nil]
    exact .metaEvent length fits
  by_cases isSysEx : status = 0xF0 ∨ status = 0xF7
  · rw [messageOf, if_neg isMeta, if_pos isSysEx]
    refine uses_payload.bind fun payload used h => Uses.pure ?_
    obtain ⟨length, rfl, fits⟩ := h
    rw [List.append_nil]
    exact .sysEx length isSysEx fits
  refine (uses_messageOf_fixed running [] isMeta isSysEx).mono ?_
  rintro read more ⟨length, rfl⟩
  by_cases isVoice : status < 0xF0
  · rw [if_pos isVoice]
    exact .voice (voice_iff.mpr ⟨high, UInt8.lt_iff_toNat_lt.mp isVoice, length.symm, rfl⟩)
  · have above : 240 ≤ status.toNat := UInt8.le_iff_toNat_le.mp (UInt8.not_lt.mp isVoice)
    simp only [← UInt8.toNat_inj] at isMeta isSysEx
    have s : System status more := by
      refine system_iff.mpr ⟨?_, ?_, ?_, length.symm⟩
      · change ¬(status.toNat = 240 ∨ status.toNat = 247) at isSysEx
        omega
      · change ¬status.toNat = 255 at isMeta
        omega
      · rintro rfl
        exact isSysEx (.inr rfl)
    rw [if_neg isVoice, List.nil_append, s.ofStatus_eq]
    exact .system s

/-- A message under a running status, whose first data byte has been read. -/
theorem uses_messageOf_running {status first : UInt8} (low : 128 ≤ status.toNat)
    (high : status.toNat < 240) (plain : first < 128) :
    Uses (messageOf (some status) status [first]) fun read bs =>
      MessageWritten (some status) read.1 (first :: bs) read.2 := by
  have notMeta : status ≠ 0xFF := by
    rintro rfl
    exact absurd high (by decide)
  have notSysEx : ¬(status = 0xF0 ∨ status = 0xF7) := by
    rintro (rfl | rfl)
    · exact absurd high (by decide)
    · exact absurd high (by decide)
  refine (uses_messageOf_fixed (some status) [first] notMeta notSysEx).mono ?_
  rintro read more ⟨length, rfl⟩
  have some_data := one_le_dataLength low high
  have complete : dataLength status = (first :: more).length := by
    simp only [List.length_cons, List.length_nil] at length ⊢
    omega
  have v := voice_iff.mpr ⟨low, high, complete, rfl⟩
  rw [if_pos (UInt8.lt_iff_toNat_lt.mpr high)]
  refine .runningVoice v ?_
  intro b here
  cases here
  exact plain

theorem uses_message {running : Option UInt8} (h : RunningFits running) :
    Uses (Read.message running) fun read bs => MessageWritten running read.1 bs read.2 := by
  refine uses_byte.bind fun first _ single => ?_
  subst single
  by_cases high : 128 ≤ first
  · rw [if_pos high]
    exact uses_messageOf_status running high
  · rw [if_neg high]
    cases running with
    | none => exact uses_offset.bind fun _ _ _ => Uses.throw _
    | some status =>
      obtain ⟨low, top⟩ := h status rfl
      exact uses_messageOf_running low top (UInt8.not_le.mp high)

theorem uses_trackEvent {running : Option UInt8} (h : RunningFits running) :
    Uses (trackEvent running) fun read bs => ∃ (delta : Quantity) (bytes : List UInt8),
      read.1.delta = delta.value ∧ bs = delta.bytes ++ bytes ∧
        MessageWritten running read.1.message bytes read.2 := by
  refine uses_quantity.bind fun n used ⟨delta, spelt, value⟩ =>
    (uses_message h).bind fun read bytes w => Uses.pure ?_
  exact ⟨delta, bytes, value.symm, by rw [spelt, List.append_nil], w⟩

/-- The events of a track use all bytes up to the place where its chunk stops. -/
theorem written_of_trackEvents {stop : Nat} {running : Option UInt8} {r r' : Reader} {track : Track}
    (h : RunningFits running) (read : trackEvents stop running r = .ok track r') :
    ∃ body, r.rest = body ++ r'.rest ∧ r'.offset = r.offset + body.length ∧ r'.offset = stop ∧
      TrackWritten running track body := by
  fun_induction trackEvents stop running r generalizing track with
  | case1 => cases read
  | case2 => cases read
  | case3 running r inside event next r₁ first events r₂ others ih =>
    cases read
    obtain ⟨used, split, moved, delta, bytes, spaced, rfl, w⟩ :=
      uses_trackEvent h r (event, next) r₁ first
    obtain ⟨body, split', moved', stopped, written⟩ := ih (w.fits h) others
    refine ⟨delta.bytes ++ (bytes ++ body), ?_, ?_, stopped, ?_⟩
    · simp only [split, split', List.append_assoc]
    · simp only [moved', moved, List.length_append]
      omega
    · have track := TrackWritten.cons delta w written
      rw [← spaced] at track
      exact track
  | case4 => cases read
  | case5 running r before after =>
    cases read
    exact ⟨[], rfl, rfl, by omega, .nil⟩

end Read

end KeyScore.Midi
