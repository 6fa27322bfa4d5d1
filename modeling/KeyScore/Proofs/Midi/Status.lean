import KeyScore.Proofs.Midi.Written

/-!
# Status bytes

The decoder takes a status byte apart by arithmetic. It agrees with the tables of channel
messages and of system messages, and the tables leave no status byte out.
-/

namespace KeyScore.Midi

/-- A channel leaves the high half of a status byte alone. -/
theorem toNat_of_channel (base : UInt8) (family : Nat) {channel : UInt8} (h : channel < 16)
    (high : base.toNat = 16 * family) : (base + channel).toNat = 16 * family + channel.toNat := by
  have small : channel.toNat < 16 := h
  have bound := base.toNat_lt
  rw [UInt8.toNat_add]
  omega

theorem family_of_channel (base : UInt8) (family : Nat) {channel : UInt8} (h : channel < 16)
    (high : base.toNat = 16 * family) : (base + channel).toNat / 16 = family := by
  have small : channel.toNat < 16 := h
  have sum := toNat_of_channel base family h high
  omega

theorem channel_of_status (base : UInt8) (family : Nat) {channel : UInt8} (h : channel < 16)
    (high : base.toNat = 16 * family) : (base + channel) % 16 = channel := by
  have small : channel.toNat < 16 := h
  have sum := toNat_of_channel base family h high
  apply UInt8.toNat_inj.mp
  change (base + channel).toNat % 16 = channel.toNat
  omega

theorem exists_channel (base : UInt8) {family : Nat} (high : base.toNat = 16 * family)
    {status : UInt8} (h : status.toNat / 16 = family) :
    ∃ channel : UInt8, channel < 16 ∧ status = base + channel := by
  have bound := status.toNat_lt
  have rest : (status % 16).toNat = status.toNat % 16 := rfl
  refine ⟨status % 16, ?_, ?_⟩
  · apply UInt8.lt_iff_toNat_lt.mpr
    rw [rest]
    exact Nat.mod_lt _ (by decide)
  · apply UInt8.toNat_inj.mp
    rw [UInt8.toNat_add, rest]
    omega

namespace Voice

variable {status : UInt8} {data : List UInt8} {message : Message}

theorem ofStatus_eq (v : Voice status data message) : Message.ofStatus status data = message := by
  cases v with
  | noteOff h =>
    simp only [Message.ofStatus, family_of_channel 0x80 8 h rfl, channel_of_status 0x80 8 h rfl]
  | noteOn h sounds =>
    simp only [Message.ofStatus, family_of_channel 0x90 9 h rfl, channel_of_status 0x90 9 h rfl]
    exact if_neg sounds
  | silentNoteOn h =>
    simp only [Message.ofStatus, family_of_channel 0x90 9 h rfl, channel_of_status 0x90 9 h rfl,
      if_true]
  | keyPressure h => simp only [Message.ofStatus, family_of_channel 0xA0 10 h rfl]
  | controlChange h =>
    simp only [Message.ofStatus, family_of_channel 0xB0 11 h rfl, channel_of_status 0xB0 11 h rfl]
  | programChange h =>
    simp only [Message.ofStatus, family_of_channel 0xC0 12 h rfl, channel_of_status 0xC0 12 h rfl]
  | channelPressure h => simp only [Message.ofStatus, family_of_channel 0xD0 13 h rfl]
  | pitchBend h => simp only [Message.ofStatus, family_of_channel 0xE0 14 h rfl]

theorem dataLength_eq (v : Voice status data message) : dataLength status = data.length := by
  cases v with
  | noteOff h => rw [dataLength, family_of_channel 0x80 8 h rfl]; rfl
  | noteOn h => rw [dataLength, family_of_channel 0x90 9 h rfl]; rfl
  | silentNoteOn h => rw [dataLength, family_of_channel 0x90 9 h rfl]; rfl
  | keyPressure h => rw [dataLength, family_of_channel 0xA0 10 h rfl]; rfl
  | controlChange h => rw [dataLength, family_of_channel 0xB0 11 h rfl]; rfl
  | programChange h => rw [dataLength, family_of_channel 0xC0 12 h rfl]; rfl
  | channelPressure h => rw [dataLength, family_of_channel 0xD0 13 h rfl]; rfl
  | pitchBend h => rw [dataLength, family_of_channel 0xE0 14 h rfl]; rfl

theorem status_range (v : Voice status data message) :
    128 ≤ status.toNat ∧ status.toNat < 240 := by
  have family : 8 ≤ status.toNat / 16 ∧ status.toNat / 16 ≤ 14 := by
    cases v with
    | noteOff h => rw [family_of_channel 0x80 8 h rfl]; decide
    | noteOn h => rw [family_of_channel 0x90 9 h rfl]; decide
    | silentNoteOn h => rw [family_of_channel 0x90 9 h rfl]; decide
    | keyPressure h => rw [family_of_channel 0xA0 10 h rfl]; decide
    | controlChange h => rw [family_of_channel 0xB0 11 h rfl]; decide
    | programChange h => rw [family_of_channel 0xC0 12 h rfl]; decide
    | channelPressure h => rw [family_of_channel 0xD0 13 h rfl]; decide
    | pitchBend h => rw [family_of_channel 0xE0 14 h rfl]; decide
  omega

theorem data_ne_nil (v : Voice status data message) : data ≠ [] := by
  rintro rfl
  cases v

end Voice

theorem exists_voice {status : UInt8} {data : List UInt8} (low : 128 ≤ status.toNat)
    (high : status.toNat < 240) (length : dataLength status = data.length) :
    ∃ message, Voice status data message := by
  have families : status.toNat / 16 = 8 ∨ status.toNat / 16 = 9 ∨ status.toNat / 16 = 10 ∨
      status.toNat / 16 = 11 ∨ status.toNat / 16 = 12 ∨ status.toNat / 16 = 13 ∨
      status.toNat / 16 = 14 := by
    omega
  rcases families with family | family | family | family | family | family | family
  · obtain ⟨channel, h, rfl⟩ := exists_channel 0x80 rfl family
    rw [dataLength, family] at length
    match data, length with
    | [_, _], _ => exact ⟨_, .noteOff h⟩
  · obtain ⟨channel, h, rfl⟩ := exists_channel 0x90 rfl family
    rw [dataLength, family] at length
    match data, length with
    | [_, velocity], _ =>
      by_cases silent : velocity = 0
      · rw [silent]
        exact ⟨_, .silentNoteOn h⟩
      · exact ⟨_, .noteOn h silent⟩
  · obtain ⟨channel, h, rfl⟩ := exists_channel 0xA0 rfl family
    rw [dataLength, family] at length
    match data, length with
    | [_, _], _ => exact ⟨_, .keyPressure h⟩
  · obtain ⟨channel, h, rfl⟩ := exists_channel 0xB0 rfl family
    rw [dataLength, family] at length
    match data, length with
    | [_, _], _ => exact ⟨_, .controlChange h⟩
  · obtain ⟨channel, h, rfl⟩ := exists_channel 0xC0 rfl family
    rw [dataLength, family] at length
    match data, length with
    | [_], _ => exact ⟨_, .programChange h⟩
  · obtain ⟨channel, h, rfl⟩ := exists_channel 0xD0 rfl family
    rw [dataLength, family] at length
    match data, length with
    | [_], _ => exact ⟨_, .channelPressure h⟩
  · obtain ⟨channel, h, rfl⟩ := exists_channel 0xE0 rfl family
    rw [dataLength, family] at length
    match data, length with
    | [_, _], _ => exact ⟨_, .pitchBend h⟩

/-- A channel message is any status byte below the system ones with as much data as the decoder
would read. -/
theorem voice_iff {status : UInt8} {data : List UInt8} {message : Message} :
    Voice status data message ↔
      128 ≤ status.toNat ∧ status.toNat < 240 ∧ dataLength status = data.length ∧
        Message.ofStatus status data = message := by
  constructor
  · intro v
    obtain ⟨low, high⟩ := v.status_range
    exact ⟨low, high, v.dataLength_eq, v.ofStatus_eq⟩
  · rintro ⟨low, high, length, rfl⟩
    obtain ⟨message, v⟩ := exists_voice low high length
    rw [v.ofStatus_eq]
    exact v

namespace System

variable {status : UInt8} {data : List UInt8}

theorem status_range (s : System status data) :
    240 < status.toNat ∧ status.toNat < 255 ∧ status ≠ 0xF7 := by
  cases s with
  | quarterFrame => decide
  | songPosition => decide
  | songSelect => decide
  | bare low high notEscape =>
    have above : 0xF4 ≤ status.toNat := low
    have below : status.toNat ≤ 0xFE := high
    exact ⟨by omega, by omega, notEscape⟩

theorem dataLength_eq (s : System status data) : dataLength status = data.length := by
  cases s with
  | quarterFrame => rfl
  | songPosition => rfl
  | songSelect => rfl
  | bare low high =>
    have above : 0xF4 ≤ status.toNat := low
    have below : status.toNat ≤ 0xFE := high
    have family : status.toNat / 16 = 15 := by omega
    have notTwo : status ≠ 0xF2 := by
      rintro rfl
      exact absurd above (by decide)
    have notOne : ¬(status = 0xF1 ∨ status = 0xF3) := by
      rintro (rfl | rfl)
      · exact absurd above (by decide)
      · exact absurd above (by decide)
    simp only [dataLength, family, if_neg notTwo, if_neg notOne]
    rfl

theorem ofStatus_eq (s : System status data) :
    Message.ofStatus status data = .unknown status data := by
  have range := s.status_range
  have family : status.toNat / 16 = 15 := by omega
  simp only [Message.ofStatus, family]

end System

theorem system_of_length {status : UInt8} {data : List UInt8} (low : 240 < status.toNat)
    (high : status.toNat < 255) (notEscape : status ≠ 0xF7)
    (length : dataLength status = data.length) : System status data := by
  by_cases quarterFrame : status = 0xF1
  · subst quarterFrame
    match data, length with
    | [part], _ => exact .quarterFrame part
  by_cases songPosition : status = 0xF2
  · subst songPosition
    match data, length with
    | [low, high], _ => exact .songPosition low high
  by_cases songSelect : status = 0xF3
  · subst songSelect
    match data, length with
    | [song], _ => exact .songSelect song
  have above : 0xF4 ≤ status := by
    simp only [← UInt8.toNat_inj] at quarterFrame songPosition songSelect
    apply UInt8.le_iff_toNat_le.mpr
    change 244 ≤ status.toNat
    change ¬status.toNat = 241 at quarterFrame
    change ¬status.toNat = 242 at songPosition
    change ¬status.toNat = 243 at songSelect
    omega
  have below : status ≤ 0xFE := Nat.le_of_lt_succ high
  have none := (System.bare above below notEscape).dataLength_eq
  rw [none] at length
  rw [List.eq_nil_of_length_eq_zero length.symm]
  exact .bare above below notEscape

/-- A system message of fixed length is any other status byte that has no length written out. -/
theorem system_iff {status : UInt8} {data : List UInt8} :
    System status data ↔
      240 < status.toNat ∧ status.toNat < 255 ∧ status ≠ 0xF7 ∧
        dataLength status = data.length := by
  constructor
  · intro s
    obtain ⟨low, high, notEscape⟩ := s.status_range
    exact ⟨low, high, notEscape, s.dataLength_eq⟩
  · rintro ⟨low, high, notEscape, length⟩
    exact system_of_length low high notEscape length

end KeyScore.Midi
