import KeyScore.Proofs.Midi.Layout
import Mathlib

/-!
# Data that is cut off, and data with more behind it

A file that is cut off anywhere either is refused or gives the tracks that are there, the last of
them as far as its events go; no event is made up. Where all tracks are there in full, what stands
behind them does not matter. Both compare the layouts of two data of which one is a prefix of the
other: the same chunks stand in both, and only the last one of the shorter data can be cut.
-/

namespace KeyScore.Midi

/-- The first tracks of a list, of which the last may lack events at its end. -/
inductive TracksBegin : List Track → List Track → Prop
  | none {whole : List Track} : TracksBegin [] whole
  | last {part track : Track} {whole : List Track} (cut : part <+: track) :
      TracksBegin [part] (track :: whole)
  | next {track : Track} {parts whole : List Track} (rest : TracksBegin parts whole) :
      TracksBegin (track :: parts) (track :: whole)

/-- The file has the same header and the first tracks of the other one. -/
structure File.Begins (part whole : File) : Prop where
  format : part.format = whole.format
  trackCount : part.trackCount = whole.trackCount
  division : part.division = whole.division
  tracks : TracksBegin part.tracks whole.tracks

/-- The events in the first bytes of a track are its first events. -/
theorem TrackWritten.prefix_of_append {running : Option UInt8} {track whole : Track}
    {body more : List UInt8} (w : TrackWritten running track body)
    (longer : TrackWritten running whole (body ++ more)) : track <+: whole := by
  induction w generalizing whole with
  | nil => exact List.nil_prefix
  | @cons running next message track bytes others delta first rest ih =>
    generalize written : delta.bytes ++ (bytes ++ others) ++ more = all at longer
    cases longer with
    | nil => simp [Quantity.bytes] at written
    | @cons _ next' message' _ bytes' others' delta' first' rest' =>
      -- the same bytes cannot be read as two events
      have same : delta.bytes ++ bytes ++ (others ++ more) =
          delta'.bytes ++ bytes' ++ others' := by
        simpa only [List.append_assoc] using written
      obtain ⟨read, behind⟩ :=
        (Read.reads_trackEvent delta first).unique (Read.reads_trackEvent delta' first') same
      obtain ⟨event, rfl⟩ := Prod.mk.inj read
      rw [event]
      rw [← behind] at rest'
      exact List.cons_prefix_cons.mpr ⟨rfl, ih rest'⟩

theorem TrackWritten.unique {running : Option UInt8} {track track' : Track} {body : List UInt8}
    (w : TrackWritten running track body) (w' : TrackWritten running track' body) :
    track = track' := by
  have read := Read.trackEvents_of_written w 0 []
  rw [Read.trackEvents_of_written w' 0 []] at read
  simp only [EStateM.Result.ok.injEq] at read
  exact read.1.symm

theorem word16_of_bigEndian {n m : UInt16} (same : bigEndian 2 n.toNat = bigEndian 2 m.toNat) :
    n = m := by
  have words := (Read.reads_word16 n.toNat).unique (Read.reads_word16 m.toNat)
    (congrArg (· ++ []) same)
  simpa only [UInt16.ofNat_toNat] using words.1

theorem word32_of_bigEndian {n m : UInt32} (same : bigEndian 4 n.toNat = bigEndian 4 m.toNat) :
    n = m := by
  have words := (Read.reads_word32 n.toNat).unique (Read.reads_word32 m.toNat)
    (congrArg (· ++ []) same)
  simpa only [UInt32.ofNat_toNat] using words.1

/-- A header says all that it is made from. -/
theorem fields_of_header {file file' : File} (same : header file = header file') :
    file.format = file'.format ∧ file.trackCount = file'.trackCount ∧
      file.division = file'.division := by
  have fields := List.append_cancel_left (List.append_cancel_left same)
  obtain ⟨format, fields⟩ := List.append_inj fields (by simp)
  obtain ⟨trackCount, division⟩ := List.append_inj fields (by simp)
  exact ⟨word16_of_bigEndian format, word16_of_bigEndian trackCount,
    word16_of_bigEndian division⟩

section Prefix

variable {part whole : List UInt8} {c c' : Chunk}

/-- Two prefixes of the same length are equal. -/
theorem eq_of_prefixes {α : Type} {xs ys zs : List α} (hx : xs <+: zs) (hy : ys <+: zs)
    (length : xs.length = ys.length) : xs = ys :=
  (List.prefix_of_prefix_length_le hx hy length.le).eq_of_length length

theorem extract_of_prefix (cut : part <+: whole) {start stop : Nat} (inside : stop ≤ part.length) :
    whole.extract start stop = part.extract start stop := by
  obtain ⟨more, rfl⟩ := cut
  rw [List.extract_eq_take_drop, List.extract_eq_take_drop, ← List.drop_take, ← List.drop_take,
    List.take_append_of_le_length inside]

theorem extract_prefix_extract (start : Nat) {stop stop' : Nat} (le : stop ≤ stop') :
    whole.extract start stop <+: whole.extract start stop' := by
  rw [List.extract_eq_take_drop, List.extract_eq_take_drop]
  exact List.take_prefix_take_left (Nat.sub_le_sub_right le start)

namespace Chunk.Stands

/-- A chunk that is there in full is there as well if more follows. -/
theorem onward (h : c.Stands part) (cut : part <+: whole)
    (full : c.start + 8 + c.declared.toNat ≤ part.length) :
    c.Stands whole ∧ c.stop whole = c.stop part := by
  have longer := cut.length_le
  have stop : c.stop whole = c.stop part := by
    rw [stop, stop]
    omega
  have inside : c.stop part ≤ part.length := Nat.min_le_right _ _
  refine ⟨⟨h.head.trans (cut.drop c.start), ?_⟩, stop⟩
  rw [stop, extract_of_prefix cut inside]
  exact h.body

/-- Chunks at the same place say the same, but that the shorter data may cut one off. -/
theorem compare (h : c.Stands part) (h' : c'.Stands whole) (cut : part <+: whole)
    (here : c.start = c'.start) :
    c.stop part = c'.stop whole ∧ c.track = c'.track ∨
      c.stop part = part.length ∧ c.track <+: c'.track := by
  have longer := cut.length_le
  have declared : c.declared = c'.declared := by
    have head := h.head.trans (cut.drop c.start)
    rw [here] at head
    have same := eq_of_prefixes head h'.head (by simp)
    exact word32_of_bigEndian (List.append_cancel_left same)
  have stop : c.stop part = min (c'.stop whole) part.length := by
    rw [Chunk.stop, Chunk.stop, here, declared]
    omega
  have inside : c.stop part ≤ part.length := Nat.min_le_right _ _
  have body := h.body
  rw [← extract_of_prefix cut inside, here] at body
  rcases Nat.le_total (c'.stop whole) part.length with full | short
  · rw [Nat.min_eq_left full] at stop
    rw [stop] at body
    exact .inl ⟨stop, body.unique h'.body⟩
  · rw [Nat.min_eq_right short] at stop
    have le : c.stop part ≤ c'.stop whole := stop ▸ short
    obtain ⟨more, rest⟩ : whole.extract (c'.start + 8) (c.stop part) <+:
        whole.extract (c'.start + 8) (c'.stop whole) := extract_prefix_extract _ le
    have longerBody := h'.body
    rw [← rest] at longerBody
    exact .inr ⟨stop, body.prefix_of_append longerBody⟩

end Chunk.Stands

/-- No chunk starts where the data ends. -/
theorem Laid.nil_of_end {offset stop : Nat} {chunks : List Chunk}
    (laid : Laid part offset chunks stop) (atEnd : offset = part.length) : chunks = [] := by
  cases laid with
  | nil => rfl
  | cons here stands rest =>
    have inside := stands.body_inside
    omega

/-- Chunks that are there in full are laid in the same way if more follows. -/
theorem Laid.onward {offset stop : Nat} {chunks : List Chunk} (laid : Laid part offset chunks stop)
    (cut : part <+: whole)
    (full : ∀ c ∈ chunks, c.start + 8 + c.declared.toNat ≤ part.length) :
    Laid whole offset chunks stop := by
  induction laid with
  | nil => exact .nil
  | cons here stands rest ih =>
    obtain ⟨first, others⟩ := List.forall_mem_cons.mp full
    obtain ⟨stands, stops⟩ := stands.onward cut first
    exact .cons here stands (stops ▸ ih others)

/-- The chunks of the shorter data are the first ones of the longer, and only the last of them can
lack events. -/
theorem Laid.tracksBegin {offset stop stop' count : Nat} {chunks chunks' : List Chunk}
    (laid : Laid part offset chunks stop) (laid' : Laid whole offset chunks' stop')
    (cut : part <+: whole) (few : chunks.length ≤ count)
    (total : chunks'.length = count ∨ chunks'.length < count ∧ stop' = whole.length) :
    TracksBegin (chunks.map Chunk.track) (chunks'.map Chunk.track) := by
  induction laid generalizing chunks' count with
  | nil => exact .none
  | @cons offset stop c chunks here stands rest ih =>
    cases laid' with
    | nil =>
      -- the longer data has a chunk wherever the shorter one has
      have inside := stands.body_inside
      have longer := cut.length_le
      simp only [List.length_cons, List.length_nil] at few total
      omega
    | @cons _ _ c' chunks' here' stands' rest' =>
      simp only [List.length_cons] at few total
      rcases stands.compare stands' cut (here.trans here'.symm) with ⟨stops, same⟩ | ⟨ends, part⟩
      · rw [List.map_cons, List.map_cons, same]
        rw [← stops] at rest'
        have few : chunks.length ≤ count - 1 := by omega
        exact .next (ih rest' few (by omega))
      · rw [rest.nil_of_end ends]
        exact .last part

end Prefix

/-- Bytes that are cut off are refused, or give a file that begins like the whole one. If all
tracks that are declared are there with their full lengths, whatever is put behind them gives the
same file. -/
theorem cut_off_and_trailing {bytes : List UInt8} {file : File}
    (accepted : decode bytes = .ok file) :
    (∀ part, part <+: bytes →
      (∃ fault, decode part = .error fault) ∨
        ∃ begun, decode part = .ok begun ∧ begun.Begins file) ∧
    ∀ chunks stop, Layout file bytes chunks stop → chunks.length = file.trackCount.toNat →
      (∀ c ∈ chunks, c.start + 8 + c.declared.toNat ≤ bytes.length) →
        ∀ more, decode (bytes ++ more) = .ok file := by
  constructor
  · intro part cut
    cases decoded : decode part with
    | error fault => exact .inl ⟨fault, rfl⟩
    | ok begun =>
      refine .inr ⟨begun, rfl, ?_⟩
      obtain ⟨chunks, stop, layout⟩ := decode_eq_ok_iff.mp decoded
      obtain ⟨chunks', stop', layout'⟩ := decode_eq_ok_iff.mp accepted
      obtain ⟨format, trackCount, division⟩ := fields_of_header
        (eq_of_prefixes (layout.header.trans cut) layout'.header (by simp [header]))
      have few : chunks.length ≤ file.trackCount.toNat := by
        have count := layout.count
        rw [trackCount] at count
        omega
      refine ⟨format, trackCount, division, ?_⟩
      rw [layout.tracks, layout'.tracks]
      exact layout.laid.tracksBegin layout'.laid cut few layout'.count
  · intro chunks stop layout count full more
    have cut : bytes <+: bytes ++ more := List.prefix_append bytes more
    exact decode_eq_ok_iff.mpr ⟨chunks, stop, layout.header.trans cut,
      layout.laid.onward cut full, layout.tracks, .inl count⟩

/-- Two tracks are there in full, the second one with a running status. -/
def wholeBytes : List UInt8 :=
  [0x4D, 0x54, 0x68, 0x64, 0, 0, 0, 6, 0, 1, 0, 2, 0, 96,
    0x4D, 0x54, 0x72, 0x6B, 0, 0, 0, 4,
    0, 0xFF, 0x2F, 0,
    0x4D, 0x54, 0x72, 0x6B, 0, 0, 0, 7,
    0, 0x90, 60, 100,
    96, 60, 0]

def wholeFile : File :=
  ⟨1, 2, 96, [[⟨0, .metaEvent 0x2F []⟩], [⟨0, .noteOn 0 60 100⟩, ⟨96, .noteOff 0 60 0⟩]]⟩

def wholeChunks : List Chunk :=
  [⟨14, 4, [⟨0, .metaEvent 0x2F []⟩]⟩, ⟨26, 7, [⟨0, .noteOn 0 60 100⟩, ⟨96, .noteOff 0 60 0⟩]⟩]

theorem layout_wholeBytes : Layout wholeFile wholeBytes wholeChunks 41 := by
  have noDelta : ∀ b ∈ ([] : List UInt8), 128 ≤ b := by simp
  have ending : MessageWritten none (.metaEvent 0x2F []) [0xFF, 0x2F, 0] none :=
    .metaEvent ⟨[], 0, noDelta, by decide, by decide⟩ rfl
  have noteOn : MessageWritten none (.noteOn 0 60 100) [0x90, 60, 100] (some 0x90) :=
    .voice (@Voice.noteOn 0 60 100 (by decide) (by decide))
  have noteOff : MessageWritten (some 0x90) (.noteOff 0 60 0) [60, 0] (some 0x90) :=
    .runningVoice (@Voice.silentNoteOn 0 60 (by decide)) (by simp)
  have first := TrackWritten.cons ⟨[], 0, noDelta, by decide, by decide⟩ ending .nil
  have second := TrackWritten.cons ⟨[], 0, noDelta, by decide, by decide⟩ noteOn
    (.cons ⟨[], 96, noDelta, by decide, by decide⟩ noteOff .nil)
  exact {
    header := ⟨_, rfl⟩
    laid := .cons rfl ⟨⟨_, rfl⟩, first⟩ (.cons rfl ⟨⟨_, rfl⟩, second⟩ .nil)
    tracks := rfl
    count := .inl rfl }

/-- Cut off between the two notes the file is accepted without the second one, inside of it not at
all; a stray data byte behind the file is not looked at. -/
theorem wholeBytes_cut :
    decode wholeBytes = .ok wholeFile ∧
      decode (wholeBytes.take 38) =
        .ok { wholeFile with tracks := [[⟨0, .metaEvent 0x2F []⟩], [⟨0, .noteOn 0 60 100⟩]] } ∧
      (∃ begun, decode (wholeBytes.take 38) = .ok begun ∧ begun.Begins wholeFile) ∧
      (∃ fault, decode (wholeBytes.take 40) = .error fault) ∧
      decode (wholeBytes ++ [60]) = .ok wholeFile := by
  have accepted : decode wholeBytes = .ok wholeFile := by cbv
  have cut : decode (wholeBytes.take 38) = .ok { wholeFile with
      tracks := [[⟨0, .metaEvent 0x2F []⟩], [⟨0, .noteOn 0 60 100⟩]] } := by cbv
  have refused : decode (wholeBytes.take 40) = .error .endOfData := by cbv
  obtain ⟨begins, trailing⟩ := cut_off_and_trailing accepted
  refine ⟨accepted, cut, ?_, ⟨_, refused⟩, ?_⟩
  · rcases begins _ (List.take_prefix 38 wholeBytes) with ⟨fault, failed⟩ | begun
    · rw [cut] at failed
      cases failed
    · exact begun
  · refine trailing wholeChunks 41 layout_wholeBytes rfl ?_ [60]
    exact List.forall_mem_cons.mpr ⟨by decide, List.forall_mem_singleton.mpr (by decide)⟩

end KeyScore.Midi
