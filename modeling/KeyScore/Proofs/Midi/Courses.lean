import KeyScore.Proofs.Midi.Reads
import Mathlib.Tactic.Choose

/-!
# Reads as courses

Every read asks the data for one byte or for some bytes at once, looks where it stands, and goes on
with the answers; nothing else touches the data. A `Course` writes this down as a tree. That the
reads of the decoder are courses is shown function by function. What holds for every course can then
be shown by one induction, for all reads at once and wherever they stop.
-/

namespace KeyScore.Midi

theorem Reader.atEnd_iff (r : Reader) : r.atEnd = true ↔ r.rest.length = 0 := by
  rw [atEnd, List.isEmpty_iff, List.length_eq_zero_iff]

/-- What is asked of the data one after the other, and how to go on with each answer. -/
inductive Course (α : Type) where
  | done (a : α)
  | fail (fault : Fault)
  | byte (next : UInt8 → Course α)
  /-- So many bytes at once, and what to do if there are fewer. -/
  | bytes (count : Nat) (next : List UInt8 → Course α) (fewer : Course α)
  /-- Where the reader stands, and where the data ends. -/
  | look (next : Nat → Nat → Course α)

namespace Course

variable {α β : Type}

/-- The course as a read. -/
def read : Course α → Read α
  | done a => pure a
  | fail fault => throw fault
  | byte next => Read.byte >>= fun b => (next b).read
  | bytes count next fewer => fun r =>
    match Read.bytes count r with
    | .ok bs r => (next bs).read r
    | .error _ r => fewer.read r
  | look next => fun r => (next r.offset (r.offset + r.rest.length)).read r

/-- One course after the other. -/
def bind : Course α → (α → Course β) → Course β
  | done a, f => f a
  | fail fault, _ => fail fault
  | byte next, f => byte fun b => (next b).bind f
  | bytes count next fewer, f => bytes count (fun bs => (next bs).bind f) (fewer.bind f)
  | look next, f => look fun offset stop => (next offset stop).bind f

theorem read_look (next : Nat → Nat → Course α) (r : Reader) :
    (look next).read r = (next r.offset (r.offset + r.rest.length)).read r := rfl

section Bytes

variable {count : Nat} {next : List UInt8 → Course α} {fewer : Course α} {r r' : Reader}

theorem read_bytes_of_ok {bs : List UInt8} (h : Read.bytes count r = .ok bs r') :
    (bytes count next fewer).read r = (next bs).read r' := by
  simp only [read, h]

theorem read_bytes_of_error {fault : Fault} (h : Read.bytes count r = .error fault r') :
    (bytes count next fewer).read r = fewer.read r' := by
  simp only [read, h]

end Bytes

theorem bind_congr_at {p p' : Read α} {r r' : Reader} (same : p r = p' r') (q : α → Read β) :
    (p >>= q) r = (p' >>= q) r' := by
  change EStateM.bind p q r = EStateM.bind p' q r'
  unfold EStateM.bind
  rw [same]

theorem read_bind (c : Course α) (f : α → Course β) :
    (c.bind f).read = c.read >>= fun a => (f a).read := by
  induction c with
  | done a => rfl
  | fail fault => rfl
  | byte next ih =>
    rw [bind, read, read, bind_assoc]
    exact congrArg _ (funext ih)
  | bytes count next fewer ih ih' =>
    funext r
    cases asked : Read.bytes count r with
    | ok bs r' =>
      exact (read_bytes_of_ok asked).trans ((congrFun (ih bs) r').trans
        (bind_congr_at (read_bytes_of_ok asked).symm _))
    | error fault r' =>
      exact (read_bytes_of_error asked).trans ((congrFun ih' r').trans
        (bind_congr_at (read_bytes_of_error asked).symm _))
  | look next ih =>
    funext r
    exact congrFun (ih _ _) r

end Course

namespace Read

/-- The read does nothing but what some course says. -/
def IsCourse {α : Type} (p : Read α) : Prop := ∃ c : Course α, c.read = p

namespace IsCourse

variable {α β : Type}

theorem pure (a : α) : IsCourse (Pure.pure a : Read α) := ⟨.done a, rfl⟩

theorem throw (fault : Fault) : IsCourse (MonadExcept.throw fault : Read α) := ⟨.fail fault, rfl⟩

theorem bind {p : Read α} {q : α → Read β} (hp : IsCourse p) (hq : ∀ a, IsCourse (q a)) :
    IsCourse (p >>= q) := by
  obtain ⟨c, rfl⟩ := hp
  choose f read using hq
  exact ⟨c.bind f, by rw [Course.read_bind, funext read]⟩

/-- How to go on may depend on where the reader stands and on how much lies ahead. -/
theorem look {p : Read α} (h : ∀ offset stop, ∃ c : Course α, ∀ r,
    r.offset = offset → r.offset + r.rest.length = stop → c.read r = p r) : IsCourse p := by
  choose next same using h
  exact ⟨.look next, funext fun r => same _ _ r rfl rfl⟩

end IsCourse

theorem isCourse_offset : IsCourse offset := ⟨.look fun offset _ => .done offset, rfl⟩

theorem isCourse_byte : IsCourse byte := ⟨.byte .done, bind_pure _⟩

theorem isCourse_bytes (count : Nat) : IsCourse (bytes count) := by
  refine ⟨.bytes count .done (.fail .endOfData), funext fun r => ?_⟩
  cases asked : bytes count r with
  | ok bs r' => exact Course.read_bytes_of_ok asked
  | error fault r' =>
    rw [Course.read_bytes_of_error asked]
    simp only [bytes] at asked
    split at asked
    · cases asked
    · cases asked
      rfl

theorem isCourse_eachByte (count : Nat) : IsCourse (eachByte count) := by
  induction count with
  | zero => exact .pure _
  | succ count ih => exact isCourse_byte.bind fun _ => ih.bind fun _ => .pure _

theorem isCourse_word16 : IsCourse word16 :=
  isCourse_byte.bind fun _ => isCourse_byte.bind fun _ => .pure _

theorem isCourse_word32 : IsCourse word32 :=
  isCourse_word16.bind fun _ => isCourse_word16.bind fun _ => .pure _

theorem isCourse_quantityFrom (value count : Nat) : IsCourse (quantityFrom value count) := by
  induction count generalizing value with
  | zero => exact isCourse_offset.bind fun _ => .throw _
  | succ count ih =>
    refine isCourse_byte.bind fun b => ?_
    by_cases ends : b < 128
    · simp only [ends, if_true]
      exact .pure _
    · simp only [ends, if_false]
      exact ih _

theorem isCourse_quantity : IsCourse quantity := isCourse_quantityFrom 0 4

theorem isCourse_messageOf (running : Option UInt8) (status : UInt8) (data : List UInt8) :
    IsCourse (messageOf running status data) := by
  have payload : IsCourse (quantity >>= bytes) := isCourse_quantity.bind fun _ => isCourse_bytes _
  unfold messageOf
  split
  · exact isCourse_byte.bind fun _ => payload.bind fun _ => .pure _
  · split
    · exact payload.bind fun _ => .pure _
    · exact (isCourse_eachByte _).bind fun _ => .pure _

theorem isCourse_message (running : Option UInt8) : IsCourse (message running) := by
  refine isCourse_byte.bind fun first => ?_
  split
  · exact isCourse_messageOf _ _ _
  · split
    · exact isCourse_messageOf _ _ _
    · exact isCourse_offset.bind fun _ => .throw _

theorem isCourse_trackEvent (running : Option UInt8) : IsCourse (trackEvent running) :=
  isCourse_quantity.bind fun _ => (isCourse_message _).bind fun _ => .pure _

theorem bind_of_error {α β : Type} {p : Read α} {r r' : Reader} {fault : Fault}
    (h : p r = .error fault r') (q : α → Read β) : (p >>= q) r = .error fault r' := by
  change EStateM.bind p q r = _
  unfold EStateM.bind
  rw [h]

theorem trackEvents_of_inside {stop : Nat} {running : Option UInt8} {r : Reader}
    (inside : r.offset < stop) :
    trackEvents stop running r =
      (trackEvent running >>= fun next => (trackEvents stop next.2 : Read Track) >>= fun events =>
        Pure.pure (next.1 :: events)) r := by
  rw [trackEvents, if_pos inside]
  split
  · rename_i failed
    exact (bind_of_error failed _).symm
  · rename_i event
    rw [bind_of_ok event]
    split
    · rename_i failed
      exact (bind_of_error failed _).symm
    · rename_i others
      rw [bind_of_ok others]
      rfl

/-- One event more than there are bytes ahead is as far as any track goes. -/
theorem exists_course_trackEvents (most stop : Nat) (running : Option UInt8) :
    ∃ c : Course Track, ∀ r, r.rest.length < most → c.read r = trackEvents stop running r := by
  induction most generalizing running with
  | zero => exact ⟨.fail .endOfData, fun r none => absurd none (Nat.not_lt_zero _)⟩
  | succ most ih =>
    obtain ⟨first, read⟩ := isCourse_trackEvent running
    choose others same using ih
    refine ⟨.look fun offset _ =>
      if offset < stop then
        first.bind fun next => (others next.2).bind fun events => .done (next.1 :: events)
      else if stop < offset then .fail (.overrun stop) else .done [], fun r few => ?_⟩
    rw [Course.read_look]
    by_cases inside : r.offset < stop
    · rw [if_pos inside, Course.read_bind, read, trackEvents_of_inside inside]
      cases atFirst : trackEvent running r with
      | error fault r' => rw [bind_of_error atFirst, bind_of_error atFirst]
      | ok next r' =>
        have fewer : r'.rest.length < most :=
          Nat.lt_of_lt_of_le (consumes_trackEvent running r next r' atFirst)
            (Nat.le_of_lt_succ few)
        rw [bind_of_ok atFirst, bind_of_ok atFirst, Course.read_bind]
        exact Course.bind_congr_at (same next.2 r' fewer) _
    · rw [if_neg inside, trackEvents, if_neg inside]
      split
      · rfl
      · rfl

theorem isCourse_trackEvents (stop : Nat) (running : Option UInt8) :
    IsCourse (trackEvents stop running) := by
  refine .look fun offset length => ?_
  obtain ⟨c, same⟩ := exists_course_trackEvents (length + 1) stop running
  exact ⟨c, fun r _ whole => same r (by omega)⟩

theorem isCourse_track : IsCourse track := by
  refine isCourse_offset.bind fun start => (isCourse_bytes 4).bind fun tag => ?_
  have body : IsCourse (word32 >>= fun length r =>
      trackEvents (min (r.offset + length.toNat) (r.offset + r.rest.length)) none r) := by
    refine isCourse_word32.bind fun length => .look fun offset stop => ?_
    obtain ⟨c, same⟩ := isCourse_trackEvents (min (offset + length.toNat) stop) none
    refine ⟨c, fun r here whole => ?_⟩
    subst here whole
    exact congrFun same r
  split
  · exact .throw _
  · exact body

theorem isCourse_tracks (count : Nat) : IsCourse (tracks count) := by
  induction count with
  | zero => exact .pure _
  | succ count ih =>
    obtain ⟨c, read⟩ : IsCourse (track >>= fun first => tracks count >>= fun others =>
        Pure.pure (first :: others)) :=
      isCourse_track.bind fun _ => ih.bind fun _ => .pure _
    refine .look fun offset stop =>
      ⟨if stop = offset then .done [] else c, fun r here whole => ?_⟩
    have atEnd : r.atEnd = true ↔ stop = offset := by
      rw [Reader.atEnd_iff]
      omega
    change _ = (if r.atEnd = true then pure [] else _ : Read _) r
    simp only [atEnd]
    split
    · rfl
    · exact congrFun read r

theorem isCourse_fileTag : IsCourse fileTag := by
  refine ⟨.bytes 4 .done (.fail .noHeader), funext fun r => ?_⟩
  unfold fileTag
  split
  · rename_i asked
    exact Course.read_bytes_of_ok asked
  · rename_i asked
    exact Course.read_bytes_of_error asked

/-- A whole file is read by one course. -/
theorem isCourse_file : IsCourse file := by
  have header : IsCourse (word16 >>= fun format => word16 >>= fun trackCount =>
      word16 >>= fun division => tracks trackCount.toNat >>= fun tracks =>
        Pure.pure (⟨format, trackCount, division, tracks⟩ : File)) :=
    isCourse_word16.bind fun _ => isCourse_word16.bind fun _ => isCourse_word16.bind fun _ =>
      (isCourse_tracks _).bind fun _ => .pure _
  refine isCourse_fileTag.bind fun tag => ?_
  split
  · exact .throw _
  · refine isCourse_word32.bind fun length => ?_
    split
    · exact .throw _
    · exact header

end Read

end KeyScore.Midi
