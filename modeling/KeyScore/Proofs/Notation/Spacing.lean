import KeyScore.Proofs.Notation.Gaps
import KeyScore.Proofs.Rests
import Mathlib

/-!
# Blanks that are passed over

A dash after a passed over blank is a key and not a tie, and pipes on either side of a blank are
two rests. So whether blanks are left out or passed over is heard exactly where a blank cuts a
run of dashes, or, if pipes weigh nothing, a run of pipes.
-/

namespace KeyScore.Notation

namespace Token

/-- Closing the gap between two tokens is heard: the second becomes a tie of the first, or two
rests of the least length become one. -/
def Sticks (pipeWeight : UInt32) : Token → Token → Prop
  | press _ _, press next _ | chord _ _, press next _ => next = '-'
  | pipes _, pipes _ => pipeWeight = 0
  | _, _ => False

instance (pipeWeight : UInt32) (t u : Token) : Decidable (Sticks pipeWeight t u) :=
  match t, u with
  | press _ _, press _ _ | chord _ _, press _ _ | pipes _, pipes _ =>
    inferInstanceAs (Decidable (_ = _))
  | press _ _, chord _ _ | press _ _, pipes _ | press _ _, inert _ | chord _ _, chord _ _
  | chord _ _, pipes _ | chord _ _, inert _ | pipes _, press _ _ | pipes _, chord _ _
  | pipes _, inert _ | inert _, _ => inferInstanceAs (Decidable False)

/-- What tokens play, one after the other. -/
def play (pipeWeight : UInt32) (tokens : List Token) : List Event :=
  mergeRests (tokens.filterMap (event? pipeWeight))

section Closing

variable {w : UInt32} {t u v x : Token} {tokens : List Token}

/-- The three ways in which tokens become one. -/
theorem fuse?_cases (h : t.fuse? u = some v) :
    (∃ key ties more, t = press key ties ∧ u = press '-' more ∧
        v = press key (ties + (more + 1))) ∨
      (∃ keys ties more, t = chord keys ties ∧ u = press '-' more ∧
        v = chord keys (ties + (more + 1))) ∨
      ∃ count more, t = pipes count ∧ u = pipes more ∧ v = pipes (count + more) := by
  match t, u with
  | press key ties, press next more =>
    rw [fuse?] at h
    split at h
    · subst next
      exact .inl ⟨key, ties, more, rfl, rfl, (Option.some.inj h).symm⟩
    · cases h
  | chord keys ties, press next more =>
    rw [fuse?] at h
    split at h
    · subst next
      exact .inr (.inl ⟨keys, ties, more, rfl, rfl, (Option.some.inj h).symm⟩)
    · cases h
  | pipes count, pipes more =>
    exact .inr (.inr ⟨count, more, rfl, rfl, (Option.some.inj h).symm⟩)

/-- What a token sticks to is decided by how it starts, and that is kept. -/
theorem sticks_of_fused (h : u.fuse? x = some v) : Sticks w t v ↔ Sticks w t u := by
  obtain ⟨key, ties, more, rfl, rfl, rfl⟩ | ⟨keys, ties, more, rfl, rfl, rfl⟩ |
    ⟨count, more, rfl, rfl, rfl⟩ := fuse?_cases h
  all_goals cases t <;> rfl

theorem Sticks.exists_fused (h : Sticks w t u) : ∃ v, t.fuse? u = some v := by
  match t, u with
  | press key ties, press next more => exact ⟨_, if_pos h⟩
  | chord keys ties, press next more => exact ⟨_, if_pos h⟩
  | pipes count, pipes more => exact ⟨_, rfl⟩

theorem Proper.fused (h : t.fuse? u = some v) (left : t.Proper) (right : u.Proper) :
    v.Proper := by
  obtain ⟨key, ties, more, rfl, rfl, rfl⟩ | ⟨keys, ties, more, rfl, rfl, rfl⟩ |
    ⟨count, more, rfl, rfl, rfl⟩ := fuse?_cases h
  · exact left
  · exact left
  · exact Nat.le_add_right_of_le left

/-- With its gaps closed a list still starts with what it started with. -/
theorem exists_foldr_join (u : Token) (tokens : List Token) :
    ∃ v rest, (u :: tokens).foldr join [] = v :: rest ∧
      ∀ (w : UInt32) (t : Token), Sticks w t v ↔ Sticks w t u := by
  rw [List.foldr_cons]
  cases tokens.foldr join [] with
  | nil => exact ⟨u, [], rfl, fun _ _ => Iff.rfl⟩
  | cons x rest =>
    rw [join]
    split
    · exact ⟨_, rest, rfl, fun _ _ => sticks_of_fused ‹_›⟩
    · exact ⟨u, x :: rest, rfl, fun _ _ => Iff.rfl⟩

theorem proper_foldr_join (proper : ∀ t ∈ tokens, t.Proper) :
    ∀ t ∈ tokens.foldr join [], t.Proper := by
  induction tokens with
  | nil => simp
  | cons t tokens ih =>
    obtain ⟨first, others⟩ := List.forall_mem_cons.mp proper
    have later := ih others
    rw [List.foldr_cons]
    cases rest : tokens.foldr join [] with
    | nil => simpa [join] using first
    | cons u rest =>
      rw [rest] at later
      obtain ⟨next, later⟩ := List.forall_mem_cons.mp later
      rw [join]
      split
      · exact List.forall_mem_cons.mpr ⟨first.fused ‹_› next, later⟩
      · exact List.forall_mem_cons.mpr ⟨first, List.forall_mem_cons.mpr ⟨next, later⟩⟩

theorem play_cons (t : Token) (tokens : List Token) :
    play w (t :: tokens) =
      (t.event? w).elim (play w tokens) fun e => consMerged e (play w tokens) := by
  rw [play, List.filterMap_cons]
  cases t.event? w <;> rfl

/-- Gaps are silent. -/
theorem play_filter_gap (tokens : List Token) :
    play w (tokens.filter fun t => !t.isGap) = play w tokens := by
  induction tokens with
  | nil => rfl
  | cons t tokens ih =>
    cases gap : t.isGap with
    | false => rw [List.filter_cons, gap, Bool.not_false, if_pos rfl, play_cons, ih, play_cons]
    | true =>
      cases t with
      | inert c =>
        rw [List.filter_cons, gap, Bool.not_true, if_neg (by decide), ih, play_cons]
        rfl
      | press key ties => cases gap
      | chord keys ties => cases gap
      | pipes count => cases gap

/-- The rest of two runs of pipes is that of all their pipes, if a pipe has any units. -/
theorem pipeUnits_add {n m : Nat} (left : 1 ≤ n) (right : 1 ≤ m) (short : n + m < UInt32.size)
    (weight : w ≠ 0) :
    cappedUnits ((pipeUnits n w).toNat + (pipeUnits m w).toNat) = pipeUnits (n + m) w := by
  have pos : 0 < w.toNat := Nat.pos_of_ne_zero fun zero => weight (UInt32.toNat_inj.mp zero)
  have first : 1 ≤ n * w.toNat := Nat.mul_pos left pos
  have second : 1 ≤ m * w.toNat := Nat.mul_pos right pos
  have large : 1 ≤ maxUnits := by decide
  apply UInt32.toNat_inj.mp
  rw [toNat_cappedUnits, toNat_pipeUnits (by omega), toNat_pipeUnits (by omega),
    toNat_pipeUnits short, Nat.add_mul]
  omega

section Measure

variable {g : Token → Nat}

theorem sum_join_le (low : ∀ t u v, t.fuse? u = some v → g v ≤ g t + g u) (t : Token)
    (tokens : List Token) : ((join t tokens).map g).sum ≤ g t + (tokens.map g).sum := by
  cases tokens with
  | nil => simp [join]
  | cons u tokens =>
    rw [join]
    split
    · have less := low t u _ ‹_›
      simp only [List.map_cons, List.sum_cons]
      omega
    · simp

/-- What fusing does not make more, closing all gaps does not make more. -/
theorem sum_foldr_join_le (low : ∀ t u v, t.fuse? u = some v → g v ≤ g t + g u)
    (tokens : List Token) : ((tokens.foldr join []).map g).sum ≤ (tokens.map g).sum := by
  induction tokens with
  | nil => rfl
  | cons t tokens ih =>
    have first := sum_join_le low t (tokens.foldr join [])
    rw [List.foldr_cons, List.map_cons, List.sum_cons]
    omega

theorem sum_filter_le (p : Token → Bool) (tokens : List Token) :
    ((tokens.filter p).map g).sum ≤ (tokens.map g).sum := by
  induction tokens with
  | nil => rfl
  | cons t tokens ih =>
    rw [List.filter_cons, List.map_cons, List.sum_cons]
    split
    · rw [List.map_cons, List.sum_cons]
      omega
    · omega

/-- If nothing is lost that sticking tokens would lose, no tokens stick. -/
theorem isChain_of_sum_le (low : ∀ t u v, t.fuse? u = some v → g v ≤ g t + g u)
    (strict : ∀ t u v, Sticks w t u → t.fuse? u = some v → g v < g t + g u)
    (kept : (tokens.map g).sum ≤ ((tokens.foldr join []).map g).sum) :
    tokens.IsChain fun t u => ¬Sticks w t u := by
  induction tokens with
  | nil => exact .nil
  | cons t tokens ih =>
    cases tokens with
    | nil => exact .singleton t
    | cons u tokens =>
      have later := sum_foldr_join_le low (u :: tokens)
      have first := sum_join_le low t ((u :: tokens).foldr join [])
      rw [List.foldr_cons, List.map_cons, List.sum_cons] at kept
      refine List.isChain_cons_cons.mpr ⟨fun sticks => ?_, ih (by omega)⟩
      obtain ⟨v, rest, closed, same⟩ := exists_foldr_join u tokens
      -- with its own gaps closed the rest starts with a token that sticks like `u`
      have sticks' := (same w t).mpr sticks
      obtain ⟨x, fused⟩ := sticks'.exists_fused
      have less := strict t v x sticks' fused
      rw [closed] at kept later
      rw [join, fused] at kept
      simp only [List.map_cons, List.sum_cons] at kept later
      omega

end Measure

theorem runLength_fused (t u v : Token) (h : t.fuse? u = some v) :
    v.runLength ≤ t.runLength + u.runLength := by
  obtain ⟨key, ties, more, rfl, rfl, rfl⟩ | ⟨keys, ties, more, rfl, rfl, rfl⟩ |
    ⟨count, more, rfl, rfl, rfl⟩ := fuse?_cases h
  all_goals
    simp only [runLength]
    omega

/-- Of tokens that do not stick only pipes go into one run, and all of them are counted in it. -/
theorem play_join (first : t.isGap = false → t.Proper) (next : u.isGap = false → u.Proper)
    (short : ∀ count, t.fuse? u = some (pipes count) → count < UInt32.size)
    (apart : ¬Sticks w t u) (tokens : List Token) :
    play w (join t (u :: tokens)) = play w (t :: u :: tokens) := by
  rw [join]
  split
  · obtain ⟨key, ties, more, rfl, rfl, rfl⟩ | ⟨keys, ties, more, rfl, rfl, rfl⟩ |
      ⟨count, more, rfl, rfl, rfl⟩ := fuse?_cases ‹_›
    · exact absurd rfl apart
    · exact absurd rfl apart
    · have sum := pipeUnits_add (first rfl) (next rfl) (short (count + more) rfl) apart
      simp only [play_cons, event?, Option.elim_some, consMerged_rest_rest, sum]
  · rfl

/-- Closing gaps between tokens that do not stick changes nothing that is played. -/
theorem play_foldr_join (proper : ∀ t ∈ tokens, t.Proper)
    (short : (tokens.map runLength).sum < UInt32.size)
    (chain : tokens.IsChain fun t u => ¬Sticks w t u) :
    play w (tokens.foldr join []) = play w tokens := by
  induction tokens with
  | nil => rfl
  | cons t tokens ih =>
    obtain ⟨first, others⟩ := List.forall_mem_cons.mp proper
    rw [List.map_cons, List.sum_cons] at short
    have later := ih others (by omega) chain.tail
    rw [List.foldr_cons, play_cons, ← later]
    cases tokens with
    | nil => rw [List.foldr_nil, join, play_cons]
    | cons u tokens =>
      obtain ⟨v, rest, closed, same⟩ := exists_foldr_join u tokens
      have apart : ¬Sticks w t v :=
        fun sticks => (List.isChain_cons_cons.mp chain).1 ((same w t).mp sticks)
      have here : v ∈ (u :: tokens).foldr join [] := by
        rw [closed]
        exact List.mem_cons_self ..
      have next : v.Proper := proper_foldr_join others v here
      have fits : v.runLength ≤ ((u :: tokens).map runLength).sum := by
        have less := sum_foldr_join_le runLength_fused (u :: tokens)
        rw [closed, List.map_cons, List.sum_cons] at less
        omega
      rw [closed, play_join (fun _ => first) (fun _ => next) (fun count fused => ?_) apart,
        play_cons]
      have less : count ≤ t.runLength + v.runLength := runLength_fused t v _ fused
      omega

/-- How much is heard of a sequence: what sounds in it, and its units if pipes weigh nothing. -/
def heard (w : UInt32) (events : List Event) : Nat :=
  (sounding events).length + if w = 0 then totalUnits events else 0

theorem heard_append (events others : List Event) :
    heard w (events ++ others) = heard w events + heard w others := by
  rw [heard, heard, heard, sounding, sounding, sounding, List.filter_append, List.length_append,
    totalUnits_append]
  split <;> omega

theorem filterMap_event?_cons (t : Token) (tokens : List Token) :
    (t :: tokens).filterMap (event? w) =
      (t.event? w).toList ++ tokens.filterMap (event? w) := by
  rw [List.filterMap_cons]
  cases t.event? w <;> rfl

theorem sum_heard (tokens : List Token) :
    (tokens.map fun t => heard w (t.event? w).toList).sum =
      heard w (tokens.filterMap (event? w)) := by
  induction tokens with
  | nil => by_cases weight : w = 0 <;> simp [heard, sounding, totalUnits]
  | cons t tokens ih =>
    rw [List.map_cons, List.sum_cons, ih, filterMap_event?_cons, heard_append]

theorem heard_mergeRests {events : List Event} (fits : w = 0 → totalUnits events ≤ maxUnits) :
    heard w (mergeRests events) = heard w events := by
  rw [heard, heard, sounding_mergeRests]
  split
  · rw [totalUnits_mergeRests (fits ‹_›)]
  · rfl

/-- How much is heard of a single token. -/
theorem heard_press (key : Char) (ties : Nat) :
    heard w ((press key ties).event? w).toList =
      1 + if w = 0 then (cappedUnits (ties + 1)).toNat else 0 := by
  simp [heard, event?, sounding, totalUnits, Event.isRest, Event.units]

theorem heard_chord (keys : List Char) (ties : Nat) :
    heard w ((chord keys ties).event? w).toList =
      if keys = [] then 0 else 1 + if w = 0 then (cappedUnits (ties + 1)).toNat else 0 := by
  cases keys with
  | nil => simp [heard, event?, Event.ofKeys?, sounding, totalUnits]
  | cons key keys =>
    simp [heard, event?, Event.ofKeys?, sounding, totalUnits, Event.isRest, Event.units,
      max_cappedUnits_one]

theorem heard_pipes (count : Nat) :
    heard w ((pipes count).event? w).toList = if w = 0 then 1 else 0 := by
  by_cases weight : w = 0
  · have least : (pipeUnits count 0).toNat = 1 := by
      rw [pipeUnits, UInt32.toNat_zero, Nat.mul_zero]
      rfl
    simp [heard, event?, sounding, totalUnits, Event.isRest, Event.units, weight, least]
  · simp [heard, event?, sounding, Event.isRest, weight]

/-- Of two fused tokens no more is heard than of both, and less if they stick. -/
theorem heard_fused (t u v : Token) (h : t.fuse? u = some v) :
    heard w (v.event? w).toList ≤ heard w (t.event? w).toList + heard w (u.event? w).toList ∧
      (Sticks w t u → heard w (v.event? w).toList <
        heard w (t.event? w).toList + heard w (u.event? w).toList) := by
  have capped (ties more : Nat) : (cappedUnits (ties + (more + 1) + 1)).toNat ≤
      (cappedUnits (ties + 1)).toNat + (cappedUnits (more + 1)).toNat := by
    simp only [toNat_cappedUnits]
    omega
  obtain ⟨key, ties, more, rfl, rfl, rfl⟩ | ⟨keys, ties, more, rfl, rfl, rfl⟩ |
    ⟨count, more, rfl, rfl, rfl⟩ := fuse?_cases h
  · have := capped ties more
    simp only [heard_press]
    split <;> omega
  · have := capped ties more
    simp only [heard_chord, heard_press]
    split <;> split <;> omega
  · simp only [heard_pipes]
    refine ⟨by split <;> omega, fun sticks => ?_⟩
    have weight : w = 0 := sticks
    rw [if_pos weight]
    exact Nat.lt_succ_self 1

/-- If pipes weigh nothing, no more units are played than characters are counted. -/
theorem totalUnits_le_of_proper (proper : ∀ t ∈ tokens, t.Proper) :
    totalUnits (tokens.filterMap (event? 0)) ≤ (tokens.map runLength).sum := by
  have single (t : Token) (h : t.Proper) : totalUnits (t.event? 0).toList ≤ t.runLength := by
    have capped (ties : Nat) : (cappedUnits (ties + 1)).toNat ≤ ties + 1 := by
      rw [toNat_cappedUnits]
      exact Nat.min_le_left _ _
    match t with
    | press key ties => exact capped ties
    | chord [] ties => exact Nat.zero_le _
    | chord (key :: keys) ties =>
      have least := toNat_max (cappedUnits (ties + 1)) 1
      have := capped ties
      simp only [event?, Event.ofKeys?, totalUnits, Event.units, runLength, Option.toList, least,
        if_neg (List.cons_ne_nil key keys), UInt32.toNat_one]
      omega
    | pipes count => exact h
    | inert c => exact Nat.zero_le _
  induction tokens with
  | nil => rfl
  | cons t tokens ih =>
    obtain ⟨first, others⟩ := List.forall_mem_cons.mp proper
    rw [filterMap_event?_cons, totalUnits_append, List.map_cons, List.sum_cons]
    exact Nat.add_le_add (single t first) (ih others)

/-- Closing the gaps is not heard exactly if no two tokens stick. -/
theorem play_closeUp_iff (proper : ∀ t ∈ tokens, t.isGap = false → t.Proper)
    (short : (tokens.map runLength).sum < UInt32.size) :
    play w (closeUp tokens) = play w tokens ↔
      (tokens.filter fun t => !t.isGap).IsChain fun t u => ¬Sticks w t u := by
  have kept : ∀ t ∈ tokens.filter fun t => !t.isGap, t.Proper := by
    intro t inside
    obtain ⟨here, noGap⟩ := List.mem_filter.mp inside
    exact proper t here (by simpa using noGap)
  have shorter : ((tokens.filter fun t => !t.isGap).map runLength).sum < UInt32.size :=
    Nat.lt_of_le_of_lt (sum_filter_le _ tokens) short
  rw [← play_filter_gap tokens, closeUp]
  refine ⟨fun same => ?_, play_foldr_join kept shorter⟩
  have fits (l : List Token) (properL : ∀ t ∈ l, t.Proper)
      (shortL : (l.map runLength).sum < UInt32.size) :
      heard w (play w l) = (l.map fun t => heard w (t.event? w).toList).sum := by
    rw [sum_heard, play, heard_mergeRests]
    rintro rfl
    have := totalUnits_le_of_proper properL
    exact Nat.le_of_lt_succ (Nat.lt_of_le_of_lt this shortL)
  -- both sides are heard alike, so closing the gaps has lost nothing
  have closedShort := Nat.lt_of_le_of_lt (sum_foldr_join_le runLength_fused _) shorter
  have equal := congrArg (heard w) same
  rw [fits _ kept shorter, fits _ (proper_foldr_join kept) closedShort] at equal
  exact isChain_of_sum_le (fun t u v fused => (heard_fused t u v fused).1)
    (fun t u v sticks fused => (heard_fused t u v fused).2 sticks) (Nat.le_of_eq equal.symm)

end Closing

end Token

section Switch

variable {on : Bool}

/-- Other directives do not look at the switch and leave it as it is. -/
theorem Directive.apply_setSpaceRests {d : Directive} (h : ∀ on, d ≠ .spaceRest on)
    (s : Settings) : d.apply (s.setSpaceRests on) = (d.apply s).setSpaceRests on := by
  cases d with
  | bpm value =>
    simp only [apply, Settings.setBpm]
    split <;> rfl
  | unit value =>
    simp only [apply, Settings.setUnit]
    split <;> rfl
  | hold value =>
    simp only [apply, Settings.setHold, Settings.setSpaceRests]
    split <;> rfl
  | spaceRest off => exact absurd rfl (h off)
  | fit seconds => rfl

/-- No directive sets how long a pipe is. -/
theorem Directive.pipeWeight_apply (d : Directive) (s : Settings) :
    (d.apply s).pipeWeight = s.pipeWeight := by
  cases d with
  | bpm value =>
    simp only [apply, Settings.setBpm]
    split <;> rfl
  | unit value =>
    simp only [apply, Settings.setUnit]
    split <;> rfl
  | hold value =>
    simp only [apply, Settings.setHold]
    split <;> rfl
  | spaceRest off => rfl
  | fit seconds => rfl

theorem Source.pipeWeight_settings (source : Source) (s : Settings) :
    (source.settings s).pipeWeight = s.pipeWeight := by
  rw [Source.settings]
  induction source.directives generalizing s with
  | nil => rfl
  | cons d directives ih => rw [List.foldl_cons, ih, d.pipeWeight_apply]

theorem Source.settings_setSpaceRests {source : Source}
    (noSwitch : ∀ on, Directive.spaceRest on ∉ source.directives) (s : Settings) :
    source.settings (s.setSpaceRests on) = (source.settings s).setSpaceRests on := by
  obtain ⟨directives, notes⟩ := source
  simp only [Source.settings]
  induction directives generalizing s with
  | nil => rfl
  | cons d directives ih =>
    have other (off : Bool) : d ≠ .spaceRest off := by
      rintro rfl
      exact noSwitch off (List.mem_cons_self ..)
    rw [List.foldl_cons, Directive.apply_setSpaceRests other,
      ih _ fun off inside => noSwitch off (List.mem_cons_of_mem d inside), List.foldl_cons]

theorem fitUnits?_setSpaceRests (units : Nat) (seconds : Float) (s : Settings) :
    (s.setSpaceRests on).fitUnits? units seconds =
      (s.fitUnits? units seconds).map fun s => s.setSpaceRests on := by
  simp only [Settings.fitUnits?, Option.map_map]
  congr 1
  funext bpm
  simp only [Function.comp, Settings.setBpm]
  split <;> rfl

/-- The notes of a text are among its characters, in their order. -/
theorem Source.notes_sublist (text : String) :
    (Source.ofText text).notes.Sublist text.toList := by
  have kept : (Source.ofText text).notes.Sublist (Text.lines text.toList).flatten :=
    List.filter_sublist.flatten
  rw [Text.flatten_lines] at kept
  exact kept.trans List.filter_sublist

theorem Source.length_notes_le (text : String) :
    (Source.ofText text).notes.length ≤ text.length := by
  rw [← String.length_toList]
  exact (Source.notes_sublist text).length_le

variable {text : String} (s : Settings)

/-- Passed over or left out, blanks make a difference only through the gaps they leave. -/
theorem events_setSpaceRests (source : Source) (s : Settings) :
    source.events (s.setSpaceRests on) = Token.play s.pipeWeight
      (if on then Token.scan source.notes else Token.closeUp (Token.scan source.notes)) := by
  cases on with
  | true => rfl
  | false =>
    have closed := Token.scan_unspaced source.notes
    rw [Token.unspaced] at closed
    rw [if_neg (by decide), ← closed]
    rfl

theorem events_compile
    (noSwitch : ∀ on, Directive.spaceRest on ∉ (Source.ofText text).directives) :
    (compile text (s.setSpaceRests on)).events = Token.play s.pipeWeight
      (if on then Token.scan (Source.ofText text).notes
        else Token.closeUp (Token.scan (Source.ofText text).notes)) := by
  change (Source.ofText text).events ((Source.ofText text).settings (s.setSpaceRests on)) = _
  rw [Source.settings_setSpaceRests noSwitch, events_setSpaceRests, Source.pipeWeight_settings]

/-- The settings depend on the notes only through how many units they have. -/
theorem settings_compile
    (noSwitch : ∀ on, Directive.spaceRest on ∉ (Source.ofText text).directives) :
    (compile text (s.setSpaceRests on)).settings =
      (((Source.ofText text).fitSeconds?.bind fun seconds =>
        ((Source.ofText text).settings s).fitUnits?
          (totalUnits (compile text (s.setSpaceRests on)).events) seconds).getD
        ((Source.ofText text).settings s)).setSpaceRests on := by
  change ((Source.ofText text).fitSeconds?.bind fun seconds =>
    ((Source.ofText text).settings (s.setSpaceRests on)).fitUnits?
      (totalUnits (compile text (s.setSpaceRests on)).events) seconds).getD
    ((Source.ofText text).settings (s.setSpaceRests on)) = _
  rw [Source.settings_setSpaceRests noSwitch]
  cases (Source.ofText text).fitSeconds? with
  | none => rfl
  | some seconds =>
    simp only [Option.bind_some, fitUnits?_setSpaceRests]
    cases ((Source.ofText text).settings s).fitUnits?
      (totalUnits (compile text (s.setSpaceRests on)).events) seconds <;> rfl

/-- The switch is not heard exactly where no token sticks to the one before it: no dash follows
a press or a chord after blanks only, and no pipe a pipe if pipes weigh nothing. -/
theorem spaceRests_unheard_iff
    (noSwitch : ∀ on, Directive.spaceRest on ∉ (Source.ofText text).directives)
    (short : text.length < 4294967296) :
    ((compile text (s.setSpaceRests true)).events =
        (compile text (s.setSpaceRests false)).events ∧
      (compile text (s.setSpaceRests true)).settings =
        (compile text (s.setSpaceRests false)).settings.setSpaceRests true) ↔
      ((Token.scan (Source.ofText text).notes).filter fun t => !t.isGap).IsChain
        fun t u => ¬t.Sticks s.pipeWeight u := by
  have notes := Token.sum_runLength_scan (Source.ofText text).notes
  have inText := Source.length_notes_le text
  have counted : ((Token.scan (Source.ofText text).notes).map Token.runLength).sum < UInt32.size :=
    Nat.lt_of_le_of_lt (Nat.le_trans notes inText) short
  have passed : (compile text (s.setSpaceRests true)).events =
      Token.play s.pipeWeight (Token.scan (Source.ofText text).notes) := events_compile s noSwitch
  have leftOut : (compile text (s.setSpaceRests false)).events =
      Token.play s.pipeWeight (Token.closeUp (Token.scan (Source.ofText text).notes)) :=
    events_compile s noSwitch
  rw [← Token.play_closeUp_iff (Token.proper_of_mem_scan (Source.ofText text).notes) counted]
  constructor
  · rintro ⟨same, -⟩
    rw [← passed, ← leftOut, same]
  · intro same
    have events : (compile text (s.setSpaceRests true)).events =
        (compile text (s.setSpaceRests false)).events := by
      rw [passed, leftOut, same]
    refine ⟨events, ?_⟩
    rw [settings_compile s noSwitch, settings_compile s noSwitch, events]
    rfl

end Switch

/-- Pipes on either side of blanks are one rest, and a dash after a rest is a key. -/
theorem spacedRest_unheard :
    (Source.ofText "a |  | -").directives = [] ∧
      (compile "a |  | -" (Settings.initial.setSpaceRests true)).events =
        (compile "a |  | -" (Settings.initial.setSpaceRests false)).events ∧
      (compile "a |  | -" (Settings.initial.setSpaceRests true)).settings =
        (compile "a |  | -" (Settings.initial.setSpaceRests false)).settings.setSpaceRests true := by
  have directives : (Source.ofText "a |  | -").directives = [] := by cbv
  have notes : (Source.ofText "a |  | -").notes = ['a', ' ', '|', ' ', ' ', '|', ' ', '-'] := by cbv
  have letter : isKey 'a' = true := by decide
  have blank : isKey ' ' = false := by decide +kernel
  have scanned : Token.scan (Source.ofText "a |  | -").notes = [.press 'a' 0, .inert ' ', .pipes 1,
      .inert ' ', .inert ' ', .pipes 1, .inert ' ', .press '-' 0] := by
    simp [notes, Token.scan, Token.scan_pipe, Token.scan_dash, letter, blank]
  refine ⟨directives, (spaceRests_unheard_iff Settings.initial ?_ (by decide)).mpr ?_⟩
  · rw [directives]
    simp
  · rw [scanned]
    decide

/-- A dash after a blank is a key if blanks are passed over, and a tie if they are left out. -/
theorem spacedTie_heard :
    (Source.ofText "a -").directives = [] ∧
      (compile "a -" (Settings.initial.setSpaceRests true)).events =
        [.press 'a' 1, .press '-' 1] ∧
      (compile "a -" (Settings.initial.setSpaceRests false)).events = [.press 'a' 2] := by
  have directives : (Source.ofText "a -").directives = [] := by cbv
  have noSwitch (on : Bool) : Directive.spaceRest on ∉ (Source.ofText "a -").directives := by
    rw [directives]
    simp
  have notes : (Source.ofText "a -").notes = ['a', ' ', '-'] := by cbv
  have letter : isKey 'a' = true := by decide
  have blank : isKey ' ' = false := by decide +kernel
  have scanned : Token.scan (Source.ofText "a -").notes =
      [.press 'a' 0, .inert ' ', .press '-' 0] := by
    simp [notes, Token.scan, Token.scan_dash, letter, blank]
  refine ⟨directives, ?_, ?_⟩
  · rw [events_compile Settings.initial noSwitch, scanned]
    decide
  · rw [events_compile Settings.initial noSwitch, scanned]
    decide

end KeyScore.Notation
