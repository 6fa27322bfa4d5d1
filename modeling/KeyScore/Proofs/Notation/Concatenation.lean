import KeyScore.Proofs.Notation.NormalForm
import KeyScore.Proofs.Notation.Spacing
import Mathlib

/-!
# Texts put together

Two texts with a line break between them play what the first one plays and then what the second
one does. Line breaks are left out before tokens are read, so tokens can reach across the seam: a
chord that is not closed, a tie, a run of pipes. The first two are excluded; the pipes of both
texts are one run, and its rest is that of the two runs.
-/

namespace KeyScore.Notation

/-- Whether a chord is open behind a text. A bracket opens one unless one is open, and the next
closing bracket closes it. -/
def chordOpen (open_ : Bool) (cs : List Char) : Bool :=
  cs.foldl (fun open_ c => if open_ then c != ']' else c == '[') open_

section ChordOpen

variable {c : Char} {cs : List Char}

theorem chordOpen_of_ne (h : c ≠ '[') (cs : List Char) :
    chordOpen false (c :: cs) = chordOpen false cs := by
  have other : (c == '[') = false := by simpa using h
  rw [chordOpen, List.foldl_cons, if_neg Bool.false_ne_true, other, ← chordOpen]

/-- A run leaves chords as they are. -/
theorem chordOpen_dropWhile (h : c ≠ '[') (cs : List Char) :
    chordOpen false (cs.dropWhile (· = c)) = chordOpen false cs := by
  induction cs with
  | nil => rfl
  | cons d cs ih =>
    by_cases same : d = c
    · subst same
      rw [List.dropWhile_cons_of_pos (by simp), ih, chordOpen_of_ne h]
    · rw [List.dropWhile_cons_of_neg (by simpa using same)]

/-- An open chord is closed by the first closing bracket, if there is one. -/
theorem chordOpen_true_eq_false (h : chordOpen true cs = false) :
    ']' ∈ cs ∧ chordOpen false (cs.dropWhile (· ≠ ']')).tail = false := by
  induction cs with
  | nil => cases h
  | cons d cs ih =>
    by_cases closing : d = ']'
    · subst closing
      exact ⟨List.mem_cons_self .., h⟩
    · have goesOn : (d != ']') = true := by simpa using closing
      rw [chordOpen, List.foldl_cons, if_pos rfl, goesOn, ← chordOpen] at h
      obtain ⟨inside, later⟩ := ih h
      refine ⟨List.mem_cons_of_mem d inside, ?_⟩
      rw [List.dropWhile_cons_of_pos (by simpa using closing)]
      exact later

/-- Only brackets matter. -/
theorem chordOpen_filter {p : Char → Bool} (brackets : p '[' = true ∧ p ']' = true) (open_ : Bool)
    (cs : List Char) : chordOpen open_ (cs.filter p) = chordOpen open_ cs := by
  induction cs generalizing open_ with
  | nil => rfl
  | cons c cs ih =>
    by_cases kept : p c = true
    · rw [List.filter_cons_of_pos kept, chordOpen, List.foldl_cons, ← chordOpen, ih]
      rfl
    · have notOpening : (c == '[') = false := by
        rw [beq_eq_false_iff_ne]
        rintro rfl
        exact kept brackets.1
      have notClosing : (c != ']') = true := by
        rw [bne_iff_ne]
        rintro rfl
        exact kept brackets.2
      rw [List.filter_cons_of_neg kept, ih, chordOpen, chordOpen, List.foldl_cons]
      cases open_ with
      | true => rw [if_pos rfl, notClosing]
      | false => rw [if_neg Bool.false_ne_true, notOpening]

end ChordOpen

namespace Token

/-- The tokens of two texts one after the other: the last token of the first text goes on with
the first one of the second if it can. -/
def seam : List Token → List Token → List Token
  | [], others => others
  | [t], others => join t others
  | t :: u :: tokens, others => t :: seam (u :: tokens) others

theorem seam_cons {tokens : List Token} (h : tokens ≠ []) (t : Token) (others : List Token) :
    seam (t :: tokens) others = t :: seam tokens others := by
  cases tokens with
  | nil => exact absurd rfl h
  | cons u tokens => rfl

section Seam

variable {c : Char} {cs ys : List Char}

theorem scan_ne_nil (c : Char) (cs : List Char) : scan (c :: cs) ≠ [] := by
  obtain ⟨u, tokens, first, -⟩ := exists_scan_cons c cs
  rw [first]
  exact List.cons_ne_nil u tokens

/-- A run at the end of a text goes on in the next one; one that ends before does not. -/
theorem run_append {t : Nat → Token}
    (joined : ∀ n cs, join (t n) (scan cs) =
      t (n + (cs.takeWhile (· = c)).length) :: scan (cs.dropWhile (· = c)))
    (later : scan (cs.dropWhile (· = c) ++ ys) =
      seam (scan (cs.dropWhile (· = c))) (scan ys)) (n : Nat) :
    t (n + ((cs ++ ys).takeWhile (· = c)).length) :: scan ((cs ++ ys).dropWhile (· = c)) =
      seam (t (n + (cs.takeWhile (· = c)).length) :: scan (cs.dropWhile (· = c))) (scan ys) := by
  rw [List.takeWhile_append, List.dropWhile_append]
  cases rest : cs.dropWhile (· = c) with
  | nil =>
    have whole : cs.takeWhile (· = c) = cs := by
      have split := @List.takeWhile_append_dropWhile _ (· = c) cs
      rwa [rest, List.append_nil] at split
    rw [whole, if_pos rfl, List.isEmpty_nil, if_pos rfl, List.length_append, ← Nat.add_assoc,
      ← joined]
    rw [scan]
    rfl
  | cons d ds =>
    have split := congrArg List.length (@List.takeWhile_append_dropWhile _ (· = c) cs)
    rw [rest, List.length_append, List.length_cons] at split
    rw [rest] at later
    rw [if_neg (by omega), List.isEmpty_cons, if_neg Bool.false_ne_true, later,
      seam_cons (scan_ne_nil d ds)]

/-- A chord that is closed does not reach across. -/
theorem chord_append (inside : ']' ∈ cs) (ys : List Char) :
    (cs ++ ys).takeWhile (· ≠ ']') = cs.takeWhile (· ≠ ']') ∧
      ((cs ++ ys).dropWhile (· ≠ ']')).tail = (cs.dropWhile (· ≠ ']')).tail ++ ys := by
  induction cs with
  | nil => cases inside
  | cons c cs ih =>
    by_cases closing : c = ']'
    · subst closing
      simp
    · obtain ⟨taken, left⟩ := ih ((List.mem_cons.mp inside).resolve_left (Ne.symm closing))
      simp only [List.cons_append, List.takeWhile_cons, List.dropWhile_cons, closing, ne_eq,
        not_false_eq_true, decide_true, if_true]
      exact ⟨congrArg (c :: ·) taken, left⟩

/-- Behind a text that leaves no chord open reading goes on as if it started anew, but for a run
that reaches across. -/
theorem scan_append (cs ys : List Char) (closed : chordOpen false cs = false) :
    scan (cs ++ ys) = seam (scan cs) (scan ys) := by
  induction cs using scan.induct with
  | case1 =>
    rw [List.nil_append, scan]
    rfl
  | case2 cs after ih =>
    obtain ⟨inside, behind⟩ := chordOpen_true_eq_false closed
    obtain ⟨taken, left⟩ := chord_append inside ys
    have rest : chordOpen false (after.dropWhile (· = '-')) = false := by
      rw [chordOpen_dropWhile (by decide)]
      exact behind
    have run := run_append
      (join_chord_scan ((cs.takeWhile (· ≠ ']')).filter fun c => !Text.isBlank c)) (ih rest) 0
    rw [Nat.zero_add, Nat.zero_add] at run
    rw [List.cons_append, scan, if_pos rfl]
    conv_rhs => rw [scan, if_pos rfl]
    simp only [taken, left]
    exact run
  | case3 cs _ ih =>
    have rest : chordOpen false (cs.dropWhile (· = '|')) = false := by
      rw [chordOpen_dropWhile (by decide), ← chordOpen_of_ne (by decide : '|' ≠ '[')]
      exact closed
    have run := run_append join_pipes_scan (ih rest) 1
    rw [Nat.add_comm 1, Nat.add_comm 1] at run
    rw [List.cons_append, scan_pipe, scan_pipe]
    exact run
  | case4 c cs notOpen notPipe key ih =>
    have rest : chordOpen false (cs.dropWhile (· = '-')) = false := by
      rw [chordOpen_dropWhile (by decide), ← chordOpen_of_ne notOpen]
      exact closed
    have run := run_append (join_press_scan c) (ih rest) 0
    rw [Nat.zero_add, Nat.zero_add] at run
    rw [List.cons_append, scan, if_neg notOpen, if_neg notPipe, if_pos key]
    conv_rhs => rw [scan, if_neg notOpen, if_neg notPipe, if_pos key]
    exact run
  | case5 c cs notOpen notPipe notKey ih =>
    have rest : chordOpen false cs = false := by
      rw [← chordOpen_of_ne notOpen]
      exact closed
    rw [List.cons_append, scan, if_neg notOpen, if_neg notPipe, if_neg notKey, ih rest]
    conv_rhs => rw [scan, if_neg notOpen, if_neg notPipe, if_neg notKey]
    cases scan cs with
    | nil => exact (join_inert c _).symm
    | cons u tokens => rfl

end Seam

/-- Only a tie sticks to what stands before it, if pipes have any units. -/
theorem not_sticks {w : UInt32} {t u : Token} (weight : w ≠ 0)
    (noTie : ∀ ties, u ≠ press '-' ties) : ¬Sticks w t u := by
  intro sticks
  obtain ⟨v, fused⟩ := sticks.exists_fused
  obtain ⟨key, ties, more, rfl, rfl, -⟩ | ⟨keys, ties, more, rfl, rfl, -⟩ |
    ⟨count, more, rfl, rfl, -⟩ := fuse?_cases fused
  · exact noTie more rfl
  · exact noTie more rfl
  · exact weight sticks

/-- Parts are played one after the other. -/
theorem play_append (w : UInt32) (tokens others : List Token) :
    play w (tokens ++ others) = mergeRests (play w tokens ++ play w others) := by
  rw [play, List.filterMap_append, mergeRests_append, ← play, ← play]

/-- A run that reaches across plays what its parts do, unless they stick. -/
theorem play_seam {w : UInt32} {tokens others : List Token}
    (proper : ∀ t ∈ tokens ++ others, t.isGap = false → t.Proper)
    (short : ∀ count, pipes count ∈ seam tokens others → count < UInt32.size)
    (apart : ∀ u ∈ others.head?, ∀ t, ¬Sticks w t u) :
    play w (seam tokens others) = play w (tokens ++ others) := by
  induction tokens with
  | nil => rfl
  | cons t tokens ih =>
    cases tokens with
    | nil =>
      cases others with
      | nil => rfl
      | cons u others =>
        obtain ⟨first, later⟩ := List.forall_mem_cons.mp proper
        obtain ⟨next, -⟩ := List.forall_mem_cons.mp later
        refine play_join first next (fun count fused => short count ?_) (apart u rfl t) others
        rw [seam, join, fused]
        exact List.mem_cons_self ..
    | cons u tokens =>
      have later := ih (fun v inside => proper v (List.mem_cons_of_mem t inside))
        fun count inside => short count (List.mem_cons_of_mem t inside)
      rw [seam, play_cons, later, ← play_cons]
      rfl

end Token

/-- Whether a character is read: line breaks never are, and other blanks only if they are to be
rests. -/
def isRead (s : Settings) (c : Char) : Bool :=
  !Text.isLineBreak c && (s.spaceRests || !Text.isBlank c)

section Compile

variable {text : String} {s : Settings} {c : Char}

theorem isRead_of_not_blank (h : Text.isBlank c = false) : isRead s c = true := by
  rw [isRead, Text.not_isLineBreak h, h, Bool.not_false, Bool.or_true, Bool.and_true]

/-- Without directives a text plays all that is read in it, and the settings stay. -/
theorem compile_of_directiveLines (notes : directiveLines text = []) (s : Settings) :
    compile text s =
      ⟨Token.play s.pipeWeight (Token.scan (text.toList.filter (isRead s))), s⟩ := by
  have isNote : ∀ line ∈ Text.lines text.toList, Source.directiveBody? line = none := by
    simpa [directiveLines] using notes
  have source : Source.ofText text =
      ⟨[], text.toList.filter fun c => !Text.isLineBreak c⟩ := by
    rw [Source.ofText_eq, Source.ofLines, List.filterMap_eq_nil_iff.mpr isNote,
      List.filter_eq_self.mpr fun line inside => by rw [isNote line inside]; rfl,
      Text.flatten_lines]
    rfl
  have events : Source.events ⟨[], text.toList.filter fun c => !Text.isLineBreak c⟩ s =
      Token.play s.pipeWeight (Token.scan (text.toList.filter (isRead s))) := by
    rw [Source.events, Token.play]
    congr 3
    cases on : s.spaceRests with
    | true =>
      refine List.filter_congr fun c _ => ?_
      rw [isRead, on, Bool.true_or, Bool.and_true]
    | false =>
      rw [if_neg Bool.false_ne_true, List.filter_filter]
      refine List.filter_congr fun c _ => ?_
      rw [isRead, on, Bool.false_or, Bool.and_comm]
  have unchanged (notes : List Char) : Source.settings ⟨[], notes⟩ s = s := rfl
  rw [compile_eq source, unchanged, events]
  rfl

/-- A key that is read first is the first character that is not blank. -/
theorem head?_scan_isRead {key : Char} {ties : Nat}
    (h : (Token.scan (text.toList.filter (isRead s))).head? = some (.press key ties)) :
    text.toList.find? (fun c => !Text.isBlank c) = some key := by
  have read : text.toList.filter (fun c => !Text.isBlank c) =
      (text.toList.filter (isRead s)).filter fun c => !Text.isBlank c := by
    rw [List.filter_filter]
    refine List.filter_congr fun c _ => ?_
    cases blank : Text.isBlank c with
    | true => rfl
    | false => rw [isRead_of_not_blank blank]; rfl
  rw [← List.head?_filter, read]
  cases kept : text.toList.filter (isRead s) with
  | nil =>
    rw [kept, Token.scan] at h
    cases h
  | cons d ds =>
    obtain ⟨u, tokens, first, starts⟩ := Token.exists_scan_cons d ds
    rw [kept, first, List.head?_cons, Option.some.injEq] at h
    subst h
    have same : key = d := Option.some.inj starts
    subst same
    have proper := Token.proper_of_mem_scan (key :: ds) (.press key ties)
      (by rw [first]; exact List.mem_cons_self ..) rfl
    rw [List.filter_cons_of_pos (by rw [isBlank_of_isKey proper.1]; rfl), List.head?_cons]

/-- Texts with a line break between them play one after the other. The first one must not leave
a chord open, the second one must not start with a tie, and the pipes of a run must be few enough
to be counted. -/
theorem compile_append_break (weight : 1 ≤ s.pipeWeight) (breaks : Text.isLineBreak c = true)
    {above below : String} (notesAbove : directiveLines above = [])
    (notesBelow : directiveLines below = []) (closed : chordOpen false above.toList = false)
    (noTie : below.toList.find? (fun c => !Text.isBlank c) ≠ some '-')
    (counted : ∀ count, .pipes count ∈ Token.scan
      ((above ++ String.singleton c ++ below).toList.filter (isRead s)) → count < 4294967296) :
    compile (above ++ String.singleton c ++ below) s =
      ⟨mergeRests ((compile above s).events ++ (compile below s).events), s⟩ := by
  have whole : (above ++ String.singleton c ++ below).toList =
      above.toList ++ c :: below.toList := by simp
  have notes : directiveLines (above ++ String.singleton c ++ below) = [] := by
    rw [directiveLines, whole, Text.lines_append_break breaks, List.filter_append]
    exact List.append_eq_nil_iff.mpr ⟨notesAbove, notesBelow⟩
  have notRead : ¬isRead s c = true := by simp [isRead, breaks]
  have seamed : Token.scan ((above ++ String.singleton c ++ below).toList.filter (isRead s)) =
      Token.seam (Token.scan (above.toList.filter (isRead s)))
        (Token.scan (below.toList.filter (isRead s))) := by
    have brackets : isRead s '[' = true ∧ isRead s ']' = true :=
      ⟨isRead_of_not_blank (by decide), isRead_of_not_blank (by decide)⟩
    rw [whole, List.filter_append, List.filter_cons_of_neg notRead, Token.scan_append]
    rw [chordOpen_filter brackets, closed]
  have someUnits : s.pipeWeight ≠ 0 := by
    intro zero
    rw [zero] at weight
    exact absurd weight (by decide)
  have apart : ∀ u ∈ (Token.scan (below.toList.filter (isRead s))).head?,
      ∀ t, ¬Token.Sticks s.pipeWeight t u := by
    intro u first t
    refine Token.not_sticks someUnits fun ties tie => ?_
    rw [tie] at first
    exact noTie (head?_scan_isRead first)
  have proper : ∀ t ∈ Token.scan (above.toList.filter (isRead s)) ++
      Token.scan (below.toList.filter (isRead s)), t.isGap = false → t.Proper :=
    List.forall_mem_append.mpr ⟨Token.proper_of_mem_scan _, Token.proper_of_mem_scan _⟩
  rw [seamed] at counted
  rw [compile_of_directiveLines notes, compile_of_directiveLines notesAbove,
    compile_of_directiveLines notesBelow, seamed, Token.play_seam proper counted apart,
    Token.play_append]

/-- A text that is short enough has no run too long to be counted. -/
theorem counted_of_length {cs : List Char} (short : cs.length < 4294967296) {count : Nat}
    (inside : .pipes count ∈ Token.scan cs) : count < 4294967296 := by
  have part : count ≤ ((Token.scan cs).map Token.runLength).sum :=
    List.le_sum_of_mem (List.mem_map_of_mem (f := Token.runLength) inside)
  have whole := Token.sum_runLength_scan cs
  omega

end Compile

/-- Pipes on both sides of a break are one rest, and a dash behind it is a key. -/
theorem compile_tied_pipes :
    directiveLines "a[b c]-|" = [] ∧ directiveLines " || -" = [] ∧
      chordOpen false "a[b c]-|".toList = false ∧
      compile ("a[b c]-|" ++ String.singleton '\u2028' ++ " || -") Settings.initial =
        ⟨[.press 'a' 1, .chord ['b', 'c'] 2, .rest 9, .press '-' 1], Settings.initial⟩ := by
  have notesAbove : directiveLines "a[b c]-|" = [] := by decide +kernel
  have notesBelow : directiveLines " || -" = [] := by decide +kernel
  have closed : chordOpen false "a[b c]-|".toList = false := by decide +kernel
  have short : ("a[b c]-|" ++ String.singleton '\u2028' ++ " || -").toList.length < 4294967296 := by
    decide +kernel
  have joined := compile_append_break (s := Settings.initial) (c := '\u2028') (by decide)
    (by decide) notesAbove notesBelow closed (by decide +kernel)
    fun count => counted_of_length (Nat.lt_of_le_of_lt (List.length_filter_le _ _) short)
  have parts : mergeRests ((compile "a[b c]-|" Settings.initial).events ++
      (compile " || -" Settings.initial).events) =
        [.press 'a' 1, .chord ['b', 'c'] 2, .rest 9, .press '-' 1] := by decide +kernel
  rw [parts] at joined
  exact ⟨notesAbove, notesBelow, closed, joined⟩

end KeyScore.Notation
