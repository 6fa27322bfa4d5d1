import KeyScore.Proofs.Notation.Spelling
import Mathlib

/-!
# Gaps between tokens

Blanks may be left out before reading or be passed over by it. Passed over, they end a run. What
is read without them are the same tokens with their gaps closed: a run goes on where blanks had
cut it.
-/

namespace KeyScore.Notation

namespace Token

/-- What two tokens become when the second one goes on with the run of the first. -/
def fuse? : Token → Token → Option Token
  | press key ties, press next more =>
    if next = '-' then some (press key (ties + (more + 1))) else none
  | chord keys ties, press next more =>
    if next = '-' then some (chord keys (ties + (more + 1))) else none
  | pipes count, pipes more => some (pipes (count + more))
  | _, _ => none

/-- Puts a token in front of others, and the first of them into its run if it goes on with it. -/
def join (t : Token) : List Token → List Token
  | [] => [t]
  | u :: tokens => match t.fuse? u with
    | some v => v :: tokens
    | none => t :: u :: tokens

/-- A blank that reading passed over. -/
def isGap : Token → Bool
  | inert c => Text.isBlank c
  | _ => false

/-- The tokens that are read when the gaps between them are closed. -/
def closeUp (tokens : List Token) : List Token := (tokens.filter fun t => !t.isGap).foldr join []

section Scan

variable {c : Char} {cs : List Char}

/-- The text without its blanks. -/
def unspaced (cs : List Char) : List Char := cs.filter fun c => !Text.isBlank c

theorem unspaced_cons (h : Text.isBlank c = false) : unspaced (c :: cs) = c :: unspaced cs := by
  rw [unspaced, List.filter_cons, h]
  rfl

theorem unspaced_cons_of_blank (h : Text.isBlank c = true) : unspaced (c :: cs) = unspaced cs := by
  rw [unspaced, List.filter_cons, h]
  rfl

theorem unspaced_unspaced (cs : List Char) : unspaced (unspaced cs) = unspaced cs := by
  simp [unspaced]

/-- A closing bracket is found at the same place. -/
theorem takeWhile_unspaced (cs : List Char) :
    (unspaced cs).takeWhile (· ≠ ']') = unspaced (cs.takeWhile (· ≠ ']')) := by
  induction cs with
  | nil => rfl
  | cons c cs ih =>
    by_cases blank : Text.isBlank c = true
    · have inside : c ≠ ']' := by
        rintro rfl
        exact absurd blank (by decide)
      rw [unspaced_cons_of_blank blank, ih, List.takeWhile_cons, if_pos (by simpa using inside),
        unspaced_cons_of_blank blank]
    · rw [Bool.not_eq_true] at blank
      by_cases closing : c = ']'
      · subst closing
        simp [unspaced_cons blank]
        rfl
      · simpa [unspaced_cons blank, closing] using ih

theorem tail_dropWhile_unspaced (cs : List Char) :
    ((unspaced cs).dropWhile (· ≠ ']')).tail = unspaced (cs.dropWhile (· ≠ ']')).tail := by
  induction cs with
  | nil => rfl
  | cons c cs ih =>
    by_cases blank : Text.isBlank c = true
    · have inside : c ≠ ']' := by
        rintro rfl
        exact absurd blank (by decide)
      rw [unspaced_cons_of_blank blank, ih, List.dropWhile_cons, if_pos (by simpa using inside)]
    · rw [Bool.not_eq_true] at blank
      by_cases closing : c = ']'
      · subst closing
        simp [unspaced_cons blank]
      · simpa [unspaced_cons blank, closing] using ih

/-- Without its blanks a run is at least as long. -/
theorem length_run_unspaced (h : Text.isBlank c = false) (cs : List Char) :
    ((unspaced cs).takeWhile (· = c)).length = (cs.takeWhile (· = c)).length +
      ((unspaced (cs.dropWhile (· = c))).takeWhile (· = c)).length := by
  induction cs with
  | nil => rfl
  | cons d cs ih =>
    by_cases same : d = c
    · subst same
      simp [unspaced_cons h, ih]
      omega
    · simp [same]

theorem dropWhile_run_unspaced (h : Text.isBlank c = false) (cs : List Char) :
    (unspaced cs).dropWhile (· = c) = (unspaced (cs.dropWhile (· = c))).dropWhile (· = c) := by
  induction cs with
  | nil => rfl
  | cons d cs ih =>
    by_cases same : d = c
    · subst same
      simp [unspaced_cons h, ih]
    · simp [same]

theorem scan_dash (cs : List Char) : scan ('-' :: cs) =
    press '-' (cs.takeWhile (· = '-')).length :: scan (cs.dropWhile (· = '-')) := by
  rw [scan, if_neg (by decide), if_neg (by decide), if_pos (by decide)]

theorem scan_pipe (cs : List Char) : scan ('|' :: cs) =
    pipes ((cs.takeWhile (· = '|')).length + 1) :: scan (cs.dropWhile (· = '|')) := by
  rw [scan, if_neg (by decide), if_pos rfl]

/-- The first token that is read starts with the first character. -/
theorem exists_scan_cons (c : Char) (cs : List Char) :
    ∃ u tokens, scan (c :: cs) = u :: tokens ∧ u.spelling.head? = some c := by
  by_cases opening : c = '['
  · rw [scan, if_pos opening]
    exact ⟨_, _, rfl, by rw [opening]; rfl⟩
  by_cases pipe : c = '|'
  · rw [scan, if_neg opening, if_pos pipe]
    exact ⟨_, _, rfl, by rw [pipe]; rfl⟩
  by_cases key : isKey c = true
  · rw [scan, if_neg opening, if_neg pipe, if_pos key]
    exact ⟨_, _, rfl, rfl⟩
  · rw [scan, if_neg opening, if_neg pipe, if_neg key]
    exact ⟨_, _, rfl, rfl⟩

theorem fuse?_eq_none {t u : Token} (starts : u.spelling.head? = some c) (stops : ¬t.GoesOn c) :
    t.fuse? u = none := by
  cases u with
  | press next more =>
    have first : next = c := Option.some.inj starts
    subst first
    cases t with
    | press key ties => exact if_neg stops
    | chord keys ties => exact if_neg stops
    | pipes count => rfl
    | inert d => rfl
  | chord keys more => cases t <;> rfl
  | pipes more =>
    cases more with
    | zero => cases starts
    | succ more =>
      have first : '|' = c := Option.some.inj starts
      subst first
      cases t with
      | pipes count => exact absurd rfl stops
      | press key ties => rfl
      | chord keys ties => rfl
      | inert d => rfl
  | inert d => cases t <;> rfl

theorem join_of_stop {t : Token} (stops : ¬t.GoesOn c) (cs : List Char) :
    join t (scan (c :: cs)) = t :: scan (c :: cs) := by
  obtain ⟨u, tokens, first, starts⟩ := exists_scan_cons c cs
  rw [first, join, fuse?_eq_none starts stops]

/-- A run takes in what goes on with it. -/
theorem join_run {t : Nat → Token} (only : ∀ n d, (t n).GoesOn d → d = c)
    (more : ∀ n cs, join (t n) (scan (c :: cs)) =
      t (n + ((cs.takeWhile (· = c)).length + 1)) :: scan (cs.dropWhile (· = c)))
    (n : Nat) (cs : List Char) :
    join (t n) (scan cs) =
      t (n + (cs.takeWhile (· = c)).length) :: scan (cs.dropWhile (· = c)) := by
  cases cs with
  | nil => simp [scan, join]
  | cons d cs =>
    by_cases same : d = c
    · subst same
      simp [more]
    · simpa [same] using join_of_stop (fun goesOn => same (only n d goesOn)) cs

theorem join_press_scan (key : Char) (ties : Nat) (cs : List Char) :
    join (press key ties) (scan cs) =
      press key (ties + (cs.takeWhile (· = '-')).length) :: scan (cs.dropWhile (· = '-')) :=
  join_run (fun _ _ => id) (fun n cs => by simp [scan_dash, join, fuse?]) ties cs

theorem join_chord_scan (keys : List Char) (ties : Nat) (cs : List Char) :
    join (chord keys ties) (scan cs) =
      chord keys (ties + (cs.takeWhile (· = '-')).length) :: scan (cs.dropWhile (· = '-')) :=
  join_run (fun _ _ => id) (fun n cs => by simp [scan_dash, join, fuse?]) ties cs

theorem join_pipes_scan (count : Nat) (cs : List Char) :
    join (pipes count) (scan cs) =
      pipes (count + (cs.takeWhile (· = '|')).length) :: scan (cs.dropWhile (· = '|')) :=
  join_run (fun _ _ => id) (fun n cs => by simp [scan_pipe, join, fuse?]) count cs

theorem join_inert (d : Char) (tokens : List Token) :
    join (inert d) tokens = inert d :: tokens := by
  cases tokens <;> rfl

theorem closeUp_cons {t : Token} (h : t.isGap = false) (tokens : List Token) :
    closeUp (t :: tokens) = join t (closeUp tokens) := by
  rw [closeUp, List.filter_cons, h]
  rfl

theorem closeUp_cons_of_gap {t : Token} (h : t.isGap = true) (tokens : List Token) :
    closeUp (t :: tokens) = closeUp tokens := by
  rw [closeUp, List.filter_cons, h]
  rfl

/-- Reading without blanks finds the tokens with the gaps between them closed. -/
theorem scan_unspaced (cs : List Char) : scan (unspaced cs) = closeUp (scan cs) := by
  induction cs using scan.induct with
  | case1 =>
    rw [unspaced, List.filter_nil, scan]
    rfl
  | case2 cs after ih =>
    have dash : Text.isBlank '-' = false := by decide
    rw [unspaced_cons (by decide), scan, if_pos rfl]
    conv_rhs => rw [scan, if_pos rfl]
    simp only [takeWhile_unspaced, tail_dropWhile_unspaced]
    rw [closeUp_cons rfl, ← ih, join_chord_scan, length_run_unspaced dash after,
      dropWhile_run_unspaced dash after]
    have keys := unspaced_unspaced (cs.takeWhile (· ≠ ']'))
    rw [unspaced] at keys
    rw [keys]
    rfl
  | case3 cs _ ih =>
    have pipe : Text.isBlank '|' = false := by decide
    rw [unspaced_cons pipe, scan_pipe, scan_pipe, closeUp_cons rfl, ← ih, join_pipes_scan,
      length_run_unspaced pipe cs, dropWhile_run_unspaced pipe cs, Nat.add_right_comm]
  | case4 c cs notOpen notPipe key ih =>
    have dash : Text.isBlank '-' = false := by decide
    rw [unspaced_cons (isBlank_of_isKey key), scan, if_neg notOpen, if_neg notPipe, if_pos key]
    conv_rhs => rw [scan, if_neg notOpen, if_neg notPipe, if_pos key]
    rw [closeUp_cons rfl, ← ih, join_press_scan, length_run_unspaced dash cs,
      dropWhile_run_unspaced dash cs]
  | case5 c cs notOpen notPipe notKey ih =>
    conv_rhs => rw [scan, if_neg notOpen, if_neg notPipe, if_neg notKey]
    -- only here a blank can have been read: it is a gap
    by_cases blank : Text.isBlank c = true
    · have gap : (inert c).isGap = true := blank
      rw [unspaced_cons_of_blank blank, ih, closeUp_cons_of_gap gap]
    · rw [Bool.not_eq_true] at blank
      have noGap : (inert c).isGap = false := blank
      rw [unspaced_cons blank, scan, if_neg notOpen, if_neg notPipe, if_neg notKey,
        closeUp_cons noGap, ih, join_inert]

/-- Reading finds tokens of their kinds, and gaps. -/
theorem proper_of_mem_scan (cs : List Char) :
    ∀ t ∈ scan cs, t.isGap = false → t.Proper := by
  induction cs using scan.induct with
  | case1 => simp [scan]
  | case2 cs after ih =>
    rw [scan, if_pos rfl]
    refine List.forall_mem_cons.mpr ⟨fun _ c inside => ?_, ih⟩
    obtain ⟨before, seen⟩ := List.mem_filter.mp inside
    exact ⟨by simpa using List.mem_takeWhile_imp before, by simpa using seen⟩
  | case3 cs _ ih =>
    rw [scan_pipe]
    exact List.forall_mem_cons.mpr ⟨fun _ => Nat.le_add_left 1 _, ih⟩
  | case4 c cs notOpen notPipe key ih =>
    rw [scan, if_neg notOpen, if_neg notPipe, if_pos key]
    exact List.forall_mem_cons.mpr ⟨fun _ => ⟨key, notOpen, notPipe⟩, ih⟩
  | case5 c cs notOpen notPipe notKey ih =>
    rw [scan, if_neg notOpen, if_neg notPipe, if_neg notKey]
    exact List.forall_mem_cons.mpr ⟨fun seen => ⟨by simpa using notKey, seen⟩, ih⟩

/-- The characters that the length of a token is counted by. -/
def runLength : Token → Nat
  | press _ ties | chord _ ties => ties + 1
  | pipes count => count
  | inert _ => 0

/-- No more is counted than was written. -/
theorem sum_runLength_scan (cs : List Char) :
    ((scan cs).map runLength).sum ≤ cs.length := by
  have split (p : Char → Bool) (l : List Char) :
      (l.takeWhile p).length + (l.dropWhile p).length = l.length := by
    rw [← List.length_append, List.takeWhile_append_dropWhile]
  induction cs using scan.induct with
  | case1 => simp [scan]
  | case2 cs after ih =>
    have inside := split (· ≠ ']') cs
    have ties := split (· = '-') after
    have tail : after.length ≤ (cs.dropWhile (· ≠ ']')).length := by
      rw [List.length_tail]
      omega
    rw [scan, if_pos rfl, List.map_cons, List.sum_cons, List.length_cons, runLength]
    change (after.takeWhile (· = '-')).length + 1 +
      ((scan (after.dropWhile (· = '-'))).map runLength).sum ≤ cs.length + 1
    omega
  | case3 cs _ ih =>
    have pipes := split (· = '|') cs
    rw [scan_pipe, List.map_cons, List.sum_cons, List.length_cons, runLength]
    omega
  | case4 c cs notOpen notPipe key ih =>
    have ties := split (· = '-') cs
    rw [scan, if_neg notOpen, if_neg notPipe, if_pos key, List.map_cons, List.sum_cons,
      List.length_cons, runLength]
    omega
  | case5 c cs notOpen notPipe notKey ih =>
    rw [scan, if_neg notOpen, if_neg notPipe, if_neg notKey, List.map_cons, List.sum_cons,
      List.length_cons, runLength]
    omega

end Scan

end Token

end KeyScore.Notation
