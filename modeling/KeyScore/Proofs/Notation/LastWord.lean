import KeyScore.Proofs.Notation.Source
import Mathlib

/-!
# The last word of each name

Of the directives of a name that are accepted the last one decides, and what the others say is
forgotten. The names do not get in each other's way: each sets a field of its own, and a fit is
made at the end, for what is then there to be played. So directives of different names can change
places.
-/

namespace KeyScore.Notation

/-- What the directive lines of a text say behind their `@`, from the first line to the last. -/
def directiveBodies (text : String) : List (List Char) :=
  (Text.lines text.toList).filterMap Source.directiveBody?

/-- The lines of a text that are no directives. -/
def noteLines (text : String) : List (List Char) :=
  (Text.lines text.toList).filter fun line => (Source.directiveBody? line).isNone

/-- What is said under a name. -/
def saidAs (name : String) (text : String) : List (List Char) :=
  (directiveBodies text).filter fun body => Directive.name body = name

/-- The last value under a name that can be read. -/
def lastWord? {α : Type} (name : String) (read? : List Char → Option α) (text : String) : Option α :=
  ((saidAs name text).filterMap fun body => read? (Directive.value body)).getLast?

/-- The texts have the same notes, and under each name they say the same things in the same order.
Where a directive stands among the notes and the directives of other names is left open. -/
structure SameByName (text text' : String) : Prop where
  notes : noteLines text = noteLines text'
  said (name : String) : saidAs name text = saidAs name text'

/-- A directive can change places with a neighbour that is no directive of its name. -/
theorem sameByName_of_swapped {text text' : String} {line line' body : List Char}
    {above below : List (List Char)}
    (lines : Text.lines text.toList = above ++ line :: line' :: below)
    (lines' : Text.lines text'.toList = above ++ line' :: line :: below)
    (directive : Source.directiveBody? line = some body)
    (different : ∀ body' ∈ Source.directiveBody? line', Directive.name body ≠ Directive.name body') :
    SameByName text text' := by
  have skipped (more : List (List Char)) :
      (line :: more).filter (fun line => (Source.directiveBody? line).isNone) =
        more.filter fun line => (Source.directiveBody? line).isNone :=
    List.filter_cons_of_neg (by simp [directive])
  constructor
  · simp only [noteLines, lines, lines', List.filter_append, List.filter_cons (x := line'), skipped]
  · intro name
    simp only [saidAs, directiveBodies, lines, lines', List.filterMap_append, List.filter_append,
      List.filterMap_cons_some directive]
    cases said : Source.directiveBody? line' with
    | none => simp only [List.filterMap_cons_none said, List.filterMap_cons_some directive]
    | some body' =>
      simp only [List.filterMap_cons_some said, List.filterMap_cons_some directive]
      by_cases here : Directive.name body = name
      · have elsewhere : Directive.name body' ≠ name :=
          fun there => different body' said (here.trans there.symm)
        simp [here, elsewhere]
      · simp [List.filter_cons, here]

namespace Directive

/-- The value that a directive line gives under a name. -/
def given? {α : Type} (wanted : String) (read? : List Char → Option α) (body : List Char) :
    Option α :=
  if name body = wanted then read? (value body) else none

end Directive

theorem lastWord?_eq {α : Type} (name : String) (read? : List Char → Option α) (text : String) :
    lastWord? name read? text =
      ((directiveBodies text).filterMap (Directive.given? name read?)).getLast? := by
  have values : (saidAs name text).filterMap (fun body => read? (Directive.value body)) =
      (directiveBodies text).filterMap (Directive.given? name read?) := by
    rw [saidAs, List.filterMap_filter]
    refine List.filterMap_congr fun body _ => ?_
    simp only [Directive.given?, decide_eq_true_eq]
  rw [lastWord?, values]

/-- Settings with new values for what directives set; where there is none the old one stays. -/
def overridden (bpm? : Option Float) (unit? : Option UInt32) (hold? : Option Float)
    (spaceRests? : Option Bool) (s : Settings) : Settings :=
  Settings.retimed { s with
    bpm := bpm?.getD s.bpm
    unit := unit?.getD s.unit
    hold := (hold?.map (clamp 0.0 1.0)).getD s.hold
    spaceRests := spaceRests?.getD s.spaceRests }

/-- What is said later goes before what was said earlier. -/
theorem overridden_overridden {bpm bpm' hold hold' : Option Float} {unit unit' : Option UInt32}
    {spaceRests spaceRests' : Option Bool} {s : Settings} :
    overridden bpm' unit' hold' spaceRests' (overridden bpm unit hold spaceRests s) =
      overridden (bpm'.or bpm) (unit'.or unit) (hold'.or hold) (spaceRests'.or spaceRests) s := by
  have late {α : Type} (x y : Option α) (a : α) : x.getD (y.getD a) = (x.or y).getD a := by
    cases x <;> rfl
  simp only [overridden, Settings.retimed, late, ← Option.map_or]

section Line

variable {s : Settings} {value : List Char} {x : Float}

theorem overridden_nothing (timed : s.secondsPerUnit = unitSeconds s.bpm s.unit) :
    overridden none none none none s = s := by
  rw [overridden, Settings.retimed]
  simp only [Option.getD_none, Option.map_none, ← timed]

theorem setBpm_eq (accepted : Directive.readBpm? value = some x) :
    s.setBpm x = overridden (some x) none none none s := by
  obtain ⟨-, usable⟩ := Option.filter_eq_some_iff.mp accepted
  exact Settings.setBpm_of_usable (by simpa using usable) s

theorem setUnit_eq {n : UInt32} (accepted : Directive.readUnit? value = some n) :
    s.setUnit n = overridden none (some n) none none s := by
  obtain ⟨-, positive⟩ := Option.filter_eq_some_iff.mp accepted
  refine if_neg ?_
  rintro rfl
  exact absurd positive (by decide)

theorem setHold_eq (timed : s.secondsPerUnit = unitSeconds s.bpm s.unit)
    (accepted : Directive.readHold? value = some x) :
    s.setHold x = overridden none none (some x) none s := by
  obtain ⟨-, number⟩ := Option.filter_eq_some_iff.mp accepted
  have kept : overridden none none (some x) none s = { s with hold := clamp 0.0 1.0 x } := by
    rw [overridden, Settings.retimed]
    simp only [Option.getD_none, Option.map_some, Option.getD_some, ← timed]
  rw [kept, Settings.setHold, if_neg (by simpa using number)]

theorem setSpaceRests_eq (timed : s.secondsPerUnit = unitSeconds s.bpm s.unit) (on : Bool) :
    s.setSpaceRests on = overridden none none none (some on) s := by
  rw [overridden, Settings.retimed]
  simp only [Option.getD_none, Option.map_none, Option.getD_some, ← timed]
  rfl

/-- What a directive line sets: the field of its name, if its value is accepted. -/
theorem apply_eq_overridden (timed : s.secondsPerUnit = unitSeconds s.bpm s.unit)
    (body : List Char) :
    (Directive.read? body).elim s (fun d => d.apply s) =
      overridden (Directive.given? "bpm" Directive.readBpm? body)
        (Directive.given? "unit" Directive.readUnit? body)
        (Directive.given? "hold" Directive.readHold? body)
        (Directive.given? "spacerest" Directive.readSwitch? body) s := by
  have nothing := overridden_nothing timed
  rw [Directive.read?_eq]
  unfold Directive.named? Directive.given?
  split
  · rename_i name
    simp only [name, String.reduceEq, if_true, if_false]
    cases accepted : Directive.readBpm? (Directive.value body) with
    | none => exact nothing.symm
    | some x => exact setBpm_eq accepted
  · rename_i name
    simp only [name, String.reduceEq, if_true, if_false]
    cases accepted : Directive.readUnit? (Directive.value body) with
    | none => exact nothing.symm
    | some n => exact setUnit_eq accepted
  · rename_i name
    simp only [name, String.reduceEq, if_true, if_false]
    cases accepted : Directive.readHold? (Directive.value body) with
    | none => exact nothing.symm
    | some x => exact setHold_eq timed accepted
  · rename_i name
    simp only [name, String.reduceEq, if_true, if_false]
    cases Directive.readSwitch? (Directive.value body) with
    | none => exact nothing.symm
    | some on => exact setSpaceRests_eq timed on
  · rename_i name
    simp only [name, String.reduceEq, if_false]
    cases Directive.readFit? (Directive.value body) with
    | none => exact nothing.symm
    | some seconds => exact nothing.symm
  · rename_i notBpm notUnit notHold notSpaceRest notFit
    rw [if_neg notBpm, if_neg notUnit, if_neg notHold, if_neg notSpaceRest]
    exact nothing.symm

/-- A line asks for a fit if it says so in a way that can be read. -/
theorem fitSeconds?_eq_given? (body : List Char) :
    (Directive.read? body).bind Directive.fitSeconds? =
      Directive.given? "fit" Directive.readFit? body := by
  have silent {α : Type} {read? : List Char → Option α} {make : α → Directive}
      (other : ∀ a, (make a).fitSeconds? = none) :
      ((read? (Directive.value body)).map make).bind Directive.fitSeconds? = none := by
    rw [Option.bind_map]
    exact Option.bind_eq_none_iff.mpr fun a _ => other a
  rw [Directive.read?_eq]
  unfold Directive.named? Directive.given?
  split
  · rename_i name
    simp only [name, String.reduceEq, if_false]
    exact silent fun _ => rfl
  · rename_i name
    simp only [name, String.reduceEq, if_false]
    exact silent fun _ => rfl
  · rename_i name
    simp only [name, String.reduceEq, if_false]
    exact silent fun _ => rfl
  · rename_i name
    simp only [name, String.reduceEq, if_false]
    exact silent fun _ => rfl
  · rename_i name
    simp only [name, if_true]
    cases Directive.readFit? (Directive.value body) <;> rfl
  · rename_i notFit
    rw [if_neg notFit]
    rfl

end Line

theorem getLast?_filterMap_cons {α β : Type} (f : α → Option β) (a : α) (as : List α) :
    ((a :: as).filterMap f).getLast? = ((as.filterMap f).getLast?).or (f a) := by
  cases given : f a with
  | none => rw [List.filterMap_cons_none given, Option.or_none]
  | some b =>
    rw [List.filterMap_cons_some given, List.getLast?_cons]
    cases (as.filterMap f).getLast? <;> rfl

namespace Source

/-- All directive lines together set each field to the last word of its name. -/
theorem foldl_apply_eq_overridden {s : Settings}
    (timed : s.secondsPerUnit = unitSeconds s.bpm s.unit) (bodies : List (List Char)) :
    (bodies.filterMap Directive.read?).foldl (fun s d => d.apply s) s =
      overridden (bodies.filterMap (Directive.given? "bpm" Directive.readBpm?)).getLast?
        (bodies.filterMap (Directive.given? "unit" Directive.readUnit?)).getLast?
        (bodies.filterMap (Directive.given? "hold" Directive.readHold?)).getLast?
        (bodies.filterMap (Directive.given? "spacerest" Directive.readSwitch?)).getLast? s := by
  induction bodies generalizing s with
  | nil => exact (overridden_nothing timed).symm
  | cons body bodies ih =>
    have first : ((body :: bodies).filterMap Directive.read?).foldl (fun s d => d.apply s) s =
        (bodies.filterMap Directive.read?).foldl (fun s d => d.apply s)
          ((Directive.read? body).elim s fun d => d.apply s) := by
      cases read : Directive.read? body with
      | none => rw [List.filterMap_cons_none read, Option.elim_none]
      | some d => rw [List.filterMap_cons_some read, List.foldl_cons, Option.elim_some]
    rw [first, apply_eq_overridden timed, ih rfl, overridden_overridden]
    simp only [getLast?_filterMap_cons]

theorem settings_ofText {s : Settings} (timed : s.secondsPerUnit = unitSeconds s.bpm s.unit)
    (text : String) :
    (ofText text).settings s = overridden (lastWord? "bpm" Directive.readBpm? text)
      (lastWord? "unit" Directive.readUnit? text) (lastWord? "hold" Directive.readHold? text)
      (lastWord? "spacerest" Directive.readSwitch? text) s := by
  simp only [lastWord?_eq]
  exact foldl_apply_eq_overridden timed (directiveBodies text)

theorem fitSeconds?_ofText (text : String) :
    (ofText text).fitSeconds? = lastWord? "fit" Directive.readFit? text := by
  have asked : (ofText text).directives.filterMap Directive.fitSeconds? =
      (directiveBodies text).filterMap (Directive.given? "fit" Directive.readFit?) := by
    rw [ofText_eq, ofLines, List.filterMap_filterMap]
    exact List.filterMap_congr fun body _ => fitSeconds?_eq_given? body
  rw [fitSeconds?, asked, lastWord?_eq]

end Source

/-- Nothing is heard of where directives of different names stand. -/
theorem compile_of_sameByName {text text' : String} (same : SameByName text text') {s : Settings}
    (timed : s.secondsPerUnit = unitSeconds s.bpm s.unit) : compile text' s = compile text s := by
  have word {α : Type} (name : String) (read? : List Char → Option α) :
      lastWord? name read? text' = lastWord? name read? text := by
    rw [lastWord?, lastWord?, same.said]
  have settings : (Source.ofText text').settings s = (Source.ofText text).settings s := by
    simp only [Source.settings_ofText timed, word]
  have fit : (Source.ofText text').fitSeconds? = (Source.ofText text).fitSeconds? := by
    simp only [Source.fitSeconds?_ofText, word]
  have notes : (Source.ofText text').notes = (Source.ofText text).notes :=
    congrArg List.flatten same.notes.symm
  rw [compile_eq rfl, compile_eq rfl, settings, fit]
  simp only [Source.events, notes]

/-- A fit gives the tempo that was asked for, if one can be had. -/
theorem settle_eq_retimed (fit? : Option Float) (events : List Event) {s : Settings}
    (timed : s.secondsPerUnit = unitSeconds s.bpm s.unit) :
    settle fit? events s = Settings.retimed { s with
      bpm := (fit?.bind fun seconds => solveBpm (totalUnits events) seconds s.unit).getD s.bpm } := by
  have fitted : (fit?.bind fun seconds => s.fitUnits? (totalUnits events) seconds) =
      (fit?.bind fun seconds => solveBpm (totalUnits events) seconds s.unit).map fun bpm =>
        s.setBpm bpm := Option.map_bind.symm
  rw [settle, fitted]
  cases solved : fit?.bind fun seconds => solveBpm (totalUnits events) seconds s.unit with
  | none =>
    rw [Settings.retimed]
    simp only [Option.map_none, Option.getD_none, ← timed]
  | some bpm =>
    obtain ⟨seconds, -, solved⟩ := Option.bind_eq_some_iff.mp solved
    exact Settings.setBpm_of_usable (usable_of_solveBpm solved) s

/-- After compiling, unit, hold and the meaning of blanks are those of the last directive of their
name that was accepted, and the tempo that of the last fit if it can be had for what is played, or
else of the last tempo directive; what nothing was said about is as before. A fit can be had for a
time that is finite and positive, of a text that plays for a unit or more. Directives of different
names can change places. -/
theorem last_word_decides (changes : List Settings.Change) (text : String) :
    let s := Settings.reached changes
    let compiled := compile text s
    let bpm := (lastWord? "bpm" Directive.readBpm? text).getD s.bpm
    let unit := (lastWord? "unit" Directive.readUnit? text).getD s.unit
    let fit? := lastWord? "fit" Directive.readFit? text
    let units := totalUnits compiled.events
    compiled.settings = Settings.retimed { s with
      bpm := (fit?.bind fun seconds => solveBpm units seconds unit).getD bpm
      unit := unit
      hold := ((lastWord? "hold" Directive.readHold? text).map (clamp 0.0 1.0)).getD s.hold
      spaceRests := (lastWord? "spacerest" Directive.readSwitch? text).getD s.spaceRests } ∧
    (∀ seconds, (solveBpm units seconds unit).isSome = true ↔
      seconds.isFinite = true ∧ 0.0 < seconds ∧ 0 < units) ∧
    ∀ text', SameByName text text' → compile text' s = compiled := by
  intro s compiled bpm unit fit? units
  have playable : s.Playable := Settings.playable_reached changes
  have settings := Source.settings_ofText playable.timed text
  have asked : ((Source.ofText text).settings s).Playable := playable.settings _
  have some_unit : unit ≠ 0 := by
    have some_unit := asked.unit_ne_zero
    rw [settings] at some_unit
    exact some_unit
  refine ⟨?_, ?_, fun text' same => compile_of_sameByName same playable.timed⟩
  · have settled : compiled.settings = settle (Source.ofText text).fitSeconds? compiled.events
        ((Source.ofText text).settings s) := rfl
    rw [settled, settle_eq_retimed _ _ asked.timed, Source.fitSeconds?_ofText, settings]
    rfl
  · intro seconds
    rw [solveBpm_isSome_iff, Nat.pos_iff_ne_zero]
    constructor
    · rintro ⟨some_units, -, finite, positive⟩
      exact ⟨finite, positive, some_units⟩
    · rintro ⟨finite, positive, some_units⟩
      exact ⟨some_units, some_unit, finite, positive⟩

/-- The last unit is of no use, so the one before it counts, and the fit is made for it although it
stands above; it does not matter which of the two comes first. -/
theorem fit_above_unit :
    let text := "@unit 8\n@fit 4s\n@unit 0\nab"
    let text' := "@fit 4s\n@unit 8\n@unit 0\nab"
    SameByName text text' ∧ compile text' .initial = compile text .initial ∧
      (compile text .initial).settings.unit = 8 ∧
      (compile text .initial).settings.bpm.toBits = (15.0 : Float).toBits := by
  intro text text'
  have lines : Text.lines "@unit 8\n@fit 4s\n@unit 0\nab".toList =
      ["@unit 8".toList, "@fit 4s".toList, "@unit 0".toList, "ab".toList] := by decide
  have lines' : Text.lines "@fit 4s\n@unit 8\n@unit 0\nab".toList =
      ["@fit 4s".toList, "@unit 8".toList, "@unit 0".toList, "ab".toList] := by decide
  have different : ∀ body' ∈ Source.directiveBody? "@fit 4s".toList,
      Directive.name "unit 8".toList ≠ Directive.name body' := by
    rintro body' ⟨⟩
    decide
  have same : SameByName text text' := @sameByName_of_swapped text text' "@unit 8".toList
    "@fit 4s".toList "unit 8".toList [] ["@unit 0".toList, "ab".toList] lines lines' rfl different
  obtain ⟨-, -, reordered⟩ := last_word_decides [] text
  exact ⟨same, reordered text' same, by decide +kernel, by decide +kernel⟩

end KeyScore.Notation
