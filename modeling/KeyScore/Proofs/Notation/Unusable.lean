import KeyScore.Proofs.Notation.Source
import Mathlib

/-!
# Directives that are of no use

A directive with an unknown name or with a value that is of no use under its name sets nothing,
and the text may as well be without it. Only fits are different. Whether the seconds of a fit
can be had is found out at the end, for the last fit alone; so a useless fit that is the last
one has taken the place of the one before it.
-/

namespace KeyScore.Notation

/-- The name stands for nothing, or the value is of no use under it. -/
def Directive.Unusable (name : String) (value : List Char) : Prop :=
  match name with
  | "bpm" => ∀ x ∈ Number.readFloat? value, ¬(x.isFinite = true ∧ 0.0 < x)
  | "unit" => ∀ n ∈ Number.readWord? value, n = 0
  | "hold" => ∀ x ∈ Number.readFloat? value, x.isNaN = true
  | "spacerest" => folded value ∉ ["on", "true", "1", "off", "false", "0"]
  | "fit" => ∀ seconds ∈ readFit? value, ¬(seconds.isFinite = true ∧ 0.0 < seconds)
  | _ => True

/-- All that can be read of an unusable directive is a fit that cannot be had. -/
theorem Directive.exists_fit_of_unusable {name : String} {value : List Char}
    (h : Unusable name value) {d : Directive} (given : named? name value = some d) :
    ∃ seconds, d = fit seconds ∧ ¬(seconds.isFinite = true ∧ 0.0 < seconds) := by
  unfold named? at given
  split at given
  · obtain ⟨x, taken, -⟩ := Option.map_eq_some_iff.mp given
    obtain ⟨number, usable⟩ := Option.filter_eq_some_iff.mp taken
    have : x.isFinite = true ∧ 0.0 < x := by simpa using usable
    exact absurd this (h x number)
  · obtain ⟨n, taken, -⟩ := Option.map_eq_some_iff.mp given
    obtain ⟨number, usable⟩ := Option.filter_eq_some_iff.mp taken
    rw [h n number] at usable
    exact absurd usable (by decide)
  · obtain ⟨x, taken, -⟩ := Option.map_eq_some_iff.mp given
    obtain ⟨number, usable⟩ := Option.filter_eq_some_iff.mp taken
    rw [h x number] at usable
    exact absurd usable (by decide)
  · obtain ⟨on, switch, -⟩ := Option.map_eq_some_iff.mp given
    have unknown : folded value ∉ ["on", "true", "1", "off", "false", "0"] := h
    rw [readSwitch?] at switch
    split at switch <;> simp_all
  · obtain ⟨seconds, read, rfl⟩ := Option.map_eq_some_iff.mp given
    exact ⟨seconds, rfl, h seconds read⟩
  · cases given

/-- The fit above a line that the line hides: it is a fit as well, and none is below it. -/
def hiddenFit? (above : List (List Char)) (body : List Char) (below : List (List Char)) :
    Option Float :=
  match Directive.read? body, (Source.ofLines below).fitSeconds? with
  | some (.fit _), none => (Source.ofLines above).fitSeconds?
  | _, _ => none

section LeftOut

variable {text rest : String} {line body : List Char} {above below : List (List Char)}
  (leftOut : Text.LeftOut line above below text rest)
  (directive : Source.directiveBody? line = some body)
include leftOut directive

/-- A line of which nothing can be read may as well not be there. -/
theorem compile_of_unread (unread : Directive.read? body = none) (s : Settings) :
    compile rest s = compile text s := by
  obtain ⟨ofText, ofRest⟩ := Source.ofText_of_leftOut leftOut directive
  rw [unread] at ofText
  exact (compile_eq ofRest s).trans (compile_eq ofText s).symm

/-- A fit that cannot be had keeps the place of the last one if none comes after it. -/
theorem compile_of_uselessFit {seconds : Float} (fit : Directive.read? body = some (.fit seconds))
    (useless : ¬(seconds.isFinite = true ∧ 0.0 < seconds)) (s : Settings) :
    let whole := compile text s
    compile rest s = ⟨whole.events, if (Source.ofLines below).fitSeconds? = none
      then settle (Source.ofLines above).fitSeconds? whole.events whole.settings
      else whole.settings⟩ := by
  intro whole
  obtain ⟨ofText, ofRest⟩ := Source.ofText_of_leftOut leftOut directive
  rw [fit] at ofText
  have compiled : whole = _ := compile_eq_of_fit ofText s
  have left := compile_eq ofRest s
  rw [Source.fitSeconds?_followedBy] at left
  cases later : (Source.ofLines below).fitSeconds? with
  | none =>
    -- the settings are those without any fit, so the one above finds them as they were
    rw [later, Option.none_or, settle_of_useless useless] at compiled
    rw [later, Option.none_or] at left
    rw [if_pos rfl, compiled, left]
  | some last =>
    rw [later] at compiled left
    rw [if_neg (Option.some_ne_none last), left, compiled]
    rfl

/-- Left out, a line with an unusable directive leaves the events as they are; and the settings
too, unless it is a fit that hides another one. That one is then made. -/
theorem compile_leftOut
    (unusable : Directive.Unusable (Directive.name body) (Directive.value body)) (s : Settings) :
    let whole := compile text s
    let hidden := (hiddenFit? above body below).bind fun seconds =>
      whole.settings.fitUnits? (totalUnits whole.events) seconds
    compile rest s = ⟨whole.events, hidden.getD whole.settings⟩ ∧
      (compile rest s = whole ↔ ∀ fitted ∈ hidden, fitted = whole.settings) := by
  intro whole hidden
  have left : compile rest s = ⟨whole.events, hidden.getD whole.settings⟩ := by
    cases read : Directive.read? body with
    | none =>
      have nothing : hidden = none := by simp only [hidden, hiddenFit?, read, Option.bind_none]
      rw [nothing]
      exact compile_of_unread leftOut directive read s
    | some d =>
      obtain ⟨seconds, rfl, useless⟩ := Directive.exists_fit_of_unusable unusable read
      rw [compile_of_uselessFit leftOut directive read useless s]
      cases later : (Source.ofLines below).fitSeconds? with
      | none => simp only [hidden, hiddenFit?, read, later, if_true, settle, whole]
      | some last => simp [hidden, hiddenFit?, read, later, whole]
  refine ⟨left, ?_⟩
  rw [left]
  cases hidden with
  | none => exact iff_of_true rfl (by simp)
  | some fitted =>
    constructor
    · rintro same fitted ⟨⟩
      exact congrArg Compiled.settings same
    · intro same
      rw [Option.getD_some, same fitted rfl]

end LeftOut

theorem unusable_fit_zero : Directive.Unusable "fit" ['0'] := by
  rintro seconds ⟨⟩
  decide +kernel

/-- A useless fit is not heard where there is a later one. -/
theorem uselessFit_unheard :
    Text.LeftOut "@fit 0".toList ["@fit 1m".toList] ["@fit 30s".toList, "abcd".toList]
        "@fit 1m\n@fit 0\n@fit 30s\nabcd" "@fit 1m\n@fit 30s\nabcd" ∧
      Source.directiveBody? "@fit 0".toList = some "fit 0".toList ∧
      Directive.Unusable "fit" ['0'] ∧
      compile "@fit 1m\n@fit 30s\nabcd" Settings.initial =
        compile "@fit 1m\n@fit 0\n@fit 30s\nabcd" Settings.initial := by
  have leftOut : Text.LeftOut "@fit 0".toList ["@fit 1m".toList]
      ["@fit 30s".toList, "abcd".toList] "@fit 1m\n@fit 0\n@fit 30s\nabcd"
      "@fit 1m\n@fit 30s\nabcd" :=
    @Text.leftOut_between '\n' '\n' (by decide) (by decide) "@fit 0".toList rfl
      "@fit 1m".toList "@fit 30s\nabcd".toList
  have directive : Source.directiveBody? "@fit 0".toList = some "fit 0".toList := rfl
  refine ⟨leftOut, directive, unusable_fit_zero, ?_⟩
  refine (compile_leftOut leftOut directive unusable_fit_zero Settings.initial).2.mpr ?_
  rintro fitted ⟨⟩

/-- The fit that is left when the useless one is left out makes the tempo as slow as can be. -/
theorem uselessFit_hides :
    Text.LeftOut "@fit 0".toList ["@fit 30s".toList] ["a".toList]
        "@fit 30s\n@fit 0\na" "@fit 30s\na" ∧
      Source.directiveBody? "@fit 0".toList = some "fit 0".toList ∧
      Directive.Unusable "fit" ['0'] ∧
      (compile "@fit 30s\n@fit 0\na" Settings.initial).settings.bpm.toBits =
        (120.0 : Float).toBits ∧
      (compile "@fit 30s\na" Settings.initial).settings.bpm.toBits = (10.0 : Float).toBits := by
  refine ⟨?_, rfl, unusable_fit_zero, by decide +kernel, by decide +kernel⟩
  exact @Text.leftOut_between '\n' '\n' (by decide) (by decide) "@fit 0".toList rfl
    "@fit 30s".toList ['a']

end KeyScore.Notation
