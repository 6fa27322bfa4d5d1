import KeyScore.Proofs.Settings
import KeyScore.Proofs.Text.Classes
import Mathlib

/-!
# Texts line by line

A text is taken apart line by line: what some lines give, followed by what others give, is what
all of them give. So a line can be put into a text or left out of it and what changes is known.
-/

namespace KeyScore

namespace Text

/-- The line stands in one text and is left out of the other. Its break is gone with it, or an
empty line is left in its place. -/
structure LeftOut (line : List Char) (above below : List (List Char)) (text rest : String) :
    Prop where
  stands : lines text.toList = above ++ line :: below
  gone : lines rest.toList = above ++ below ∨ lines rest.toList = above ++ [] :: below

/-- A line between two breaks is left out with either of them. -/
theorem leftOut_between {c d : Char} (hc : isLineBreak c = true) (hd : isLineBreak d = true)
    {line : List Char} (single : lines line = [line]) (xs ys : List Char) :
    LeftOut line (lines xs) (lines ys) (String.ofList (xs ++ c :: (line ++ d :: ys)))
      (String.ofList (xs ++ d :: ys)) where
  stands := by
    rw [String.toList_ofList, lines_append_break hc, lines_append_break hd, single]
    rfl
  gone := .inl (by rw [String.toList_ofList, lines_append_break hd])

/-- The last line is left out with the break before it. -/
theorem leftOut_last {c : Char} (hc : isLineBreak c = true) {line : List Char}
    (single : lines line = [line]) (xs : List Char) :
    LeftOut line (lines xs) [] (String.ofList (xs ++ c :: line)) (String.ofList xs) where
  stands := by rw [String.toList_ofList, lines_append_break hc, single]
  gone := .inl (by rw [String.toList_ofList, List.append_nil])

end Text

namespace Notation

namespace Directive

/-- The name of a directive, in small letters. -/
def name (body : List Char) : String := folded (body.takeWhile fun c => !Text.isBlank c)

/-- What stands behind the name. -/
def value (body : List Char) : List Char :=
  Text.trim (body.dropWhile fun c => !Text.isBlank c)

/-- The directive of a name with a value. -/
def named? (name : String) (value : List Char) : Option Directive :=
  match name with
  | "bpm" => (readBpm? value).map bpm
  | "unit" => (readUnit? value).map unit
  | "hold" => (readHold? value).map hold
  | "spacerest" => (readSwitch? value).map spaceRest
  | "fit" => (readFit? value).map fit
  | _ => none

theorem read?_eq (body : List Char) : read? body = named? (name body) (value body) := rfl

end Directive

namespace Source

/-- What lines give. -/
def ofLines (lines : List (List Char)) : Source where
  directives := (lines.filterMap directiveBody?).filterMap Directive.read?
  notes := (lines.filter fun line => (directiveBody? line).isNone).flatten

theorem ofText_eq (text : String) : ofText text = ofLines (Text.lines text.toList) := rfl

/-- What two parts of a text give together. -/
def followedBy (a b : Source) : Source := ⟨a.directives ++ b.directives, a.notes ++ b.notes⟩

theorem ofLines_append (above below : List (List Char)) :
    ofLines (above ++ below) = (ofLines above).followedBy (ofLines below) := by
  simp [ofLines, followedBy]

/-- A directive line gives its directive, if it says something that is understood. -/
theorem ofLines_directive {line body : List Char} (h : directiveBody? line = some body)
    (below : List (List Char)) :
    ofLines (line :: below) = followedBy ⟨(Directive.read? body).toList, []⟩ (ofLines below) := by
  rw [ofLines, List.filterMap_cons_some h, List.filterMap_cons, List.filter_cons_of_neg (by simp [h])]
  cases Directive.read? body <;> rfl

/-- Nothing comes of an empty line. -/
theorem ofLines_empty (below : List (List Char)) : ofLines ([] :: below) = ofLines below := rfl

/-- What a text gives with a directive line, and without it. -/
theorem ofText_of_leftOut {line body : List Char} {above below : List (List Char)}
    {text rest : String} (h : Text.LeftOut line above below text rest)
    (directive : directiveBody? line = some body) :
    ofText text = (ofLines above).followedBy
        (followedBy ⟨(Directive.read? body).toList, []⟩ (ofLines below)) ∧
      ofText rest = (ofLines above).followedBy (ofLines below) := by
  constructor
  · rw [ofText_eq, h.stands, ofLines_append, ofLines_directive directive]
  · rcases h.gone with gone | gone
    · rw [ofText_eq, gone, ofLines_append]
    · rw [ofText_eq, gone, ofLines_append, ofLines_empty]

theorem settings_followedBy (a b : Source) (s : Settings) :
    (a.followedBy b).settings s = b.settings (a.settings s) := List.foldl_append

/-- The later part has the last word. -/
theorem fitSeconds?_followedBy (a b : Source) :
    (a.followedBy b).fitSeconds? = b.fitSeconds?.or a.fitSeconds? := by
  rw [fitSeconds?, followedBy, List.filterMap_append, List.getLast?_append]
  rfl

end Source

/-- The settings once there are events to be fitted, if a fit is asked for. -/
def settle (fit? : Option Float) (events : List Event) (s : Settings) : Settings :=
  (fit?.bind fun seconds => s.fitUnits? (totalUnits events) seconds).getD s

theorem compile_eq {text : String} {source : Source} (h : Source.ofText text = source)
    (s : Settings) :
    compile text s =
      ⟨source.events (source.settings s),
        settle source.fitSeconds? (source.events (source.settings s)) (source.settings s)⟩ := by
  rw [← h]
  rfl

/-- A fit changes nothing but what is asked for in the end, and it is asked for unless there is
one behind it. -/
theorem compile_eq_of_fit {text : String} {a b : Source} {seconds : Float}
    (h : Source.ofText text = a.followedBy (Source.followedBy ⟨[.fit seconds], []⟩ b))
    (s : Settings) :
    let base := (a.followedBy b).settings s
    let events := (a.followedBy b).events base
    compile text s = ⟨events, settle (b.fitSeconds?.or (some seconds)) events base⟩ := by
  intro base events
  have settings : (a.followedBy (Source.followedBy ⟨[.fit seconds], []⟩ b)).settings s = base := by
    simp only [base, Source.settings_followedBy]
    rfl
  have asked : (a.followedBy (Source.followedBy ⟨[.fit seconds], []⟩ b)).fitSeconds? =
      b.fitSeconds?.or (some seconds) := by
    rw [Source.fitSeconds?_followedBy, Source.fitSeconds?_followedBy, Option.or_assoc]
    rfl
  rw [compile_eq h, settings, asked]
  rfl

section Fits

variable {seconds : Float}

/-- Nothing comes of a fit that cannot be had. -/
theorem settle_of_useless (useless : ¬(seconds.isFinite = true ∧ 0.0 < seconds))
    (events : List Event) (s : Settings) : settle (some seconds) events s = s := by
  have refused : s.fitUnits? (totalUnits events) seconds = none := by
    rw [← Option.not_isSome_iff_eq_none, Settings.fitUnits?_isSome_iff]
    exact fun possible => useless possible.2.2
  rw [settle, Option.bind_some, refused, Option.getD_none]

/-- A fit sets the tempo, and does not touch the meaning of blanks. -/
theorem spaceRests_settle (fit? : Option Float) (events : List Event) (s : Settings) :
    (settle fit? events s).spaceRests = s.spaceRests := by
  rw [settle]
  cases made : fit?.bind fun seconds => s.fitUnits? (totalUnits events) seconds with
  | none => rfl
  | some fitted =>
    obtain ⟨seconds, -, fits⟩ := Option.bind_eq_some_iff.mp made
    obtain ⟨bpm, rfl⟩ := Settings.exists_of_fitUnits? fits
    rfl

/-- A fit that can be had is made from any tempo, as if no other had been made before it. -/
theorem fitEvents?_settle (usable : seconds.isFinite = true ∧ 0.0 < seconds)
    (fit? : Option Float) (events : List Event) (s : Settings) :
    ((settle fit? events s).fitEvents? events seconds).getD (settle fit? events s) =
      settle (some seconds) events s := by
  rw [Settings.fitEvents?_eq]
  cases made : fit?.bind fun other => s.fitUnits? (totalUnits events) other with
  | none =>
    have same : settle fit? events s = s := by rw [settle, made, Option.getD_none]
    rw [same]
    rfl
  | some fitted =>
    obtain ⟨other, -, fits⟩ := Option.bind_eq_some_iff.mp made
    obtain ⟨bpm, tempo⟩ := Settings.exists_of_fitUnits? fits
    have before := Settings.fitUnits?_isSome_iff.mp (Option.isSome_iff_exists.mpr ⟨fitted, fits⟩)
    obtain ⟨again, solved⟩ := Option.isSome_iff_exists.mp
      (Settings.fitUnits?_isSome_iff.mpr ⟨before.1, before.2.1, usable⟩)
    have settled : settle fit? events s = Settings.retimed { s with bpm := bpm } := by
      rw [settle, made, Option.getD_some, tempo]
    rw [settled, Settings.fitUnits?_retimed, solved, settle, Option.bind_some, solved]
    rfl

/-- A fit in the last line is made like one that is called for when all is compiled. -/
theorem compile_fit_last {longer text : String} {line body : List Char}
    {above : List (List Char)} (last : Text.LeftOut line above [] longer text)
    (directive : Source.directiveBody? line = some body)
    (fit : Directive.read? body = some (.fit seconds))
    (usable : seconds.isFinite = true ∧ 0.0 < seconds) (s : Settings) :
    let whole := compile text s
    compile longer s = ⟨whole.events,
      (whole.settings.fitEvents? whole.events seconds).getD whole.settings⟩ := by
  intro whole
  obtain ⟨ofLonger, ofText⟩ := Source.ofText_of_leftOut last directive
  rw [fit] at ofLonger
  have compiled : whole = _ := compile_eq ofText s
  have fitted := compile_eq_of_fit ofLonger s
  rw [fitted, compiled, fitEvents?_settle usable]
  rfl

end Fits

/-- The lines are directives that change the settings in this way, and that is all they do. -/
structure Sets (lines : List (List Char)) (edit : Settings → Settings) : Prop where
  unbroken : ∀ line ∈ lines, ∀ c ∈ line, Text.isLineBreak c = false
  notes : (Source.ofLines lines).notes = []
  noFit : (Source.ofLines lines).fitSeconds? = none
  settings (s : Settings) : (Source.ofLines lines).settings s = edit s

namespace Sets

variable {xs ys : List (List Char)} {f g : Settings → Settings}

theorem nil : Sets [] id where
  unbroken := by simp
  notes := rfl
  noFit := rfl
  settings _ := rfl

theorem append (hx : Sets xs f) (hy : Sets ys g) : Sets (xs ++ ys) (g ∘ f) where
  unbroken := List.forall_mem_append.mpr ⟨hx.unbroken, hy.unbroken⟩
  notes := by
    rw [Source.ofLines_append, Source.followedBy, hx.notes, hy.notes]
    rfl
  noFit := by rw [Source.ofLines_append, Source.fitSeconds?_followedBy, hx.noFit, hy.noFit]; rfl
  settings s := by
    rw [Source.ofLines_append, Source.settings_followedBy, hx.settings, hy.settings]
    rfl

/-- In front of a text they do what they do to the settings it is compiled with. -/
theorem compile (h : Sets xs f) (rest : String) (s : Settings) :
    Notation.compile (String.ofList (xs.flatMap fun line => line ++ ['\n']) ++ rest) s =
      Notation.compile rest (f s) := by
  have lines : Text.lines
      (String.ofList (xs.flatMap fun line => line ++ ['\n']) ++ rest).toList =
        xs ++ Text.lines rest.toList := by
    rw [String.toList_append, String.toList_ofList, Text.lines_flatMap h.unbroken, List.map_id']
  have source : Source.ofText (String.ofList (xs.flatMap fun line => line ++ ['\n']) ++ rest) =
      (Source.ofLines xs).followedBy (Source.ofText rest) := by
    rw [Source.ofText_eq, lines, Source.ofLines_append]
    rfl
  have notes : ((Source.ofLines xs).followedBy (Source.ofText rest)).notes =
      (Source.ofText rest).notes := by
    rw [Source.followedBy, h.notes]
    rfl
  have fit : ((Source.ofLines xs).followedBy (Source.ofText rest)).fitSeconds? =
      (Source.ofText rest).fitSeconds? := by
    rw [Source.fitSeconds?_followedBy, h.noFit, Option.or_none]
  rw [compile_eq source, compile_eq rfl, fit, Source.settings_followedBy, h.settings]
  simp only [Source.events, notes]

end Sets

/-- The line of a directive. -/
def directiveLine (name value : List Char) : List Char := '@' :: (name ++ ' ' :: value)

section Line

variable {name value : List Char}

theorem unbroken_directiveLine (named : Text.Unspaced name) (written : Text.Unspaced value) :
    ∀ c ∈ directiveLine name value, Text.isLineBreak c = false := by
  have seen {cs : List Char} (unspaced : Text.Unspaced cs) :
      ∀ c ∈ cs, Text.isLineBreak c = false :=
    fun c inside => Text.not_isLineBreak (unspaced c inside)
  refine List.forall_mem_cons.mpr ⟨by decide, List.forall_mem_append.mpr ⟨seen named, ?_⟩⟩
  exact List.forall_mem_cons.mpr ⟨by decide, seen written⟩

theorem directiveBody?_directiveLine (name : List Char) (written : Text.Unspaced value)
    (nonempty : value ≠ []) :
    Source.directiveBody? (directiveLine name value) = some (name ++ ' ' :: value) := by
  have stop := written _ (List.getLast_mem nonempty)
  have trimmed := @Text.trim_of_ends '@' _ (by decide) stop (name ++ ' ' :: value.dropLast)
  rw [List.append_assoc, List.cons_append, List.dropLast_concat_getLast nonempty] at trimmed
  rw [Source.directiveBody?, directiveLine, trimmed]
  rfl

/-- Name and value are found again. -/
theorem read?_directiveLine (named : Text.Unspaced name) (written : Text.Unspaced value) :
    Directive.read? (name ++ ' ' :: value) = Directive.named? (Directive.folded name) value := by
  have whole (c : Char) (inside : c ∈ name) : (!Text.isBlank c) = true := by
    rw [named c inside]
    rfl
  have before : Directive.name (name ++ ' ' :: value) = Directive.folded name := by
    rw [Directive.name, List.takeWhile_append_of_pos whole, List.takeWhile_cons_of_neg (by decide),
      List.append_nil]
  have behind : Directive.value (name ++ ' ' :: value) = value := by
    have blank : Text.trim (' ' :: value) = Text.trim value := rfl
    rw [Directive.value, List.dropWhile_append_of_pos whole,
      List.dropWhile_cons_of_neg (by decide), blank, Text.trim_of_unspaced written]
  rw [Directive.read?_eq, before, behind]

/-- A line that is understood if its value is of use sets what the setter would: of values that
are of no use the setter makes nothing either. -/
theorem sets_directiveLine {d : Directive} {Useful : Prop} [Decidable Useful]
    (named : Text.Unspaced name) (written : Text.Unspaced value) (nonempty : value ≠ [])
    (read : Directive.named? (Directive.folded name) value = if Useful then some d else none)
    (noFit : d.fitSeconds? = none) (idle : ¬Useful → ∀ s, d.apply s = s) :
    Sets [directiveLine name value] d.apply := by
  have unbroken : ∀ line ∈ [directiveLine name value], ∀ c ∈ line, Text.isLineBreak c = false :=
    List.forall_mem_singleton.mpr (unbroken_directiveLine named written)
  have line : Source.ofLines [directiveLine name value] =
      ⟨(if Useful then some d else none).toList, []⟩ := by
    rw [Source.ofLines_directive (directiveBody?_directiveLine name written nonempty),
      read?_directiveLine named written, read]
    simp [Source.followedBy, Source.ofLines]
  by_cases useful : Useful
  · rw [if_pos useful] at line
    refine ⟨unbroken, by rw [line], ?_, fun s => by rw [line]; rfl⟩
    rw [line, Source.fitSeconds?, Option.toList_some, List.filterMap_cons_none noFit]
    rfl
  · rw [if_neg useful] at line
    refine ⟨unbroken, by rw [line], by rw [line]; rfl, fun s => ?_⟩
    rw [line]
    exact (idle useful s).symm

end Line

end Notation

end KeyScore
