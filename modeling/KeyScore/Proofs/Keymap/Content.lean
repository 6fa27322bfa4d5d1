import KeyScore.Proofs.Keymap.Objects
import Mathlib

/-!
# What an object says in the end

Of several texts for a note the last one counts, wherever the others stand. The notes are judged
one by one from the lowest to the highest: each needs to be a note and its text one character. So a
key map is made if nothing is wrong with what is said in the end, and otherwise the lowest note
with which something is wrong is reported.
-/

namespace KeyScore.Keymap

/-- The last member for the note gives it the text. -/
def SaidLast (members : List (UInt8 × List Char)) (note : UInt8) (text : List Char) : Prop :=
  ∃ above below, members = above ++ (note, text) :: below ∧ ∀ entry ∈ below, entry.1 ≠ note

/-- The note is one, and the text is one character. -/
def Usable (note : UInt8) (text : List Char) : Prop := note.toNat ≤ 127 ∧ ∃ key, text = [key]

/-- What is said of a note that cannot be mapped to a text. A text that is no key is
reported before a number that is no note. -/
def complaint (note : UInt8) : List Char → KeymapFault
  | [_] => .outOfRange note
  | text => .notOneCharacter note text

/-- The values of notes below a bound, in ascending order. -/
def tabulated {α : Type} (bound : Nat) (f : UInt8 → Option α) : List (UInt8 × α) :=
  (List.range bound).filterMap fun note => (f (UInt8.ofNat note)).map (UInt8.ofNat note, ·)

theorem mem_tabulated {α : Type} {bound : Nat} (fits : bound ≤ 256) {f : UInt8 → Option α}
    {note : UInt8} {a : α} :
    (note, a) ∈ tabulated bound f ↔ note.toNat < bound ∧ f note = some a := by
  simp only [tabulated, List.mem_filterMap, List.mem_range, Option.map_eq_some_iff, Prod.mk.injEq]
  constructor
  · rintro ⟨n, small, b, given, rfl, rfl⟩
    rw [UInt8.toNat_ofNat_of_lt' (Nat.lt_of_lt_of_le small fits)]
    exact ⟨small, given⟩
  · rintro ⟨small, given⟩
    exact ⟨note.toNat, small, a, by rw [UInt8.ofNat_toNat]; exact given, UInt8.ofNat_toNat, rfl⟩

theorem pairwise_tabulated {α : Type} {bound : Nat} (fits : bound ≤ 256)
    (f : UInt8 → Option α) : (tabulated bound f).Pairwise fun a b => a.1 < b.1 := by
  refine List.pairwise_filterMap.mpr (List.pairwise_lt_range.imp_of_mem ?_)
  intro m n hm hn less x hx y hy
  obtain ⟨_, -, rfl⟩ := Option.map_eq_some_iff.mp hx
  obtain ⟨_, -, rfl⟩ := Option.map_eq_some_iff.mp hy
  have small (i : Nat) (inside : i ∈ List.range bound) : (UInt8.ofNat i).toNat = i :=
    UInt8.toNat_ofNat_of_lt' (Nat.lt_of_lt_of_le (List.mem_range.mp inside) fits)
  change UInt8.ofNat m < UInt8.ofNat n
  rw [UInt8.lt_iff_toNat_lt, small m hm, small n hn]
  exact less

section Members

variable {members : List (UInt8 × List Char)} {note : UInt8} {text : List Char}

theorem lastValue?_eq_some_iff :
    lastValue? members note = some text ↔ SaidLast members note text := by
  rw [lastValue?, Option.map_eq_some_iff]
  constructor
  · rintro ⟨⟨n, t⟩, found, rfl⟩
    obtain ⟨same, below, above, split, others⟩ := List.find?_eq_some_iff_append.mp found
    obtain rfl : n = note := eq_of_beq same
    refine ⟨above.reverse, below.reverse, ?_, ?_⟩
    · have back := congrArg List.reverse split
      simpa using back
    · intro entry inside
      simpa using others entry (List.mem_reverse.mp inside)
  · rintro ⟨above, below, rfl, others⟩
    refine ⟨(note, text), List.find?_eq_some_iff_append.mpr ?_, rfl⟩
    refine ⟨beq_self_eq_true note, below.reverse, above.reverse, by simp, ?_⟩
    intro entry inside
    simpa using others entry (List.mem_reverse.mp inside)

theorem mem_resolve : (note, text) ∈ resolve members ↔ SaidLast members note text := by
  have listed : (note, text) ∈ resolve members ↔
      note.toNat < 256 ∧ lastValue? members note = some text := mem_tabulated (Nat.le_refl 256)
  rw [listed, lastValue?_eq_some_iff]
  exact and_iff_right note.toNat_lt

theorem pairwise_resolve (members : List (UInt8 × List Char)) :
    (resolve members).Pairwise fun a b => a.1 < b.1 :=
  pairwise_tabulated (Nat.le_refl 256) (lastValue? members)

theorem insertText_of_usable (is_note : note.toNat ≤ 127) (key : Char) (m : Keymap) :
    ∃ m', m.insertText note [key] = .ok m' ∧
      ∀ n, m'.get? n = if n = note then some key else m.get? n := by
  have inserted : m.insertText note [key] =
      .ok ⟨m.keys.set note.toNat (some key) (Nat.lt_succ_of_le is_note)⟩ :=
    dif_pos (Nat.lt_succ_of_le is_note)
  exact ⟨_, inserted, get?_insert inserted⟩

theorem insertText_of_not_usable (bad : ¬Usable note text) (m : Keymap) :
    m.insertText note text = .error (complaint note text) := by
  match text with
  | [] => rfl
  | [key] =>
    have beyond : ¬note.toNat < 128 := fun is_note => bad ⟨Nat.le_of_lt_succ is_note, key, rfl⟩
    exact dif_neg beyond
  | _ :: _ :: _ => rfl

/-- The second key map has the keys that the entries give, and else those of the first one. -/
def Extends (entries : List (UInt8 × List Char)) (m m' : Keymap) : Prop :=
  ∀ n key, m'.get? n = some key ↔
    (n, [key]) ∈ entries ∨ m.get? n = some key ∧ ∀ entry ∈ entries, entry.1 ≠ n

theorem Extends.cons {entries : List (UInt8 × List Char)} {key : Char} {m m' m'' : Keymap}
    (different : ∀ entry ∈ entries, note ≠ entry.1)
    (inserted : ∀ n, m'.get? n = if n = note then some key else m.get? n)
    (later : Extends entries m' m'') : Extends ((note, [key]) :: entries) m m'' := by
  intro n key'
  rw [later, inserted, List.mem_cons, List.forall_mem_cons]
  by_cases here : n = note
  · subst here
    have unlisted : (n, [key']) ∉ entries := fun listed => different _ listed rfl
    rw [if_pos rfl]
    constructor
    · rintro (listed | ⟨same, -⟩)
      · exact absurd listed unlisted
      · cases same
        exact .inl (.inl rfl)
    · rintro ((same | listed) | ⟨-, elsewhere, -⟩)
      · cases same
        exact .inr ⟨rfl, fun entry inside => (different entry inside).symm⟩
      · exact absurd listed unlisted
      · exact absurd rfl elsewhere
  · simp [here, Ne.symm here]

/-- The entries are inserted one after another, up to the first one that cannot be. -/
theorem foldlM_insertText {entries : List (UInt8 × List Char)}
    (apart : entries.Pairwise fun a b => a.1 ≠ b.1) (m : Keymap) :
    ((∀ entry ∈ entries, Usable entry.1 entry.2) ∧
      ∃ m', entries.foldlM (fun m entry => m.insertText entry.1 entry.2) m = .ok m' ∧
        Extends entries m m') ∨
    ∃ before entry after, entries = before ++ entry :: after ∧
      (∀ earlier ∈ before, Usable earlier.1 earlier.2) ∧ ¬Usable entry.1 entry.2 ∧
      entries.foldlM (fun m entry => m.insertText entry.1 entry.2) m =
        .error (complaint entry.1 entry.2) := by
  induction entries generalizing m with
  | nil => exact .inl ⟨by simp, m, rfl, by simp [Extends]⟩
  | cons entry entries ih =>
    obtain ⟨note, text⟩ := entry
    obtain ⟨different, others⟩ := List.pairwise_cons.mp apart
    by_cases usable : Usable note text
    · obtain ⟨is_note, key, rfl⟩ := usable
      have first : Usable note [key] := ⟨is_note, key, rfl⟩
      obtain ⟨m', inserted, keys⟩ := insertText_of_usable is_note key m
      rcases ih others m' with
        ⟨all, m'', made, later⟩ | ⟨before, bad, after, rfl, good, unusable, stopped⟩
      · refine .inl ⟨List.forall_mem_cons.mpr ⟨first, all⟩, m'', ?_, later.cons different keys⟩
        rw [List.foldlM_cons, inserted]
        exact made
      · refine .inr ⟨(note, [key]) :: before, bad, after, rfl,
          List.forall_mem_cons.mpr ⟨first, good⟩, unusable, ?_⟩
        rw [List.foldlM_cons, inserted]
        exact stopped
    · refine .inr ⟨[], (note, text), entries, rfl, by simp, usable, ?_⟩
      rw [List.foldlM_cons, insertText_of_not_usable usable]
      rfl

/-- Either all that is said in the end can be used, and the key map of the members says just that,
or there is a lowest note with which something is wrong, and it is reported. -/
theorem ofMembers_spec (members : List (UInt8 × List Char)) :
    ((∀ note text, SaidLast members note text → Usable note text) ∧
      ∃ m, ofMembers members = .ok m ∧
        ∀ note key, m.get? note = some key ↔ SaidLast members note [key]) ∨
    ∃ note text, SaidLast members note text ∧ ¬Usable note text ∧
      (∀ lower text', lower < note → SaidLast members lower text' → Usable lower text') ∧
      ofMembers members = .error (complaint note text) := by
  have ascending := pairwise_resolve members
  have apart : (resolve members).Pairwise fun a b => a.1 ≠ b.1 :=
    ascending.imp fun less => UInt8.ne_of_lt less
  rcases foldlM_insertText apart empty with
    ⟨all, m, made, keys⟩ | ⟨before, ⟨note, text⟩, after, split, good, unusable, stopped⟩
  · refine .inl ⟨fun note text said => all (note, text) (mem_resolve.mpr said), m, made, ?_⟩
    intro note key
    rw [keys, get?_empty, mem_resolve]
    simp
  · have said : SaidLast members note text := by
      rw [← mem_resolve, split]
      simp
    refine .inr ⟨note, text, said, unusable, fun lower text' less said' => ?_, stopped⟩
    rw [← mem_resolve, split] at said'
    rw [split] at ascending
    obtain ⟨-, behind, -⟩ := List.pairwise_append.mp ascending
    rcases List.mem_append.mp said' with early | late
    · exact good _ early
    · rcases List.mem_cons.mp late with same | late
      · cases same
        exact absurd less (UInt8.lt_irrefl _)
      · exact absurd ((List.pairwise_cons.mp behind).1 _ late) (UInt8.lt_asymm less)

theorem ofDocument_spec {document : String} (written : DocumentWritten members document.toList) :
    ((∀ note text, SaidLast members note text → Usable note text) ∧
      ∃ m, ofDocument document = .ok m ∧
        ∀ note key, m.get? note = some key ↔ SaidLast members note [key]) ∨
    ∃ note text, SaidLast members note text ∧ ¬Usable note text ∧
      (∀ lower text', lower < note → SaidLast members lower text' → Usable lower text') ∧
      ofDocument document = .error (.content (complaint note text)) := by
  rw [ofDocument_of_written written]
  rcases ofMembers_spec members with ⟨all, m, made, keys⟩ | ⟨note, text, said, bad, lower, stopped⟩
  · exact .inl ⟨all, m, by rw [made]; rfl, keys⟩
  · exact .inr ⟨note, text, said, bad, lower, by rw [stopped]; rfl⟩

theorem lastValue?_eq_getLast? (members : List (UInt8 × List Char)) (note : UInt8) :
    lastValue? members note = (members.filter (·.1 == note)).getLast?.map Prod.snd := by
  rw [lastValue?, ← List.head?_filter, List.filter_reverse, List.head?_reverse]

theorem ofMembers_congr {members' : List (UInt8 × List Char)}
    (same : ∀ note, lastValue? members' note = lastValue? members note) :
    ofMembers members' = ofMembers members := by
  simp only [ofMembers, resolve, same]

/-- Members of different notes can be put in any order. -/
theorem ofMembers_of_filter_eq {members' : List (UInt8 × List Char)}
    (same : ∀ note, members'.filter (·.1 == note) = members.filter (·.1 == note)) :
    ofMembers members' = ofMembers members := by
  refine ofMembers_congr fun note => ?_
  rw [lastValue?_eq_getLast?, lastValue?_eq_getLast?, same]

/-- What is said of a note again later need not have been said. -/
theorem ofMembers_of_said_again {above below : List (UInt8 × List Char)}
    {entry : UInt8 × List Char} (again : ∃ later ∈ below, later.1 = entry.1) :
    ofMembers (above ++ entry :: below) = ofMembers (above ++ below) := by
  refine ofMembers_congr fun note => ?_
  rw [lastValue?_eq_getLast?, lastValue?_eq_getLast?, List.filter_append, List.filter_append]
  by_cases here : entry.1 = note
  · obtain ⟨later, inside, same⟩ := again
    have there : later ∈ below.filter (·.1 == note) :=
      List.mem_filter.mpr ⟨inside, beq_iff_eq.mpr (same.trans here)⟩
    have some_later : below.filter (·.1 == note) ≠ [] := List.ne_nil_of_mem there
    have kept : (entry :: below).filter (·.1 == note) = entry :: below.filter (·.1 == note) :=
      List.filter_cons_of_pos (by simpa using here)
    rw [kept, List.getLast?_append_of_ne_nil _ (List.cons_ne_nil _ _),
      List.getLast?_append_of_ne_nil _ some_later, List.getLast?_cons_of_ne_nil some_later]
  · rw [List.filter_cons_of_neg (by simpa using here)]

end Members

/-- A document is accepted if and only if each note that it speaks of is one, and the last text it
gives it is one character; the key map has those keys and no others. Otherwise it is refused for
the lowest note with which something is wrong. So members of different notes can change places,
and a member makes no difference if there is another one for its note behind it. -/
theorem final_content_decides {members : List (UInt8 × List Char)} {text : String}
    (written : DocumentWritten members text.toList) :
    ((∃ m, ofDocument text = .ok m) ↔
      ∀ note value, SaidLast members note value → Usable note value) ∧
    (∀ m, ofDocument text = .ok m →
      ∀ note key, m.get? note = some key ↔ SaidLast members note [key]) ∧
    ((∃ fault, ofDocument text = .error fault) →
      ∃ note value, SaidLast members note value ∧ ¬Usable note value ∧
        (∀ lower value', lower < note → SaidLast members lower value' → Usable lower value') ∧
        ofDocument text = .error (.content (complaint note value))) ∧
    (∀ members' text', DocumentWritten members' text'.toList →
      (∀ note, members'.filter (·.1 == note) = members.filter (·.1 == note)) →
        ofDocument text' = ofDocument text) ∧
    ∀ above entry below text', members = above ++ below →
      (∃ later ∈ below, later.1 = entry.1) →
        DocumentWritten (above ++ entry :: below) text'.toList →
          ofDocument text' = ofDocument text := by
  have reordered : ∀ members' text', DocumentWritten members' text'.toList →
      (∀ note, members'.filter (·.1 == note) = members.filter (·.1 == note)) →
        ofDocument text' = ofDocument text := by
    intro members' text' written' same
    rw [ofDocument_of_written written, ofDocument_of_written written', ofMembers_of_filter_eq same]
  have repeated : ∀ above entry below text', members = above ++ below →
      (∃ later ∈ below, later.1 = entry.1) →
        DocumentWritten (above ++ entry :: below) text'.toList →
          ofDocument text' = ofDocument text := by
    rintro above entry below text' rfl again written'
    rw [ofDocument_of_written written, ofDocument_of_written written',
      ofMembers_of_said_again again]
  rcases ofDocument_spec written with
    ⟨all, m, accepted, keys⟩ | ⟨note, value, said, unusable, lower, refused⟩
  · refine ⟨iff_of_true ⟨m, accepted⟩ all, ?_, ?_, reordered, repeated⟩
    · intro m' accepted'
      cases accepted.symm.trans accepted'
      exact keys
    · rintro ⟨fault, refused⟩
      cases accepted.symm.trans refused
  · have nothing (m : Keymap) : ofDocument text ≠ .ok m := by
      rw [refused]
      rintro ⟨⟩
    refine ⟨iff_of_false ?_ fun all => unusable (all note value said), ?_, ?_, reordered, repeated⟩
    · rintro ⟨m, accepted⟩
      exact nothing m accepted
    · exact fun m accepted => absurd accepted (nothing m)
    · exact fun _ => ⟨note, value, said, unusable, lower, refused⟩

/-- The lowest note at fault is neither the first one nor the one that is out of range, and the
first text for note 5 is never looked at. -/
theorem overwritten_text_forgiven :
    let members : List (UInt8 × List Char) := [(200, ['x']), (61, []), (5, ['a'])]
    let text := "\x7b \"200\":\"x\",\"61\":\"\",\"5\":\"\\u0061\"\x7d"
    let overwritten := "\x7b\"200\":\"x\",\"5\":\"ab\",\"61\":\"\",\"5\":\"a\"\x7d"
    let reordered := "\x7b\"5\":\"a\",\"61\":\"\",\"200\":\"x\"\x7d"
    DocumentWritten members text.toList ∧
      ofDocument text = .error (.content (.notOneCharacter 61 [])) ∧
      ofDocument overwritten = ofDocument text ∧ ofDocument reordered = ofDocument text := by
  intro members text overwritten reordered
  have x : Json.CharSpelled 'x' ['x'] := .plain (by decide) (by decide) (by decide)
  have a : Json.CharSpelled 'a' ['a'] := .plain (by decide) (by decide) (by decide)
  have b : Json.CharSpelled 'b' ['b'] := .plain (by decide) (by decide) (by decide)
  have byUnit : Json.CharSpelled 'a' ['\\', 'u', '0', '0', '6', '1'] :=
    .unit (.digits (w := 0) (x := 0) (y := 6) (z := 1)
      (by decide) (by decide) (by decide) (by decide))
  have blank : Gap [' '] := by simp [Gap]
  have member (note : UInt8) {text spelled : List Char} (value : Json.TextSpelled text spelled) :=
    MemberWritten.mk note .nil .nil .nil value
  have spells {entries : List (UInt8 × List Char)} {cs : List Char} {text : String}
      (written : DocumentWritten entries cs) (same : cs = text.toList) :
      DocumentWritten entries text.toList := same ▸ written
  have written : DocumentWritten members text.toList :=
    spells (.members .nil (.cons (.mk 200 blank .nil .nil (.cons x .nil)) .nil
      (.cons (member 61 .nil) .nil (.last (member 5 (.cons byUnit .nil)) .nil))) .nil)
      (by decide +kernel)
  have again : DocumentWritten [(200, ['x']), (5, ['a', 'b']), (61, []), (5, ['a'])]
      overwritten.toList :=
    spells (.members .nil (.cons (member 200 (.cons x .nil)) .nil
      (.cons (member 5 (.cons a (.cons b .nil))) .nil
        (.cons (member 61 .nil) .nil (.last (member 5 (.cons a .nil)) .nil)))) .nil)
      (by decide +kernel)
  have backwards : DocumentWritten [(5, ['a']), (61, []), (200, ['x'])] reordered.toList :=
    spells (.members .nil (.cons (member 5 (.cons a .nil)) .nil
      (.cons (member 61 .nil) .nil (.last (member 200 (.cons x .nil)) .nil))) .nil)
      (by decide +kernel)
  obtain ⟨-, -, -, inAnyOrder, saidAgain⟩ := final_content_decides written
  refine ⟨written, by decide +kernel, ?_, ?_⟩
  · exact saidAgain [(200, ['x'])] (5, ['a', 'b']) [(61, []), (5, ['a'])] overwritten rfl
      ⟨(5, ['a']), by simp, rfl⟩ again
  · refine inAnyOrder _ reordered backwards fun note => ?_
    grind

end KeyScore.Keymap
