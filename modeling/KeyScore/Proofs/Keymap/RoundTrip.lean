import KeyScore.Proofs.Keymap.Content
import Mathlib

/-!
# Key maps as documents

Every key map is written as a document, a member for each mapped note from the lowest to the
highest, and reading the document gives the same key map, whatever its keys are. It does not matter
how the key map has come about; what is refused on the way leaves it as it was.
-/

namespace KeyScore

namespace Json

theorem escape_of_isDigit {c : Char} (digit : c.isDigit = true) : escape c = [c] := by
  have range : 48 ≤ c.toNat ∧ c.toNat ≤ 57 := by
    simpa [Char.isDigit, UInt32.le_iff_toNat_le] using digit
  unfold escape
  split
  iterate 7 cases digit
  exact if_neg (by omega)

/-- Digits are written as they are. -/
theorem quote_of_digits {cs : List Char} (digits : ∀ c ∈ cs, c.isDigit = true) :
    quote cs = '"' :: (cs ++ ['"']) := by
  have plain : cs.flatMap escape = cs := by
    rw [List.flatMap_congr fun c inside => escape_of_isDigit (digits c inside)]
    exact List.flatMap_singleton' cs
  rw [quote, plain]
  rfl

end Json

namespace Keymap

theorem memberWritten_member (entry : UInt8 × Char) :
    MemberWritten (entry.1, [entry.2]) (member entry) := by
  have written := MemberWritten.mk entry.1 .nil .nil .nil (Json.textSpelled_escape [entry.2])
  rw [member, Json.quote_of_digits (Number.isDigit_toDigits entry.1.toNat)]
  simpa [Json.quote] using written

/-- A key as a text of one character. -/
def asText (entry : UInt8 × Char) : UInt8 × List Char := (entry.1, [entry.2])

theorem membersWritten_intercalate (entry : UInt8 × Char) (entries : List (UInt8 × Char)) :
    MembersWritten ((entry :: entries).map asText)
      ([','].intercalate ((entry :: entries).map member)) := by
  induction entries generalizing entry with
  | nil =>
    have written := MembersWritten.last (memberWritten_member entry) .nil
    simpa [List.intercalate, asText] using written
  | cons next entries ih =>
    have written := MembersWritten.cons (memberWritten_member entry) .nil (ih next)
    simpa [List.intercalate, asText] using written

/-- The document of a key map is an object with a member for each mapped note. -/
theorem documentWritten_document (m : Keymap) :
    DocumentWritten (m.toList.map asText) m.document.toList := by
  rw [document, String.toList_ofList]
  cases m.toList with
  | nil => exact .empty .nil .nil .nil
  | cons entry entries =>
    have written := DocumentWritten.members .nil (membersWritten_intercalate entry entries) .nil
    simpa using written

theorem le_of_get?_eq_some {m : Keymap} {note : UInt8} {key : Char}
    (mapped : m.get? note = some key) : note.toNat ≤ 127 := by
  by_contra beyond
  rw [get?_eq_none_of_le (Nat.not_le.mp beyond)] at mapped
  cases mapped

theorem mem_toList {m : Keymap} {note : UInt8} {key : Char} :
    (note, key) ∈ m.toList ↔ m.get? note = some key := by
  have listed : (note, key) ∈ m.toList ↔ note.toNat < 128 ∧ m.get? note = some key :=
    mem_tabulated (by decide)
  rw [listed]
  exact and_iff_right_of_imp fun mapped => Nat.lt_succ_of_le (le_of_get?_eq_some mapped)

theorem pairwise_toList (m : Keymap) : m.toList.Pairwise fun a b => a.1 < b.1 :=
  pairwise_tabulated (by decide) m.get?

/-- Where each note is spoken of once, it is spoken of for the last time. -/
theorem saidLast_iff_mem {members : List (UInt8 × List Char)}
    (apart : members.Pairwise fun a b => a.1 ≠ b.1) {note : UInt8} {text : List Char} :
    SaidLast members note text ↔ (note, text) ∈ members := by
  constructor
  · rintro ⟨above, below, rfl, -⟩
    simp
  · intro inside
    obtain ⟨above, below, rfl⟩ := List.append_of_mem inside
    obtain ⟨-, behind, -⟩ := List.pairwise_append.mp apart
    exact ⟨above, below, rfl, fun entry later =>
      ((List.pairwise_cons.mp behind).1 entry later).symm⟩

theorem ext_get? {m m' : Keymap} (same : ∀ note, m.get? note = m'.get? note) : m = m' := by
  obtain ⟨keys⟩ := m
  obtain ⟨keys'⟩ := m'
  congr 1
  ext i small : 1
  have note : (UInt8.ofNat i).toNat = i := UInt8.toNat_ofNat_of_lt' (Nat.lt_trans small (by decide))
  have here := same (UInt8.ofNat i)
  simp only [get?, note, small, dif_pos] at here
  exact here

theorem saidLast_toList {m : Keymap} {note : UInt8} {text : List Char} :
    SaidLast (m.toList.map asText) note text ↔ ∃ key, text = [key] ∧ m.get? note = some key := by
  have apart : (m.toList.map asText).Pairwise fun a b => a.1 ≠ b.1 :=
    List.pairwise_map.mpr (m.pairwise_toList.imp fun less => UInt8.ne_of_lt less)
  rw [saidLast_iff_mem apart]
  constructor
  · intro inside
    obtain ⟨⟨n, key⟩, listed, same⟩ := List.mem_map.mp inside
    cases same
    exact ⟨key, rfl, mem_toList.mp listed⟩
  · rintro ⟨key, rfl, mapped⟩
    exact List.mem_map.mpr ⟨(note, key), mem_toList.mpr mapped, rfl⟩

/-- Whatever is written is read again. -/
theorem ofDocument_document (m : Keymap) : ofDocument m.document = .ok m := by
  rcases ofDocument_spec (documentWritten_document m) with
    ⟨-, m', accepted, keys⟩ | ⟨note, text, said, unusable, -, -⟩
  · have same : m' = m := ext_get? fun note => by
      ext key
      simp [keys, saidLast_toList]
    rw [accepted, same]
  · obtain ⟨key, rfl, mapped⟩ := saidLast_toList.mp said
    exact absurd ⟨le_of_get?_eq_some mapped, key, rfl⟩ unusable

/-- What can be done to a key map. -/
inductive Change where
  | standard
  | empty
  | document (text : String)
  | insert (note : UInt8) (key : Char)

/-- A key map after a change; what is refused leaves it as it is. -/
def change (m : Keymap) : Change → Keymap
  | .standard => standard
  | .empty => empty
  | .document text => (ofDocument text).toOption.getD m
  | .insert note key => (m.insert note key).toOption.getD m

/-- Key maps reached from the standard one. -/
def reached (changes : List Change) : Keymap := changes.foldl change standard

theorem insert_of_lt {note : UInt8} (beyond : 127 < note.toNat) (m : Keymap) (key : Char) :
    m.insert note key = .error (.outOfRange note) := dif_neg (Nat.not_lt.mpr beyond)

/-- A key map maps notes alone. One that is none is refused and changes nothing, and any other one
is mapped to its new key. The document of a key map is an object with the notes that it maps, from
the lowest to the highest, and reading it gives the key map again. -/
theorem document_round_trip (changes : List Change) :
    let m := reached changes
    (∀ note key, m.get? note = some key → note.toNat ≤ 127) ∧
    (∀ note key, 127 < note.toNat →
      m.insert note key = .error (.outOfRange note) ∧ m.change (.insert note key) = m) ∧
    (∀ note key, note.toNat ≤ 127 → ∀ n,
      (m.change (.insert note key)).get? n = if n = note then some key else m.get? n) ∧
    DocumentWritten (m.toList.map asText) m.document.toList ∧
    ofDocument m.document = .ok m := by
  intro m
  refine ⟨fun note key => le_of_get?_eq_some, ?_, ?_, documentWritten_document m,
    ofDocument_document m⟩
  · intro note key beyond
    have refused := insert_of_lt beyond m key
    refine ⟨refused, ?_⟩
    rw [change, refused]
    rfl
  · intro note key is_note
    obtain ⟨m', inserted, keys⟩ := insertText_of_usable is_note key m
    have changed : m.change (.insert note key) = m' := by
      rw [change, show m.insert note key = .ok m' from inserted]
      rfl
    rw [changed]
    exact keys

/-- Keys that are escaped and one of a higher plane, at notes whose numbers have different lengths,
and a number that is no note. -/
theorem awkward_keys_read_back :
    let m := reached [.empty, .insert 127 '"', .insert 9 '\\', .insert 10 '\u0001', .insert 0 '𝄞',
      .insert 200 'x']
    m.get? 127 = some '"' ∧ (127 : UInt8).toNat ≤ 127 ∧ 127 < (200 : UInt8).toNat ∧
      m.change (.insert 200 'x') = m ∧ (m.change (.insert 127 ']')).get? 127 = some ']' ∧
      m.document = "\x7b\"0\":\"𝄞\",\"9\":\"\\\\\",\"10\":\"\\u0001\",\"127\":\"\\\"\"\x7d" ∧
      ofDocument m.document = .ok m := by
  intro m
  obtain ⟨notes, refused, inserted, -, read⟩ := document_round_trip
    [.empty, .insert 127 '"', .insert 9 '\\', .insert 10 '\u0001', .insert 0 '𝄞', .insert 200 'x']
  have mapped : m.get? 127 = some '"' := by decide +kernel
  exact ⟨mapped, notes 127 '"' mapped, by decide, (refused 200 'x' (by decide)).2,
    inserted 127 ']' (by decide) 127, by decide +kernel, read⟩

end Keymap

end KeyScore
