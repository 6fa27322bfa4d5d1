/-!
# Character sets given by code-point ranges

The tables of the character classes are lists of closed ranges. Membership is read off
the list as it stands; neither order nor disjointness of the ranges is assumed.
-/

namespace KeyScore.Text

/-- A closed range of code points. -/
structure CharRange where
  first : Nat
  last : Nat

namespace CharRange

def Contains (r : CharRange) (c : Char) : Prop := r.first ≤ c.toNat ∧ c.toNat ≤ r.last

/-- How many code points the range has. -/
def size (r : CharRange) : Nat := r.last + 1 - r.first

instance (r : CharRange) (c : Char) : Decidable (r.Contains c) :=
  inferInstanceAs (Decidable (_ ∧ _))

end CharRange

/-- Some range of the list contains the character. -/
def inRanges (ranges : List CharRange) (c : Char) : Bool :=
  ranges.any fun r => decide (r.Contains c)

theorem inRanges_iff {ranges : List CharRange} {c : Char} :
    inRanges ranges c = true ↔ ∃ r ∈ ranges, r.Contains c := by
  simp [inRanges]

end KeyScore.Text
