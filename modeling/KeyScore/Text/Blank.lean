import KeyScore.Text.Ranges

/-!
# Blank characters

The blanks are the 25 characters with the Unicode property White_Space. Trimming takes
them off both ends of a text and leaves those inside.
-/

namespace KeyScore.Text

def blankRanges : List CharRange := [
  ⟨0x9, 0xD⟩, ⟨0x20, 0x20⟩, ⟨0x85, 0x85⟩, ⟨0xA0, 0xA0⟩, ⟨0x1680, 0x1680⟩, ⟨0x2000, 0x200A⟩,
  ⟨0x2028, 0x2029⟩, ⟨0x202F, 0x202F⟩, ⟨0x205F, 0x205F⟩, ⟨0x3000, 0x3000⟩]

def isBlank (c : Char) : Bool := inRanges blankRanges c

example : (blankRanges.map CharRange.size).sum = 25 := by decide

/-- The text without the blanks it starts and ends with. -/
def trim (cs : List Char) : List Char :=
  ((cs.dropWhile isBlank).reverse.dropWhile isBlank).reverse

end KeyScore.Text
