import GemScribe.Text.Ranges

/-!
White space.

Two sets are in use. A *blank* separates words and may surround a line; it includes the four
information separators `U+001C` to `U+001F`. A *space* may surround a number that is read from a
text; it is the Unicode property of that name, without those four.
-/

namespace GemScribe.Text

def spaceRanges : Ranges := [
    (0x0009, 0x000D), (0x0020, 0x0020), (0x0085, 0x0085), (0x00A0, 0x00A0), (0x1680, 0x1680),
    (0x2000, 0x200A), (0x2028, 0x2029), (0x202F, 0x202F), (0x205F, 0x205F), (0x3000, 0x3000)]

def isSpace (c : Char) : Bool :=
  Ranges.contains spaceRanges c

def isBlank (c : Char) : Bool :=
  isSpace c || decide (0x1C ≤ c.toNat ∧ c.toNat ≤ 0x1F)

/-- The characters that end a line. A carriage return and the line feed after it end one line. -/
def isLineEnd (c : Char) : Bool :=
  Ranges.contains [(0x000A, 0x000D), (0x001C, 0x001E), (0x0085, 0x0085), (0x2028, 0x2029)] c

/-- A character that ends a line is blank, so no trimmed line begins or ends with one. -/
theorem isBlank_of_isLineEnd {c : Char} (h : isLineEnd c) : isBlank c := by
  simp [isLineEnd, isBlank, isSpace, Ranges.contains, spaceRanges] at h ⊢
  omega

end GemScribe.Text
