import GemScribe.Text.Sign
import GemScribe.Text.Printable

/-!
Quoted texts.

A text is quoted in single quotes, or in double ones when it contains a single quote and no double
one. Inside, the quote and the backslash follow a backslash, and signs that are not shown as themselves are
written by name or number.
-/

namespace GemScribe.Text

/-- A number in base sixteen, with zeros in front up to a width. -/
def hexText (width n : Nat) : Text :=
  let digits := Nat.toDigits 16 n
  List.replicate (width - digits.length) '0' ++ digits

/-- A character inside a quoted text. -/
def quoteChar (mark c : Char) : Text :=
  if c = mark ∨ c = '\\' then ['\\', c]
  else if c = '\t' then ['\\', 't']
  else if c = '\n' then ['\\', 'n']
  else if c = '\r' then ['\\', 'r']
  else if isPrintable c then [c]
  else if c.toNat ≤ 0xFF then '\\' :: 'x' :: hexText 2 c.toNat
  else if c.toNat ≤ 0xFFFF then '\\' :: 'u' :: hexText 4 c.toNat
  else '\\' :: 'U' :: hexText 8 c.toNat

/-- A half by its number. -/
def halfText (h : Half) : Text :=
  '\\' :: 'u' :: hexText 4 h.unit

/-- A sign inside a quoted text. -/
def quoteSign (mark : Char) : Sign → Text
  | .char c => quoteChar mark c
  | .half h => halfText h

/-- The mark that a text is quoted with. -/
def quoteMark (t : Text) : Char :=
  if '\'' ∈ t ∧ '"' ∉ t then '"' else '\''

/-- A text in quotes. -/
def quote (t : Text) : Text :=
  let mark := quoteMark t
  mark :: (signs t).flatMap (quoteSign mark) ++ [mark]

/-- A sign of a text that must have bytes. -/
def encodableSign : Sign → Text
  | .char c => (Sign.char c).spelling
  | .half h => halfText h

/-- The text with its halves by number. -/
def encodable (t : Text) : Text :=
  (signs t).flatMap encodableSign

end GemScribe.Text
