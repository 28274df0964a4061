import GemScribe.Text.Split

/-!
Texts with halves of characters.

Beside characters a text may hold *halves*: numbers from `U+D800` to `U+DFFF`. A high one and a low one write one
character in an escape, and one alone stands for none. A half is spelled with two characters: the *mark* `U+10FFFF`,
which is assigned to nothing, and a private character that tells which half it is. Where the mark itself is meant, it
is spelled with two characters too. Characters and halves are the signs of a text; by signs it is counted and quoted.
A text with a half has no bytes.
-/

namespace GemScribe

/-- One half of a pair. -/
structure Half where
  unit : Nat
  bounds : 0xD800 ≤ unit ∧ unit < 0xE000
  deriving DecidableEq

/-- A character, or a half that stands alone. -/
inductive Sign where
  | char (c : Char)
  | half (h : Half)
  deriving DecidableEq

namespace Sign

/-- Begins the spelling of a half. -/
def mark : Char := Char.ofNat 0x10FFFF

/-- Follows the mark where the mark itself is meant. -/
def markTrail : Char := Char.ofNat 0x10FFFE

/-- How far the private characters are from the halves that they tell. -/
def trailOffset : Nat := 0x800

/-- The sign with a number. -/
def ofUnit (unit : Nat) : Sign :=
  if h : 0xD800 ≤ unit ∧ unit < 0xE000 then .half ⟨unit, h⟩ else .char (Char.ofNat unit)

def spelling : Sign → Text
  | char c => if c = mark then [mark, markTrail] else [c]
  | half h => [mark, Char.ofNat (h.unit + trailOffset)]

/-- The sign whose spelling goes on with a character after the mark. -/
def ofTrail? (c : Char) : Option Sign :=
  if c = markTrail then some (char mark)
  else if h : 0xD800 ≤ c.toNat - trailOffset ∧ c.toNat - trailOffset < 0xE000 then
    some (half ⟨c.toNat - trailOffset, h⟩)
  else none

def char? : Sign → Option Char
  | char c => some c
  | half _ => none

def isHalf : Sign → Bool
  | char _ => false
  | half _ => true

/-- A half in a name stands for a byte that begins no character. -/
def isInName : Sign → Bool
  | char _ => true
  | half h => decide (0xDC80 ≤ h.unit ∧ h.unit < 0xDD00)

/-- The bytes of a sign in a name. -/
def nameBytes : Sign → Nat
  | char c => c.utf8Size
  | half _ => 1

end Sign

namespace Text

/-- The signs that a text spells. A mark that begins no spelling stands for itself. -/
def signs : Text → List Sign
  | [] => []
  | [c] => [.char c]
  | c :: d :: rest =>
    match if c = Sign.mark then Sign.ofTrail? d else none with
    | some sign => sign :: signs rest
    | none => .char c :: signs (d :: rest)

/-- The text that spells the given signs. -/
def spell (ss : List Sign) : Text :=
  ss.flatMap Sign.spelling

/-- The text of a string. -/
def ofString (s : String) : Text :=
  spell (s.toList.map .char)

/-- The string of a text. A half has no place in it. -/
def toString (t : Text) : String :=
  String.ofList ((signs t).filterMap Sign.char?)

/-- A text with a half has no bytes. -/
def hasHalf (t : Text) : Bool :=
  (signs t).any Sign.isHalf

/-- The number of signs. -/
def size (t : Text) : Nat :=
  (signs t).length

/-- The text with `fill` added at its end up to a width. -/
def padRight (width : Nat) (fill : Char) (t : Text) : Text :=
  t ++ List.replicate (width - size t) fill

end Text

end GemScribe
