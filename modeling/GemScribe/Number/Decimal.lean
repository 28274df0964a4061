import GemScribe.Number.Binary64
import GemScribe.Number.Fault
import GemScribe.Text.Digit
import GemScribe.Text.Split

/-!
Decimal numerals: how whole numbers are written and read, and which binary64 number a decimal
names.
-/

namespace GemScribe

/-- Ten to the `k`. -/
def tenPow (k : Nat) : Nat :=
  Nat.pow 10 k

/-- The decimal digits of a natural number. -/
def natText (n : Nat) : Text :=
  Nat.toDigits 10 n

/-- A minus sign and the digits. -/
def intText (i : Int) : Text :=
  if i < 0 then '-' :: natText i.natAbs else natText i.natAbs

/-- The most digits that a whole number may be read from or written with, leading zeros included. -/
def longestNumeral : Nat := 4300

/-- The text of a whole number, unless it has too many digits. -/
def writeInt (i : Int) : Except NumberFault Text :=
  if longestNumeral < (natText i.natAbs).length then .error .numeralTooLong else .ok (intText i)

/-- The number that a run of digits writes. -/
def readNat (digits : Text) : Except NumberFault Nat :=
  if longestNumeral < digits.length then .error .numeralTooLong
  else .ok (Text.digitsValue digits)

/-- The text without a sign at its beginning, and whether that sign was a minus. -/
def splitSign : Text → Bool × Text
  | '-' :: t => (true, t)
  | '+' :: t => (false, t)
  | t => (false, t)

/-- The binary64 number nearest to `± digits · 10^exponent`. Beyond exponent 400 it is an infinity,
and so far below that the digits cannot make up for it, it is zero; both are decided without
writing the power of ten out. -/
def Binary64.ofDecimal (negative : Bool) (digits : Nat) (exponent : Int) : Binary64 :=
  if digits = 0 then zero negative
  else if 400 < exponent then .infinite negative
  else if exponent < -(400 + (Nat.log2 digits : Int)) then zero negative
  else round negative (digits * tenPow exponent.toNat) (tenPow (-exponent).toNat)

example : natText 120 = ['1', '2', '0'] := by decide
example : intText (-7) = ['-', '7'] := by decide

end GemScribe
