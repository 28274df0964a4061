import GemScribe.Number.HalfUp
import GemScribe.Number.Shortest

/-!
Quantities: numbers as they occur in data.

A quantity is a whole number of any size, kept exactly, or a binary64 number. Showing a whole
number, or dividing it, first asks whether it is within the range of binary64 at all.
-/

namespace GemScribe

inductive Quantity where
  | whole (i : Int)
  | real (x : Binary64)
  deriving DecidableEq

namespace Quantity

/-- The binary64 number nearest to a quotient, unless that is an infinity. -/
def nearest (q : Rat) : Except NumberFault Binary64 :=
  match Binary64.ofRat false q with
  | .infinite _ => .error .outOfRange
  | x => .ok x

/-- A quantity as a binary64 number. -/
def toBinary64 : Quantity → Except NumberFault Binary64
  | .whole i => nearest i
  | .real x => .ok x

/-- The quotient by a positive whole number, rounded once. -/
def divBy : Quantity → Nat → Except NumberFault Binary64
  | .whole i, d => nearest (mkRat i d)
  | .real x, d => .ok (x.divBy d)

/-- A whole number is compared exactly, without rounding it. -/
def equalsInt : Quantity → Int → Bool
  | .whole i, j => i == j
  | .real x, j => x.toInt? == some j

/-- Equality by value. -/
def same : Quantity → Quantity → Bool
  | .whole i, .whole j => i == j
  | .whole i, .real y => (Quantity.real y).equalsInt i
  | .real x, .whole j => (Quantity.real x).equalsInt j
  | .real x, .real y => x.eq y

/-- The text shown to a reader. -/
def display : Quantity → Except NumberFault Text
  | .whole i =>
    match nearest i with
    | .error fault => .error fault
    | .ok _ => .ok (intText i)
  | .real x => .ok x.display

/-- The shown text, with a plus sign in front unless the quantity is negative. -/
def displaySigned : Quantity → Except NumberFault Text
  | .whole i =>
    match display (.whole i) with
    | .error fault => .error fault
    | .ok t => .ok (if 0 ≤ i then '+' :: t else t)
  | .real x => .ok x.displaySigned

/-- Rounded to decimal places, ties away from zero. -/
def roundHalfUp : Quantity → Int → Except NumberFault Binary64
  | .whole i, places =>
    match nearest i with
    | .error fault => .error fault
    | .ok _ => roundIntHalfUp i places
  | .real x, places => x.roundHalfUp places

/-- The greatest whole number that is at most the quantity. -/
def floor : Quantity → Except NumberFault Int
  | .whole i => .ok i
  | .real .nan => .error .notANumber
  | .real (.infinite _) => .error .outOfRange
  | .real x => .ok x.toRat.floor

/-- The text from which exactly this quantity is read back. -/
def text : Quantity → Text
  | .whole i => intText i
  | .real x => x.text

end Quantity

end GemScribe
