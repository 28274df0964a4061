import GemScribe.Number.Binary64

/-!
Numbers in two parts.

A number that needs more digits than binary64 has is held as a head and a tail. Both are values of
binary64 numbers, and the number is their sum. The head of a sum or a product is what binary64 would
give for it, and the tail is what rounding the head lost.
-/

namespace GemScribe

/-- The value of the binary64 number nearest to `q`. -/
def rounded (q : Rat) : Rat :=
  (Binary64.ofRat false q).toRat

/-- The whole number nearest to `q`, a half going to the even neighbour. -/
def nearestWhole (q : Rat) : Int :=
  let n : Int := Binary64.nearestEven q.num.natAbs q.den
  if q.num < 0 then -n else n

structure TwoPart where
  head : Rat
  tail : Rat

namespace TwoPart

/-- The sum of two binary64 numbers, of which the greater one comes first. -/
def sum (a b : Rat) : TwoPart :=
  let head := rounded (a + b)
  ⟨head, rounded (rounded (a - head) + b)⟩

/-- The product of two binary64 numbers. -/
def product (a b : Rat) : TwoPart :=
  let head := rounded (a * b)
  ⟨head, rounded (a * b - head)⟩

/-- The binary places of a short head. Sums of short heads, and whole multiples of them, need no
rounding as long as they stay below `2^10`. -/
def shortPlaces : Nat := 43

/-- A number in two parts, with a short head. -/
def short (q : Rat) : TwoPart :=
  let head := mkRat (nearestWhole (q * (twoPow shortPlaces : Nat))) (twoPow shortPlaces)
  ⟨head, rounded (q - head)⟩

end TwoPart

end GemScribe
