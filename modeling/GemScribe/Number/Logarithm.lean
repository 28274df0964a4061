import GemScribe.Number.TwoPart

/-!
Natural logarithms of binary64 numbers, in two parts.

A positive number is `2^k · z` for a `z` between about 0.7 and 1.4. That range is cut into 128 cells.
For a number `1/c` with few digits, close to the reciprocal of the middle of its cell, `z` makes
`r = z/c - 1` small and exact, and

  `log x = k · log 2 + log c + log (1 + r)`.

The logarithms of 2 and of `c` are taken from a series and have short heads, so that the first sum of
heads is exact. The last logarithm is `r - r²/2` and a polynomial for the rest.
-/

namespace GemScribe

/-! ### Logarithms of quotients -/

/-- The binary places kept in the terms of a series. -/
def seriesPlaces : Nat := 240

/-- The sum of `power/n + power · square/(n + 2) + power · square²/(n + 4) + …`, so many terms of it,
in units of `2^(-seriesPlaces)`. -/
def oddSeries (square : Int) : Nat → Int → Int → Int
  | 0, _, _ => 0
  | terms + 1, n, power =>
    power / n + oddSeries square terms (n + 2) (power * square / (twoPow seriesPlaces : Nat))

/-- The natural logarithm of `p / q`, for two numbers of which neither is more than twice the other:
with `t = (p - q) / (p + q)` it is `2 (t + t³/3 + t⁵/5 + …)`. -/
def logQuotient (p q : Nat) : Rat :=
  let t : Int := ((p : Int) - q) * (twoPow seriesPlaces : Nat) / ((p : Int) + q)
  mkRat (2 * oddSeries (t * t / (twoPow seriesPlaces : Nat)) 80 1 t) (twoPow seriesPlaces)

/-- The natural logarithm of 2. -/
def logTwo : Rat := logQuotient 2 1

/-! ### Cells -/

/-- The first place of the cells; it stands for the number `0.70573…`. -/
def firstPlace : Nat := 0x16955500000000

/-- The number of places in a cell, `2^45`. -/
def cellPlaces : Nat := 35184372088832

/-- The number at a place of the cells: below one the places are `2^(-53)` apart, from one on
`2^(-52)`. -/
def atPlace (place : Nat) : Rat :=
  if place < mantissaBound then mkRat place mantissaBound
  else mkRat (place - mantissaLeast : Nat) mantissaLeast

/-- The reciprocal of the middle of a cell in units of `2^(-8)`, as near as can be; an even number of
them for a middle below one. -/
def cellReciprocal (place : Nat) : Nat :=
  let middle := place - (place - firstPlace) % cellPlaces + cellPlaces / 2
  if middle < mantissaBound then 2 * Binary64.nearestEven (twoPow 60) middle
  else Binary64.nearestEven (twoPow 60) (middle - mantissaLeast)

/-- The exponent `k` and the place of `z` for which `m · 2^e` is `2^k · z` (`0 < m < 2^53`). -/
def cellOf (m : Nat) (e : Int) : Int × Nat :=
  let shift := 52 - Nat.log2 m
  let m := m * twoPow shift
  if firstPlace ≤ m then (e - shift + 53, m) else (e - shift + 52, m + mantissaLeast)

/-! ### The logarithm -/

/-- The rest of `log (1 + r)` after `r - r²/2`, as a factor of `-r³/2`. The argument `bend` is `-r²/2`.
The coefficients are those of the series of the logarithm, adjusted so that the greatest error in a
cell is least. -/
def logRest (r bend : Rat) : Rat :=
  let a := rounded (mkRat 0x10000000000006 (twoPow 53) * r - mkRat 0x15555555555560 (twoPow 53))
  let b := rounded (mkRat 0x1999999959554e (twoPow 53) - mkRat 0x1555555529a47a (twoPow 53) * r)
  let c := rounded (mkRat 0x10002b8b263fc3 (twoPow 52) * r - mkRat 0x12495b9b4845e9 (twoPow 52))
  rounded (bend * rounded (c * bend + b) + a)

/-- The natural logarithm of `m · 2^e` (`0 < m < 2^53`). -/
def logarithm (m : Nat) (e : Int) : TwoPart :=
  let (k, place) := cellOf m e
  let reciprocal := cellReciprocal place
  let r := atPlace place * mkRat reciprocal 256 - 1
  let two := TwoPart.short logTwo
  let c := TwoPart.short (logQuotient 256 reciprocal)
  let linear := TwoPart.sum (k * two.head + c.head) r
  let bend := TwoPart.product (-r / 2) r
  let quadratic := TwoPart.sum linear.head bend.head
  let tails := rounded (rounded (rounded (rounded (k * two.tail + c.tail) + linear.tail) + bend.tail)
    + quadratic.tail)
  TwoPart.sum quadratic.head
    (rounded (rounded (r * bend.head) * logRest r bend.head + tails))

end GemScribe
