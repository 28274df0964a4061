import GemScribe.Number.Fault
import GemScribe.Number.Logarithm

/-!
Powers with a fixed exponent between zero and one.

A power is the exponential of the exponent times the logarithm, and both are taken in two parts. The
exponential goes over the powers `2^(i/128)`: for the whole number `k` nearest to `128 · y / log 2` and the
small rest `r`, `e^y` is `2^(k/128) · e^r`. Every step is rounded to binary64, so that the result is the
nearest binary64 number or, when the power lies almost halfway between two of them, one of the two.
-/

namespace GemScribe

/-! ### Roots of two -/

/-- Newton's iteration for the whole square root of `n`, from a guess that is not below it. -/
def sqrtFrom (n : Nat) : Nat → Nat → Nat
  | 0, g => g
  | fuel + 1, g =>
    let next := (g + n / g) / 2
    if next < g then sqrtFrom n fuel next else g

/-- The greatest number whose square is at most `n`. -/
def wholeSqrt (n : Nat) : Nat :=
  if n = 0 then 0 else sqrtFrom n (Nat.log2 n + 2) (twoPow (Nat.log2 n / 2 + 1))

/-- The binary places kept in roots and products. -/
def rootPlaces : Nat := 240

/-- The product of `product` and the repeated square roots of `root` that the lowest `i` bits of `k`
ask for, all in units of `2^(-rootPlaces)`. -/
def rootProduct (k : Nat) : Nat → Nat → Nat → Nat
  | 0, _, product => product
  | i + 1, root, product =>
    let next := wholeSqrt (root * twoPow rootPlaces)
    rootProduct k i next
      (if k.testBit i then product * next / twoPow rootPlaces else product)

/-- `2^(i/128)` for `i < 128`. -/
def rootOfTwo (i : Nat) : Rat :=
  mkRat (rootProduct i 7 (twoPow (rootPlaces + 1)) (twoPow rootPlaces)) (twoPow rootPlaces)

/-! ### The exponential -/

/-- `e^r - 1 + excess` for a small `r`. The coefficients are those of the series of the exponential,
adjusted so that the greatest error is least. -/
def smallExponential (r excess : Rat) : Rat :=
  let square := rounded (r * r)
  let a := rounded (mkRat 0x1555555555543c (twoPow 55) * r + mkRat 0x1ffffffffffdbd (twoPow 54))
  let b := rounded (mkRat 0x11111167a4d017 (twoPow 59) * r + mkRat 0x155555cf172b91 (twoPow 57))
  rounded (b * rounded (square * square) + rounded (a * square + rounded (r + excess)))

/-- Below `e^(-512)` the last product of an exponential is rounded before it is added. -/
def lowExponent : Rat := -512

/-- `e^y`, for a `y` that is neither too great nor too small for the result to have all its digits. -/
def exponential (y : TwoPart) : Binary64 :=
  let step := TwoPart.short (logTwo / 128)
  let k := nearestWhole (rounded (128 / logTwo) * y.head)
  let r := rounded (rounded (rounded (y.head - k * step.head) - k * step.tail) + y.tail)
  let root := rootOfTwo (k % 128).toNat
  let scale := rounded root
  let growth := scale * smallExponential r (rounded (root / scale - 1))
  let e := (if y.head ≤ lowExponent then rounded growth else growth) + scale
  Binary64.round false (e.num.toNat * twoPow (k / 128).toNat) (e.den * twoPow (-(k / 128)).toNat)

theorem isNegative_exponential (y : TwoPart) : (exponential y).isNegative = false :=
  Binary64.isNegative_round ..

/-! ### Powers -/

namespace Binary64

/-- `x^(k / 2^53)` for `0 < k < 2^53`. A negative number has no such power; the zeros have the power
zero, and both infinities the power infinity. -/
def power (k : Nat) : Binary64 → Except NumberFault Binary64
  | .nan => .ok .nan
  | .infinite _ => .ok (.infinite false)
  | .finite s m e _ =>
    if m = 0 then .ok (zero false)
    else if s then .error .negativeBase
    else
      let exponent := mkRat k mantissaBound
      let log := logarithm m e
      let y := TwoPart.product exponent log.head
      .ok (exponential ⟨y.head, rounded (exponent * log.tail + y.tail)⟩)

/-- The binary64 number nearest to nine tenths, in units of `2^(-53)`. -/
def nineTenths : Nat := 8106479329266893

end Binary64

end GemScribe
