import GemScribe.Number.Decimal

/-!
Rounding to decimal places, ties away from zero.

The exact value is rounded to a whole number `k` of units `10^(-places)`, and the result is the
binary64 number nearest to that decimal. At most 28 digits of `k` are kept: a longer `k` is
refused.
-/

namespace GemScribe

/-- The whole number nearest to `n / d`, a half going up. -/
def nearestUp (n d : Nat) : Nat :=
  (2 * n + d) / (2 * d)

/-- The most digits that a rounded number may have. -/
def roundingDigits : Nat := 28

/-- The units `10^(-places)` that can be named: places up to twice the decimal exponent range are
understood, and a unit above `10^999999` is refused. -/
def checkPlaces (places : Int) : Except NumberFault Unit :=
  if 2000054 < places ∨ places < -2000054 then .error .tooManyDigits
  else if places < -999999 then .error .unitOutOfRange
  else .ok ()

/-- `± n / d` rounded to `places` decimal places. -/
def roundRatio (negative : Bool) (n d : Nat) (places : Int) : Except NumberFault Binary64 :=
  let k := nearestUp (n * tenPow places.toNat) (d * tenPow (-places).toNat)
  if k < tenPow roundingDigits then .ok (Binary64.ofDecimal negative k (-places))
  else .error .tooManyDigits

/-- A number rounded to `places` decimal places, with its sign; infinities and nan stay. -/
def Binary64.roundHalfUp (x : Binary64) (places : Int) : Except NumberFault Binary64 :=
  match x with
  | .finite s m e _ =>
    match checkPlaces places with
    | .error fault => .error fault
    | .ok () => roundRatio s (numerator m e) (denominator e) places
  | _ => .ok x

/-- A whole number rounded to `places` decimal places. -/
def roundIntHalfUp (i : Int) (places : Int) : Except NumberFault Binary64 :=
  match checkPlaces places with
  | .error fault => .error fault
  | .ok () => roundRatio (decide (i < 0)) i.natAbs 1 places

end GemScribe
