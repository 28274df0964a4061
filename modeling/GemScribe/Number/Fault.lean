/-!
What can go wrong in a calculation with numbers.
-/

namespace GemScribe

inductive NumberFault where
  /-- A whole number has no binary64 number near it, or an infinity no whole number. -/
  | outOfRange
  /-- Nan has no whole part. -/
  | notANumber
  /-- A rounded number would need more than 28 digits. -/
  | tooManyDigits
  /-- The unit to round to is beyond the decimal exponents. -/
  | unitOutOfRange
  /-- A numeral has more digits than are read. -/
  | numeralTooLong
  /-- A negative number has no real power with a fractional exponent. -/
  | negativeBase
  deriving DecidableEq, Repr

end GemScribe
