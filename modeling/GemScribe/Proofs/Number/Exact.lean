import GemScribe.Number.HalfUp
import Mathlib.Algebra.Order.Field.Power
import Mathlib.Data.Rat.Cast.Order
import Mathlib.Tactic.FieldSimp
import Mathlib.Tactic.Linarith
import Mathlib.Tactic.NormNum
import Mathlib.Tactic.Positivity

/-!
The exact values of binary64 numbers.

Scaling by a power with an integer exponent is done with two natural powers, one of which is one. Here
such a pair is read as one power, so that a finite number has the value `± m · 2^e`.
-/

namespace GemScribe

theorem twoPow_eq (k : Nat) : twoPow k = 2 ^ k :=
  rfl

theorem tenPow_eq (k : Nat) : tenPow k = 10 ^ k :=
  rfl

theorem twoPow_pos (k : Nat) : 0 < twoPow k :=
  Nat.pow_pos (by decide)

theorem tenPow_pos (k : Nat) : 0 < tenPow k :=
  Nat.pow_pos (by decide)

/-- Of the two powers one is always one. -/
theorem pow_toNat_div (b : ℚ) (e : ℤ) : b ^ e.toNat / b ^ (-e).toNat = b ^ e := by
  rcases le_total 0 e with h | h
  · obtain ⟨n, rfl⟩ := Int.eq_ofNat_of_zero_le h
    simp
  · obtain ⟨n, hn⟩ := Int.eq_ofNat_of_zero_le (Int.neg_nonneg_of_nonpos h)
    obtain rfl : e = -n := by omega
    simp

theorem twoPow_toNat_div (e : ℤ) : (twoPow e.toNat : ℚ) / twoPow (-e).toNat = 2 ^ e := by
  rw [twoPow_eq, twoPow_eq]
  push_cast
  exact pow_toNat_div 2 e

theorem tenPow_toNat_div (e : ℤ) : (tenPow e.toNat : ℚ) / tenPow (-e).toNat = 10 ^ e := by
  rw [tenPow_eq, tenPow_eq]
  push_cast
  exact pow_toNat_div 10 e

namespace Binary64

theorem numerator_div_denominator (m : Nat) (e : ℤ) :
    (numerator m e : ℚ) / denominator e = m * 2 ^ e := by
  rw [numerator, denominator, Nat.cast_mul, mul_div_assoc, twoPow_toNat_div]

theorem denominator_pos (e : ℤ) : 0 < denominator e :=
  twoPow_pos _

theorem toRat_finite (s : Bool) (m : Nat) (e : ℤ) (h : Canonical m e) :
    (finite s m e h).toRat = (if s then -1 else 1) * (m * 2 ^ e) := by
  rw [toRat, Rat.mkRat_eq_div, ← numerator_div_denominator]
  cases s
  · simp
  · simp [neg_div]

theorem abs_toRat_finite (s : Bool) (m : Nat) (e : ℤ) (h : Canonical m e) :
    |(finite s m e h).toRat| = m * 2 ^ e := by
  rw [toRat_finite, abs_mul, abs_of_nonneg (a := (m * 2 ^ e : ℚ)) (by positivity)]
  cases s <;> simp

theorem toRat_zero (negative : Bool) : (zero negative).toRat = 0 := by
  rw [zero, toRat_finite, Nat.cast_zero, zero_mul, mul_zero]

end Binary64

/-! ### Rounding half up -/

theorem nearestUp_lt_iff {n d k : Nat} (hd : 0 < d) :
    nearestUp n d < k ↔ (n : ℚ) / d + 1 / 2 < k := by
  have hd' : (0 : ℚ) < d := by exact_mod_cast hd
  rw [nearestUp, Nat.div_lt_iff_lt_mul (by omega), div_add_div _ _ hd'.ne' two_ne_zero,
    div_lt_iff₀ (by positivity)]
  have hcast : (2 * n + d < k * (2 * d)) ↔ ((2 * n + d : ℕ) : ℚ) < (k * (2 * d) : ℕ) :=
    Nat.cast_lt.symm
  rw [hcast]
  push_cast
  constructor <;> intro h <;> linarith

/-- A scaled quotient as the quotient of the scaled parts. -/
theorem scaled_div (n d : Nat) (places : ℤ) :
    ((n * tenPow places.toNat : ℕ) : ℚ) / (d * tenPow (-places).toNat : ℕ) =
      n / d * 10 ^ places := by
  rw [Nat.cast_mul, Nat.cast_mul, mul_div_mul_comm, tenPow_toNat_div]

/-- A quotient is rounded unless that takes more digits than are kept. -/
theorem exists_roundRatio_iff (negative : Bool) {n d : Nat} (hd : 0 < d) (places : ℤ) :
    (∃ y, roundRatio negative n d places = .ok y) ↔
      (n : ℚ) / d * 10 ^ places + 1 / 2 < 10 ^ roundingDigits := by
  have hpos : 0 < d * tenPow (-places).toNat := Nat.mul_pos hd (tenPow_pos _)
  have hbound : ((tenPow roundingDigits : ℕ) : ℚ) = 10 ^ roundingDigits := by
    rw [tenPow_eq, Nat.cast_pow, Nat.cast_ofNat]
  rw [← scaled_div, ← hbound, ← nearestUp_lt_iff hpos, roundRatio]
  split
  · next h => exact ⟨fun _ => h, fun _ => ⟨_, rfl⟩⟩
  · next h => exact ⟨fun ⟨_, hy⟩ => (nomatch hy), fun hk => absurd hk h⟩

theorem roundRatio_eq_error {negative : Bool} {n d : Nat} {places : ℤ} {cause : NumberFault}
    (h : roundRatio negative n d places = .error cause) : cause = .tooManyDigits := by
  rw [roundRatio] at h
  split at h
  · cases h
  · exact (Except.error.inj h).symm

namespace Binary64

/-- A number is rounded to places that can be named unless that takes more digits than are kept. -/
theorem exists_roundHalfUp_iff {places : ℤ} (hplaces : checkPlaces places = .ok ()) (x : Binary64) :
    (∃ y, x.roundHalfUp places = .ok y) ↔
      |x.toRat| * 10 ^ places + 1 / 2 < 10 ^ roundingDigits := by
  cases x with
  | finite s m e hc =>
    rw [abs_toRat_finite, ← numerator_div_denominator, ← exists_roundRatio_iff s (denominator_pos e),
      roundHalfUp, hplaces]
  | infinite s => norm_num [roundHalfUp, toRat, roundingDigits]
  | nan => norm_num [roundHalfUp, toRat, roundingDigits]

theorem roundHalfUp_eq_error {x : Binary64} {places : ℤ} {cause : NumberFault}
    (hplaces : checkPlaces places = .ok ()) (h : x.roundHalfUp places = .error cause) :
    cause = .tooManyDigits := by
  cases x with
  | finite s m e hc =>
    rw [roundHalfUp, hplaces] at h
    exact roundRatio_eq_error h
  | infinite s => cases h
  | nan => cases h

end Binary64

end GemScribe
