import GemScribe.Proofs.Number.PlainDecimal
import GemScribe.Stat.Directive

/-!
Converted values are shown without noise.

A directive divides a value and rounds the quotient to one or two places. As long as the value is at most
`10^13`, four roundings in a row (of the quotient, to the places, to the nearest number and to its
shortest digits) leave the decimal that was meant: the quotient rounded to those places, in plain
notation. A whole number divided by ten or a hundred has no more places than that, and stays exact.
-/

namespace GemScribe

namespace Directive

/-- What a divisor leaves has room in the places of its directive. -/
theorem places_spec : ∀ d ∈ all, 0 ≤ d.places ∧ d.places ≤ 2 ∧ 10 ^ d.places.toNat ≤ d.divisor ∧
    (d.divisor = 10 ∨ d.divisor = 100 → d.divisor = 10 ^ d.places.toNat) := by
  decide

variable {v : Quantity} {q : Binary64} {d p : ℕ}

/-- A quotient in units of the places is as small as the value, but for its rounding error. -/
theorem abs_quotient_le (hd : 10 ^ p ≤ d) (hp : p ≤ 2) (hbound : |v.toRat| ≤ 10 ^ 13)
    (hq : |q.toRat - v.toRat / d| ≤ max |v.toRat / d| 1 / 2 ^ 53) :
    |q.toRat * 10 ^ p - v.toRat / d * 10 ^ p| ≤ 1 / 4 ∧ |v.toRat / d * 10 ^ p| ≤ 10 ^ 13 := by
  have hpow : (0 : ℚ) < 10 ^ p := by positivity
  have hpow' : (10 : ℚ) ^ p ≤ 10 ^ 2 := pow_le_pow_right₀ (by norm_num) hp
  have hd' : (10 : ℚ) ^ p ≤ d := by exact_mod_cast hd
  have hunits : |v.toRat / d| * 10 ^ p ≤ 10 ^ 13 := by
    rw [abs_div, Nat.abs_cast, div_mul_eq_mul_div, div_le_iff₀ (by linarith)]
    exact mul_le_mul hbound hd' hpow.le (by norm_num)
  have hmax : max |v.toRat / d| 1 * 10 ^ p ≤ 10 ^ 13 := by
    rw [max_mul_of_nonneg _ _ hpow.le]
    exact max_le hunits (by linarith)
  rw [← sub_mul, abs_mul, abs_mul, abs_of_pos hpow]
  refine ⟨?_, hunits⟩
  calc |q.toRat - v.toRat / d| * 10 ^ p ≤ max |v.toRat / d| 1 / 2 ^ 53 * 10 ^ p := by gcongr
    _ = max |v.toRat / d| 1 * 10 ^ p / 2 ^ 53 := by ring
    _ ≤ 10 ^ 13 / 2 ^ 53 := by gcongr
    _ ≤ 1 / 4 := by norm_num

/-- A converted value up to `10^13` is shown as its quotient rounded to the places of the directive, in
plain notation; a whole number divided by ten or a hundred is shown exactly. -/
theorem display_convert {d : Directive} (hd : d ∈ all) {v : Quantity} (hv : v.isFinite)
    (hbound : |v.toRat| ≤ 10 ^ 13) : ∃ q y, v.divBy d.divisor = .ok q ∧ d.convert v = .ok y ∧
      PlainNotation d.places.toNat (roundPlaces d.places.toNat q.toRat) y.display ∧
      ∀ i : ℤ, v.toRat = i → d.divisor = 10 ∨ d.divisor = 100 →
        PlainNotation d.places.toNat (i / d.divisor) y.display := by
  obtain ⟨hlowest, hhighest, hroom, hexact⟩ := places_spec d hd
  obtain ⟨p, hp⟩ := Int.eq_ofNat_of_zero_le hlowest
  rw [hp, Int.toNat_natCast] at hroom hexact ⊢
  have hp' : p ≤ 2 := by omega
  have hlt : |v.toRat| < 2 ^ 1023 :=
    calc |v.toRat| ≤ 10 ^ 13 := hbound
      _ < 2 ^ 100 := by norm_num
      _ ≤ 2 ^ 1023 := pow_le_pow_right₀ one_le_two (by decide)
  have hdivisor : 0 < d.divisor := lt_of_lt_of_le (by positivity) hroom
  obtain ⟨q, hdiv, hq, herror⟩ := Quantity.divBy_spec hv hlt hdivisor
  obtain ⟨hnear, hunits⟩ := abs_quotient_le hroom hp' hbound herror
  have hplaces : |(p : ℤ)| ≤ 1000 := abs_le.mpr ⟨by omega, by omega⟩
  obtain ⟨k, haway, hround⟩ := Binary64.exists_roundHalfUp hq (Binary64.checkPlaces_of_abs_le hplaces)
  rw [zpow_natCast] at haway
  have hk : k < 10 ^ 14 := by
    have habs := abs_roundAway_le (q.toRat * 10 ^ p)
    have hsub := abs_sub_abs_le_abs_sub (q.toRat * 10 ^ p) (v.toRat / d.divisor * 10 ^ p)
    have hsign : |(((if q.isNegative then -1 else 1) * k : ℤ) : ℚ)| = k := by
      cases q.isNegative <;> simp
    rw [haway, hsign] at habs
    have hle : (k : ℚ) < (10 ^ 14 : ℕ) := by
      push_cast
      linarith
    exact_mod_cast hle
  have hdigits : k < tenPow roundingDigits :=
    lt_trans hk (Nat.pow_lt_pow_right (by decide) (by decide : 14 < roundingDigits))
  have hvalue : roundPlaces p q.toRat = Binary64.signedUnits q.isNegative k p := by
    rw [roundPlaces, haway, Binary64.signedUnits, zpow_neg, zpow_natCast, div_eq_mul_inv]
    cases q.isNegative <;> simp
  have hplain := Binary64.plainNotation_ofDecimal hk (by omega : p ≤ 3) q.isNegative
  rw [← hvalue] at hplain
  refine ⟨q, _, hdiv, ?_, hplain, fun i hi hten => ?_⟩
  · rw [convert, hdiv, hp]
    exact hround.trans (if_pos hdigits)
  · have hpow : ((d.divisor : ℕ) : ℚ) = 10 ^ p := by exact_mod_cast hexact hten
    rw [hi, hpow, div_mul_cancel₀ _ (by positivity)] at hnear
    have hrounded := roundAway_eq_of_near (lt_of_le_of_lt hnear (by norm_num))
    rwa [roundPlaces, hrounded, ← hpow] at hplain

/-- Twenty-five over ten. -/
theorem display_convert_tenth : ∃ q y,
    (Quantity.real (.finite false 7036874417766400 (-48) (by decide))).divBy 10 = .ok q ∧
      (all[1]).convert (.real (.finite false 7036874417766400 (-48) (by decide))) = .ok y ∧
      PlainNotation 1 (roundPlaces 1 q.toRat) y.display ∧
      PlainNotation 1 ((25 : ℤ) / (10 : ℕ)) y.display := by
  have hvalue : (Quantity.real (.finite false 7036874417766400 (-48) (by decide))).toRat = (25 : ℤ) := by
    rw [Quantity.toRat, Binary64.toRat_finite]
    norm_num
  obtain ⟨q, y, hdiv, hconvert, hplain, hexact⟩ := display_convert (d := all[1]) (List.getElem_mem _)
    (v := .real (.finite false 7036874417766400 (-48) (by decide))) rfl
    (by rw [hvalue]; norm_num)
  exact ⟨q, y, hdiv, hconvert, hplain, hexact 25 hvalue (Or.inl rfl)⟩

end Directive

end GemScribe
