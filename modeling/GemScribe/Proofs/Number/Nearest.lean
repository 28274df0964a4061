import GemScribe.Proofs.Number.Shown

/-!
Which number a quotient is rounded to.

`round` depends on the exact quotient alone. A quotient within half a last place of a finite number is
rounded to that number, where the least mantissa of a binade needs more care: below it the numbers lie
twice as close, so that the quotient has to be within a quarter. The powers of ten that `ofDecimal` does
not write out are so large or so small that rounding them comes to the same.
-/

namespace GemScribe

namespace Binary64

variable {m n d n' d' : ℕ} {e s s' : ℤ} {k k' : ℕ}

/-! ### Equal quotients -/

theorem nearestEven_mul (n d : ℕ) {k : ℕ} (hk : 0 < k) :
    nearestEven (n * k) (d * k) = nearestEven n d := by
  have hlow : 2 * (n % d * k) < d * k ↔ 2 * (n % d) < d := by
    rw [← mul_assoc, Nat.mul_lt_mul_right hk]
  have hhigh : d * k < 2 * (n % d * k) ↔ d < 2 * (n % d) := by
    rw [← mul_assoc, Nat.mul_lt_mul_right hk]
  rw [nearestEven, nearestEven, Nat.mul_div_mul_right _ _ hk, Nat.mul_mod_mul_right]
  simp only [hlow, hhigh]

theorem nearestEven_congr (hd : 0 < d) (hd' : 0 < d') (h : (n : ℚ) / d = n' / d') :
    nearestEven n d = nearestEven n' d' := by
  rw [div_eq_div_iff (by positivity) (by positivity)] at h
  have hcross : n * d' = n' * d := by exact_mod_cast h
  rw [← nearestEven_mul n d hd', hcross, mul_comm d d', nearestEven_mul n' d' hd]

/-- A whole number within less than a half of a quotient is the nearest one. -/
theorem nearestEven_eq_of_near (hd : 0 < d) (h : |(m : ℚ) - n / d| < 1 / 2) :
    nearestEven n d = m := by
  obtain ⟨hlow, hhigh⟩ := abs_le.mp (abs_nearestEven_sub_le n hd)
  obtain ⟨hlow', hhigh'⟩ := abs_lt.mp h
  have hle : (nearestEven n d : ℚ) < (m + 1 : ℕ) := by
    push_cast
    linarith
  have hge : (m : ℚ) < (nearestEven n d + 1 : ℕ) := by
    push_cast
    linarith
  rw [Nat.cast_lt] at hle hge
  omega

/-- The binade of a quotient is the only one that holds it. -/
theorem binade_eq (hn : 0 < n) (hd : 0 < d) (hlow : (2 : ℚ) ^ e ≤ n / d)
    (hhigh : (n : ℚ) / d < 2 ^ (e + 1)) : binade n d = e := by
  obtain ⟨hlow', hhigh'⟩ := binade_spec hn hd
  have hle := (zpow_lt_zpow_iff_right₀ (one_lt_two (α := ℚ))).mp (lt_of_le_of_lt hlow hhigh')
  have hge := (zpow_lt_zpow_iff_right₀ (one_lt_two (α := ℚ))).mp (lt_of_le_of_lt hlow' hhigh)
  omega

theorem lastPlace_congr (hn : 0 < n) (hd : 0 < d) (hn' : 0 < n') (hd' : 0 < d')
    (h : (n : ℚ) / d = n' / d') : lastPlace n d = lastPlace n' d' := by
  have hspec := binade_spec hn' hd'
  rw [← h] at hspec
  rw [lastPlace, lastPlace, binade_eq hn hd hspec.1 hspec.2]

theorem round_zero (negative : Bool) (d : ℕ) : round negative 0 d = zero negative :=
  if_pos rfl

/-- Equal quotients are rounded to the same number. -/
theorem round_congr (hd : 0 < d) (hd' : 0 < d') (h : (n : ℚ) / d = n' / d') (negative : Bool) :
    round negative n d = round negative n' d' := by
  have hd₀ : (d : ℚ) ≠ 0 := by positivity
  have hd₀' : (d' : ℚ) ≠ 0 := by positivity
  rcases Nat.eq_zero_or_pos n with rfl | hn
  · have hzero : n' = 0 := by
      rw [Nat.cast_zero, zero_div, eq_comm, div_eq_zero_iff, or_iff_left hd₀'] at h
      exact_mod_cast h
    rw [hzero, round_zero, round_zero]
  · have hn' : 0 < n' := by
      rw [Nat.pos_iff_ne_zero]
      rintro rfl
      rw [Nat.cast_zero, zero_div, div_eq_zero_iff, or_iff_left hd₀, Nat.cast_eq_zero] at h
      exact hn.ne' h
    have hplace := lastPlace_congr hn hd hn' hd' h
    have hunits : units n d = units n' d' := by
      rw [units, units, hplace]
      refine nearestEven_congr (Nat.mul_pos hd (twoPow_pos _)) (Nat.mul_pos hd' (twoPow_pos _)) ?_
      rw [units_eq, units_eq, h]
    rw [round_eq_ofParts hn, round_eq_ofParts hn', roundedMantissa, roundedMantissa, roundedExponent,
      roundedExponent, hunits, hplace]

/-! ### Near a number -/

/-- The mantissa is within as many units of a scaled quotient as the number is within last places. -/
theorem abs_units_sub {x : ℚ} (m : ℕ) (e : ℤ) :
    |(m : ℚ) - x * 2 ^ (-e)| = |x - m * 2 ^ e| / 2 ^ e := by
  rw [abs_sub_comm x, abs_value_sub, mul_div_cancel_right₀ _ (by positivity)]

/-- A quotient within half a last place has the mantissa that it is near to. -/
theorem units_of_near (hd : 0 < d) (hplace : lastPlace n d = e)
    (hnear : |(n : ℚ) / d - m * 2 ^ e| < 2 ^ e / 2) : units n d = m := by
  rw [units, hplace]
  refine nearestEven_eq_of_near (Nat.mul_pos hd (twoPow_pos _)) ?_
  rw [units_eq, abs_units_sub, div_lt_iff₀ (by positivity)]
  linarith

/-- With the last place of a number, a quotient within half of it has the mantissa of the number. -/
theorem round_of_lastPlace (hc : Canonical m e) (hn : 0 < n) (hd : 0 < d)
    (hplace : lastPlace n d = e) (hnear : |(n : ℚ) / d - m * 2 ^ e| < 2 ^ e / 2) (negative : Bool) :
    round negative n d = finite negative m e hc := by
  have hlt := hc.1
  rw [round_eq_ofParts hn, roundedMantissa, roundedExponent, units_of_near hd hplace hnear, if_neg hlt.ne,
    if_neg hlt.ne, hplace, ofParts_canonical hc]

/-- Just below a power of two the last place is half as large, and the mantissa gets a bit too many. -/
theorem round_of_carry (hc : Canonical mantissaLeast e) (hn : 0 < n) (hd : 0 < d)
    (hplace : lastPlace n d = e - 1)
    (hnear : |(n : ℚ) / d - mantissaLeast * 2 ^ e| < 2 ^ e / 4) (negative : Bool) :
    round negative n d = finite negative mantissaLeast e hc := by
  have hhalf : (2 : ℚ) ^ e = 2 ^ (e - 1) * 2 := by
    rw [← zpow_add_one₀ two_ne_zero, sub_add_cancel]
  have hvalue := mantissaLeast_mul_zpow (e - 1)
  rw [sub_add_cancel] at hvalue
  have hunits : units n d = mantissaBound := by
    refine units_of_near hd hplace ?_
    rw [← hvalue]
    linarith
  rw [round_eq_ofParts hn, roundedMantissa, roundedExponent, if_pos hunits, if_pos hunits, hplace,
    sub_add_cancel, ofParts_canonical hc]

section Near

variable (hd : 0 < d) (hnear : |(n : ℚ) / d - m * 2 ^ e| < 2 ^ e / 2)
include hnear

theorem mantissa_eq_zero_of_near (hn : n = 0) : m = 0 := by
  have hpow : (0 : ℚ) < 2 ^ e := by positivity
  rw [hn, Nat.cast_zero, zero_div, zero_sub, abs_neg, abs_of_nonneg (by positivity)] at hnear
  have hlt : (m : ℚ) < (1 : ℕ) := by
    rw [Nat.cast_one]
    nlinarith
  exact Nat.lt_one_iff.mp (Nat.cast_lt.mp hlt)

include hd

/-- The quotient lies below the end of the number's binade. -/
theorem binade_le_of_near (hc : Canonical m e) (hn : 0 < n) : binade n d ≤ e + 52 := by
  have hpow : (0 : ℚ) < 2 ^ e := by positivity
  have hhigh := (abs_lt.mp hnear).2
  have hm : (m : ℚ) + 1 ≤ 2 ^ (53 : ℤ) := by
    rw [← mantissaBound_eq]
    exact_mod_cast hc.1
  have hlt : (2 : ℚ) ^ binade n d < 2 ^ (53 + e) := by
    rw [zpow_add₀ two_ne_zero]
    nlinarith [(binade_spec hn hd).1]
  rw [zpow_lt_zpow_iff_right₀ one_lt_two] at hlt
  omega

/-- Below the binade there is room for the least mantissa alone. -/
theorem of_near_below (hm : mantissaLeast ≤ m) (hn : 0 < n) (hbelow : (n : ℚ) / d < 2 ^ (52 + e)) :
    m = mantissaLeast ∧ binade n d = e + 51 := by
  have hpow : (0 : ℚ) < 2 ^ e := by positivity
  have hlow := (abs_lt.mp hnear).1
  have hleast : (mantissaLeast * 2 ^ e : ℚ) = 2 ^ (52 + e) := by
    rw [mantissaLeast_eq, zpow_add₀ two_ne_zero]
  obtain rfl : m = mantissaLeast := by
    refine le_antisymm ?_ hm
    by_contra hgt
    have hone : (mantissaLeast + 1 : ℚ) ≤ m := by exact_mod_cast not_le.mp hgt
    nlinarith
  refine ⟨rfl, binade_eq hn hd ?_ (by rwa [add_assoc, add_comm e] at *)⟩
  have hdouble : (2 : ℚ) ^ (52 + e) = 2 ^ (e + 51) * 2 := by
    rw [← zpow_add_one₀ two_ne_zero]
    congr 1
    ring
  have hroom : (2 : ℚ) ^ e ≤ 2 ^ (e + 51) := zpow_le_zpow_right₀ one_le_two (by omega)
  linarith

end Near

/-- A quotient within half a last place of a number, or a quarter below the least number of a binade, is
rounded to it. -/
theorem round_eq_of_near (hc : Canonical m e) (hd : 0 < d)
    (hnear : |(n : ℚ) / d - m * 2 ^ e| < 2 ^ e / 2)
    (hleast : m = mantissaLeast → (m * 2 ^ e : ℚ) - n / d < 2 ^ e / 4) (negative : Bool) :
    round negative n d = finite negative m e hc := by
  rcases Nat.eq_zero_or_pos n with rfl | hn
  · obtain rfl : m = 0 := mantissa_eq_zero_of_near hnear rfl
    obtain rfl : e = -1074 := hc.2.2.2.resolve_left (by decide)
    exact round_zero negative d
  · have htop := binade_le_of_near hd hnear hc hn
    have hlowest := hc.2.1
    by_cases hsub : e = -1074
    · refine round_of_lastPlace hc hn hd ?_ hnear negative
      rw [lastPlace]
      omega
    have hm : mantissaLeast ≤ m := hc.2.2.2.resolve_right hsub
    rcases le_or_gt ((2 : ℚ) ^ (52 + e)) (n / d) with hin | hbelow
    · have hbinade : binade n d = e + 52 := by
        have hlt := lt_of_le_of_lt hin (binade_spec hn hd).2
        rw [zpow_lt_zpow_iff_right₀ one_lt_two] at hlt
        omega
      refine round_of_lastPlace hc hn hd ?_ hnear negative
      rw [lastPlace]
      omega
    · obtain ⟨rfl, hbinade⟩ := of_near_below hd hnear hm hn hbelow
      refine round_of_carry hc hn hd (by rw [lastPlace]; omega) ?_ negative
      have hlow := (abs_lt.mp hnear).1
      have hhigh := (abs_lt.mp hnear).2
      have hquarter := hleast rfl
      have hle : (n : ℚ) / d < mantissaLeast * 2 ^ e := by
        rwa [mantissaLeast_eq, ← zpow_add₀ two_ne_zero]
      rw [abs_lt]
      constructor <;> linarith

/-- A number is rounded to itself. -/
theorem round_exact (hc : Canonical m e) (hd : 0 < d) (h : (n : ℚ) / d = m * 2 ^ e)
    (negative : Bool) : round negative n d = finite negative m e hc := by
  have hpow : (0 : ℚ) < 2 ^ e := by positivity
  refine round_eq_of_near hc hd ?_ (fun _ => ?_) negative
  · rw [h, sub_self, abs_zero]
    positivity
  · rw [h, sub_self]
    positivity

/-- A quotient below half the least positive number is rounded to zero. -/
theorem round_eq_zero (hd : 0 < d) (h : (n : ℚ) / d < 2 ^ (-1075 : ℤ)) (negative : Bool) :
    round negative n d = zero negative := by
  have hhalf : (2 : ℚ) ^ (-1074 : ℤ) / 2 = 2 ^ (-1075 : ℤ) := by
    rw [div_eq_iff two_ne_zero, ← zpow_add_one₀ two_ne_zero]
    norm_num
  refine round_eq_of_near (e := -1074) _ hd ?_ (fun hm => absurd hm (by decide)) negative
  rwa [Nat.cast_zero, zero_mul, sub_zero, hhalf, abs_of_nonneg (by positivity)]

/-! ### Signs -/

theorem ofParts_eq_finite {negative sign : Bool} {hc : Canonical m e} {m' : ℕ} {e' : ℤ}
    (h : ofParts negative m' e' = finite sign m e hc) : m' = m ∧ e' = e := by
  rw [ofParts] at h
  split at h
  · rw [finite.injEq] at h
    exact h.2
  · cases h

/-- The sign of a rounded quotient has no part in the rounding. -/
theorem round_sign {negative : Bool} {hc : Canonical m e}
    (h : round negative n d = finite negative m e hc) (negative' : Bool) :
    round negative' n d = finite negative' m e hc := by
  rcases Nat.eq_zero_or_pos n with rfl | hn
  · rw [round_zero, zero, finite.injEq] at h
    obtain ⟨-, rfl, rfl⟩ := h
    exact round_zero negative' d
  · rw [round_eq_ofParts hn] at h ⊢
    obtain ⟨rfl, rfl⟩ := ofParts_eq_finite h
    rw [ofParts_canonical hc]

/-! ### The error of rounding -/

/-- A finite number is within a part in `2^53` of a quotient that is rounded to it, or of one. -/
theorem abs_round_sub_le (hd : 0 < d) {negative sign : Bool} {hc : Canonical m e}
    (h : round negative n d = finite sign m e hc) :
    |(m * 2 ^ e : ℚ) - n / d| ≤ max (n / d : ℚ) 1 / 2 ^ 53 := by
  rcases Nat.eq_zero_or_pos n with rfl | hn
  · rw [round_zero, zero, finite.injEq] at h
    obtain ⟨-, rfl, rfl⟩ := h
    norm_num
  · rw [round_eq_ofParts hn] at h
    obtain ⟨rfl, rfl⟩ := ofParts_eq_finite h
    exact (abs_rounded_sub_le n hd).trans (half_lastPlace_le hn hd)

theorem finite_ne_nan {negative : Bool} {hc : Canonical m e} : finite negative m e hc ≠ nan := by
  intro h
  cases h

theorem infinite_ne_nan {negative : Bool} : infinite negative ≠ nan := by
  intro h
  cases h

theorem round_ne_nan (negative : Bool) (n d : ℕ) : round negative n d ≠ nan := by
  rcases Nat.eq_zero_or_pos n with rfl | hn
  · exact finite_ne_nan
  · rw [round_eq_ofParts hn, ofParts]
    split
    · exact finite_ne_nan
    · exact infinite_ne_nan

/-- A rational that is not rounded to an infinity is rounded to a number with its error. -/
theorem exists_ofRat_eq_finite {q : ℚ} {negativeZero : Bool}
    (h : ∀ negative, ofRat negativeZero q ≠ infinite negative) :
    ∃ negative m e hc, ofRat negativeZero q = finite negative m e hc ∧
      |(m * 2 ^ e : ℚ) - (|q|)| ≤ max |q| 1 / 2 ^ 53 := by
  by_cases hzero : q.num = 0
  · rw [Rat.num_eq_zero.mp hzero]
    exact ⟨negativeZero, 0, -1074, by decide, rfl, by norm_num⟩
  · rw [ofRat, if_neg hzero] at h ⊢
    cases hround : round (decide (q.num < 0)) q.num.natAbs q.den with
    | finite s m e hc =>
      have herror := abs_round_sub_le q.pos hround
      rw [natAbs_num_div_den] at herror
      exact ⟨s, m, e, hc, rfl, herror⟩
    | infinite s => exact absurd hround (h s)
    | nan => exact absurd hround (round_ne_nan _ _ _)

/-! ### Decimals -/

theorem decimal_eq (k : ℕ) (s : ℤ) :
    ((k * tenPow s.toNat : ℕ) : ℚ) / (tenPow (-s).toNat : ℕ) = k * 10 ^ s := by
  rw [Nat.cast_mul, mul_div_assoc, tenPow_toNat_div]

theorem two_pow_lt_ten_pow : (2 : ℚ) ^ 1076 < 10 ^ 400 :=
  calc (2 : ℚ) ^ 1076 ≤ 2 ^ (3 * 400) := pow_le_pow_right₀ one_le_two (by decide)
    _ = (2 ^ 3) ^ 400 := pow_mul 2 3 400
    _ < 10 ^ 400 := by gcongr; norm_num

/-- A decimal with a large power of ten is beyond the numbers. -/
theorem le_decimal_of_lt (hk : 0 < k) (hs : 400 < s) : (2 : ℚ) ^ 1024 ≤ k * 10 ^ s := by
  have hone : (1 : ℚ) ≤ k := by exact_mod_cast hk
  calc (2 : ℚ) ^ 1024 ≤ 2 ^ 1076 := pow_le_pow_right₀ one_le_two (by decide)
    _ ≤ 10 ^ 400 := two_pow_lt_ten_pow.le
    _ = 10 ^ (400 : ℤ) := by rw [← zpow_natCast, Nat.cast_ofNat]
    _ ≤ 10 ^ s := zpow_le_zpow_right₀ (by norm_num) hs.le
    _ ≤ k * 10 ^ s := le_mul_of_one_le_left (by positivity) hone

/-- A decimal with a small power of ten, which its digits cannot make up for, is below the numbers. -/
theorem decimal_lt_of_lt (hs : s < -(400 + (Nat.log2 k : ℤ))) :
    (k * 10 ^ s : ℚ) < 2 ^ (-1075 : ℤ) := by
  have hk : (k : ℚ) < 2 ^ (Nat.log2 k + 1) := by exact_mod_cast Nat.lt_log2_self (n := k)
  have hlog : (2 : ℚ) ^ Nat.log2 k ≤ 10 ^ Nat.log2 k := by gcongr; norm_num
  have hpow : (10 : ℚ) ^ s ≤ 10 ^ (-(400 + (Nat.log2 k : ℤ))) :=
    zpow_le_zpow_right₀ (by norm_num) hs.le
  have hsplit : (10 : ℚ) ^ (-(400 + (Nat.log2 k : ℤ))) = (10 ^ 400)⁻¹ * (10 ^ Nat.log2 k)⁻¹ := by
    rw [zpow_neg, zpow_add₀ (by norm_num), mul_inv, zpow_natCast]
    rfl
  calc (k * 10 ^ s : ℚ) ≤ k * ((10 ^ 400)⁻¹ * (10 ^ Nat.log2 k)⁻¹) := by
        rw [← hsplit]
        gcongr
    _ ≤ 10 ^ Nat.log2 k * 2 * ((10 ^ 400)⁻¹ * (10 ^ Nat.log2 k)⁻¹) := by
        rw [pow_succ] at hk
        gcongr
        linarith
    _ = 2 * (10 ^ 400)⁻¹ := by field_simp
    _ < 2 ^ (-1075 : ℤ) := by
        have hcast : (2 : ℚ) ^ (1075 : ℤ) = 2 ^ 1075 := zpow_natCast 2 1075
        rw [zpow_neg, hcast, ← div_eq_mul_inv, div_lt_iff₀ (by positivity),
          lt_inv_mul_iff₀ (by positivity), ← pow_succ]
        exact two_pow_lt_ten_pow

/-- A decimal is rounded like the quotient that it writes. -/
theorem ofDecimal_eq_round (negative : Bool) (k : ℕ) (s : ℤ) : ofDecimal negative k s =
    round negative (k * tenPow s.toNat) (tenPow (-s).toNat) := by
  rw [ofDecimal]
  split
  · next hk => rw [hk, zero_mul, round_zero]
  · next hk =>
    split
    · next hs =>
      have hpos := Nat.pos_of_ne_zero hk
      refine (round_of_le (Nat.mul_pos hpos (tenPow_pos _)) (tenPow_pos _) ?_ negative).symm
      rw [decimal_eq]
      exact rangeEnd_le_two_pow.trans (le_decimal_of_lt hpos hs)
    · split
      · next hs =>
        refine (round_eq_zero (tenPow_pos _) ?_ negative).symm
        rw [decimal_eq]
        exact decimal_lt_of_lt hs
      · rfl

/-- Decimals of one value name one number. -/
theorem ofDecimal_congr (h : (k * 10 ^ s : ℚ) = k' * 10 ^ s') (negative : Bool) :
    ofDecimal negative k s = ofDecimal negative k' s' := by
  rw [ofDecimal_eq_round, ofDecimal_eq_round]
  exact round_congr (tenPow_pos _) (tenPow_pos _) (by rw [decimal_eq, decimal_eq, h]) negative

theorem ofDecimal_sign {negative : Bool} {hc : Canonical m e}
    (h : ofDecimal negative k s = finite negative m e hc) (negative' : Bool) :
    ofDecimal negative' k s = finite negative' m e hc := by
  rw [ofDecimal_eq_round] at h ⊢
  exact round_sign h negative'

theorem ofDecimal_eq_of_near (hc : Canonical m e) (hnear : |(k * 10 ^ s : ℚ) - m * 2 ^ e| < 2 ^ e / 2)
    (hleast : m = mantissaLeast → (m * 2 ^ e : ℚ) - k * 10 ^ s < 2 ^ e / 4) (negative : Bool) :
    ofDecimal negative k s = finite negative m e hc := by
  rw [← decimal_eq] at hnear hleast
  rw [ofDecimal_eq_round]
  exact round_eq_of_near hc (tenPow_pos _) hnear hleast negative

/-- A finite number is within a part in `2^53` of a decimal that names it, or of one. -/
theorem abs_decimal_sub_le {negative : Bool} {hc : Canonical m e}
    (h : ofDecimal negative k s = finite negative m e hc) :
    |(m * 2 ^ e : ℚ) - k * 10 ^ s| ≤ max (k * 10 ^ s : ℚ) 1 / 2 ^ 53 := by
  rw [ofDecimal_eq_round] at h
  have herror := abs_round_sub_le (tenPow_pos _) h
  rwa [decimal_eq] at herror

end Binary64

/-- The number near a rational, when there is one. -/
theorem Quantity.exists_of_nearest_eq_ok {q : ℚ} {x : Binary64} (h : nearest q = .ok x) :
    ∃ negative m e hc, x = .finite negative m e hc ∧ |(m * 2 ^ e : ℚ) - (|q|)| ≤ max |q| 1 / 2 ^ 53 := by
  rw [nearest] at h
  split at h
  · cases h
  · next hfinite =>
    obtain rfl := Except.ok.inj h
    exact Binary64.exists_ofRat_eq_finite hfinite

end GemScribe
