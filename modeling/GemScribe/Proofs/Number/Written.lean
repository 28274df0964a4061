import GemScribe.Proofs.Number.Shortest

/-!
How finite numbers are shown.

A whole number is shown as an integer. Every other number has binary places, and its shortest digits are
written positionally when it is at least a ten-thousandth, and with a negative exponent otherwise. Whole
numbers below `2^53` are themselves numbers, so that a decimal with a fraction that says nothing never
names a number with binary places.
-/

namespace GemScribe

namespace Binary64

variable {m k : ℕ} {e s : ℤ} {negative : Bool}

/-! ### Whole numbers -/

theorem exists_natCast_of_nonneg (m : ℕ) (he : 0 ≤ e) : ∃ k : ℕ, (m * 2 ^ e : ℚ) = k := by
  obtain ⟨n, rfl⟩ := Int.eq_ofNat_of_zero_le he
  exact ⟨m * 2 ^ n, by push_cast; rfl⟩

/-- Every whole number below `2^53` is a number. -/
theorem exists_canonical (hk : 0 < k) (hlt : k < mantissaBound) :
    ∃ m e, Canonical m e ∧ (m * 2 ^ e : ℚ) = k := by
  have hlog : Nat.log2 k < 53 := (Nat.log2_lt hk.ne').mpr hlt
  have hlow := Nat.log2_self_le hk.ne'
  have hhigh := Nat.lt_log2_self (n := k)
  have hpow : ∀ a : ℕ, 2 ^ a * 2 ^ (52 - Nat.log2 k) = 2 ^ (a + (52 - Nat.log2 k)) :=
    fun a => (pow_add 2 a _).symm
  refine ⟨k * 2 ^ (52 - Nat.log2 k), -(52 - Nat.log2 k : ℕ), ⟨?_, by omega, by omega, Or.inl ?_⟩, ?_⟩
  · calc k * 2 ^ (52 - Nat.log2 k) < 2 ^ (Nat.log2 k + 1) * 2 ^ (52 - Nat.log2 k) := by gcongr
      _ = 2 ^ 53 := by
        rw [hpow]
        congr 1
        omega
  · calc mantissaLeast = 2 ^ Nat.log2 k * 2 ^ (52 - Nat.log2 k) := by
          rw [hpow, Nat.add_sub_cancel' (by omega)]
          rfl
      _ ≤ k * 2 ^ (52 - Nat.log2 k) := by gcongr
  · rw [zpow_neg, zpow_natCast, Nat.cast_mul, Nat.cast_pow, Nat.cast_ofNat, mul_assoc,
      mul_inv_cancel₀ (by positivity), mul_one]

/-- A decimal with the value of a number names that number. -/
theorem ofDecimal_exact (hc : Canonical m e) (h : (k * 10 ^ s : ℚ) = m * 2 ^ e) (negative : Bool) :
    ofDecimal negative k s = finite negative m e hc := by
  rw [ofDecimal_eq_round]
  exact round_exact hc (tenPow_pos _) (by rw [decimal_eq, h]) negative

/-- A decimal with a whole value below `2^53` names that whole number. -/
theorem value_of_ofDecimal {hc : Canonical m e} {k' : ℕ}
    (h : ofDecimal negative k s = finite negative m e hc) (hlt : k' < mantissaBound)
    (hvalue : (k * 10 ^ s : ℚ) = k') : (m * 2 ^ e : ℚ) = k' := by
  rcases Nat.eq_zero_or_pos k' with rfl | hpos
  · have hk : k = 0 := by
      rw [Nat.cast_zero, mul_eq_zero, or_iff_left (by positivity)] at hvalue
      exact_mod_cast hvalue
    rw [ofDecimal, if_pos hk, zero, finite.injEq] at h
    obtain ⟨-, rfl, -⟩ := h
    simp
  · obtain ⟨m', e', hc', hvalue'⟩ := exists_canonical hpos hlt
    rw [ofDecimal_exact hc' (hvalue.trans hvalue'.symm), finite.injEq] at h
    obtain ⟨-, rfl, rfl⟩ := h
    exact hvalue'

/-! ### Shown numbers -/

section shown

variable {hc : Canonical m e}

theorem display_of_toRat {x : Binary64} (hx : x.isFinite) {i : ℤ} (h : x.toRat = i) :
    x.display = intText i := by
  rw [display, (toInt?_eq_some_iff hx).mpr h]

/-- A number that is not whole has binary places. -/
theorem neg_exponent_of_toInt? (h : (finite negative m e hc).toInt? = none) : m ≠ 0 ∧ e < 0 := by
  have hnot : ∀ i : ℤ, (finite negative m e hc).toRat ≠ i := by
    intro i hi
    rw [(toInt?_eq_some_iff rfl).mpr hi] at h
    cases h
  constructor
  · rintro rfl
    exact hnot 0 (by rw [toRat_finite]; simp)
  · by_contra he
    obtain ⟨k, hk⟩ := exists_natCast_of_nonneg m (not_lt.mp he)
    refine hnot (if negative then -k else k) ?_
    rw [toRat_finite, hk]
    split <;> simp

/-- A number that is not whole is shown with its shortest digits. -/
theorem display_of_toInt? (h : (finite negative m e hc).toInt? = none) :
    (finite negative m e hc).display =
      (if negative then ['-'] else []) ++ numberLayout.write (shortest m e) := by
  rw [display, h, text, if_neg (neg_exponent_of_toInt? h).1]

theorem exists_display_fraction (h : (finite negative m e hc).toInt? = none)
    (hlow : (10 : ℚ) ^ (-4 : ℤ) ≤ m * 2 ^ e) : ∃ whole places,
      (finite negative m e hc).display =
        (if negative then ['-'] else []) ++ (natText whole ++ '.' :: places) ∧
      Significand.Fraction whole places (shortest m e).value := by
  obtain ⟨hm, he⟩ := neg_exponent_of_toInt? h
  obtain ⟨whole, places, hwrite, hfraction⟩ := Significand.exists_write_eq_fraction
    (normal_shortest hm hc) ((lowest_le_point_iff hm hc).mpr hlow) (point_le_highest hm hc he)
  exact ⟨whole, places, by rw [display_of_toInt? h, hwrite], hfraction⟩

theorem exists_display_exponent (h : (finite negative m e hc).toInt? = none)
    (hlow : (m * 2 ^ e : ℚ) < 10 ^ (-4 : ℤ)) : ∃ leading exponent,
      (finite negative m e hc).display =
        (if negative then ['-'] else []) ++ (leading ++ 'e' :: '-' :: exponent) ∧
      Significand.Exponent leading exponent ((shortest m e).point - 1).natAbs := by
  have hm := (neg_exponent_of_toInt? h).1
  have hpoint : (shortest m e).point < numberLayout.lowest := by
    rw [← not_le, lowest_le_point_iff hm hc, not_le]
    exact hlow
  obtain ⟨leading, exponent, hwrite, hexponent⟩ := Significand.exists_write_eq_exponent
    (normal_shortest hm hc) hpoint (le_trans hpoint.le (by decide))
  exact ⟨leading, exponent, by rw [display_of_toInt? h, hwrite], hexponent⟩

/-! ### Signs -/

/-- The sign in front of a number that is shown with one. -/
def signChar (negative : Bool) : Char :=
  if negative then '-' else '+'

theorem toRat_neg_iff (hm : m ≠ 0) : (finite negative m e hc).toRat < 0 ↔ negative := by
  have hpos : (0 : ℚ) < m * 2 ^ e := by
    have hm : 0 < m := Nat.pos_of_ne_zero hm
    positivity
  rw [toRat_finite]
  cases negative
  · simpa using hpos.le
  · simpa using hpos

/-- A whole number is shown with a sign and the digits of its magnitude. -/
theorem displaySigned_of_toRat {x : Binary64} (hx : x.isFinite) {i : ℤ} (h : x.toRat = i) :
    x.displaySigned = signChar (i < 0) :: natText i.natAbs := by
  have hsign : x.isNonnegative = decide (0 ≤ i) := by
    cases x with
    | finite s m e hc => rw [isNonnegative, h, decide_eq_decide, Int.cast_nonneg_iff]
    | infinite s => cases hx
    | nan => cases hx
  rw [displaySigned, hsign, display_of_toRat hx h, intText]
  rcases lt_or_ge i 0 with hneg | hnonneg
  · rw [if_neg (by simpa using hneg), if_pos hneg, decide_eq_true hneg]
    rfl
  · rw [if_pos (decide_eq_true hnonneg), if_neg (not_lt.mpr hnonneg),
      decide_eq_false (not_lt.mpr hnonneg)]
    rfl

/-- A number that is not zero is shown with its sign in front of its magnitude. -/
theorem displaySigned_of_display (hm : m ≠ 0) {body : Text}
    (h : (finite negative m e hc).display = (if negative then ['-'] else []) ++ body) :
    (finite negative m e hc).displaySigned = signChar negative :: body := by
  have hsign : (finite negative m e hc).isNonnegative = !negative := by
    have hneg : (finite negative m e hc).toRat < 0 ↔ negative := toRat_neg_iff hm
    cases negative
    · exact decide_eq_true (not_lt.mp (mt hneg.mp Bool.false_ne_true))
    · exact decide_eq_false (not_le.mpr (hneg.mpr rfl))
  rw [displaySigned, hsign, h]
  cases negative <;> rfl

end shown

end Binary64

end GemScribe
