import GemScribe.Number.Quantity
import GemScribe.Proofs.Number.Exact
import Mathlib.Algebra.Ring.Parity
import Mathlib.Tactic.GCongr
import Mathlib.Tactic.Ring

/-!
The error of rounding to binary64.

`round` scales a quotient so that the whole number nearest to it has the bits of a mantissa. That whole
number is the mantissa of a finite number, or a power of two with one bit too many, and from half a last
place beyond the largest number on the quotient is rounded to an infinity. The whole number is off by at
most half a unit, which is at most a part in `2^53` of the quotient unless the quotient is smaller than one.
Quotients of quantities and numbers rounded to decimal places are finite for that reason.
-/

namespace GemScribe

namespace Binary64

/-! ### The nearest whole number -/

/-- The nearest whole number is as far away as the nearer of the two around the quotient. -/
theorem abs_nearestEven_sub (n : Nat) {d : Nat} (hd : 0 < d) : |(nearestEven n d : ℚ) - n / d| =
    min (((n % d : ℕ) : ℚ) / d) (1 - ((n % d : ℕ) : ℚ) / d) := by
  have hd' : (0 : ℚ) < d := by exact_mod_cast hd
  have hsplit : (n : ℚ) / d = (n / d : ℕ) + ((n % d : ℕ) : ℚ) / d := by
    rw [div_eq_iff hd'.ne', add_mul, div_mul_cancel₀ _ hd'.ne']
    exact_mod_cast (Nat.div_add_mod' n d).symm
  have hlt : ((n % d : ℕ) : ℚ) / d < 1 := by
    rw [div_lt_one hd']
    exact_mod_cast Nat.mod_lt n hd
  have hnonneg : (0 : ℚ) ≤ ((n % d : ℕ) : ℚ) / d := by positivity
  have hbelow : |((n / d : ℕ) : ℚ) - n / d| = ((n % d : ℕ) : ℚ) / d := by
    rw [hsplit, sub_add_cancel_left, abs_neg, abs_of_nonneg hnonneg]
  have habove : |((n / d + 1 : ℕ) : ℚ) - n / d| = 1 - ((n % d : ℕ) : ℚ) / d := by
    rw [hsplit, Nat.cast_add, Nat.cast_one, add_sub_add_left_eq_sub, abs_of_pos (by linarith)]
  have hlow : 2 * (n % d) ≤ d → ((n % d : ℕ) : ℚ) / d ≤ 1 / 2 := by
    intro h
    rw [div_le_div_iff₀ hd' two_pos]
    exact_mod_cast (by omega : n % d * 2 ≤ 1 * d)
  have hhigh : d ≤ 2 * (n % d) → 1 / 2 ≤ ((n % d : ℕ) : ℚ) / d := by
    intro h
    rw [div_le_div_iff₀ two_pos hd']
    exact_mod_cast (by omega : 1 * d ≤ n % d * 2)
  rw [nearestEven]
  split_ifs with h₁ h₂ h₃
  · rw [hbelow, min_eq_left (by linarith [hlow (by omega)])]
  · rw [habove, min_eq_right (by linarith [hhigh (by omega)])]
  · rw [hbelow, min_eq_left (by linarith [hlow (by omega)])]
  · rw [habove, min_eq_right (by linarith [hhigh (by omega)])]

theorem abs_nearestEven_sub_le (n : Nat) {d : Nat} (hd : 0 < d) :
    |(nearestEven n d : ℚ) - n / d| ≤ 1 / 2 := by
  rw [abs_nearestEven_sub n hd, min_le_iff, sub_le_comm]
  norm_num [le_total]

/-- Halfway between two whole numbers the even one is taken. -/
theorem even_nearestEven {n d : ℕ} (hd : 0 < d) (h : |(nearestEven n d : ℚ) - n / d| = 1 / 2) :
    Even (nearestEven n d) := by
  have hrest : ((n % d : ℕ) : ℚ) / d = 1 / 2 := by
    rw [abs_nearestEven_sub n hd] at h
    rcases min_choice (((n % d : ℕ) : ℚ) / d) (1 - ((n % d : ℕ) : ℚ) / d) with hmin | hmin
    · rwa [hmin] at h
    · linarith [hmin.symm.trans h]
  rw [div_eq_div_iff (by positivity) two_ne_zero] at hrest
  have hmiddle : n % d * 2 = 1 * d := by exact_mod_cast hrest
  rw [Nat.even_iff, nearestEven, if_neg (by omega), if_neg (by omega)]
  split
  · assumption
  · omega

/-- Below an even whole number the nearest one stays below it up to the last half. -/
theorem nearestEven_lt_iff {n d k : ℕ} (hd : 0 < d) (hk : Even k) :
    nearestEven n d < k ↔ (n : ℚ) / d + 1 / 2 < k := by
  obtain ⟨hlow, hhigh⟩ := abs_le.mp (abs_nearestEven_sub_le n hd)
  constructor
  · intro h
    have hle : (nearestEven n d : ℚ) + 1 ≤ k := by exact_mod_cast h
    refine lt_of_le_of_ne (by linarith) fun heq => ?_
    have htie : |(nearestEven n d : ℚ) - n / d| = 1 / 2 := by
      rw [abs_of_neg (by linarith)]
      linarith
    have hnext : nearestEven n d + 1 = k := by
      have hge : (k : ℚ) ≤ nearestEven n d + 1 := by linarith
      exact_mod_cast le_antisymm hle hge
    rw [← hnext, Nat.even_add_one] at hk
    exact hk (even_nearestEven hd htie)
  · intro h
    exact_mod_cast (by linarith : (nearestEven n d : ℚ) < k)

/-- A whole number within a half of a quotient is on no other side of a whole bound than it. -/
theorem le_of_near {m k : ℕ} {x : ℚ} (h : |m - x| ≤ 1 / 2) (hx : x ≤ k) : m ≤ k := by
  have hlt : (m : ℚ) < (k + 1 : ℕ) := by
    push_cast
    linarith [(abs_le.mp h).2]
  exact Nat.lt_succ_iff.mp (Nat.cast_lt.mp hlt)

theorem near_of_le {m k : ℕ} {x : ℚ} (h : |m - x| ≤ 1 / 2) (hx : k ≤ x) : k ≤ m := by
  have hlt : (k : ℚ) < (m + 1 : ℕ) := by
    push_cast
    linarith [(abs_le.mp h).1]
  exact Nat.lt_succ_iff.mp (Nat.cast_lt.mp hlt)

/-! ### The last place -/

/-- The binade of a quotient holds it. -/
theorem binade_spec {n d : Nat} (hn : 0 < n) (hd : 0 < d) :
    (2 : ℚ) ^ binade n d ≤ n / d ∧ (n : ℚ) / d < 2 ^ (binade n d + 1) := by
  have hd' : (0 : ℚ) < d := by exact_mod_cast hd
  have hn₁ : (2 : ℚ) ^ (Nat.log2 n : ℤ) ≤ n := by exact_mod_cast Nat.log2_self_le hn.ne'
  have hn₂ : (n : ℚ) < 2 ^ ((Nat.log2 n : ℤ) + 1) := by exact_mod_cast Nat.lt_log2_self (n := n)
  have hd₁ : (2 : ℚ) ^ (Nat.log2 d : ℤ) ≤ d := by exact_mod_cast Nat.log2_self_le hd.ne'
  have hd₂ : (d : ℚ) < 2 ^ ((Nat.log2 d : ℤ) + 1) := by exact_mod_cast Nat.lt_log2_self (n := d)
  have hk : ∀ k : ℤ, d * twoPow k.toNat ≤ n * twoPow (-k).toNat ↔ (2 : ℚ) ^ k ≤ n / d := by
    intro k
    have hpos : (0 : ℚ) < twoPow (-k).toNat := by exact_mod_cast twoPow_pos _
    rw [← twoPow_toNat_div, div_le_div_iff₀ hpos hd', mul_comm, ← Nat.cast_le (α := ℚ)]
    push_cast
    rfl
  rw [binade]
  split
  · next h =>
    refine ⟨(hk _).mp h, ?_⟩
    rw [div_lt_iff₀ hd']
    calc (n : ℚ) < 2 ^ ((Nat.log2 n : ℤ) + 1) := hn₂
      _ = 2 ^ ((Nat.log2 n : ℤ) - Nat.log2 d + 1) * 2 ^ (Nat.log2 d : ℤ) := by
        rw [← zpow_add₀ two_ne_zero]
        congr 1
        ring
      _ ≤ 2 ^ ((Nat.log2 n : ℤ) - Nat.log2 d + 1) * d := by gcongr
  · next h =>
    rw [hk, not_le] at h
    refine ⟨?_, by rwa [sub_add_cancel]⟩
    rw [le_div_iff₀ hd']
    calc (2 : ℚ) ^ ((Nat.log2 n : ℤ) - Nat.log2 d - 1) * d
        ≤ 2 ^ ((Nat.log2 n : ℤ) - Nat.log2 d - 1) * 2 ^ ((Nat.log2 d : ℤ) + 1) := by gcongr
      _ = 2 ^ (Nat.log2 n : ℤ) := by
        rw [← zpow_add₀ two_ne_zero]
        congr 1
        ring
      _ ≤ n := hn₁

/-- The exponent of the last place of a rounded quotient. -/
def lastPlace (n d : Nat) : Int :=
  max (binade n d - 52) (-1074)

theorem half_lastPlace_le {n d : Nat} (hn : 0 < n) (hd : 0 < d) :
    (2 : ℚ) ^ lastPlace n d / 2 ≤ max (n / d : ℚ) 1 / 2 ^ 53 := by
  rcases le_total (binade n d - 52) (-1074) with h | h
  · have hleast : (2 : ℚ) ^ (-1074 : ℤ) ≤ 2 ^ (-52 : ℤ) :=
      zpow_le_zpow_right₀ one_le_two (by decide)
    rw [lastPlace, max_eq_right h]
    calc (2 : ℚ) ^ (-1074 : ℤ) / 2 ≤ 2 ^ (-52 : ℤ) / 2 := by gcongr
      _ = 1 / 2 ^ 53 := by norm_num
      _ ≤ max (n / d : ℚ) 1 / 2 ^ 53 := by gcongr; exact le_max_right _ _
  · rw [lastPlace, max_eq_left h, zpow_sub₀ two_ne_zero, div_div]
    calc (2 : ℚ) ^ binade n d / (2 ^ (52 : ℤ) * 2) = 2 ^ binade n d / 2 ^ 53 := by norm_num
      _ ≤ max (n / d : ℚ) 1 / 2 ^ 53 := by
        gcongr
        exact le_trans (binade_spec hn hd).1 (le_max_left _ _)

/-- A quotient in units of its last place. -/
theorem units_eq (n d : Nat) (e : ℤ) :
    ((n * twoPow (-e).toNat : ℕ) : ℚ) / (d * twoPow e.toNat : ℕ) = n / d * 2 ^ (-e) := by
  have hpow := twoPow_toNat_div (-e)
  rw [neg_neg] at hpow
  rw [Nat.cast_mul, Nat.cast_mul, mul_div_mul_comm, hpow]

theorem mantissaBound_eq : ((mantissaBound : ℕ) : ℚ) = 2 ^ (53 : ℤ) := by
  norm_num [mantissaBound]

theorem mantissaLeast_eq : ((mantissaLeast : ℕ) : ℚ) = 2 ^ (52 : ℤ) := by
  norm_num [mantissaLeast]

/-- A mantissa with a bit too many is the least one of the next binade. -/
theorem mantissaLeast_mul_zpow (e : ℤ) :
    (mantissaLeast * 2 ^ (e + 1) : ℚ) = mantissaBound * 2 ^ e := by
  rw [mantissaLeast_eq, mantissaBound_eq, zpow_add_one₀ two_ne_zero]
  norm_num
  ring

/-- A quotient is at most as many of its last places as there are mantissas. -/
theorem quotient_le {n d : Nat} (hn : 0 < n) (hd : 0 < d) :
    (n / d : ℚ) ≤ mantissaBound * 2 ^ lastPlace n d := by
  have hplace : binade n d - 52 ≤ lastPlace n d := le_max_left _ _
  rw [mantissaBound_eq, ← zpow_add₀ two_ne_zero]
  refine le_trans (binade_spec hn hd).2.le (zpow_le_zpow_right₀ one_le_two ?_)
  omega

/-- A quotient whose last place is not the least one has a mantissa of 53 bits. -/
theorem le_quotient {n d : Nat} (hn : 0 < n) (hd : 0 < d) (h : lastPlace n d ≠ -1074) :
    (mantissaLeast * 2 ^ lastPlace n d : ℚ) ≤ n / d := by
  have hplace : lastPlace n d = binade n d - 52 := by
    rw [lastPlace] at h ⊢
    omega
  rw [mantissaLeast_eq, ← zpow_add₀ two_ne_zero, hplace, add_sub_cancel]
  exact (binade_spec hn hd).1

/-- A number is as many last places from a quotient as its mantissa is units. -/
theorem abs_value_sub (m : ℕ) (e : ℤ) (q : ℚ) :
    |(m * 2 ^ e : ℚ) - q| = |(m : ℚ) - q * 2 ^ (-e)| * 2 ^ e := by
  have hscale : m * 2 ^ e - q = (m - q * 2 ^ (-e)) * 2 ^ e := by
    rw [sub_mul, mul_assoc, ← zpow_add₀ two_ne_zero, neg_add_cancel, zpow_zero, mul_one]
  rw [hscale, abs_mul, abs_of_pos (a := (2 ^ e : ℚ)) (by positivity)]

/-! ### The mantissa of a rounded quotient -/

section rounded

variable {n d : ℕ}

/-- The mantissa of a rounded quotient, before a bit too many is taken off. -/
def units (n d : ℕ) : ℕ :=
  nearestEven (n * twoPow (-lastPlace n d).toNat) (d * twoPow (lastPlace n d).toNat)

/-- The mantissa of a rounded quotient, with a bit too many taken off. -/
def roundedMantissa (n d : ℕ) : ℕ :=
  if units n d = mantissaBound then mantissaLeast else units n d

def roundedExponent (n d : ℕ) : ℤ :=
  if units n d = mantissaBound then lastPlace n d + 1 else lastPlace n d

theorem abs_units_sub_le (n : ℕ) (hd : 0 < d) :
    |(units n d : ℚ) - n / d * 2 ^ (-lastPlace n d)| ≤ 1 / 2 := by
  rw [← units_eq, units]
  exact abs_nearestEven_sub_le _ (Nat.mul_pos hd (twoPow_pos _))

theorem units_le_mantissaBound (hn : 0 < n) (hd : 0 < d) : units n d ≤ mantissaBound := by
  refine le_of_near (abs_units_sub_le n hd) ?_
  rw [zpow_neg, mul_inv_le_iff₀ (by positivity)]
  exact quotient_le hn hd

theorem mantissaLeast_le_units (hn : 0 < n) (hd : 0 < d) (h : lastPlace n d ≠ -1074) :
    mantissaLeast ≤ units n d := by
  refine near_of_le (abs_units_sub_le n hd) ?_
  rw [zpow_neg, le_mul_inv_iff₀ (by positivity)]
  exact le_quotient hn hd h

theorem round_eq_ofParts (hn : 0 < n) (negative : Bool) (d : ℕ) :
    round negative n d = ofParts negative (roundedMantissa n d) (roundedExponent n d) := by
  have hround : round negative n d =
      if units n d = mantissaBound then ofParts negative mantissaLeast (lastPlace n d + 1)
      else ofParts negative (units n d) (lastPlace n d) := if_neg hn.ne'
  rw [hround, roundedMantissa, roundedExponent]
  split <;> rfl

theorem roundedMantissa_mul_zpow (n d : ℕ) :
    (roundedMantissa n d * 2 ^ roundedExponent n d : ℚ) = units n d * 2 ^ lastPlace n d := by
  rw [roundedMantissa, roundedExponent]
  split
  · next h => rw [mantissaLeast_mul_zpow, h]
  · rfl

theorem even_roundedMantissa (h : Even (units n d)) : Even (roundedMantissa n d) := by
  rw [roundedMantissa]
  split
  · decide
  · exact h

/-- A rounded quotient is off by at most half a last place. -/
theorem abs_rounded_sub_le (n : ℕ) (hd : 0 < d) :
    |(roundedMantissa n d * 2 ^ roundedExponent n d : ℚ) - n / d| ≤ 2 ^ lastPlace n d / 2 := by
  rw [roundedMantissa_mul_zpow, abs_value_sub]
  calc |(units n d : ℚ) - n / d * 2 ^ (-lastPlace n d)| * 2 ^ lastPlace n d
      ≤ 1 / 2 * 2 ^ lastPlace n d := by
        gcongr
        exact abs_units_sub_le n hd
    _ = 2 ^ lastPlace n d / 2 := by ring

/-! ### The end of the range -/

theorem units_lt_iff (hd : 0 < d) :
    units n d < mantissaBound ↔ (n : ℚ) / d + 2 ^ lastPlace n d / 2 < mantissaBound * 2 ^ lastPlace n d := by
  have hpow : (0 : ℚ) < 2 ^ lastPlace n d := by positivity
  have hscale : (n / d * 2 ^ (-lastPlace n d) + 1 / 2 : ℚ) =
      (n / d + 2 ^ lastPlace n d / 2) / 2 ^ lastPlace n d := by
    rw [zpow_neg]
    field_simp
  rw [units, nearestEven_lt_iff (Nat.mul_pos hd (twoPow_pos _)) (by decide), units_eq, hscale,
    div_lt_iff₀ hpow]

/-- Half a last place beyond the largest finite number. -/
def rangeEnd : ℚ :=
  2 ^ 1024 - 2 ^ 970

theorem rangeEnd_eq : rangeEnd = (2 ^ 54 - 1) * 2 ^ (970 : ℤ) := by
  have hsplit : (2 : ℚ) ^ 1024 = 2 ^ 54 * 2 ^ 970 := by rw [← pow_add]
  rw [rangeEnd, hsplit, sub_one_mul]
  rfl

theorem lt_rangeEnd : (2 : ℚ) ^ 1023 < rangeEnd := by
  have hsplit : (2 : ℚ) ^ 1023 = 2 ^ 53 * 2 ^ (970 : ℤ) := by rw [zpow_ofNat, ← pow_add]
  rw [rangeEnd_eq, hsplit]
  gcongr
  norm_num

/-- With the last place of the largest numbers, the end of the range is half of it below the bound. -/
theorem rangeEnd_eq_sub : rangeEnd = mantissaBound * 2 ^ (971 : ℤ) - 2 ^ (971 : ℤ) / 2 := by
  rw [rangeEnd_eq, show (971 : ℤ) = 970 + 1 from rfl, zpow_add_one₀ two_ne_zero]
  generalize (2 : ℚ) ^ (970 : ℤ) = a
  norm_num [mantissaBound]
  ring

theorem rangeEnd_le : rangeEnd ≤ mantissaLeast * 2 ^ (972 : ℤ) := by
  rw [show (972 : ℤ) = 971 + 1 from rfl, mantissaLeast_mul_zpow, rangeEnd_eq_sub]
  exact sub_le_self _ (by positivity)

theorem rangeEnd_pos : 0 < rangeEnd :=
  lt_trans (by positivity) lt_rangeEnd

theorem rangeEnd_le_two_pow : rangeEnd ≤ 2 ^ 1024 :=
  sub_le_self _ (by positivity)

theorem roundedExponent_le_iff (hn : 0 < n) (hd : 0 < d) :
    roundedExponent n d ≤ 971 ↔ (n : ℚ) / d < rangeEnd := by
  have hlt := units_lt_iff (n := n) hd
  rw [roundedExponent]
  rcases lt_trichotomy (lastPlace n d) 971 with h | h | h
  · refine iff_of_true (by split <;> omega) (lt_of_le_of_lt ?_ lt_rangeEnd)
    refine (quotient_le hn hd).trans ?_
    rw [mantissaBound_eq, ← zpow_add₀ two_ne_zero, ← zpow_natCast]
    exact zpow_le_zpow_right₀ one_le_two (by push_cast; omega)
  · rw [h] at hlt ⊢
    rw [rangeEnd_eq_sub, lt_sub_iff_add_lt, ← hlt, (units_le_mantissaBound hn hd).lt_iff_ne]
    split
    · next heq => exact iff_of_false (by decide) (not_not_intro heq)
    · next hne => exact iff_of_true le_rfl hne
  · refine iff_of_false (by split <;> omega) (not_lt.mpr ?_)
    refine (rangeEnd_le.trans ?_).trans (le_quotient hn hd (by omega))
    gcongr
    · exact one_le_two
    · omega

/-- The parts of a rounded quotient are those of a finite number up to the end of the range. -/
theorem canonical_rounded_iff (hn : 0 < n) (hd : 0 < d) :
    Canonical (roundedMantissa n d) (roundedExponent n d) ↔ (n : ℚ) / d < rangeEnd := by
  rw [← roundedExponent_le_iff hn hd]
  refine ⟨fun hc => hc.2.2.1, fun hle => ?_⟩
  have hlowest : -1074 ≤ lastPlace n d := le_max_right _ _
  have hunits := units_le_mantissaBound hn hd
  rw [roundedExponent] at hle ⊢
  rw [roundedMantissa]
  split at hle
  · next h =>
    rw [if_pos h, if_pos h]
    exact ⟨by decide, by omega, hle, .inl le_rfl⟩
  · next h =>
    rw [if_neg h, if_neg h]
    refine ⟨lt_of_le_of_ne hunits h, hlowest, hle, ?_⟩
    by_cases hplace : lastPlace n d = -1074
    · exact .inr hplace
    · exact .inl (mantissaLeast_le_units hn hd hplace)

theorem ofParts_canonical {m : ℕ} {e : ℤ} (hc : Canonical m e) (negative : Bool) :
    ofParts negative m e = finite negative m e hc :=
  dif_pos hc

/-- A quotient is rounded to a finite number up to the end of the range. -/
theorem round_of_lt (hn : 0 < n) (hd : 0 < d) (h : (n : ℚ) / d < rangeEnd) (negative : Bool) :
    round negative n d = finite negative (roundedMantissa n d) (roundedExponent n d)
      ((canonical_rounded_iff hn hd).mpr h) := by
  rw [round_eq_ofParts hn, ofParts_canonical]

/-- From the end of the range on a quotient is rounded to an infinity. -/
theorem round_of_le (hn : 0 < n) (hd : 0 < d) (h : rangeEnd ≤ n / d) (negative : Bool) :
    round negative n d = infinite negative := by
  rw [round_eq_ofParts hn, ofParts, dif_neg]
  rwa [canonical_rounded_iff hn hd, not_lt]

end rounded

/-- A quotient below `2^1023` is rounded to a finite number, off by at most half a last place. -/
theorem round_spec {n d : Nat} (hn : 0 < n) (hd : 0 < d) (h : (n : ℚ) / d < 2 ^ 1023)
    (negative : Bool) : ∃ m e hc, round negative n d = .finite negative m e hc ∧
      |(m * 2 ^ e : ℚ) - n / d| ≤ 2 ^ lastPlace n d / 2 :=
  ⟨_, _, _, round_of_lt hn hd (h.trans lt_rangeEnd) negative, abs_rounded_sub_le n hd⟩

/-! ### Rationals -/

theorem natAbs_num_div_den (q : ℚ) : (q.num.natAbs : ℚ) / q.den = |q| := by
  rw [Nat.cast_natAbs, Int.cast_abs, ← abs_of_pos (a := (q.den : ℚ)) (by exact_mod_cast q.pos),
    ← abs_div, Rat.num_div_den]

/-- A rational below `2^1023` is rounded to a finite number, off by at most a part in `2^53` of it or of
one. -/
theorem ofRat_spec {q : ℚ} (h : |q| < 2 ^ 1023) (negativeZero : Bool) :
    (ofRat negativeZero q).isFinite ∧
      |(ofRat negativeZero q).toRat - q| ≤ max |q| 1 / 2 ^ 53 := by
  by_cases hzero : q.num = 0
  · obtain rfl : q = 0 := Rat.num_eq_zero.mp hzero
    rw [ofRat, if_pos hzero, toRat_zero]
    exact ⟨rfl, by norm_num⟩
  · have hn : 0 < q.num.natAbs := Int.natAbs_pos.mpr hzero
    have habs := natAbs_num_div_den q
    obtain ⟨m, e, hc, hround, herror⟩ :=
      round_spec hn q.pos (habs ▸ h) (decide (q.num < 0))
    have hhalf := half_lastPlace_le hn q.pos
    rw [habs] at herror hhalf
    rw [ofRat, if_neg hzero, hround, toRat_finite]
    refine ⟨rfl, le_trans ?_ hhalf⟩
    rcases lt_or_ge q 0 with hneg | hnonneg
    · rw [decide_eq_true (Rat.num_neg.mpr hneg), if_pos rfl]
      rw [abs_of_neg hneg, sub_neg_eq_add] at herror
      rwa [neg_one_mul, ← neg_add', abs_neg]
    · rw [decide_eq_false (by rwa [not_lt, Rat.num_nonneg]), if_neg Bool.false_ne_true]
      rw [abs_of_nonneg hnonneg] at herror
      rwa [one_mul]

theorem isFinite_zero (negative : Bool) : (zero negative).isFinite :=
  rfl

/-- A number below `10^28` with decimal places is finite. -/
theorem isFinite_ofDecimal {k : ℕ} (hk : k < tenPow roundingDigits) (negative : Bool)
    {places : ℤ} (hplaces : 0 ≤ places) : (ofDecimal negative k (-places)).isFinite := by
  rw [ofDecimal]
  split
  · exact isFinite_zero negative
  · next hzero =>
    rw [if_neg (by omega)]
    split
    · exact isFinite_zero negative
    · have hscale : (-places).toNat = 0 := by omega
      have hpow : (1 : ℚ) ≤ tenPow places.toNat := by exact_mod_cast tenPow_pos _
      have hlt : ((k * tenPow (-places).toNat : ℕ) : ℚ) / tenPow (- -places).toNat < 2 ^ 1023 := by
        rw [hscale, neg_neg, tenPow_eq 0, pow_zero, mul_one]
        calc (k : ℚ) / tenPow places.toNat ≤ k := div_le_self (by positivity) hpow
          _ < tenPow roundingDigits := by exact_mod_cast hk
          _ ≤ 2 ^ 100 := by norm_num [tenPow_eq, roundingDigits]
          _ < 2 ^ 1023 := pow_lt_pow_right₀ one_lt_two (by decide)
      obtain ⟨m, e, hc, hround, -⟩ := round_spec
        (Nat.mul_pos (Nat.pos_of_ne_zero hzero) (tenPow_pos _)) (tenPow_pos _) hlt negative
      rw [hround]
      rfl

/-- A finite number rounded to decimal places is finite. -/
theorem isFinite_roundHalfUp {x y : Binary64} {places : ℤ} (hplaces : 0 ≤ places)
    (hx : x.isFinite) (h : x.roundHalfUp places = .ok y) : y.isFinite := by
  cases x with
  | finite s m e hc =>
    rw [roundHalfUp] at h
    split at h
    · cases h
    · rw [roundRatio] at h
      split at h
      · next hk =>
        obtain rfl := Except.ok.inj h
        exact isFinite_ofDecimal hk s hplaces
      · cases h
  | infinite s => cases hx
  | nan => cases hx

/-- A finite number is whole when its exact value is. -/
theorem toInt?_eq_some_iff {x : Binary64} (hx : x.isFinite) {i : ℤ} :
    x.toInt? = some i ↔ x.toRat = i := by
  cases x with
  | finite s m e hc =>
    rw [toInt?]
    constructor
    · intro h
      split at h
      · next hden =>
        rw [← Option.some.inj h]
        exact (Rat.coe_int_num_of_den_eq_one hden).symm
      · cases h
    · intro h
      rw [h, if_pos (Rat.den_intCast i), Rat.num_intCast]
  | infinite s => cases hx
  | nan => cases hx

end Binary64

namespace Quantity

/-! ### Quantities -/

/-- The exact value of a finite quantity (zero for the others). -/
def toRat : Quantity → Rat
  | .whole i => i
  | .real x => x.toRat

def isFinite : Quantity → Bool
  | .whole _ => true
  | .real x => x.isFinite

theorem nearest_eq_ok {q : ℚ} (h : |q| < 2 ^ 1023) : nearest q = .ok (Binary64.ofRat false q) := by
  have hfinite := (Binary64.ofRat_spec h false).1
  rw [nearest]
  split
  · next hinfinite =>
    rw [hinfinite] at hfinite
    cases hfinite
  · rfl

/-- A finite quantity below `2^1023` has a finite quotient, rounded once. -/
theorem divBy_spec {v : Quantity} (hv : v.isFinite) (h : |v.toRat| < 2 ^ 1023) {d : ℕ} (hd : 0 < d) :
    ∃ x, v.divBy d = .ok x ∧ x.isFinite ∧
      |x.toRat - v.toRat / d| ≤ max |v.toRat / d| 1 / 2 ^ 53 := by
  have hd' : (1 : ℚ) ≤ d := by exact_mod_cast hd
  have hlt : |v.toRat / d| < 2 ^ 1023 := by
    rw [abs_div, abs_of_nonneg (a := (d : ℚ)) (by positivity)]
    exact lt_of_le_of_lt (div_le_self (abs_nonneg _) hd') h
  cases v with
  | whole i =>
    refine ⟨Binary64.ofRat false (i / d), ?_, Binary64.ofRat_spec hlt false⟩
    rw [divBy, Rat.mkRat_eq_div]
    exact nearest_eq_ok hlt
  | real x =>
    cases x with
    | finite s m e hc => exact ⟨_, rfl, Binary64.ofRat_spec hlt s⟩
    | infinite s => cases hv
    | nan => cases hv

theorem exists_display {v : Quantity} (h : |v.toRat| < 2 ^ 1023) : ∃ t, v.display = .ok t := by
  cases v with
  | whole i =>
    have hnearest : nearest i = .ok (Binary64.ofRat false i) := nearest_eq_ok h
    exact ⟨_, by rw [display, hnearest]⟩
  | real x => exact ⟨_, rfl⟩

theorem exists_displaySigned {v : Quantity} (h : |v.toRat| < 2 ^ 1023) :
    ∃ t, v.displaySigned = .ok t := by
  cases v with
  | whole i =>
    have hnearest : nearest i = .ok (Binary64.ofRat false i) := nearest_eq_ok h
    exact ⟨_, by rw [displaySigned, display, hnearest]⟩
  | real x => exact ⟨_, rfl⟩

/-- A finite quantity equals a whole number when its exact value does. -/
theorem equalsInt_iff {v : Quantity} (hv : v.isFinite) (j : ℤ) : v.equalsInt j ↔ v.toRat = j := by
  cases v with
  | whole i => rw [equalsInt, toRat, beq_iff_eq, Int.cast_inj]
  | real x => rw [equalsInt, toRat, beq_iff_eq, Binary64.toInt?_eq_some_iff hv]

end Quantity

end GemScribe
