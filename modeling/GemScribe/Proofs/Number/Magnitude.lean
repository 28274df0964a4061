import GemScribe.Number.Power
import GemScribe.Proofs.Number.Rounding

/-!
How large calculated numbers get.

A power is calculated in many rounded steps, and none of them is checked for an overflow. Here every step
gets a bound on its magnitude from the bounds of what it is calculated from. Rounding adds next to nothing
to a bound below `2^13`, so the bounds are those of the exact steps with some room. The last step of an
exponential scales by a power of two; it is the only one that makes numbers large, and what it gives for
a base between `2^(-7)` and `2^334` is finite with much to spare.
-/

namespace GemScribe

/-- The magnitude of `q` is at most `b`. -/
def Within (b q : ℚ) : Prop :=
  |q| ≤ b

namespace Within

variable {a b p q : ℚ}

theorem mono (h : Within a q) (hab : a ≤ b) : Within b q :=
  le_trans h hab

theorem of_le (hlow : -b ≤ q) (hhigh : q ≤ b) : Within b q :=
  abs_le.mpr ⟨hlow, hhigh⟩

theorem neg (h : Within b q) : Within b (-q) := by
  rwa [Within, abs_neg]

theorem add (hp : Within a p) (hq : Within b q) : Within (a + b) (p + q) :=
  le_trans (abs_add_le p q) (add_le_add hp hq)

theorem sub (hp : Within a p) (hq : Within b q) : Within (a + b) (p - q) := by
  rw [sub_eq_add_neg]
  exact hp.add hq.neg

theorem mul (hp : Within a p) (hq : Within b q) : Within (a * b) (p * q) := by
  rw [Within, abs_mul]
  exact mul_le_mul hp hq (abs_nonneg q) (le_trans (abs_nonneg p) hp)

/-! ### Rounding -/

theorem round_sub (h : Within b q) (hb : b ≤ 2 ^ 13) : Within (1 / 2 ^ 40) (rounded q - q) := by
  have hq : |q| ≤ 2 ^ 13 := le_trans h hb
  have hlt : |q| < 2 ^ 1023 := lt_of_le_of_lt hq (pow_lt_pow_right₀ one_lt_two (by decide))
  have hmax : max |q| 1 ≤ 2 ^ 13 := max_le hq (by norm_num)
  calc |rounded q - q| ≤ max |q| 1 / 2 ^ 53 := (Binary64.ofRat_spec hlt false).2
    _ ≤ 2 ^ 13 / 2 ^ 53 := by gcongr
    _ = 1 / 2 ^ 40 := by norm_num

theorem round (h : Within b q) (hb : b ≤ 2 ^ 13) : Within (b + 1 / 2 ^ 40) (rounded q) := by
  have hsum := h.add (h.round_sub hb)
  rwa [add_sub_cancel] at hsum

end Within

theorem within_nearestWhole_sub (q : ℚ) : Within (1 / 2) (nearestWhole q - q) := by
  have hnear := Binary64.abs_nearestEven_sub_le q.num.natAbs q.pos
  rw [Binary64.natAbs_num_div_den] at hnear
  rw [nearestWhole, Within]
  rcases lt_or_ge q 0 with hneg | hnonneg
  · rw [abs_of_neg hneg, sub_neg_eq_add] at hnear
    rw [if_pos (Rat.num_neg.mpr hneg), Int.cast_neg, Int.cast_natCast, ← neg_add', abs_neg]
    exact hnear
  · rw [abs_of_nonneg hnonneg] at hnear
    rw [if_neg (by rwa [not_lt, Rat.num_nonneg]), Int.cast_natCast]
    exact hnear

namespace TwoPart

variable {a b p q : ℚ}

theorem within_short_head_sub (q : ℚ) : Within (1 / 2 ^ 44) ((short q).head - q) := by
  have hnear := within_nearestWhole_sub (q * (twoPow shortPlaces : Nat))
  have hscale : ((twoPow shortPlaces : ℕ) : ℚ) = 2 ^ 43 := by norm_num [twoPow_eq, shortPlaces]
  have hhead : (short q).head - q =
      (nearestWhole (q * (twoPow shortPlaces : Nat)) - q * (twoPow shortPlaces : Nat)) *
        (1 / 2 ^ 43) := by
    rw [short, Rat.mkRat_eq_div, hscale]
    ring
  rw [hhead]
  exact (hnear.mul (Within.of_le (by norm_num) le_rfl)).mono (by norm_num)

theorem within_short_head (h : Within b q) : Within (b + 1 / 2 ^ 44) (short q).head := by
  have hsum := h.add (within_short_head_sub q)
  rwa [add_sub_cancel] at hsum

theorem within_short_tail (q : ℚ) : Within (1 / 2 ^ 39) (short q).tail := by
  have hdiff := (within_short_head_sub q).neg
  rw [neg_sub] at hdiff
  exact (hdiff.round (by norm_num)).mono (by norm_num)

theorem within_sum_head (hp : Within a p) (hq : Within b q) (h : a + b ≤ 2 ^ 13) :
    Within (a + b + 1 / 2 ^ 40) (sum p q).head :=
  (hp.add hq).round h

/-- What is lost in the head of a sum is small whatever the sum is. -/
theorem within_sum_tail (hp : Within a p) (hq : Within b q) (h : a + b ≤ 2 ^ 12) :
    Within (1 / 2 ^ 38) (sum p q).tail := by
  have hhead := (hp.add hq).round_sub (le_trans h (by norm_num))
  have ha : 0 ≤ a := le_trans (abs_nonneg p) hp
  have hrest : Within (b + 1 / 2 ^ 40) (p - rounded (p + q)) := by
    have hdiff := hq.neg.sub hhead
    have heq : -q - (rounded (p + q) - (p + q)) = p - rounded (p + q) := by ring
    rwa [heq] at hdiff
  have htail := (hrest.round_sub (by linarith)).sub hhead
  have heq : rounded (p - rounded (p + q)) - (p - rounded (p + q)) - (rounded (p + q) - (p + q)) =
      rounded (p - rounded (p + q)) + q := by ring
  rw [heq] at htail
  exact (htail.round (by norm_num)).mono (by norm_num)

theorem within_product_head (hp : Within a p) (hq : Within b q) (h : a * b ≤ 2 ^ 13) :
    Within (a * b + 1 / 2 ^ 40) (product p q).head :=
  (hp.mul hq).round h

theorem within_product_tail (hp : Within a p) (hq : Within b q) (h : a * b ≤ 2 ^ 13) :
    Within (1 / 2 ^ 39) (product p q).tail := by
  have hdiff := ((hp.mul hq).round_sub h).neg
  rw [neg_sub] at hdiff
  exact (hdiff.round (by norm_num)).mono (by norm_num)

end TwoPart

/-! ### Logarithms of quotients -/

theorem abs_ediv_le {i b : ℤ} {n : ℕ} (hn : 0 < n) (h : |i| ≤ b * n) : |i / n| ≤ b := by
  have hn' : (0 : ℤ) < n := by exact_mod_cast hn
  obtain ⟨hlow, hhigh⟩ := abs_le.mp h
  refine abs_le.mpr ⟨Int.le_ediv_of_mul_le hn' (by linarith), ?_⟩
  exact Int.ediv_le_of_le_mul hn' hhigh

/-- A term of a series is at most as large as the power it is made from, and the powers do not grow. -/
theorem abs_oddSeries_le {square : ℤ} (hsquare : |square| ≤ twoPow seriesPlaces) :
    ∀ (terms n : ℕ) {power : ℤ}, |power| ≤ twoPow seriesPlaces →
      |oddSeries square terms (n + 1 : ℕ) power| ≤ terms * twoPow seriesPlaces
  | 0, n, power, _ => by simp [oddSeries]
  | terms + 1, n, power, hpower => by
      have hterm : |power / (n + 1 : ℕ)| ≤ twoPow seriesPlaces := by
        refine abs_ediv_le n.succ_pos (le_trans hpower ?_)
        exact le_mul_of_one_le_right (Int.natCast_nonneg _) (by exact_mod_cast n.succ_pos)
      have hnext : |power * square / (twoPow seriesPlaces : ℕ)| ≤ twoPow seriesPlaces := by
        refine abs_ediv_le (twoPow_pos _) ?_
        rw [abs_mul]
        exact mul_le_mul hpower hsquare (abs_nonneg _) (Int.natCast_nonneg _)
      have hrest := abs_oddSeries_le hsquare terms (n + 2) hnext
      rw [oddSeries]
      calc |power / (n + 1 : ℕ) + oddSeries square terms ((n + 1 : ℕ) + 2) _|
          ≤ |power / (n + 1 : ℕ)| + |oddSeries square terms ((n + 1 : ℕ) + 2) _| := abs_add_le _ _
        _ ≤ twoPow seriesPlaces + terms * twoPow seriesPlaces := add_le_add hterm hrest
        _ = (terms + 1 : ℕ) * twoPow seriesPlaces := by push_cast; ring

theorem within_logQuotient {p q : ℕ} (hp : 0 < p) : Within 160 (logQuotient p q) := by
  have ht : |((p : ℤ) - q) * (twoPow seriesPlaces : Nat) / ((p : ℤ) + q)| ≤ twoPow seriesPlaces := by
    have hpos : 0 < p + q := by omega
    have hdiff : |(p : ℤ) - q| ≤ p + q := abs_le.mpr ⟨by omega, by omega⟩
    have hquotient := abs_ediv_le (i := ((p : ℤ) - q) * (twoPow seriesPlaces : Nat))
      (b := twoPow seriesPlaces) hpos (by
        rw [abs_mul, mul_comm, abs_of_nonneg (Int.natCast_nonneg _)]
        push_cast
        exact mul_le_mul_of_nonneg_left hdiff (Int.natCast_nonneg _))
    exact_mod_cast hquotient
  rw [logQuotient]
  generalize ((p : ℤ) - q) * (twoPow seriesPlaces : Nat) / ((p : ℤ) + q) = t at ht
  have hsquare : |t * t / (twoPow seriesPlaces : Nat)| ≤ twoPow seriesPlaces := by
    refine abs_ediv_le (twoPow_pos _) ?_
    rw [abs_mul]
    exact mul_le_mul ht ht (abs_nonneg _) (Int.natCast_nonneg _)
  have hseries := abs_oddSeries_le hsquare 80 0 ht
  have hpos : (0 : ℚ) < twoPow seriesPlaces := by exact_mod_cast twoPow_pos _
  rw [Within, Rat.mkRat_eq_div, abs_div, abs_of_pos hpos, div_le_iff₀ hpos]
  have hcast : (|2 * oddSeries (t * t / (twoPow seriesPlaces : Nat)) 80 1 t| : ℤ) ≤
      160 * (twoPow seriesPlaces : Nat) := by
    rw [abs_mul, abs_two]
    calc 2 * |oddSeries (t * t / (twoPow seriesPlaces : Nat)) 80 1 t|
        ≤ 2 * ((80 : ℕ) * (twoPow seriesPlaces : Nat)) :=
          mul_le_mul_of_nonneg_left hseries zero_le_two
      _ = 160 * (twoPow seriesPlaces : Nat) := by push_cast; ring
  exact_mod_cast hcast

/-! ### Logarithms -/

/-- A number is shifted so that its mantissa has 53 bits, and the bits are cut off at the first place. -/
theorem cellOf_spec {m : ℕ} (hm : 0 < m) (hlt : m < mantissaBound) (e : ℤ) :
    firstPlace ≤ (cellOf m e).2 ∧ (cellOf m e).2 < mantissaLeast + firstPlace ∧
      (2 : ℚ) ^ ((cellOf m e).1 - 1) ≤ m * 2 ^ e ∧ (m * 2 ^ e : ℚ) < 2 ^ ((cellOf m e).1 + 1) := by
  have hlog : Nat.log2 m ≤ 52 := by
    rw [← Nat.lt_succ_iff, Nat.log2_lt hm.ne']
    exact hlt
  obtain ⟨shift, hshift⟩ : ∃ shift, shift = 52 - Nat.log2 m := ⟨_, rfl⟩
  have hlow : mantissaLeast ≤ m * twoPow shift := by
    calc mantissaLeast = 2 ^ Nat.log2 m * twoPow shift := by
          rw [twoPow_eq, ← Nat.pow_add, hshift, Nat.add_sub_cancel' hlog]
          rfl
      _ ≤ m * twoPow shift := Nat.mul_le_mul_right _ (Nat.log2_self_le hm.ne')
  have hhigh : m * twoPow shift < mantissaBound := by
    calc m * twoPow shift < 2 ^ (Nat.log2 m + 1) * twoPow shift :=
          Nat.mul_lt_mul_of_pos_right Nat.lt_log2_self (twoPow_pos _)
      _ = mantissaBound := by
          rw [twoPow_eq, ← Nat.pow_add, hshift, Nat.add_right_comm, Nat.add_sub_cancel' hlog]
          rfl
  have hvalue : (m * 2 ^ e : ℚ) = (m * twoPow shift : ℕ) * 2 ^ (e - shift) := by
    rw [Nat.cast_mul, twoPow_eq, Nat.cast_pow, mul_assoc, Nat.cast_ofNat, ← zpow_natCast,
      ← zpow_add₀ two_ne_zero, add_sub_cancel]
  have hlow' : (2 : ℚ) ^ (52 : ℤ) ≤ (m * twoPow shift : ℕ) := by exact_mod_cast hlow
  have hhigh' : ((m * twoPow shift : ℕ) : ℚ) < 2 ^ (53 : ℤ) := by exact_mod_cast hhigh
  have hleast : (2 : ℚ) ^ (52 + (e - shift)) ≤ m * 2 ^ e := by
    rw [hvalue, zpow_add₀ two_ne_zero]
    gcongr
  have hbound : (m * 2 ^ e : ℚ) < 2 ^ (53 + (e - shift)) := by
    rw [hvalue, zpow_add₀ two_ne_zero]
    gcongr
  simp only [cellOf, ← hshift]
  split
  · next hfirst =>
    refine ⟨hfirst, lt_trans hhigh (by decide), ?_, ?_⟩
    · exact le_trans (zpow_le_zpow_right₀ one_le_two (by omega)) hleast
    · exact lt_of_lt_of_le hbound (zpow_le_zpow_right₀ one_le_two (by omega))
  · next hfirst =>
    have hnear : firstPlace ≤ mantissaLeast + mantissaLeast := by decide
    refine ⟨by omega, by omega, ?_, ?_⟩
    · exact le_trans (zpow_le_zpow_right₀ one_le_two (by omega)) hleast
    · exact lt_of_lt_of_le hbound (zpow_le_zpow_right₀ one_le_two (by omega))

theorem nearestEven_le (n d : ℕ) : Binary64.nearestEven n d ≤ n / d + 1 := by
  rw [Binary64.nearestEven]
  split_ifs <;> omega

theorem cellReciprocal_le {place : ℕ} (h : firstPlace ≤ place) : cellReciprocal place ≤ 364 := by
  have hmod : (place - firstPlace) % cellPlaces ≤ place - firstPlace := Nat.mod_le _ _
  obtain ⟨middle, hmiddle⟩ : ∃ middle,
      middle = place - (place - firstPlace) % cellPlaces + cellPlaces / 2 := ⟨_, rfl⟩
  have hfirst : firstPlace ≤ middle := by omega
  simp only [cellReciprocal, ← hmiddle]
  split
  · calc 2 * Binary64.nearestEven (twoPow 60) middle ≤ 2 * (twoPow 60 / middle + 1) :=
          Nat.mul_le_mul_left 2 (nearestEven_le _ _)
      _ ≤ 2 * (twoPow 60 / firstPlace + 1) :=
          Nat.mul_le_mul_left 2 (Nat.succ_le_succ (Nat.div_le_div_left hfirst (by decide)))
      _ ≤ 364 := by decide
  · next hbound =>
    have hleast : mantissaLeast ≤ middle - mantissaLeast := by
      rw [not_lt] at hbound
      have : mantissaLeast + mantissaLeast = mantissaBound := by decide
      omega
    calc Binary64.nearestEven (twoPow 60) (middle - mantissaLeast)
        ≤ twoPow 60 / (middle - mantissaLeast) + 1 := nearestEven_le _ _
      _ ≤ twoPow 60 / mantissaLeast + 1 :=
          Nat.succ_le_succ (Nat.div_le_div_left hleast (by decide))
      _ ≤ 364 := by decide

theorem atPlace_bounds {place : ℕ} (h : place < mantissaLeast + firstPlace) :
    0 ≤ atPlace place ∧ atPlace place ≤ 3 / 2 := by
  have hfirst : firstPlace * 2 ≤ 3 * mantissaLeast := by decide
  rw [atPlace]
  split
  · next hbound =>
    rw [Rat.mkRat_eq_div, Int.cast_natCast]
    refine ⟨div_nonneg (Nat.cast_nonneg _) (Nat.cast_nonneg _), ?_⟩
    rw [div_le_div_iff₀ (by norm_num [mantissaBound]) two_pos]
    exact_mod_cast (by omega : place * 2 ≤ 3 * mantissaBound)
  · rw [Rat.mkRat_eq_div, Int.cast_natCast]
    refine ⟨div_nonneg (Nat.cast_nonneg _) (Nat.cast_nonneg _), ?_⟩
    rw [div_le_div_iff₀ (by norm_num [mantissaLeast]) two_pos]
    exact_mod_cast (by omega : (place - mantissaLeast) * 2 ≤ 3 * mantissaLeast)

/-- The factor that the reciprocal of a cell leaves of a place in it, less one. -/
theorem within_rest {place : ℕ} (h : firstPlace ≤ place) (hlt : place < mantissaLeast + firstPlace) :
    Within (5 / 4) (atPlace place * mkRat (cellReciprocal place) 256 - 1) := by
  obtain ⟨hlow, hhigh⟩ := atPlace_bounds hlt
  have hreciprocal : ((cellReciprocal place : ℕ) : ℚ) ≤ 364 := by
    exact_mod_cast cellReciprocal_le h
  have hunits : (cellReciprocal place : ℚ) / (256 : ℕ) ≤ 364 / 256 :=
    div_le_div_of_nonneg_right hreciprocal (by norm_num)
  have hunits' : 0 ≤ (cellReciprocal place : ℚ) / (256 : ℕ) :=
    div_nonneg (Nat.cast_nonneg _) (by norm_num)
  rw [Rat.mkRat_eq_div, Int.cast_natCast]
  have hproduct := mul_le_mul hhigh hunits hunits' (by norm_num)
  have hnonneg := mul_nonneg hlow hunits'
  exact Within.of_le (by linarith) (by linarith)

/-- A coefficient is within a bound when it is between zero and the bound. -/
theorem within_coefficient {n k : ℕ} {b : ℚ} (h : (n : ℚ) ≤ b * 2 ^ k) :
    Within b (mkRat n (twoPow k)) := by
  have hpos : (0 : ℚ) < 2 ^ k := by positivity
  rw [Within, Rat.mkRat_eq_div, Int.cast_natCast, twoPow_eq, Nat.cast_pow, Nat.cast_ofNat,
    abs_of_nonneg (by positivity), div_le_iff₀ hpos]
  exact h

theorem within_logRest {r bend : ℚ} (hr : Within (5 / 4) r) (hbend : Within (4 / 5) bend) :
    Within 7 (logRest r bend) := by
  have ha := (((within_coefficient (n := 0x10000000000006) (k := 53) (b := 1) (by norm_num)).mul
    hr).sub (within_coefficient (n := 0x15555555555560) (k := 53) (b := 1) (by norm_num))).round
    (by norm_num)
  have hb := ((within_coefficient (n := 0x1999999959554e) (k := 53) (b := 1) (by norm_num)).sub
    ((within_coefficient (n := 0x1555555529a47a) (k := 53) (b := 1) (by norm_num)).mul hr)).round
    (by norm_num)
  have hc := (((within_coefficient (n := 0x10002b8b263fc3) (k := 52) (b := 2) (by norm_num)).mul
    hr).sub (within_coefficient (n := 0x12495b9b4845e9) (k := 52) (b := 2) (by norm_num))).round
    (by norm_num)
  have hsum := (hbend.mul (((hc.mul hbend).add hb).round (by norm_num))).add ha
  exact (hsum.round (by norm_num)).mono (by norm_num)

/-- The logarithm of 2 as it is calculated. -/
theorem logTwo_bounds : 1 / 2 ≤ logTwo ∧ logTwo ≤ 7 / 10 := by
  decide +kernel

/-- The logarithm of a number between `2^(-7)` and `2^334`. -/
theorem within_logarithm {m : ℕ} (hm : 0 < m) (hlt : m < mantissaBound) {e : ℤ}
    (hlow : (2 : ℚ) ^ (-7 : ℤ) ≤ m * 2 ^ e) (hhigh : (m * 2 ^ e : ℚ) ≤ 2 ^ (334 : ℤ)) :
    Within 410 (logarithm m e).head ∧ Within (1 / 2 ^ 38) (logarithm m e).tail := by
  obtain ⟨hfirst, hlast, hleast, hbound⟩ := cellOf_spec hm hlt e
  obtain ⟨⟨k, place⟩, hcell⟩ : ∃ cell, cell = cellOf m e := ⟨_, rfl⟩
  rw [← hcell] at hfirst hlast hleast hbound
  have hk : Within 335 k := by
    have hmin := (zpow_lt_zpow_iff_right₀ one_lt_two).mp (lt_of_le_of_lt hlow hbound)
    have hmax := (zpow_le_zpow_iff_right₀ one_lt_two).mp (le_trans hleast hhigh)
    exact Within.of_le (by exact_mod_cast (by omega : -335 ≤ k))
      (by exact_mod_cast (by omega : k ≤ 335))
  have htwo : Within (7 / 10) logTwo := Within.of_le (by linarith [logTwo_bounds.1]) logTwo_bounds.2
  have hr := within_rest hfirst hlast
  have hc := within_logQuotient (p := 256) (q := cellReciprocal place) (by decide)
  rw [logarithm, ← hcell]
  dsimp only at hr hc ⊢
  generalize atPlace place * mkRat (cellReciprocal place) 256 - 1 = r at hr ⊢
  have hheads := (hk.mul (TwoPart.within_short_head htwo)).add (TwoPart.within_short_head hc)
  have hlinear := TwoPart.within_sum_head hheads hr (by norm_num)
  have hlinearTail := TwoPart.within_sum_tail hheads hr (by norm_num)
  have hhalf : Within (5 / 8) (-r / 2) := by
    have hscaled := hr.neg.mul (Within.of_le (b := 1 / 2) (q := 1 / 2) (by norm_num) le_rfl)
    rw [mul_one_div (-r) 2] at hscaled
    exact hscaled.mono (by norm_num)
  have hbend := (TwoPart.within_product_head hhalf hr (by norm_num)).mono
    (b := 4 / 5) (by norm_num)
  have hbendTail := TwoPart.within_product_tail hhalf hr (by norm_num)
  have hquadratic := TwoPart.within_sum_head hlinear hbend (by norm_num)
  have hquadraticTail := TwoPart.within_sum_tail hlinear hbend (by norm_num)
  have htails := ((((((((hk.mul (TwoPart.within_short_tail logTwo)).add
    (TwoPart.within_short_tail (logQuotient 256 (cellReciprocal place)))).round (by norm_num)).add
    hlinearTail).round (by norm_num)).add hbendTail).round (by norm_num)).add
    hquadraticTail).round (by norm_num)
  have hcorrection := ((((hr.mul hbend).round (by norm_num)).mul (within_logRest hr hbend)).add
    htails).round (by norm_num)
  exact ⟨(TwoPart.within_sum_head hquadratic hcorrection (by norm_num)).mono (by norm_num),
    TwoPart.within_sum_tail hquadratic hcorrection (by norm_num)⟩

/-! ### Exponentials -/

theorem rounded_steps_bounds : 0 ≤ rounded (128 / logTwo) ∧ rounded (128 / logTwo) ≤ 186 := by
  decide +kernel

/-- As many steps as there are in the logarithm of 2 make that logarithm, nearly. -/
theorem within_steps_sub_one : Within (1 / 1000000)
    (1 - rounded (128 / logTwo) * (TwoPart.short (logTwo / 128)).head) := by
  rw [Within]
  decide +kernel

theorem rootOfTwo_bounds : ∀ i < 128, 1 ≤ rootOfTwo i ∧ rootOfTwo i ≤ 2 := by
  decide +kernel

theorem within_smallExponential {r excess : ℚ} (hr : Within (3 / 5) r) (hexcess : Within 6 excess) :
    Within 9 (smallExponential r excess) := by
  have hsquare := (hr.mul hr).round (by norm_num)
  have ha := (((within_coefficient (n := 0x1555555555543c) (k := 55) (b := 1) (by norm_num)).mul
    hr).add (within_coefficient (n := 0x1ffffffffffdbd) (k := 54) (b := 1) (by norm_num))).round
    (by norm_num)
  have hb := (((within_coefficient (n := 0x11111167a4d017) (k := 59) (b := 1) (by norm_num)).mul
    hr).add (within_coefficient (n := 0x155555cf172b91) (k := 57) (b := 1) (by norm_num))).round
    (by norm_num)
  have hlinear := (hr.add hexcess).round (by norm_num)
  have hquadratic := ((ha.mul hsquare).add hlinear).round (by norm_num)
  have hsum := (hb.mul ((hsquare.mul hsquare).round (by norm_num))).add hquadratic
  exact (hsum.round (by norm_num)).mono (by norm_num)

/-- The root that a step asks for, less its rounded value, in units of that. -/
theorem within_excess {root : ℚ} (hlow : 1 ≤ root) (hhigh : root ≤ 2) :
    Within (5 / 2) (rounded root) ∧ Within 6 (rounded (root / rounded root - 1)) := by
  have hroot : Within 2 root := Within.of_le (by linarith) hhigh
  have hscale := hroot.round (by norm_num)
  have hdiff := (abs_le.mp (hroot.round_sub (by norm_num))).1
  have hhalf : 1 / 2 ≤ rounded root := by
    have : (1 : ℚ) / 2 ^ 40 ≤ 1 / 2 := by norm_num
    linarith
  have hpos : 0 < rounded root := lt_of_lt_of_le (by norm_num) hhalf
  have hquotient : Within 4 (root / rounded root) := by
    refine Within.of_le (le_trans (by norm_num) (div_nonneg (by linarith) hpos.le)) ?_
    rw [div_le_iff₀ hpos]
    linarith
  have hless := (hquotient.sub (Within.of_le (b := 1) (by norm_num) le_rfl)).round (by norm_num)
  exact ⟨hscale.mono (by norm_num), hless.mono (by norm_num)⟩

namespace Binary64

/-- A finite number whose magnitude is at most `2^n`. -/
structure Bounded (n : ℕ) (x : Binary64) : Prop where
  isFinite : x.isFinite
  bound : Within (2 ^ n) x.toRat

variable {n k : ℕ} {x y : Binary64}

theorem Bounded.mono (h : x.Bounded n) (hnk : n ≤ k) : x.Bounded k :=
  ⟨h.isFinite, h.bound.mono (pow_le_pow_right₀ one_le_two hnk)⟩

theorem bounded_zero (negative : Bool) (n : ℕ) : (zero negative).Bounded n := by
  refine ⟨rfl, ?_⟩
  rw [Within, zero, abs_toRat_finite, Nat.cast_zero, zero_mul]
  positivity

/-- Rounding makes a quotient at most twice as large. -/
theorem bounded_round {p d : ℕ} (hd : 0 < d) (h : (p : ℚ) / d ≤ 2 ^ n) (hn : n ≤ 1000)
    (negative : Bool) : (round negative p d).Bounded (n + 1) := by
  rcases Nat.eq_zero_or_pos p with rfl | hp
  · rw [round, if_pos rfl]
    exact bounded_zero negative _
  · have hlt : (p : ℚ) / d < 2 ^ 1023 :=
      lt_of_le_of_lt h (pow_lt_pow_right₀ one_lt_two (by omega))
    obtain ⟨m, e, hc, hround, herror⟩ := round_spec hp hd hlt negative
    have hsmall : max (p / d : ℚ) 1 / 2 ^ 53 ≤ 2 ^ n :=
      le_trans (div_le_self (by positivity) (one_le_pow₀ one_le_two))
        (max_le h (one_le_pow₀ one_le_two))
    have hvalue := (abs_le.mp (le_trans herror (le_trans (half_lastPlace_le hp hd) hsmall))).2
    rw [hround]
    refine ⟨rfl, ?_⟩
    rw [Within, abs_toRat_finite, pow_succ]
    linarith

theorem bounded_ofRat {q : ℚ} (h : Within (2 ^ n) q) (hn : n ≤ 1000) (negativeZero : Bool) :
    (ofRat negativeZero q).Bounded (n + 1) := by
  rw [ofRat]
  split
  · exact bounded_zero negativeZero _
  · refine bounded_round q.pos ?_ hn _
    rw [natAbs_num_div_den]
    exact h

theorem Bounded.add (hx : x.Bounded n) (hy : y.Bounded n) (hn : n < 1000) :
    (x.add y).Bounded (n + 2) := by
  cases x with
  | infinite s => cases hx.isFinite
  | nan => cases hx.isFinite
  | finite s m e hm =>
    cases y with
    | infinite t => cases hy.isFinite
    | nan => cases hy.isFinite
    | finite t l i hl =>
      have hsum := (hx.bound.add hy.bound).mono (b := 2 ^ (n + 1)) (by rw [pow_succ, mul_two])
      exact bounded_ofRat hsum hn _

theorem Bounded.mul (hx : x.Bounded n) (hy : y.Bounded k) (hnk : n + k ≤ 1000) :
    (x.mul y).Bounded (n + k + 1) := by
  cases x with
  | infinite s => cases hx.isFinite
  | nan => cases hx.isFinite
  | finite s m e hm =>
    cases y with
    | infinite t => cases hy.isFinite
    | nan => cases hy.isFinite
    | finite t l i hl =>
      have hproduct := (hx.bound.mul hy.bound).mono (b := 2 ^ (n + k)) (by rw [pow_add])
      exact bounded_ofRat hproduct hnk _

end Binary64

/-- The steps that an argument is made of, and what is left of it. -/
theorem within_leftover {y : TwoPart} (hhead : Within 412 y.head) (htail : Within (1 / 100) y.tail)
    {k : ℤ} (hnear : Within (1 / 2) (k - rounded (128 / logTwo) * y.head)) :
    Within 76633 k ∧
      Within (3 / 5) (rounded (rounded (rounded (y.head - k * (TwoPart.short (logTwo / 128)).head) -
        k * (TwoPart.short (logTwo / 128)).tail) + y.tail)) := by
  have hlogTwo : Within (7 / 1280) (logTwo / 128) :=
    Within.of_le (by linarith [logTwo_bounds.1]) (by linarith [logTwo_bounds.2])
  have hsteps : Within 186 (rounded (128 / logTwo)) :=
    Within.of_le (by linarith [rounded_steps_bounds.1]) rounded_steps_bounds.2
  have hk : Within 76633 k := by
    have hsum := hnear.add (hsteps.mul hhead)
    rw [sub_add_cancel] at hsum
    exact hsum.mono (by norm_num)
  have hstep := (TwoPart.within_short_head hlogTwo).mono (b := 1) (by norm_num)
  have hheads : Within (51 / 100) (y.head - k * (TwoPart.short (logTwo / 128)).head) := by
    have heq : y.head - k * (TwoPart.short (logTwo / 128)).head =
        y.head * (1 - rounded (128 / logTwo) * (TwoPart.short (logTwo / 128)).head) -
          (k - rounded (128 / logTwo) * y.head) * (TwoPart.short (logTwo / 128)).head := by
      ring
    rw [heq]
    exact ((hhead.mul within_steps_sub_one).sub (hnear.mul hstep)).mono (by norm_num)
  have hless := ((hheads.round (by norm_num)).sub
    (hk.mul (TwoPart.within_short_tail (logTwo / 128)))).round (by norm_num)
  exact ⟨hk, ((hless.add htail).round (by norm_num)).mono (by norm_num)⟩

/-- A number scaled by a power of two. -/
theorem bounded_scaled {q : ℚ} (hq : Within (2 ^ 5) q) {i : ℤ} (hi : i ≤ 599) :
    (Binary64.round false (q.num.toNat * twoPow i.toNat) (q.den * twoPow (-i).toNat)).Bounded
      605 := by
  have hnum : (q.num.toNat : ℚ) / q.den ≤ 2 ^ 5 := by
    refine le_trans ?_ hq
    rw [← Binary64.natAbs_num_div_den]
    exact div_le_div_of_nonneg_right (by exact_mod_cast (by omega)) (Nat.cast_nonneg _)
  have hscale : (2 : ℚ) ^ i ≤ 2 ^ 599 := by
    rw [← zpow_natCast]
    exact zpow_le_zpow_right₀ one_le_two hi
  have hunits := Binary64.units_eq q.num.toNat q.den (-i)
  rw [neg_neg] at hunits
  refine Binary64.bounded_round (n := 604) (Nat.mul_pos q.pos (twoPow_pos _)) ?_ (by decide) false
  rw [hunits]
  calc (q.num.toNat : ℚ) / q.den * 2 ^ i ≤ 2 ^ 5 * 2 ^ 599 :=
        mul_le_mul hnum hscale (by positivity) (by positivity)
    _ = 2 ^ 604 := by rw [← pow_add]

/-- The exponential of a number of which the magnitude is at most 412. -/
theorem bounded_exponential {y : TwoPart} (hhead : Within 412 y.head)
    (htail : Within (1 / 100) y.tail) : (exponential y).Bounded 605 := by
  rw [exponential]
  obtain ⟨hk, hr⟩ := within_leftover hhead htail
    (within_nearestWhole_sub (rounded (128 / logTwo) * y.head))
  generalize nearestWhole (rounded (128 / logTwo) * y.head) = k at hk hr ⊢
  obtain ⟨hlow, hhigh⟩ := rootOfTwo_bounds (k % 128).toNat (by omega)
  obtain ⟨hscale, hexcess⟩ := within_excess hlow hhigh
  have hgrowth := hscale.mul (within_smallExponential hr hexcess)
  have hexponent : k / 128 ≤ 599 := by
    have hmax : k ≤ 76633 := by exact_mod_cast (abs_le.mp hk).2
    omega
  refine bounded_scaled ?_ hexponent
  split
  · exact ((hgrowth.round (by norm_num)).add hscale).mono (by norm_num)
  · exact (hgrowth.add hscale).mono (by norm_num)

/-- A power of a number between `2^(-7)` and `2^334`. -/
theorem exists_power {k : ℕ} (hk : k ≤ mantissaBound) {x : Binary64} (hx : x.isFinite)
    (hlow : (2 : ℚ) ^ (-7 : ℤ) ≤ x.toRat) (hhigh : x.toRat ≤ 2 ^ (334 : ℤ)) :
    ∃ y, Binary64.power k x = .ok y ∧ y.Bounded 605 := by
  cases x with
  | infinite s => cases hx
  | nan => cases hx
  | finite s m e hc =>
    have hpos : 0 < (Binary64.finite s m e hc).toRat := lt_of_lt_of_le (by positivity) hlow
    rw [Binary64.toRat_finite] at hlow hhigh hpos
    obtain rfl : s = false := by
      by_contra hs
      rw [Bool.not_eq_false] at hs
      rw [hs, if_pos rfl, neg_one_mul, Left.neg_pos_iff] at hpos
      exact absurd hpos (not_lt.mpr (by positivity))
    rw [if_neg Bool.false_ne_true, one_mul] at hlow hhigh hpos
    have hm : 0 < m := by
      rcases Nat.eq_zero_or_pos m with rfl | hm
      · rw [Nat.cast_zero, zero_mul] at hpos
        exact absurd hpos (lt_irrefl 0)
      · exact hm
    obtain ⟨hhead, htail⟩ := within_logarithm hm hc.1 hlow hhigh
    have hexponent : Within 1 (mkRat k mantissaBound) := by
      refine (within_coefficient (k := 53) ?_ : Within 1 (mkRat k (twoPow 53)))
      rw [one_mul]
      exact_mod_cast hk
    have hproduct := TwoPart.within_product_head hexponent hhead (by norm_num)
    have hproductTail := TwoPart.within_product_tail hexponent hhead (by norm_num)
    have hrest := ((hexponent.mul htail).add hproductTail).round (by norm_num)
    refine ⟨_, by rw [Binary64.power, if_neg hm.ne', if_neg Bool.false_ne_true], ?_⟩
    exact bounded_exponential (hproduct.mono (by norm_num)) (hrest.mono (by norm_num))

end GemScribe
