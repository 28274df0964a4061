import GemScribe.Gem.Requirement
import GemScribe.Proofs.Number.Magnitude
import GemScribe.Proofs.Outcome

/-!
When an attribute requirement can be calculated.

The requirement of a level is a product of two numbers that both grow without limit, and its whole part
is taken at the end; an infinity has none. For levels and shares below `10^100` the product stays far
below the largest binary64 number.
-/

namespace GemScribe

/-- The magnitude below which numbers do not lead to an overflow. -/
def moderateBound : ℚ := 10 ^ 100

theorem moderateBound_le : moderateBound ≤ 2 ^ 334 := by
  calc moderateBound = (10 ^ 50) ^ 2 := by rw [moderateBound, ← pow_mul]
    _ ≤ (2 ^ 167) ^ 2 := pow_le_pow_left₀ (by positivity) (by norm_num) 2
    _ = 2 ^ 334 := by rw [← pow_mul]

namespace Requirement

theorem bounded_base {level : ℤ} (h : |(level : ℚ)| ≤ moderateBound) :
    ∃ x, base level = .ok x ∧ x.Bounded 344 := by
  have hthree : (3 : ℚ) ≤ 2 ^ 334 :=
    le_trans (by norm_num) (pow_le_pow_right₀ one_le_two (by decide : 2 ≤ 334))
  have hlevels : Within (2 ^ 335) ((level - 3 : ℤ) : ℚ) := by
    have hdiff := (Within.mono h moderateBound_le).sub (Within.of_le (b := 3) (by norm_num) le_rfl)
    rw [Int.cast_sub, Int.cast_ofNat]
    exact hdiff.mono (by rw [pow_succ 2 334, mul_two]; exact add_le_add_right hthree _)
  have hlt : |((level - 3 : ℤ) : ℚ)| < 2 ^ 1023 :=
    lt_of_le_of_lt hlevels (pow_lt_pow_right₀ one_lt_two (by decide))
  have hx := Binary64.bounded_ofRat hlevels (by decide) false
  have hslope := Binary64.bounded_ofRat (n := 2) (q := mkRat 9 4)
    (Within.of_le (by norm_num [Rat.mkRat_eq_div]) (by norm_num [Rat.mkRat_eq_div]))
    (by decide) false
  have hfive := Binary64.bounded_ofRat (n := 3) (q := (5 : ℤ))
    (Within.of_le (by norm_num) (by norm_num)) (by decide) false
  have hproduct := hx.mul hslope (by decide)
  refine ⟨_, by rw [base, Quantity.nearest_eq_ok hlt]; rfl, ?_⟩
  exact ((hfive.mono (by decide)).add hproduct (by decide)).mono (by decide)

theorem bounded_factor {percent : ℤ} (hpos : 0 < percent) (h : (percent : ℚ) < moderateBound) :
    ∃ x, factor (.whole percent) = .ok x ∧ x.Bounded 605 := by
  have hone : (1 : ℚ) ≤ percent := by exact_mod_cast hpos
  have hlt : |(Quantity.whole percent).toRat| < 2 ^ 1023 := by
    rw [Quantity.toRat, abs_of_nonneg (by linarith)]
    exact lt_of_lt_of_le h (le_trans moderateBound_le (pow_le_pow_right₀ one_le_two (by decide)))
  obtain ⟨x, hdiv, hfinite, hnear⟩ := Quantity.divBy_spec rfl hlt (d := 100) (by decide)
  have herror : |x.toRat - percent / 100| ≤ percent / 1000 := by
    refine le_trans hnear ?_
    rw [Quantity.toRat, Nat.cast_ofNat, abs_of_nonneg (by positivity)]
    gcongr
    · exact max_le (by linarith) hone
    · norm_num
  obtain ⟨hlow, hhigh⟩ := abs_le.mp herror
  have hleast : (2 : ℚ) ^ (-7 : ℤ) ≤ x.toRat := by
    calc (2 : ℚ) ^ (-7 : ℤ) ≤ 9 / 1000 := by norm_num
      _ ≤ x.toRat := by linarith
  have hgreatest : x.toRat ≤ 2 ^ (334 : ℤ) := by
    rw [zpow_ofNat]
    exact le_trans (by linarith) moderateBound_le
  obtain ⟨y, hpower, hy⟩ := exists_power (k := Binary64.nineTenths) (by decide) hfinite hleast
    hgreatest
  exact ⟨y, by rw [factor, hdiv]; exact hpower, hy⟩

/-- The points of a bounded requirement. -/
theorem exists_points {x : Binary64} (h : x.Bounded 999) : ∃ n, points x = .ok n := by
  have hhalf := Binary64.bounded_ofRat (n := 0) (q := mkRat 1 2)
    (Within.of_le (by norm_num [Rat.mkRat_eq_div]) (by norm_num [Rat.mkRat_eq_div]))
    (by decide) false
  have hsum := h.add (hhalf.mono (by decide)) (by decide)
  simp only [points, bind_eq_ok]
  generalize x.add (Binary64.ofRat false (mkRat 1 2)) = y at hsum
  cases y with
  | infinite s => cases hsum.isFinite
  | nan => cases hsum.isFinite
  | finite s m e hc => exact ⟨_, _, rfl, rfl⟩

theorem exists_atLevel {level percent : ℤ} (hlevel : |(level : ℚ)| ≤ moderateBound)
    (hnonneg : 0 ≤ percent) (hpercent : (percent : ℚ) < moderateBound) :
    ∃ n, atLevel level (.whole percent) = .ok n := by
  rw [atLevel]
  split
  · exact ⟨0, rfl⟩
  · next hzero =>
    have hpos : 0 < percent := by
      rw [Quantity.equalsInt, beq_iff_eq] at hzero
      omega
    obtain ⟨x, hbase, hx⟩ := bounded_base hlevel
    obtain ⟨y, hfactor, hy⟩ := bounded_factor hpos hpercent
    obtain ⟨n, hn⟩ := exists_points ((hx.mul hy (by decide)).mono (by decide))
    exact ⟨n, by rw [hbase, hfactor]; exact hn⟩

end Requirement

end GemScribe
