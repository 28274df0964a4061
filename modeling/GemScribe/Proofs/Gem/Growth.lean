import GemScribe.Gem.Requirement
import GemScribe.Proofs.Number.Order
import GemScribe.Proofs.Outcome
import Mathlib.Data.Rat.Floor

/-!
How attribute requirements grow.

From a level to its points every step keeps the order: sums and products with one rounding each, the whole
part, and the cut below 8, which takes away only from the low end. So with any one factor that is not
negative a requirement is never smaller than that of a lower level; the factor for the share is a power, and
no power is negative. An overflow happens at the ends only: between two levels with a requirement every
level has one.
-/

namespace GemScribe

/-! ### Powers -/

namespace Binary64

variable {x y : Binary64}

theorem toRat_nonneg (h : x.isNegative = false) : 0 ≤ x.toRat := by
  cases x with
  | finite s m e hc =>
    obtain rfl : s = false := h
    rw [toRat_eq_sign, sign, if_neg Bool.false_ne_true, one_mul]
    positivity
  | infinite s => exact le_rfl
  | nan => exact le_rfl

theorem isNegative_power {k : ℕ} (h : power k x = .ok y) : y.isNegative = false := by
  cases x with
  | finite s m e hc =>
    rw [power] at h
    split at h
    · obtain rfl := Except.ok.inj h
      rfl
    · split at h
      · cases h
      · obtain rfl := Except.ok.inj h
        exact isNegative_exponential _
  | infinite s =>
    obtain rfl := Except.ok.inj h
    rfl
  | nan =>
    obtain rfl := Except.ok.inj h
    rfl

end Binary64

theorem Quantity.nearest_eq_ok_iff {q : ℚ} {x : Binary64} :
    nearest q = .ok x ↔ x = Binary64.ofRat false q ∧ x.isFinite := by
  rw [nearest]
  cases hround : Binary64.ofRat false q with
  | finite s m e hc =>
    constructor
    · intro h
      obtain rfl := Except.ok.inj h
      exact ⟨rfl, rfl⟩
    · rintro ⟨rfl, -⟩
      rfl
  | infinite s =>
    constructor
    · intro h
      cases h
    · rintro ⟨rfl, h⟩
      cases h
  | nan => exact absurd hround (Binary64.ofRat_ne_nan false q)

namespace Requirement

open Binary64

variable {x y z c : Binary64} {level level' between n n' : ℤ} {percent : Quantity}

/-! ### The requirement before the share -/

theorem base_eq_ok : base level = .ok x ↔ ∃ levels : Binary64, levels.isFinite ∧
    levels = ofRat false (level - 3 : ℤ) ∧
      x = Binary64.add (.ofInt 5) (levels.mul (.ofRat false (mkRat 9 4))) := by
  rw [base, bind_eq_ok]
  simp only [Quantity.nearest_eq_ok_iff]
  constructor
  · rintro ⟨levels, ⟨hlevels, hfinite⟩, h⟩
    exact ⟨levels, hfinite, hlevels, (Except.ok.inj h).symm⟩
  · rintro ⟨levels, hfinite, hlevels, rfl⟩
    exact ⟨levels, ⟨hlevels, hfinite⟩, rfl⟩

/-- The levels above the third, rounded. -/
theorem levels_mono (hle : level ≤ level') :
    (ofRat false (level - 3 : ℤ)).Le (ofRat false (level' - 3 : ℤ)) :=
  ofRat_mono (by exact_mod_cast sub_le_sub_right hle 3) false false

theorem base_mono (hle : level ≤ level') (h : base level = .ok x) (h' : base level' = .ok y) :
    x.Le y := by
  obtain ⟨_, hfinite, rfl, rfl⟩ := base_eq_ok.mp h
  obtain ⟨_, hfinite', rfl, rfl⟩ := base_eq_ok.mp h'
  exact add_mono_right rfl (mul_mono_left hfinite hfinite' rfl (by decide) (levels_mono hle))

theorem exists_base (hlow : level ≤ between) (hhigh : between ≤ level') (h : base level = .ok x)
    (h' : base level' = .ok y) : ∃ z, base between = .ok z := by
  obtain ⟨_, hfinite, rfl, -⟩ := base_eq_ok.mp h
  obtain ⟨_, hfinite', rfl, -⟩ := base_eq_ok.mp h'
  have hmiddle := isFinite_of_between hfinite hfinite' (levels_mono hlow) (levels_mono hhigh)
  exact ⟨_, base_eq_ok.mpr ⟨_, hmiddle, rfl, rfl⟩⟩

/-! ### Points -/

/-- A half, which rounds a requirement to the nearest whole number when the whole part is taken. -/
def half : Binary64 :=
  .ofRat false (mkRat 1 2)

/-- Four points on top; fewer than eight count as none. -/
def counted (k : ℤ) : ℤ :=
  if k + 4 < 8 then 0 else k + 4

theorem counted_mono {k k' : ℤ} (h : k ≤ k') : counted k ≤ counted k' := by
  rw [counted, counted]
  split <;> split <;> omega

theorem counted_cases (k : ℤ) : counted k = 0 ∨ 8 ≤ counted k := by
  rw [counted]
  split <;> omega

theorem points_eq_ok : points x = .ok n ↔ (x.add half).isFinite ∧ n = counted ⌊(x.add half).toRat⌋ := by
  rw [points, ← half]
  cases x.add half with
  | finite s m e hc => exact ⟨fun h => ⟨rfl, (Except.ok.inj h).symm⟩, fun h => congrArg Except.ok h.2.symm⟩
  | infinite s => exact iff_of_false nofun fun h => nomatch h.1
  | nan => exact iff_of_false nofun fun h => nomatch h.1

theorem points_mono (hle : x.Le y) (h : points x = .ok n) (h' : points y = .ok n') : n ≤ n' := by
  obtain ⟨hfinite, rfl⟩ := points_eq_ok.mp h
  obtain ⟨hfinite', rfl⟩ := points_eq_ok.mp h'
  refine counted_mono (Int.floor_le_floor ?_)
  exact (le_iff_toRat_le hfinite hfinite').mp (add_mono_left rfl hle)

theorem exists_points_of_between (hxz : x.Le z) (hzy : z.Le y) (h : points x = .ok n)
    (h' : points y = .ok n') : ∃ k, points z = .ok k :=
  ⟨_, points_eq_ok.mpr ⟨isFinite_of_between (points_eq_ok.mp h).1 (points_eq_ok.mp h').1
    (add_mono_left rfl hxz) (add_mono_left rfl hzy), rfl⟩⟩

/-- What a requirement is made from is finite. -/
theorem isFinite_of_points (h : points (x.mul y) = .ok n) : x.isFinite ∧ y.isFinite :=
  isFinite_of_mul (isFinite_of_add (points_eq_ok.mp h).1).1

/-! ### The requirement for a factor -/

/-- The points at a level when the factor for the share is `c`. -/
def withFactor (level : ℤ) (c : Binary64) : Except NumberFault ℤ := do
  points ((← base level).mul c)

theorem withFactor_eq_ok :
    withFactor level c = .ok n ↔ ∃ x, base level = .ok x ∧ points (x.mul c) = .ok n :=
  bind_eq_ok

theorem withFactor_cases (h : withFactor level c = .ok n) : n = 0 ∨ 8 ≤ n := by
  obtain ⟨x, -, hpoints⟩ := withFactor_eq_ok.mp h
  rw [(points_eq_ok.mp hpoints).2]
  exact counted_cases _

/-- With one factor that is not negative, requirements keep the order of the levels. -/
theorem withFactor_le (hc : 0 ≤ c.toRat) (hle : level ≤ level') (h : withFactor level c = .ok n)
    (h' : withFactor level' c = .ok n') : n ≤ n' := by
  obtain ⟨x, hx, hpoints⟩ := withFactor_eq_ok.mp h
  obtain ⟨y, hy, hpoints'⟩ := withFactor_eq_ok.mp h'
  obtain ⟨hfinite, hfactor⟩ := isFinite_of_points hpoints
  obtain ⟨hfinite', -⟩ := isFinite_of_points hpoints'
  exact points_mono (mul_mono_left hfinite hfinite' hfactor hc (base_mono hle hx hy)) hpoints hpoints'

theorem exists_withFactor_of_between (hc : 0 ≤ c.toRat) (hlow : level ≤ between)
    (hhigh : between ≤ level') (h : withFactor level c = .ok n) (h' : withFactor level' c = .ok n') :
    ∃ k, withFactor between c = .ok k := by
  obtain ⟨x, hx, hpoints⟩ := withFactor_eq_ok.mp h
  obtain ⟨y, hy, hpoints'⟩ := withFactor_eq_ok.mp h'
  obtain ⟨z, hz⟩ := exists_base hlow hhigh hx hy
  have hxz := base_mono hlow hx hz
  have hzy := base_mono hhigh hz hy
  obtain ⟨hfinite, hfactor⟩ := isFinite_of_points hpoints
  obtain ⟨hfinite', -⟩ := isFinite_of_points hpoints'
  have hmiddle := isFinite_of_between hfinite hfinite' hxz hzy
  obtain ⟨k, hk⟩ := exists_points_of_between (mul_mono_left hfinite hmiddle hfactor hc hxz)
    (mul_mono_left hmiddle hfinite' hfactor hc hzy) hpoints hpoints'
  exact ⟨k, withFactor_eq_ok.mpr ⟨z, hz, hk⟩⟩

/-! ### The requirement of a level -/

theorem atLevel_eq_ok (hgiven : ¬percent.equalsInt 0) : atLevel level percent = .ok n ↔
    ∃ c, factor percent = .ok c ∧ withFactor level c = .ok n := by
  rw [atLevel, if_neg hgiven, bind_eq_ok]
  simp only [bind_eq_ok, withFactor_eq_ok]
  constructor
  · rintro ⟨x, hx, c, hc, h⟩
    exact ⟨c, hc, x, hx, h⟩
  · rintro ⟨c, hc, x, hx, h⟩
    exact ⟨x, hx, c, hc, h⟩

theorem factor_nonneg (h : factor percent = .ok c) : 0 ≤ c.toRat := by
  rw [factor, bind_eq_ok] at h
  obtain ⟨share, -, h⟩ := h
  exact toRat_nonneg (isNegative_power h)

theorem atLevel_cases (h : atLevel level percent = .ok n) : n = 0 ∨ 8 ≤ n := by
  by_cases hzero : percent.equalsInt 0
  · rw [atLevel, if_pos hzero] at h
    exact Or.inl (Except.ok.inj h).symm
  · obtain ⟨c, -, h⟩ := (atLevel_eq_ok hzero).mp h
    exact withFactor_cases h

theorem atLevel_le (hle : level ≤ level') (h : atLevel level percent = .ok n)
    (h' : atLevel level' percent = .ok n') : n ≤ n' := by
  by_cases hzero : percent.equalsInt 0
  · rw [atLevel, if_pos hzero] at h h'
    exact (Except.ok.inj (h.symm.trans h')).le
  · obtain ⟨c, hc, h⟩ := (atLevel_eq_ok hzero).mp h
    obtain ⟨c', hc', h'⟩ := (atLevel_eq_ok hzero).mp h'
    obtain rfl := Except.ok.inj (hc.symm.trans hc')
    exact withFactor_le (factor_nonneg hc) hle h h'

theorem exists_atLevel_of_between (hlow : level ≤ between) (hhigh : between ≤ level')
    (h : atLevel level percent = .ok n) (h' : atLevel level' percent = .ok n') :
    ∃ k, atLevel between percent = .ok k := by
  by_cases hzero : percent.equalsInt 0
  · exact ⟨0, by rw [atLevel, if_pos hzero]⟩
  · obtain ⟨c, hc, h⟩ := (atLevel_eq_ok hzero).mp h
    obtain ⟨c', hc', h'⟩ := (atLevel_eq_ok hzero).mp h'
    obtain rfl := Except.ok.inj (hc.symm.trans hc')
    obtain ⟨k, hk⟩ := exists_withFactor_of_between (factor_nonneg hc) hlow hhigh h h'
    exact ⟨k, (atLevel_eq_ok hzero).mpr ⟨c, hc, hk⟩⟩

/-- A requirement never decreases with the level, whatever the share, and it is none or at least 8. Between
two levels that have a requirement every level has one. -/
theorem atLevel_mono (hle : level ≤ level') (h : atLevel level percent = .ok n)
    (h' : atLevel level' percent = .ok n') :
    n ≤ n' ∧ (n = 0 ∨ 8 ≤ n) ∧ (n' = 0 ∨ 8 ≤ n') ∧
      ∀ between, level ≤ between → between ≤ level' → ∃ k, atLevel between percent = .ok k :=
  ⟨atLevel_le hle h h', atLevel_cases h, atLevel_cases h',
    fun _ hlow hhigh => exists_atLevel_of_between hlow hhigh h h'⟩

/-- Level 1 needs no points and level 20 needs 47, and level 3 between them has a requirement as well. -/
theorem atLevel_whole_share :
    atLevel 1 (.whole 100) = .ok 0 ∧ atLevel 20 (.whole 100) = .ok 47 ∧ (0 : ℤ) ≤ 47 ∧
      ∃ k, atLevel 3 (.whole 100) = .ok k := by
  have hlow : atLevel 1 (.whole 100) = .ok 0 := by decide +kernel
  have hhigh : atLevel 20 (.whole 100) = .ok 47 := by decide +kernel
  obtain ⟨hle, -, -, hbetween⟩ := atLevel_mono (by decide) hlow hhigh
  exact ⟨hlow, hhigh, hle, hbetween 3 (by decide) (by decide)⟩

end Requirement

end GemScribe
