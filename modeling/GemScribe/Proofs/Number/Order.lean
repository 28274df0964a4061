import GemScribe.Proofs.Number.Closest

/-!
Arithmetic and the order of numbers.

An operation on finite numbers is the exact operation with one rounding after it, and rounding keeps the
order. So a sum keeps the order of its second terms, and a product with a number that is not negative that
of its first factors. What a finite result is calculated from is finite, and so is what lies between two
finite numbers.
-/

namespace GemScribe

namespace Binary64

variable {x y z : Binary64} {q r : ℚ}

/-! ### Rounded rationals -/

theorem sign_mul_abs (q : ℚ) : sign (decide (q.num < 0)) * |q| = q := by
  rcases lt_or_ge q 0 with hneg | hnonneg
  · rw [decide_eq_true (Rat.num_neg.mpr hneg), abs_of_neg hneg, sign, if_pos rfl, neg_one_mul, neg_neg]
  · rw [decide_eq_false (by rwa [not_lt, Rat.num_nonneg]), abs_of_nonneg hnonneg, sign,
      if_neg Bool.false_ne_true, one_mul]

/-- A rational is rounded to the number closest to it. -/
theorem closest_ofRat (negativeZero : Bool) (q : ℚ) : Closest q (ofRat negativeZero q) := by
  rw [ofRat]
  split
  · next hzero =>
    have hclosest := closest_round negativeZero 0 Nat.one_pos
    rwa [Nat.cast_zero, zero_div, mul_zero, ← Rat.num_eq_zero.mp hzero] at hclosest
  · have hclosest := closest_round (decide (q.num < 0)) q.num.natAbs q.pos
    rwa [natAbs_num_div_den, sign_mul_abs] at hclosest

theorem ofRat_mono (h : q ≤ r) (s s' : Bool) : (ofRat s q).Le (ofRat s' r) :=
  (closest_ofRat s q).mono (closest_ofRat s' r) h

theorem ofRat_ne_nan (s : Bool) (q : ℚ) : ofRat s q ≠ nan :=
  (closest_ofRat s q).ne_nan

/-! ### Finite numbers -/

theorem isFinite_of_between (hx : x.isFinite) (hz : z.isFinite) (h : x.Le y) (h' : y.Le z) :
    y.isFinite := by
  rcases h.cases with ⟨-, hy⟩ | ⟨rfl, -⟩ | ⟨-, rfl⟩
  · exact hy
  · cases hx
  · rcases h'.cases with ⟨hy, -⟩ | ⟨hy, -⟩ | ⟨-, rfl⟩
    · exact hy
    · cases hy
    · cases hz

/-- A finite sum has finite terms: a sum with an infinity is one too, or nan. -/
theorem isFinite_of_add (h : (x.add y).isFinite) : x.isFinite ∧ y.isFinite := by
  cases x with
  | finite s m e hc =>
    cases y with
    | finite s' m' e' hc' => exact ⟨rfl, rfl⟩
    | infinite s' => cases h
    | nan => cases h
  | infinite s =>
    cases y with
    | finite s' m' e' hc' => cases h
    | infinite s' =>
      rw [add] at h
      split at h <;> cases h
    | nan => cases h
  | nan => cases y <;> cases h

/-- A finite product has finite factors: a product with an infinity is one too, or nan. -/
theorem isFinite_of_mul (h : (x.mul y).isFinite) : x.isFinite ∧ y.isFinite := by
  cases x with
  | finite s m e hc =>
    cases y with
    | finite s' m' e' hc' => exact ⟨rfl, rfl⟩
    | infinite s' =>
      rw [mul] at h
      split at h <;> cases h
    | nan => cases h
  | infinite s =>
    cases y with
    | finite s' m' e' hc' =>
      rw [mul] at h
      split at h <;> cases h
    | infinite s' => cases h
    | nan => cases h
  | nan => cases y <;> cases h

/-! ### Sums and products -/

theorem add_comm (x y : Binary64) : x.add y = y.add x := by
  cases x with
  | finite s m e hc =>
    cases y with
    | finite s' m' e' hc' => rw [add, add, Bool.and_comm, Rat.add_comm]
    | infinite s' => rfl
    | nan => rfl
  | infinite s =>
    cases y with
    | finite s' m' e' hc' => rfl
    | infinite s' => cases s <;> cases s' <;> rfl
    | nan => rfl
  | nan => cases y <;> rfl

theorem exists_add_eq (hx : x.isFinite) (hy : y.isFinite) :
    ∃ s, x.add y = ofRat s (x.toRat + y.toRat) := by
  cases x with
  | finite s m e hc =>
    cases y with
    | finite s' m' e' hc' => exact ⟨s && s', rfl⟩
    | infinite s' => cases hy
    | nan => cases hy
  | infinite s => cases hx
  | nan => cases hx

theorem exists_mul_eq (hx : x.isFinite) (hy : y.isFinite) :
    ∃ s, x.mul y = ofRat s (x.toRat * y.toRat) := by
  cases x with
  | finite s m e hc =>
    cases y with
    | finite s' m' e' hc' => exact ⟨s ^^ s', rfl⟩
    | infinite s' => cases hy
    | nan => cases hy
  | infinite s => cases hx
  | nan => cases hx

theorem add_infinite (hx : x.isFinite) (s : Bool) : x.add (infinite s) = infinite s := by
  cases x with
  | finite s' m e hc => rfl
  | infinite s' => cases hx
  | nan => cases hx

theorem add_ne_nan (hx : x.isFinite) (hy : y ≠ nan) : x.add y ≠ nan := by
  cases y with
  | finite s m e hc =>
    obtain ⟨s', hs'⟩ := exists_add_eq (y := finite s m e hc) hx rfl
    rw [hs']
    exact ofRat_ne_nan _ _
  | infinite s =>
    rw [add_infinite hx]
    exact infinite_ne_nan
  | nan => exact absurd rfl hy

/-- A sum keeps the order of its second terms, which may be infinite. -/
theorem add_mono_right (hz : z.isFinite) (h : x.Le y) : (z.add x).Le (z.add y) := by
  rcases h.cases with ⟨hx, hy⟩ | ⟨rfl, hy⟩ | ⟨hx, rfl⟩
  · obtain ⟨s, hs⟩ := exists_add_eq hz hx
    obtain ⟨s', hs'⟩ := exists_add_eq hz hy
    rw [hs, hs']
    exact ofRat_mono (add_le_add_right ((le_iff_toRat_le hx hy).mp h) z.toRat) s s'
  · rw [add_infinite hz]
    exact infinite_le (add_ne_nan hz hy)
  · rw [add_infinite hz]
    exact le_infinite (add_ne_nan hz hx)

theorem add_mono_left (hz : z.isFinite) (h : x.Le y) : (x.add z).Le (y.add z) := by
  rw [add_comm x, add_comm y]
  exact add_mono_right hz h

/-- A product with a number that is not negative keeps the order of its first factors. -/
theorem mul_mono_left (hx : x.isFinite) (hy : y.isFinite) (hz : z.isFinite) (hnonneg : 0 ≤ z.toRat)
    (h : x.Le y) : (x.mul z).Le (y.mul z) := by
  obtain ⟨s, hs⟩ := exists_mul_eq hx hz
  obtain ⟨s', hs'⟩ := exists_mul_eq hy hz
  rw [hs, hs']
  exact ofRat_mono (mul_le_mul_of_nonneg_right ((le_iff_toRat_le hx hy).mp h) hnonneg) s s'

end Binary64

end GemScribe
