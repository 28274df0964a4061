import GemScribe.Proofs.Number.Closest
import GemScribe.Proofs.Number.PlainDecimal

/-!
What rounding to decimal places comes to.

The exact value of a number, counted in units of the last place asked for, is taken to a whole number,
halves away from zero, and the result is the number closest to so many units. The sign has no part in
either step, so that rounding is odd. Both steps keep the order, and with them the whole does. Only the
number of digits of the units can be refused.
-/

namespace GemScribe

/-- Rounding away from zero keeps the order. -/
theorem roundAway_mono {q r : ℚ} (h : q ≤ r) : roundAway q ≤ roundAway r := by
  have hfloor : ∀ a : ℚ, 0 ≤ a → 0 ≤ ⌊a + 1 / 2⌋ := fun a ha => Int.floor_nonneg.mpr (by linarith)
  rw [roundAway, roundAway]
  rcases le_or_gt 0 q with hq | hq
  · rw [if_pos hq, if_pos (hq.trans h)]
    exact Int.floor_le_floor (by linarith)
  · rw [if_neg (not_le.mpr hq)]
    rcases le_or_gt 0 r with hr | hr
    · rw [if_pos hr]
      linarith [hfloor r hr, hfloor (-q) (by linarith)]
    · rw [if_neg (not_le.mpr hr)]
      exact neg_le_neg (Int.floor_le_floor (by linarith))

namespace Binary64

variable {x y x' y' : Binary64} {places : ℤ}

/-! ### Signs -/

/-- The number on the other side of zero. -/
def neg : Binary64 → Binary64
  | .finite s m e hc => .finite (!s) m e hc
  | .infinite s => .infinite (!s)
  | .nan => .nan

theorem ofParts_not (negative : Bool) (m : ℕ) (e : ℤ) :
    ofParts (!negative) m e = (ofParts negative m e).neg := by
  rw [ofParts, ofParts]
  split <;> rfl

theorem round_not (negative : Bool) (n d : ℕ) : round (!negative) n d = (round negative n d).neg := by
  rw [round, round]
  dsimp only
  split
  · rfl
  · split <;> exact ofParts_not negative _ _

theorem ofDecimal_not (negative : Bool) (k : ℕ) (s : ℤ) :
    ofDecimal (!negative) k s = (ofDecimal negative k s).neg := by
  rw [ofDecimal_eq_round, ofDecimal_eq_round, round_not]

theorem isNegative_ofDecimal (negative : Bool) (k : ℕ) (s : ℤ) :
    (ofDecimal negative k s).isNegative = negative := by
  rw [ofDecimal_eq_round, isNegative_round]

theorem roundRatio_not (negative : Bool) (n d : ℕ) (places : ℤ) :
    roundRatio (!negative) n d places = (roundRatio negative n d places).map neg := by
  rw [roundRatio, roundRatio]
  split
  · rw [ofDecimal_not]
    rfl
  · rfl

/-- Rounding is odd. -/
theorem neg_roundHalfUp (x : Binary64) (places : ℤ) :
    x.neg.roundHalfUp places = (x.roundHalfUp places).map neg := by
  cases x with
  | finite s m e hc =>
    rw [neg, roundHalfUp, roundHalfUp]
    split
    · rfl
    · exact roundRatio_not s _ _ _
  | infinite s => rfl
  | nan => rfl

/-! ### Units -/

/-- The whole number of units `10^(-places)` nearest to a number, a half going away from zero. -/
def nearestUnits (x : Binary64) (places : ℤ) : ℤ :=
  roundAway (x.toRat * 10 ^ places)

/-- A finite number is rounded to the number closest to its units, with its sign, unless they have more
digits than are kept. -/
theorem roundHalfUp_of_isFinite (hplaces : |places| ≤ 1000) (hx : x.isFinite) :
    (|x.nearestUnits places| < 10 ^ roundingDigits → ∃ y, x.roundHalfUp places = .ok y ∧
      y.isNegative = x.isNegative ∧ Closest (x.nearestUnits places * 10 ^ (-places)) y) ∧
    (10 ^ roundingDigits ≤ |x.nearestUnits places| →
      x.roundHalfUp places = .error .tooManyDigits) := by
  obtain ⟨k, hunits, hround⟩ := exists_roundHalfUp hx (checkPlaces_of_abs_le hplaces)
  rw [← nearestUnits] at hunits
  have habs : |x.nearestUnits places| = k := by
    rw [hunits]
    cases x.isNegative <;> simp
  have hbound : |x.nearestUnits places| < 10 ^ roundingDigits ↔ k < tenPow roundingDigits := by
    rw [habs, tenPow_eq]
    exact_mod_cast Iff.rfl
  constructor
  · intro hk
    refine ⟨_, hround.trans (if_pos (hbound.mp hk)), isNegative_ofDecimal _ _ _, ?_⟩
    have hclosest := closest_ofDecimal x.isNegative k (-places)
    rw [← mul_assoc] at hclosest
    rw [hunits]
    convert hclosest
    cases x.isNegative <;> simp [sign]
  · intro hk
    rw [hround, if_neg]
    rwa [← hbound, not_lt]

theorem roundHalfUp_of_not_isFinite (hx : ¬x.isFinite) (places : ℤ) :
    x.roundHalfUp places = .ok x := by
  cases x with
  | finite s m e hc => exact absurd rfl hx
  | infinite s => rfl
  | nan => rfl

/-! ### Order -/

theorem closest_of_roundHalfUp (hplaces : |places| ≤ 1000) (hx : x.isFinite)
    (h : x.roundHalfUp places = .ok x') : Closest (x.nearestUnits places * 10 ^ (-places)) x' := by
  obtain ⟨hfew, hmany⟩ := roundHalfUp_of_isFinite hplaces hx
  rcases lt_or_ge |x.nearestUnits places| (10 ^ roundingDigits) with hlt | hge
  · obtain ⟨y, hy, -, hclosest⟩ := hfew hlt
    rwa [Except.ok.inj (h.symm.trans hy)]
  · rw [hmany hge] at h
    cases h

theorem roundHalfUp_ne_nan (hplaces : |places| ≤ 1000) (hx : x ≠ nan)
    (h : x.roundHalfUp places = .ok x') : x' ≠ nan := by
  by_cases hfinite : x.isFinite
  · exact (closest_of_roundHalfUp hplaces hfinite h).ne_nan
  · rw [roundHalfUp_of_not_isFinite hfinite] at h
    rwa [← Except.ok.inj h]

/-- Rounding keeps the order. -/
theorem roundHalfUp_mono (hplaces : |places| ≤ 1000) (hle : x.Le y)
    (hx : x.roundHalfUp places = .ok x') (hy : y.roundHalfUp places = .ok y') : x'.Le y' := by
  rcases hle.cases with ⟨hx₀, hy₀⟩ | ⟨rfl, hy₀⟩ | ⟨hx₀, rfl⟩
  · refine (closest_of_roundHalfUp hplaces hx₀ hx).mono (closest_of_roundHalfUp hplaces hy₀ hy) ?_
    have htoRat := (le_iff_toRat_le hx₀ hy₀).mp hle
    have hunits : x.nearestUnits places ≤ y.nearestUnits places := roundAway_mono (by gcongr)
    gcongr
  · obtain rfl := Except.ok.inj hx
    exact infinite_le (roundHalfUp_ne_nan hplaces hy₀ hy)
  · obtain rfl := Except.ok.inj hy
    exact le_infinite (roundHalfUp_ne_nan hplaces hx₀ hx)

/-- Rounding half up, exactly: up to 28 digits a finite number is rounded to the number closest to its
nearest units, with its sign, and beyond them it is refused. Infinities and nan stay. Rounding is odd, and
keeps the order. -/
theorem roundHalfUp_exact (hplaces : |places| ≤ 1000) :
    (∀ x : Binary64, x.isFinite →
      (|x.nearestUnits places| < 10 ^ 28 → ∃ y, x.roundHalfUp places = .ok y ∧
        y.isNegative = x.isNegative ∧ Closest (x.nearestUnits places * 10 ^ (-places)) y) ∧
      (10 ^ 28 ≤ |x.nearestUnits places| → x.roundHalfUp places = .error .tooManyDigits)) ∧
    (∀ x : Binary64, ¬x.isFinite → x.roundHalfUp places = .ok x) ∧
    (∀ x : Binary64, x.neg.roundHalfUp places = (x.roundHalfUp places).map neg) ∧
    ∀ x y x' y' : Binary64, x.Le y → x.roundHalfUp places = .ok x' → y.roundHalfUp places = .ok y' →
      x'.Le y' :=
  ⟨fun _ hx => roundHalfUp_of_isFinite hplaces hx,
    fun _ hx => roundHalfUp_of_not_isFinite hx places,
    fun x => neg_roundHalfUp x places,
    fun _ _ _ _ hle hx hy => roundHalfUp_mono hplaces hle hx hy⟩

/-- An eighth. -/
def eighth : Binary64 :=
  .finite false 4503599627370496 (-55) (by decide)

theorem roundHalfUp_eighth : |(2 : ℤ)| ≤ 1000 ∧ ∃ y, eighth.roundHalfUp 2 = .ok y ∧
    eighth.neg.roundHalfUp 2 = .ok y.neg ∧ Closest (13 * 10 ^ (-2 : ℤ)) y := by
  have hplaces : |(2 : ℤ)| ≤ 1000 := by decide
  have hvalue : eighth.toRat = 1 / 8 := by
    rw [eighth, toRat_eq_sign]
    norm_num [sign]
  have hunits : eighth.nearestUnits 2 = 13 := by
    rw [nearestUnits, hvalue, roundAway, if_pos (by norm_num), Int.floor_eq_iff]
    norm_num
  obtain ⟨hfinite, -, hneg, -⟩ := roundHalfUp_exact hplaces
  obtain ⟨y, hround, -, hclosest⟩ := (hfinite eighth rfl).1 (by rw [hunits]; decide)
  rw [hunits] at hclosest
  refine ⟨hplaces, y, hround, ?_, by exact_mod_cast hclosest⟩
  rw [hneg, hround]
  rfl

end Binary64

end GemScribe
