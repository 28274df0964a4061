import GemScribe.Proofs.Number.Written

/-!
Numbers rounded to a few decimal places are shown without noise.

A number below `10^14` units of a decimal place is nearer to the number that reads from it than a tenth
of a unit. So is every decimal that names this number on the next finer grid, where two points are a
tenth of a unit apart, and there is only one such point. The shortest digits are therefore those of the
rounded number itself, and are written in plain notation.
-/

namespace GemScribe

/-! ### Rounding away from zero -/

/-- The whole number nearest to `q`, a half going away from zero. -/
def roundAway (q : ℚ) : ℤ :=
  if 0 ≤ q then ⌊q + 1 / 2⌋ else -⌊-q + 1 / 2⌋

/-- `q` rounded to decimal places, a half going away from zero. -/
def roundPlaces (places : ℕ) (q : ℚ) : ℚ :=
  roundAway (q * 10 ^ places) / 10 ^ places

theorem roundAway_neg (q : ℚ) : roundAway (-q) = -roundAway q := by
  have hzero : ⌊(1 / 2 : ℚ)⌋ = 0 := Int.floor_eq_iff.mpr (by norm_num)
  rcases lt_trichotomy q 0 with h | rfl | h
  · rw [roundAway, roundAway, if_pos (by linarith), if_neg (not_le.mpr h), neg_neg]
  · rw [neg_zero, roundAway, if_pos le_rfl, zero_add, hzero, neg_zero]
  · rw [roundAway, roundAway, if_neg (by linarith), if_pos h.le, neg_neg]

/-- The whole number within less than a half is the nearest one. -/
theorem roundAway_eq_of_near {q : ℚ} {i : ℤ} (h : |q - i| < 1 / 2) : roundAway q = i := by
  obtain ⟨hlow, hhigh⟩ := abs_lt.mp h
  rw [roundAway]
  split
  · rw [Int.floor_eq_iff]
    constructor <;> linarith
  · rw [neg_eq_iff_eq_neg, Int.floor_eq_iff]
    push_cast
    constructor <;> linarith

theorem abs_roundAway_le (q : ℚ) : |(roundAway q : ℚ)| ≤ |q| + 1 / 2 := by
  have hfloor : ∀ r : ℚ, 0 ≤ r → |((⌊r + 1 / 2⌋ : ℤ) : ℚ)| ≤ r + 1 / 2 := by
    intro r hr
    have hnonneg : (0 : ℚ) ≤ (⌊r + 1 / 2⌋ : ℤ) := by
      exact_mod_cast Int.floor_nonneg.mpr (by linarith)
    rw [abs_of_nonneg hnonneg]
    exact Int.floor_le _
  rw [roundAway]
  split
  · next h =>
    rw [abs_of_nonneg h]
    exact hfloor q h
  · next h =>
    rw [not_le] at h
    rw [abs_of_neg h, Int.cast_neg, abs_neg]
    exact hfloor (-q) (by linarith)

theorem nearestUp_eq_floor (n : ℕ) {d : ℕ} (hd : 0 < d) :
    (nearestUp n d : ℤ) = ⌊(n : ℚ) / d + 1 / 2⌋ := by
  have hd' : (d : ℚ) ≠ 0 := by positivity
  have hsum : (n : ℚ) / d + 1 / 2 = ((2 * n + d : ℕ) : ℚ) / (2 * d : ℕ) := by
    push_cast
    field_simp
  rw [nearestUp, ← Nat.floor_div_eq_div (K := ℚ), hsum, Int.natCast_floor_eq_floor (by positivity)]

namespace Binary64

variable {m n p : ℕ} {e : ℤ} {hc : Canonical m e}

theorem checkPlaces_of_abs_le {places : ℤ} (h : |places| ≤ 1000) : checkPlaces places = .ok () := by
  obtain ⟨hlow, hhigh⟩ := abs_le.mp h
  rw [checkPlaces, if_neg (by omega), if_neg (by omega)]

/-- A number is rounded to the decimal of its units, away from zero, unless that takes more digits than
are kept. -/
theorem exists_roundHalfUp {x : Binary64} (hx : x.isFinite) {places : ℤ}
    (hplaces : checkPlaces places = .ok ()) : ∃ k : ℕ,
    roundAway (x.toRat * 10 ^ places) = (if x.isNegative then -1 else 1) * k ∧
      x.roundHalfUp places = if k < tenPow roundingDigits then
        .ok (ofDecimal x.isNegative k (-places)) else .error .tooManyDigits := by
  cases x with
  | finite s m e hc =>
    have hunits := scaled_div (numerator m e) (denominator e) places
    rw [numerator_div_denominator] at hunits
    have haway := nearestUp_eq_floor (numerator m e * tenPow places.toNat)
      (Nat.mul_pos (denominator_pos e) (tenPow_pos (-places).toNat))
    rw [hunits] at haway
    refine ⟨nearestUp (numerator m e * tenPow places.toNat)
      (denominator e * tenPow (-places).toNat), ?_, ?_⟩
    · have hround : roundAway (m * 2 ^ e * 10 ^ places) =
          ⌊(m * 2 ^ e * 10 ^ places : ℚ) + 1 / 2⌋ := if_pos (by positivity)
      rw [haway, ← hround, toRat_finite, isNegative]
      cases s
      · simp
      · rw [if_pos rfl, if_pos rfl, neg_one_mul, neg_one_mul, neg_mul, roundAway_neg]
    · rw [roundHalfUp, hplaces]
      rfl
  | infinite s => cases hx
  | nan => cases hx

/-! ### No noise -/

/-- The unit of the grid that is ten times as fine as `p` decimal places. -/
def fineUnit (p : ℕ) : ℚ :=
  10 ^ (-(p + 1 : ℕ) : ℤ)

theorem fineUnit_pos (p : ℕ) : 0 < fineUnit p := by
  unfold fineUnit
  positivity

theorem decimal_eq_fineUnit (n p : ℕ) : (n * 10 ^ (-p : ℤ) : ℚ) = (10 * n : ℕ) * fineUnit p := by
  have hunit : (10 : ℚ) ^ (-p : ℤ) = 10 * fineUnit p := by
    rw [fineUnit, ← zpow_one_add₀ (by norm_num)]
    congr 1
    push_cast
    ring
  rw [hunit]
  push_cast
  ring

theorem one_le_fineUnit (hp : p ≤ 3) : (1 : ℚ) ≤ 10 ^ 4 * fineUnit p := by
  rw [fineUnit, ← zpow_natCast, ← zpow_add₀ (by norm_num)]
  exact one_le_zpow₀ (by norm_num) (by push_cast; omega)

/-- Two multiples of a unit that are less than a unit apart are the same. -/
theorem eq_of_units {a b : ℕ} {u : ℚ} (hu : 0 < u) (h : |a * u - b * u| < u) : a = b := by
  rw [← sub_mul, abs_mul, abs_of_pos hu, mul_lt_iff_lt_one_left hu, abs_lt] at h
  have hlow : (b : ℚ) < (a + 1 : ℕ) := by
    push_cast
    linarith
  have hhigh : (a : ℚ) < (b + 1 : ℕ) := by
    push_cast
    linarith
  rw [Nat.cast_lt] at hlow hhigh
  omega

theorem decimal_le_fineUnit (hn : n < 10 ^ 14) (p : ℕ) :
    (n * 10 ^ (-p : ℤ) : ℚ) ≤ 10 ^ 15 * fineUnit p := by
  have hu := fineUnit_pos p
  rw [decimal_eq_fineUnit]
  gcongr
  exact_mod_cast (by omega : 10 * n ≤ 10 ^ 15)

theorem ten_fineUnit_le (hpos : 0 < n) (p : ℕ) : 10 * fineUnit p ≤ n * 10 ^ (-p : ℤ) := by
  have hu := fineUnit_pos p
  rw [decimal_eq_fineUnit]
  gcongr
  exact_mod_cast (by omega : 10 ≤ 10 * n)

section reads

variable (hn : n < 10 ^ 14) (hp : p ≤ 3)

include hn hp

/-- The number that reads from a decimal with few units is within an eighth of a fine unit of it. -/
theorem abs_sub_decimal_le {negative : Bool}
    (h : ofDecimal negative n (-p) = finite negative m e hc) :
    |(m * 2 ^ e : ℚ) - n * 10 ^ (-p : ℤ)| ≤ fineUnit p / 8 := by
  have hu := fineUnit_pos p
  have hone := one_le_fineUnit hp
  have hvalue := decimal_le_fineUnit hn p
  have hmax : max (n * 10 ^ (-p : ℤ) : ℚ) 1 ≤ 10 ^ 15 * fineUnit p := max_le hvalue (by linarith)
  refine le_trans (abs_decimal_sub_le h) ?_
  linarith

variable (h : ofDecimal false n (-p) = finite false m e hc)

include h

/-- It is whole only when the decimal is. -/
theorem decimal_eq_of_whole {k : ℕ} (hk : (m * 2 ^ e : ℚ) = k) : (n * 10 ^ (-p : ℤ) : ℚ) = k := by
  have hu := fineUnit_pos p
  have hunits : (k : ℚ) = (k * 10 ^ (p + 1) : ℕ) * fineUnit p := by
    rw [fineUnit, zpow_neg, zpow_natCast]
    push_cast
    field_simp
  have hnear := abs_sub_decimal_le hn hp h
  rw [hk, hunits, decimal_eq_fineUnit] at hnear
  have heq : k * 10 ^ (p + 1) = 10 * n := by
    refine eq_of_units hu (lt_of_le_of_lt hnear ?_)
    linarith
  rw [decimal_eq_fineUnit, ← heq, ← hunits]

/-- The decimal of its shortest digits is within half a fine unit of it. -/
theorem Spells.abs_sub_le {g : ℕ} {s : ℤ} (hspells : Spells m e hc g s) :
    |(m * 2 ^ e : ℚ) - g * 10 ^ s| ≤ fineUnit p / 2 := by
  have hu := fineUnit_pos p
  have hone := one_le_fineUnit hp
  have hvalue := decimal_le_fineUnit hn p
  have hhigh := (abs_le.mp (abs_sub_decimal_le hn hp h)).2
  have hspelled := abs_decimal_sub_le hspells.reads
  refine le_trans hspelled ?_
  rcases le_total (g * 10 ^ s : ℚ) 1 with hle | hge
  · rw [max_eq_right hle]
    linarith
  · rw [max_eq_left hge] at hspelled ⊢
    linarith [(abs_le.mp hspelled).1]

variable (hpos : 0 < n)

include hpos

theorem fineUnit_lt_value : 9 * fineUnit p < m * 2 ^ e := by
  have hu := fineUnit_pos p
  have hten := ten_fineUnit_le hpos p
  have hlow := (abs_le.mp (abs_sub_decimal_le hn hp h)).1
  linarith

theorem ne_zero_of_decimal : m ≠ 0 := by
  rintro rfl
  have hlt := fineUnit_lt_value hn hp h hpos
  rw [Nat.cast_zero, zero_mul] at hlt
  linarith [fineUnit_pos p]

/-- The search for its shortest digits ends on the fine grid at the latest. -/
theorem Spells.neg_succ_le {g : ℕ} {s : ℤ} (hspells : Spells m e hc g s) : -(p + 1 : ℕ) ≤ s := by
  have hu := fineUnit_pos p
  have hlt := fineUnit_lt_value hn hp h hpos
  by_contra hs
  refine hspells.first (10 * n) (-(p + 1 : ℕ)) (not_le.mp hs) ?_ ?_ ?_
  · have hplace : fineUnit p < 10 ^ place m e :=
      lt_of_le_of_lt (by linarith) (place_spec (ne_zero_of_decimal hn hp h hpos) e).2
    rwa [fineUnit, zpow_lt_zpow_iff_right₀ (by norm_num)] at hplace
  · rw [← fineUnit, ← decimal_eq_fineUnit, abs_sub_comm]
    linarith [abs_sub_decimal_le hn hp h]
  · rw [← h]
    exact ofDecimal_congr (decimal_eq_fineUnit n p).symm false

/-- Its shortest digits are those of the decimal. -/
theorem value_shortest_of_decimal : (shortest m e).value = n * 10 ^ (-p : ℤ) := by
  obtain ⟨g, s, hspells, hshortest⟩ := exists_spells (ne_zero_of_decimal hn hp h hpos) hc
  have hfine := hspells.neg_succ_le hn hp h hpos
  obtain ⟨t, ht⟩ := Int.eq_ofNat_of_zero_le (by omega : 0 ≤ s + (p + 1 : ℕ))
  have hfound : (g * 10 ^ s : ℚ) = (g * 10 ^ t : ℕ) * fineUnit p := by
    have hs : s = (t : ℕ) + -(p + 1 : ℕ) := by omega
    rw [hs, zpow_add₀ (by norm_num), zpow_natCast, fineUnit]
    push_cast
    ring
  have hnear := abs_sub_decimal_le hn hp h
  have hnear' := hspells.abs_sub_le hn hp h
  rw [hshortest, value_of_natText, hfound, decimal_eq_fineUnit]
  rw [decimal_eq_fineUnit] at hnear
  rw [hfound] at hnear'
  have heq : g * 10 ^ t = 10 * n := by
    have hu := fineUnit_pos p
    obtain ⟨hlow, hhigh⟩ := abs_le.mp hnear
    obtain ⟨hlow', hhigh'⟩ := abs_le.mp hnear'
    refine eq_of_units hu ?_
    rw [abs_lt]
    constructor <;> linarith
  rw [heq]

end reads

end Binary64

/-! ### Plain notation -/

/-- The whole digits and the fraction of a number: as many places as there may be at most, and no zero
at the end. -/
structure PlainParts (places : ℕ) (q : ℚ) (whole : ℕ) (fraction : Text) : Prop where
  digits : ∀ c ∈ fraction, c ∈ "0123456789".toList
  short : fraction.length ≤ places
  last : fraction.getLast? ≠ some '0'
  value : whole + Text.digitsValue fraction / 10 ^ fraction.length = |q|

/-- The plain decimal notation of a number: a minus sign when it is negative, the whole digits, and a
point and a fraction when it is not whole. -/
def PlainNotation (places : ℕ) (q : ℚ) (t : Text) : Prop :=
  ∃ whole fraction, PlainParts places q whole fraction ∧
    t = (if q < 0 then ['-'] else []) ++ natText whole ++
      (if fraction = [] then [] else '.' :: fraction)

/-- Digits that do not end in a zero write no multiple of ten. -/
theorem not_ten_dvd_digitsValue {t : Text} (hdigits : ∀ c ∈ t, c ∈ "0123456789".toList) (hne : t ≠ [])
    (hlast : t.getLast? ≠ some '0') : ¬10 ∣ Text.digitsValue t := by
  induction t using List.reverseRecOn with
  | nil => exact absurd rfl hne
  | append_singleton t c _ =>
    have hc := hdigits c (by simp)
    have hlt := digitValue_lt_ten hc
    have hpos := digitValue_pos hc (by simpa using hlast)
    rw [digitsValue_concat]
    omega

/-- A fraction of so many units has no more places. -/
theorem length_le_of_value {t : Text} {whole n p : ℕ} (hdigits : ∀ c ∈ t, c ∈ "0123456789".toList)
    (hne : t ≠ []) (hlast : t.getLast? ≠ some '0')
    (h : (whole + Text.digitsValue t / 10 ^ t.length : ℚ) = n * 10 ^ (-p : ℤ)) : t.length ≤ p := by
  by_contra hlt
  obtain ⟨k, hk⟩ := Nat.exists_eq_add_of_lt (not_le.mp hlt)
  have hvalue : whole * 10 ^ t.length + Text.digitsValue t = n * 10 ^ (k + 1) := by
    rw [zpow_neg, zpow_natCast, hk, add_assoc, pow_add] at h
    field_simp at h
    have hcast : ((whole * 10 ^ t.length + Text.digitsValue t : ℕ) : ℚ) = (n * 10 ^ (k + 1) : ℕ) := by
      rw [hk, add_assoc, pow_add]
      push_cast
      linarith
    exact_mod_cast hcast
  have hten : 10 ∣ whole * 10 ^ t.length + Text.digitsValue t := by
    rw [hvalue, pow_succ, ← mul_assoc]
    exact Nat.dvd_mul_left 10 _
  rw [Nat.dvd_add_right] at hten
  · exact not_ten_dvd_digitsValue hdigits hne hlast hten
  · rw [hk, pow_succ, ← mul_assoc]
    exact Nat.dvd_mul_left 10 _

theorem plainNotation_intText (places : ℕ) (i : ℤ) : PlainNotation places i (intText i) := by
  refine ⟨i.natAbs, [], ⟨by simp, Nat.zero_le _, by simp, ?_⟩, ?_⟩
  · rw [digitsValue_nil, Nat.cast_zero, zero_div, add_zero, Nat.cast_natAbs, Int.cast_abs]
  · rw [if_pos rfl, List.append_nil, intText]
    simp only [Int.cast_lt_zero]
    split <;> rfl

namespace Binary64

theorem exists_finite_of_decimal {n : ℕ} (hn : n < 10 ^ 14) (p : ℕ) (negative : Bool) :
    ∃ m e hc, ofDecimal negative n (-p) = finite negative m e hc := by
  have hlt : n < tenPow roundingDigits :=
    lt_trans hn (Nat.pow_lt_pow_right (by decide) (by decide : 14 < roundingDigits))
  have hfinite := isFinite_ofDecimal hlt negative (Int.natCast_nonneg p)
  have hsign := isNegative_round negative (n * tenPow (-(p : ℤ)).toNat) (tenPow (- -(p : ℤ)).toNat)
  rw [← ofDecimal_eq_round] at hsign
  cases hx : ofDecimal negative n (-p) with
  | finite s m e hc =>
    rw [hx] at hsign
    exact ⟨m, e, hc, by rw [← hsign, isNegative]⟩
  | infinite s =>
    rw [hx] at hfinite
    cases hfinite
  | nan =>
    rw [hx] at hfinite
    cases hfinite

/-- The sign and the units of a rounded number. -/
def signedUnits (negative : Bool) (n p : ℕ) : ℚ :=
  (if negative then -1 else 1) * (n * 10 ^ (-p : ℤ))

theorem abs_signedUnits (negative : Bool) (n p : ℕ) : |signedUnits negative n p| = n * 10 ^ (-p : ℤ) := by
  rw [signedUnits, abs_mul, abs_of_nonneg (a := (n * 10 ^ (-p : ℤ) : ℚ)) (by positivity)]
  cases negative <;> simp

theorem signedUnits_neg_iff {n : ℕ} (hpos : 0 < n) (negative : Bool) (p : ℕ) :
    signedUnits negative n p < 0 ↔ negative := by
  have hlt : (0 : ℚ) < n * 10 ^ (-p : ℤ) := by positivity
  rw [signedUnits]
  cases negative
  · simp
  · simpa using hlt

/-- A decimal with few units names a whole number when it is whole. -/
theorem toInt?_ne_none_of_decimal {m n p k : ℕ} {e : ℤ} {hc : Canonical m e} {negative : Bool}
    (hn : n < 10 ^ 14) (h : ofDecimal negative n (-p) = finite negative m e hc)
    (hk : (n * 10 ^ (-p : ℤ) : ℚ) = k) : (finite negative m e hc).toInt? ≠ none := by
  have hle : (k : ℚ) ≤ n := by
    rw [← hk]
    exact mul_le_of_le_one_right (by positivity) (zpow_le_one_of_nonpos₀ (by norm_num) (by omega))
  rw [Nat.cast_le] at hle
  have hbound : k < mantissaBound := by
    rw [mantissaBound]
    omega
  have hexact : (finite negative m e hc).toRat = ((if negative then -k else k : ℤ) : ℚ) := by
    rw [toRat_finite, value_of_ofDecimal h hbound hk]
    split <;> simp
  rw [(toInt?_eq_some_iff rfl).mpr hexact]
  exact Option.some_ne_none _

/-- The number that reads from a decimal with few units is shown in plain notation. -/
theorem plainNotation_ofDecimal {n p : ℕ} (hn : n < 10 ^ 14) (hp : p ≤ 3) (negative : Bool) :
    PlainNotation p (signedUnits negative n p) (ofDecimal negative n (-p)).display := by
  rcases Nat.eq_zero_or_pos n with rfl | hpos
  · have hzero : (zero negative).toRat = (0 : ℤ) := (toRat_zero negative).trans Int.cast_zero.symm
    have hvalue : signedUnits negative 0 p = (0 : ℤ) := by
      rw [signedUnits]
      simp
    rw [ofDecimal, if_pos rfl, display_of_toRat rfl hzero, hvalue]
    exact plainNotation_intText p 0
  obtain ⟨m, e, hc, hread⟩ := exists_finite_of_decimal hn p negative
  have hread' := ofDecimal_sign hread false
  rw [hread]
  cases hint : (finite negative m e hc).toInt? with
  | some i =>
    have htoRat := (toInt?_eq_some_iff rfl).mp hint
    have habs : (m * 2 ^ e : ℚ) = i.natAbs := by
      rw [← abs_toRat_finite negative m e hc, htoRat, Nat.cast_natAbs, Int.cast_abs]
    have hvalue : signedUnits negative n p = i := by
      rw [signedUnits, decimal_eq_of_whole hn hp hread' habs, ← habs,
        ← toRat_finite negative m e hc, htoRat]
    rw [display_of_toRat rfl htoRat, hvalue]
    exact plainNotation_intText p i
  | none =>
    have hlow : (10 : ℚ) ^ (-4 : ℤ) ≤ m * 2 ^ e := by
      have hone := one_le_fineUnit hp
      have hlt := fineUnit_lt_value hn hp hread' hpos
      norm_num
      linarith
    obtain ⟨whole, places, hdisplay, hfraction⟩ := exists_display_fraction hint hlow
    have hvalue := hfraction.value
    rw [value_shortest_of_decimal hn hp hread' hpos] at hvalue
    -- a fraction that says nothing would make the number whole
    have hlast : places.getLast? ≠ some '0' := by
      intro hlast
      have hzero : Text.digitsValue ['0'] = 0 := digitsValue_replicate_zero 1
      rw [hfraction.last hlast, hzero, Nat.cast_zero, zero_div, add_zero] at hvalue
      exact toInt?_ne_none_of_decimal hn hread hvalue.symm hint
    refine ⟨whole, places, ⟨hfraction.digits, ?_, hlast, by rw [abs_signedUnits, hvalue]⟩, ?_⟩
    · exact length_le_of_value hfraction.digits hfraction.ne_nil hlast hvalue
    · rw [hdisplay, if_neg hfraction.ne_nil, ← List.append_assoc]
      simp only [signedUnits_neg_iff hpos]

end Binary64

end GemScribe
