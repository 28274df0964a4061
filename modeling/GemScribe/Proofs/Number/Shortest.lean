import GemScribe.Proofs.Number.Nearest
import GemScribe.Proofs.Number.Significand
import Mathlib.Algebra.Order.Floor.Semifield
import Mathlib.Data.List.DropRight
import Mathlib.Data.Rat.Floor

/-!
The shortest digits of a number are read back as the number.

The search tries the decimal grids from the coarsest on and ends at the first one with a neighbour that
reads back. If none of sixteen grids has one, the nearest point of the seventeenth reads back, since its
step is less than the distance between two numbers. The digits found lie between the two powers of ten
around the number, so that the point of the shortest digits stands where the number does, but for a
number just below a power of ten that rounds to it.
-/

namespace GemScribe

namespace Binary64

variable {m n d g k : ℕ} {e s : ℤ}

/-! ### Grids -/

/-- A quotient in units of `10^s`. -/
theorem grid_eq (n d : ℕ) (s : ℤ) :
    ((n * tenPow (-s).toNat : ℕ) : ℚ) / (d * tenPow s.toNat : ℕ) = n / d * 10 ^ (-s) := by
  have hscaled := scaled_div n d (-s)
  rwa [neg_neg] at hscaled

theorem lt_ten_zpow_decimalPoint (hn : 0 < n) (hd : 0 < d) :
    (n / d : ℚ) < 10 ^ decimalPoint n d := by
  have hd' : (0 : ℚ) < d := by exact_mod_cast hd
  rw [decimalPoint]
  split
  · rw [zpow_natCast, div_lt_iff₀ hd']
    have hlt := lt_ten_pow_length_natText (n / d)
    rw [Nat.div_lt_iff_lt_mul hd] at hlt
    exact_mod_cast hlt
  · next h =>
    have hq : 0 < (d - 1) / n := Nat.div_pos (by omega) hn
    have hle := ten_pow_length_natText_le hq
    have hlength : 1 - ((natText ((d - 1) / n)).length : ℤ) =
        -((natText ((d - 1) / n)).length - 1 : ℕ) := by
      have := List.length_pos_of_ne_nil (natText_ne_nil ((d - 1) / n))
      omega
    rw [hlength, zpow_neg, zpow_natCast]
    generalize (natText ((d - 1) / n)).length - 1 = l at hle
    rw [Nat.le_div_iff_mul_le hn] at hle
    have hlt : 10 ^ l * n < d := by omega
    rw [lt_inv_comm₀ (by positivity) (by positivity), inv_div, lt_div_iff₀ (by positivity)]
    exact_mod_cast hlt

/-- The two whole numbers around a quotient. -/
def Neighbour (n d g : ℕ) : Prop :=
  g = n / d ∨ g = n / d + 1

theorem neighbour_of_near (hd : 0 < d) (h : |(g : ℚ) - n / d| < 1) : Neighbour n d g := by
  obtain ⟨hlow, hhigh⟩ := abs_lt.mp h
  have hge : (n / d : ℚ) < (g + 1 : ℕ) := by
    push_cast
    linarith
  have hle : (g : ℚ) < (n / d + 2 : ℕ) := by
    have hfloor := Nat.lt_floor_add_one ((n : ℚ) / d)
    rw [Nat.floor_div_eq_div] at hfloor
    push_cast
    linarith
  have hd' : (0 : ℚ) < d := by exact_mod_cast hd
  rw [div_lt_iff₀ hd', ← Nat.cast_mul, Nat.cast_lt, ← Nat.div_lt_iff_lt_mul hd] at hge
  rw [Nat.cast_lt] at hle
  rw [Neighbour]
  omega

/-- A neighbour is on no other side of a whole bound than the quotient. -/
theorem Neighbour.le (h : Neighbour n d g) (hk : (k : ℚ) ≤ n / d) : k ≤ g := by
  have hfloor : k ≤ n / d := by
    rw [← Nat.floor_div_eq_div (K := ℚ)]
    exact Nat.le_floor hk
  rcases h with rfl | rfl <;> omega

theorem Neighbour.ge (h : Neighbour n d g) (hk : (n / d : ℚ) < k) : g ≤ k := by
  have hfloor : n / d < k := by
    rw [← Nat.floor_div_eq_div (K := ℚ)]
    exact (Nat.floor_lt (by positivity)).mpr hk
  rcases h with rfl | rfl <;> omega

theorem neighbour_of_pickNeighbour {acceptable : ℕ → Bool}
    (h : pickNeighbour acceptable n d = some g) : Neighbour n d g := by
  rw [pickNeighbour] at h
  split at h
  · next a b ha hb =>
    rw [Option.ite_none_right_eq_some, Option.some.injEq] at ha hb
    split at h
    · exact Or.inl (by rw [← Option.some.inj h, ha.2])
    · exact Or.inr (by rw [← Option.some.inj h, hb.2])
  · next a ha _ =>
    rw [Option.ite_none_right_eq_some, Option.some.injEq] at ha
    exact Or.inl (by rw [← Option.some.inj h, ha.2])
  · next b _ hb =>
    rw [Option.ite_none_right_eq_some, Option.some.injEq] at hb
    exact Or.inr (by rw [← Option.some.inj h, hb.2])
  · cases h

/-- Where no neighbour is picked, none is acceptable. -/
theorem not_acceptable_of_pickNeighbour {acceptable : ℕ → Bool}
    (h : pickNeighbour acceptable n d = none) (hg : Neighbour n d g) : acceptable g = false := by
  rw [pickNeighbour] at h
  split at h
  · split at h <;> cases h
  · cases h
  · cases h
  · next hlow hhigh =>
    rcases hg with rfl | rfl
    · simpa using hlow
    · simpa using hhigh

/-! ### The search -/

/-- The neighbour that is picked on the grid of `10^s`. -/
def pickOn (reads : ℕ → ℤ → Bool) (n d : ℕ) (s : ℤ) : Option ℕ :=
  pickNeighbour (reads · s) (n * tenPow (-s).toNat) (d * tenPow s.toNat)

/-- The point of the grid of `10^s` that is nearest. -/
def nearestOn (n d : ℕ) (s : ℤ) : ℕ :=
  nearestEven (n * tenPow (-s).toNat) (d * tenPow s.toNat)

/-- The search ends on the first grid where a neighbour is picked, or else on the last one. -/
theorem searchGrids_spec (reads : ℕ → ℤ → Bool) (n d : ℕ) (point : ℤ) : ∀ fuel k, ∃ j g,
    searchGrids reads n d point fuel k = (g, point - (j : ℕ)) ∧ k ≤ j ∧
      (∀ i : ℕ, k ≤ i → i < j → pickOn reads n d (point - i) = none) ∧
      (pickOn reads n d (point - j) = some g ∨ j = k + fuel ∧ g = nearestOn n d (point - j))
  | 0, k => by
      refine ⟨k, _, rfl, le_rfl, fun i hki hik => ?_, Or.inr ⟨rfl, rfl⟩⟩
      omega
  | fuel + 1, k => by
      rw [searchGrids]
      split
      · next g hg =>
        refine ⟨k, g, rfl, le_rfl, fun i hki hik => ?_, Or.inl hg⟩
        omega
      · next hnone =>
        obtain ⟨j, g, hsearch, hkj, hfirst, hfound⟩ := searchGrids_spec reads n d point fuel (k + 1)
        refine ⟨j, g, hsearch, by omega, fun i hki hij => ?_, ?_⟩
        · rcases eq_or_lt_of_le hki with rfl | hlt
          · exact hnone
          · exact hfirst i hlt hij
        · rwa [Nat.add_right_comm] at hfound

/-! ### Digits that read back -/

/-- The place of a number's point. -/
def place (m : ℕ) (e : ℤ) : ℤ :=
  decimalPoint (numerator m e) (denominator e)

theorem place_spec (hm : m ≠ 0) (e : ℤ) :
    (10 : ℚ) ^ (place m e - 1) ≤ m * 2 ^ e ∧ (m * 2 ^ e : ℚ) < 10 ^ place m e := by
  have hn : 0 < numerator m e := Nat.mul_pos (Nat.pos_of_ne_zero hm) (twoPow_pos _)
  rw [← numerator_div_denominator]
  exact ⟨ten_zpow_decimalPoint_le hn (denominator_pos e),
    lt_ten_zpow_decimalPoint hn (denominator_pos e)⟩

/-- The decimal `g · 10^s` reads back as a number and lies between the powers of ten around it, and no
point of a coarser grid within a step of the number reads back. -/
structure Spells (m : ℕ) (e : ℤ) (hc : Canonical m e) (g : ℕ) (s : ℤ) : Prop where
  lt_place : s < place m e
  low : (10 : ℚ) ^ (place m e - 1) ≤ g * 10 ^ s
  high : (g * 10 ^ s : ℚ) ≤ 10 ^ place m e
  reads : ofDecimal false g s = finite false m e hc
  first : ∀ (g' : ℕ) (s' : ℤ), s < s' → s' < place m e → |(g' * 10 ^ s' : ℚ) - m * 2 ^ e| < 10 ^ s' →
    ofDecimal false g' s' ≠ finite false m e hc

/-- A point is within as many steps of its grid as it is within units. -/
theorem abs_units_ten_sub (g : ℕ) (x : ℚ) (s : ℤ) :
    |(g : ℚ) - x * 10 ^ (-s)| = |g * 10 ^ s - x| / 10 ^ s := by
  have hscale : (g : ℚ) - x * 10 ^ (-s) = (g * 10 ^ s - x) / 10 ^ s := by
    rw [zpow_neg]
    field_simp
  rw [hscale, abs_div, abs_of_pos (a := (10 ^ s : ℚ)) (by positivity)]

/-- The powers of ten around a number of `j` digits, in units of the last digit. -/
theorem ten_zpow_units (p : ℤ) {j : ℕ} (hj : 0 < j) :
    (10 : ℚ) ^ (p - 1) = (10 ^ (j - 1) : ℕ) * 10 ^ (p - j) ∧
      (10 : ℚ) ^ p = (10 ^ j : ℕ) * 10 ^ (p - j) := by
  rw [Nat.cast_pow, Nat.cast_pow, Nat.cast_ofNat, ← zpow_natCast, ← zpow_natCast,
    ← zpow_add₀ (by norm_num), ← zpow_add₀ (by norm_num)]
  constructor
  · congr 1
    omega
  · congr 1
    ring

/-- What lies between two powers of ten lies between their multiples of a unit. -/
theorem units_between {x : ℚ} {p : ℤ} {j : ℕ} (hj : 0 < j) (hlow : (10 : ℚ) ^ (p - 1) ≤ x)
    (hhigh : x < 10 ^ p) : ((10 ^ (j - 1) : ℕ) : ℚ) ≤ x * 10 ^ (-(p - j)) ∧
      x * 10 ^ (-(p - j)) < (10 ^ j : ℕ) := by
  have hpos : (0 : ℚ) < 10 ^ (p - j) := by positivity
  rw [zpow_neg, ← div_eq_mul_inv, le_div_iff₀ hpos, div_lt_iff₀ hpos, ← (ten_zpow_units p hj).1,
    ← (ten_zpow_units p hj).2]
  exact ⟨hlow, hhigh⟩

/-- A point between two multiples of a unit lies between the powers of ten. -/
theorem between_of_units {p : ℤ} {j : ℕ} (hj : 0 < j) (hlow : 10 ^ (j - 1) ≤ g) (hhigh : g ≤ 10 ^ j) :
    (10 : ℚ) ^ (p - 1) ≤ g * 10 ^ (p - j) ∧ (g * 10 ^ (p - j) : ℚ) ≤ 10 ^ p := by
  rw [(ten_zpow_units p hj).1, (ten_zpow_units p hj).2]
  constructor <;> gcongr

/-- Seventeen digits determine a number. -/
theorem nearestOn_reads (hm : m ≠ 0) (hc : Canonical m e) :
    ofDecimal false (nearestOn (numerator m e) (denominator e) (place m e - 17)) (place m e - 17) =
      finite false m e hc := by
  have hpow : (0 : ℚ) < 2 ^ e := by positivity
  have hstep : (10 : ℚ) ^ (place m e - 17) * 10 ^ 16 ≤ m * 2 ^ e := by
    refine le_trans (le_of_eq ?_) (place_spec hm e).1
    rw [← zpow_natCast, ← zpow_add₀ (by norm_num)]
    congr 1
    omega
  have hnear := abs_nearestEven_sub_le (numerator m e * tenPow (-(place m e - 17)).toNat)
    (Nat.mul_pos (denominator_pos e) (tenPow_pos (place m e - 17).toNat))
  rw [grid_eq, numerator_div_denominator, abs_units_ten_sub, div_le_iff₀ (by positivity)] at hnear
  obtain ⟨hlow, hhigh⟩ := abs_le.mp hnear
  refine ofDecimal_eq_of_near hc ?_ ?_ false
  · have hm : (m * 2 ^ e : ℚ) < 2 ^ 53 * 2 ^ e := by
      gcongr
      exact_mod_cast hc.1
    refine lt_of_le_of_lt hnear ?_
    linarith
  · intro hleast
    have hm : (m * 2 ^ e : ℚ) = 2 ^ 52 * 2 ^ e := by
      rw [hleast, mantissaLeast]
      norm_num
    rw [nearestOn]
    linarith

/-- What is found on a grid lies between the powers of ten around the number. -/
theorem between_of_found (hm : m ≠ 0) {j : ℕ} (hj : 0 < j) {reads : ℕ → ℤ → Bool}
    (hg : pickOn reads (numerator m e) (denominator e) (place m e - j) = some g ∨
      g = nearestOn (numerator m e) (denominator e) (place m e - j)) :
    (10 : ℚ) ^ (place m e - 1) ≤ g * 10 ^ (place m e - j) ∧
      (g * 10 ^ (place m e - j) : ℚ) ≤ 10 ^ place m e := by
  have hplace := place_spec hm e
  have hunits := units_between hj hplace.1 hplace.2
  have hd : 0 < denominator e * tenPow (place m e - j).toNat :=
    Nat.mul_pos (denominator_pos e) (tenPow_pos _)
  rw [← numerator_div_denominator, ← grid_eq] at hunits
  rcases hg with hg | rfl
  · have hneighbour := neighbour_of_pickNeighbour hg
    exact between_of_units hj (hneighbour.le hunits.1) (hneighbour.ge hunits.2)
  · have hnear := abs_nearestEven_sub_le (numerator m e * tenPow (-(place m e - j)).toNat) hd
    exact between_of_units hj (near_of_le hnear hunits.1) (le_of_near hnear hunits.2.le)

/-- Where the search goes past a grid, no point of it within a step reads back. -/
theorem not_reads_of_pickOn (hc : Canonical m e) {s : ℤ}
    (h : pickOn (fun g s => ofDecimal false g s == ofParts false m e) (numerator m e) (denominator e) s =
      none) (hnear : |(g * 10 ^ s : ℚ) - m * 2 ^ e| < 10 ^ s) :
    ofDecimal false g s ≠ finite false m e hc := by
  have hneighbour : Neighbour (numerator m e * tenPow (-s).toNat) (denominator e * tenPow s.toNat) g := by
    refine neighbour_of_near (Nat.mul_pos (denominator_pos e) (tenPow_pos _)) ?_
    rw [grid_eq, numerator_div_denominator, abs_units_ten_sub, div_lt_one (by positivity)]
    exact hnear
  have hreads := not_acceptable_of_pickNeighbour h hneighbour
  rwa [ofParts_canonical hc, beq_eq_false_iff_ne] at hreads

/-- The shortest digits are those of a decimal that reads back. -/
theorem exists_spells (hm : m ≠ 0) (hc : Canonical m e) : ∃ g s, Spells m e hc g s ∧
    shortest m e = ⟨(natText g).rdropWhile (· = '0'), (natText g).length + s⟩ := by
  obtain ⟨j, g, hsearch, hj, hfirst, hfound⟩ := searchGrids_spec
    (fun g s => ofDecimal false g s == ofParts false m e) (numerator m e) (denominator e)
    (place m e) 16 1
  refine ⟨g, place m e - j, ?_, ?_⟩
  · have hbetween := between_of_found hm hj (hfound.imp_right And.right)
    refine ⟨by omega, hbetween.1, hbetween.2, ?_, ?_⟩
    · rcases hfound with hg | ⟨rfl, rfl⟩
      · have hreads := acceptable_of_pickNeighbour hg
        rwa [ofParts_canonical hc, beq_iff_eq] at hreads
      · exact nearestOn_reads hm hc
    · intro g' s' hlt hlt' hnear
      obtain ⟨i, hi⟩ := Int.eq_ofNat_of_zero_le (by omega : 0 ≤ place m e - s')
      obtain rfl : s' = place m e - (i : ℕ) := by omega
      exact not_reads_of_pickOn hc (hfirst i (by omega) (by omega)) hnear
  · rw [shortest, ← place, hsearch]
    rfl

/-! ### Trailing zeros -/

theorem exists_rdropWhile_append (t : Text) :
    ∃ n, t.rdropWhile (· = '0') ++ List.replicate n '0' = t := by
  refine ⟨(t.rtakeWhile (· = '0')).length, ?_⟩
  have hzeros : t.rtakeWhile (· = '0') = List.replicate (t.rtakeWhile (· = '0')).length '0' := by
    refine List.eq_replicate_of_mem fun c hc => ?_
    have hzero := List.mem_rtakeWhile_imp hc
    rwa [decide_eq_true_eq] at hzero
  rw [← hzeros, List.rdropWhile_append_rtakeWhile]

/-- The digits of a positive number without the zeros at their end are a significand in normal form. -/
theorem normal_of_natText (hg : 0 < g) (p : ℤ) :
    Significand.Normal ⟨(natText g).rdropWhile (· = '0'), p⟩ := by
  obtain ⟨c, ds, hcons, hne⟩ := exists_natText_eq_cons hg
  obtain ⟨n, hn⟩ := exists_rdropWhile_append (natText g)
  have hsome : (natText g).rdropWhile (· = '0') ≠ [] := by
    rw [ne_eq, List.rdropWhile_eq_nil_iff]
    intro hall
    exact hne (of_decide_eq_true (hall c (hcons ▸ List.mem_cons_self)))
  refine ⟨?_, ?_, ?_⟩
  · intro d hd
    exact mem_digits_of_mem_natText ((List.rdropWhile_prefix _ _).subset hd)
  · obtain ⟨c', ds', hcons'⟩ := List.exists_cons_of_ne_nil hsome
    rw [hcons', hcons, List.cons_append, List.cons.injEq] at hn
    exact ⟨c', ds', hcons', hn.1 ▸ hne⟩
  · rw [List.getLast?_eq_getLast_of_ne_nil hsome]
    intro hlast
    exact List.rdropWhile_last_not _ _ hsome (decide_eq_true (Option.some.inj hlast))

theorem value_of_natText (g : ℕ) (s : ℤ) :
    Significand.value ⟨(natText g).rdropWhile (· = '0'), (natText g).length + s⟩ = g * 10 ^ s := by
  have hvalue := digitsValue_natText g
  generalize natText g = t at hvalue
  obtain ⟨n, hn⟩ := exists_rdropWhile_append t
  have hlength := congrArg List.length hn
  rw [List.length_append, List.length_replicate] at hlength
  rw [← hn, digitsValue_append, digitsValue_replicate_zero, add_zero, List.length_replicate] at hvalue
  rw [Significand.value, ← hvalue, ← hlength]
  dsimp only
  push_cast
  rw [mul_assoc, ← zpow_natCast, ← zpow_add₀ (by norm_num)]
  congr 2
  ring

/-! ### Shortest digits -/

theorem Spells.pos {hc : Canonical m e} (h : Spells m e hc g s) : 0 < g := by
  have hlow := lt_of_lt_of_le (by positivity : (0 : ℚ) < 10 ^ (place m e - 1)) h.low
  have hpos := pos_of_mul_pos_left hlow (by positivity)
  exact_mod_cast hpos

theorem normal_shortest (hm : m ≠ 0) (hc : Canonical m e) : (shortest m e).Normal := by
  obtain ⟨g, s, hspells, hshortest⟩ := exists_spells hm hc
  rw [hshortest]
  exact normal_of_natText hspells.pos _

/-- A decimal with the value of a number's shortest digits names the number. -/
theorem ofDecimal_of_value (hm : m ≠ 0) (hc : Canonical m e)
    (h : (g * 10 ^ s : ℚ) = (shortest m e).value) (negative : Bool) :
    ofDecimal negative g s = finite negative m e hc := by
  obtain ⟨g', s', hspells, hshortest⟩ := exists_spells hm hc
  rw [hshortest, value_of_natText] at h
  rw [ofDecimal_congr h]
  exact ofDecimal_sign hspells.reads negative

/-- The shortest digits are on the same side of a power of ten as the number, or are that power. -/
theorem value_shortest_le (hm : m ≠ 0) (hc : Canonical m e) {j : ℤ} (h : (m * 2 ^ e : ℚ) < 10 ^ j) :
    (shortest m e).value ≤ 10 ^ j := by
  obtain ⟨g, s, hspells, hshortest⟩ := exists_spells hm hc
  rw [hshortest, value_of_natText]
  have hlt := lt_of_le_of_lt (place_spec hm e).1 h
  rw [zpow_lt_zpow_iff_right₀ (by norm_num)] at hlt
  exact le_trans hspells.high (zpow_le_zpow_right₀ (by norm_num) (by omega))

theorem le_value_shortest (hm : m ≠ 0) (hc : Canonical m e) {j : ℤ} (h : (10 : ℚ) ^ j ≤ m * 2 ^ e) :
    (10 : ℚ) ^ j ≤ (shortest m e).value := by
  obtain ⟨g, s, hspells, hshortest⟩ := exists_spells hm hc
  rw [hshortest, value_of_natText]
  have hlt := lt_of_le_of_lt h (place_spec hm e).2
  rw [zpow_lt_zpow_iff_right₀ (by norm_num)] at hlt
  exact le_trans (zpow_le_zpow_right₀ (by norm_num) (by omega)) hspells.low

/-- Numbers from a ten-thousandth on are written positionally. -/
theorem lowest_le_point_iff (hm : m ≠ 0) (hc : Canonical m e) :
    numberLayout.lowest ≤ (shortest m e).point ↔ (10 : ℚ) ^ (-4 : ℤ) ≤ m * 2 ^ e := by
  have hiff : numberLayout.lowest ≤ (shortest m e).point ↔ -4 < (shortest m e).point :=
    Int.add_one_le_iff (a := -4)
  rw [hiff, (normal_shortest hm hc).lt_point_iff]
  constructor
  · intro hle
    by_contra hlt
    rw [not_le] at hlt
    -- the number would be read from a ten-thousandth, but the number nearest to that is above it
    have hread : ofDecimal false 1 (-4) = finite false m e hc := by
      refine ofDecimal_of_value hm hc ?_ false
      rw [Nat.cast_one, one_mul]
      exact le_antisymm hle (value_shortest_le hm hc hlt)
    have hnear : ofDecimal false 1 (-4) = finite false 7378697629483821 (-66) (by decide) := by
      decide +kernel
    rw [hnear, finite.injEq] at hread
    obtain ⟨-, rfl, rfl⟩ := hread
    norm_num at hlt
  · exact le_value_shortest hm hc

/-- A number with binary places is not too large to be written positionally. -/
theorem point_le_highest (hm : m ≠ 0) (hc : Canonical m e) (he : e < 0) :
    (shortest m e).point ≤ numberLayout.highest := by
  have hlt : (m * 2 ^ e : ℚ) < 10 ^ (16 : ℤ) := by
    have hm : (m : ℚ) < 2 ^ 53 := by exact_mod_cast hc.1
    have hone : (2 : ℚ) ^ e ≤ 1 := zpow_le_one_of_nonpos₀ one_le_two he.le
    calc (m * 2 ^ e : ℚ) ≤ m * 1 := by gcongr
      _ < 10 ^ (16 : ℤ) := by
        rw [mul_one]
        refine hm.trans ?_
        norm_num
  by_contra hpoint
  have hge : (10 : ℚ) ^ (16 : ℤ) ≤ (shortest m e).value :=
    ((normal_shortest hm hc).lt_point_iff 16).mp (not_le.mp hpoint)
  -- the number would be read from `10^16`, which is even
  have hread : ofDecimal false 1 16 = finite false m e hc := by
    refine ofDecimal_of_value hm hc ?_ false
    rw [Nat.cast_one, one_mul]
    exact le_antisymm hge (value_shortest_le hm hc hlt)
  have hexact : ofDecimal false 1 16 = finite false 5000000000000000 1 (by decide) := by
    decide +kernel
  rw [hexact, finite.injEq] at hread
  omega

end Binary64

end GemScribe
