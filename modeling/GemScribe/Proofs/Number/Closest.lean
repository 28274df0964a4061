import GemScribe.Proofs.Number.Nearest

/-!
The number closest to a rational.

`round` compares nothing: it cuts a quotient off at its last place. Here it is shown that every other
finite number is farther away, or just as far and then odd. A number whose last place is not finer than
the quotient's is one of the whole multiples among which the nearest is taken. A number with a finer one
lies below the binade of the quotient, whose least number is such a multiple too. Beyond the largest
number half a last place more still rounds to it, and the rest rounds to an infinity. What is closest is
therefore determined by the rational, and grows with it.
-/

namespace GemScribe

namespace Binary64

variable {m n d k : ℕ} {e : ℤ} {q r : ℚ} {x y : Binary64}

/-! ### The whole number nearest to a quotient -/

/-- Every other whole number is farther away, or just as far and then odd. -/
theorem nearestEven_closest (hd : 0 < d) (hk : k ≠ nearestEven n d) :
    |(nearestEven n d : ℚ) - n / d| < |(k : ℚ) - n / d| ∨
      |(nearestEven n d : ℚ) - n / d| = |(k : ℚ) - n / d| ∧ Even (nearestEven n d) ∧ Odd k := by
  have hnear := abs_nearestEven_sub_le n hd
  have heven := even_nearestEven (n := n) hd
  generalize nearestEven n d = m at hk hnear heven ⊢
  have hone : (1 : ℚ) ≤ |(k : ℚ) - m| := by
    have hint : (1 : ℤ) ≤ |(k : ℤ) - m| := Int.one_le_abs (by omega)
    exact_mod_cast hint
  have htriangle := abs_sub_le (k : ℚ) (n / d) m
  rw [abs_sub_comm (n / d : ℚ) m] at htriangle
  rcases lt_or_ge |(m : ℚ) - n / d| |(k : ℚ) - n / d| with hlt | hge
  · exact .inl hlt
  · have hhalf : |(m : ℚ) - n / d| = 1 / 2 := by linarith
    have hhalf' : |(k : ℚ) - n / d| = 1 / 2 := by linarith
    have hgap : |(k : ℚ) - m| = 1 := by linarith
    have hnext : (k : ℤ) - m = 1 ∨ (k : ℤ) - m = -1 :=
      (abs_eq zero_le_one).mp (by exact_mod_cast hgap)
    refine .inr ⟨hhalf.trans hhalf'.symm, heven hhalf, ?_⟩
    have hm := Nat.even_iff.mp (heven hhalf)
    rw [Nat.odd_iff]
    omega

/-! ### Numbers around a quotient -/

theorem units_closest (hd : 0 < d) (hk : k ≠ units n d) :
    |(units n d * 2 ^ lastPlace n d : ℚ) - n / d| < |(k * 2 ^ lastPlace n d : ℚ) - n / d| ∨
      |(units n d * 2 ^ lastPlace n d : ℚ) - n / d| = |(k * 2 ^ lastPlace n d : ℚ) - n / d| ∧
        Even (units n d) ∧ Odd k := by
  have hclosest := nearestEven_closest (Nat.mul_pos hd (twoPow_pos (lastPlace n d).toNat)) hk
  have hpow : (0 : ℚ) < 2 ^ lastPlace n d := by positivity
  rw [units_eq] at hclosest
  rw [abs_value_sub, abs_value_sub]
  rcases hclosest with hlt | ⟨heq, hparity⟩
  · exact .inl (mul_lt_mul_of_pos_right hlt hpow)
  · exact .inr ⟨congrArg (· * (2 : ℚ) ^ lastPlace n d) heq, hparity⟩

/-- A finite magnitude other than that of the rounded mantissa is farther from the quotient, or just as far
and then odd. -/
theorem magnitude_closest (hn : 0 < n) (hd : 0 < d) (hc : Canonical m e)
    (hne : (m * 2 ^ e : ℚ) ≠ units n d * 2 ^ lastPlace n d) :
    |(units n d * 2 ^ lastPlace n d : ℚ) - n / d| < |(m * 2 ^ e : ℚ) - n / d| ∨
      |(units n d * 2 ^ lastPlace n d : ℚ) - n / d| = |(m * 2 ^ e : ℚ) - n / d| ∧
        Even (units n d) ∧ Odd m := by
  rcases le_or_gt (lastPlace n d) e with hcoarse | hfine
  · -- a whole multiple of the last place
    obtain ⟨j, hj⟩ := Int.eq_ofNat_of_zero_le (sub_nonneg.mpr hcoarse)
    have hvalue : (m * 2 ^ e : ℚ) = (m * 2 ^ j : ℕ) * 2 ^ lastPlace n d := by
      have he : e = j + lastPlace n d := by omega
      rw [he, zpow_add₀ two_ne_zero, zpow_natCast]
      push_cast
      ring
    rw [hvalue] at hne ⊢
    have hk : m * 2 ^ j ≠ units n d := by
      intro h
      exact hne (by rw [h])
    rcases units_closest hd hk with hlt | ⟨heq, heven, hodd⟩
    · exact .inl hlt
    · exact .inr ⟨heq, heven, (Nat.odd_mul.mp hodd).1⟩
  · -- below the binade of the quotient, whose least number is a whole multiple
    left
    have hplace : lastPlace n d ≠ -1074 := by
      have hlowest := hc.2.1
      omega
    have hleast := le_quotient hn hd hplace
    have hbelow : (m * 2 ^ e : ℚ) < mantissaLeast * 2 ^ lastPlace n d := by
      have hm : (m : ℚ) < mantissaBound := by exact_mod_cast hc.1
      have hcarry := mantissaLeast_mul_zpow (lastPlace n d - 1)
      rw [sub_add_cancel] at hcarry
      calc (m * 2 ^ e : ℚ) < mantissaBound * 2 ^ e := by gcongr
        _ ≤ mantissaBound * 2 ^ (lastPlace n d - 1) := by
          gcongr
          · exact one_le_two
          · omega
        _ = mantissaLeast * 2 ^ lastPlace n d := hcarry.symm
    have hbinade : |(units n d * 2 ^ lastPlace n d : ℚ) - n / d| ≤
        |(mantissaLeast * 2 ^ lastPlace n d : ℚ) - n / d| := by
      by_cases hk : mantissaLeast = units n d
      · rw [hk]
      · exact (units_closest hd hk).elim le_of_lt fun h => h.1.le
    refine lt_of_le_of_lt hbinade ?_
    rw [abs_of_nonpos (by linarith), abs_of_neg (by linarith)]
    linarith

/-! ### The number closest to a rational -/

/-- The mantissa of a finite number (zero for the others). -/
def mantissa : Binary64 → ℕ
  | .finite _ m _ _ => m
  | _ => 0

/-- Of two finite numbers the first is the one to round to: it is nearer, or just as near with an even
mantissa where the other has an odd one. -/
def Preferred (q : ℚ) (x y : Binary64) : Prop :=
  |x.toRat - q| < |y.toRat - q| ∨
    |x.toRat - q| = |y.toRat - q| ∧ Even x.mantissa ∧ Odd y.mantissa

/-- A number is closest to a rational when it is preferred to every other finite number. From half a last
place beyond the largest finite number on that is an infinity. -/
def Closest (q : ℚ) : Binary64 → Prop
  | .infinite s => rangeEnd ≤ if s then -q else q
  | .nan => False
  | x => |q| < rangeEnd ∧ ∀ y : Binary64, y.isFinite → y.toRat ≠ x.toRat → Preferred q x y

theorem Preferred.asymm (h : Preferred q x y) : ¬Preferred q y x := by
  rcases h with hlt | ⟨heq, heven, hodd⟩
  · rintro (hlt' | ⟨heq', -, -⟩)
    · exact lt_asymm hlt hlt'
    · exact hlt.ne' heq'
  · rintro (hlt' | ⟨-, -, hodd'⟩)
    · exact hlt'.ne' heq
    · exact Nat.not_odd_iff_even.mpr heven hodd'

theorem Preferred.le (h : Preferred q x y) : |x.toRat - q| ≤ |y.toRat - q| :=
  h.elim le_of_lt fun h => h.1.le

/-- A sign, for the exact value of a number. -/
def sign (negative : Bool) : ℚ :=
  if negative then -1 else 1

theorem abs_sign_mul_sub (s s' : Bool) (a b : ℚ) :
    |sign s * a - sign s' * b| = if s = s' then |a - b| else |a + b| := by
  have hneg : |-a - b| = |a + b| := by rw [← abs_neg, neg_sub, sub_neg_eq_add, add_comm]
  have hneg' : |-a + b| = |a - b| := by rw [← abs_neg, neg_add, neg_neg, ← sub_eq_add_neg]
  cases s <;> cases s' <;> simp [sign, hneg, hneg']

theorem toRat_eq_sign (s : Bool) (hc : Canonical m e) : (finite s m e hc).toRat = sign s * (m * 2 ^ e) :=
  toRat_finite s m e hc

/-- The number of the rounded mantissa is preferred to every other one, on either side of zero. -/
theorem preferred_rounded (hn : 0 < n) (hd : 0 < d) (hc : Canonical m e)
    (hvalue : (m * 2 ^ e : ℚ) = units n d * 2 ^ lastPlace n d) (heven : Even (units n d) → Even m)
    (s : Bool) (hy : y.isFinite) (hne : y.toRat ≠ (finite s m e hc).toRat) :
    Preferred (sign s * (n / d)) (finite s m e hc) y := by
  have hq : (0 : ℚ) < n / d := by positivity
  cases y with
  | finite s' m' e' hc' =>
    have hy' : (0 : ℚ) ≤ m' * 2 ^ e' := by positivity
    rw [toRat_eq_sign, toRat_eq_sign, hvalue] at hne
    rw [Preferred, toRat_eq_sign, toRat_eq_sign, hvalue, abs_sign_mul_sub, abs_sign_mul_sub, if_pos rfl]
    by_cases hs : s' = s
    · rw [if_pos hs]
      rw [hs] at hne
      have hne' : (m' * 2 ^ e' : ℚ) ≠ units n d * 2 ^ lastPlace n d := fun h => hne (by rw [h])
      exact (magnitude_closest hn hd hc' hne').imp_right fun h => ⟨h.1, heven h.2.1, h.2.2⟩
    · -- zero lies between the quotient and the other number
      rw [if_neg hs, abs_of_nonneg (a := (m' * 2 ^ e' + n / d : ℚ)) (by linarith)]
      left
      by_cases hzero : (units n d * 2 ^ lastPlace n d : ℚ) = 0
      · rw [hzero, mul_zero] at hne
        rw [hzero, zero_sub, abs_neg, abs_of_pos hq]
        have hpos : (0 : ℚ) < m' * 2 ^ e' := lt_of_le_of_ne hy' fun h => hne (by rw [← h, mul_zero])
        linarith
      · have hcloser := magnitude_closest (m := 0) (e := -1074) hn hd (by decide)
          (by rw [Nat.cast_zero, zero_mul]; exact Ne.symm hzero)
        rw [Nat.cast_zero, zero_mul, zero_sub, abs_neg, abs_of_pos hq] at hcloser
        have hlt := hcloser.resolve_right fun h => Nat.not_odd_zero h.2.2
        linarith
  | infinite s' => cases hy
  | nan => cases hy

/-- A quotient is rounded to the number closest to it. -/
theorem closest_round (negative : Bool) (n : ℕ) (hd : 0 < d) :
    Closest (sign negative * (n / d)) (round negative n d) := by
  have habs : |sign negative * (n / d : ℚ)| = n / d := by
    have hq : (0 : ℚ) ≤ n / d := by positivity
    cases negative <;> simp [sign, abs_of_nonneg hq]
  rcases Nat.eq_zero_or_pos n with rfl | hn
  · rw [Nat.cast_zero, zero_div, mul_zero, round_zero]
    refine ⟨by rw [abs_zero]; exact rangeEnd_pos, fun y _ hne => .inl ?_⟩
    have hzero := toRat_zero negative
    rw [hzero] at hne
    change |(zero negative).toRat - 0| < |y.toRat - 0|
    rw [hzero, sub_zero, sub_zero, abs_zero]
    exact abs_pos.mpr hne
  · rcases lt_or_ge (n / d : ℚ) rangeEnd with hlt | hge
    · rw [round_of_lt hn hd hlt]
      exact ⟨by rwa [habs], fun y => preferred_rounded hn hd _ (roundedMantissa_mul_zpow n d)
        even_roundedMantissa negative⟩
    · rw [round_of_le hn hd hge]
      cases negative <;> simpa [Closest, sign] using hge

theorem closest_ofDecimal (negative : Bool) (k : ℕ) (s : ℤ) :
    Closest (sign negative * (k * 10 ^ s)) (ofDecimal negative k s) := by
  rw [ofDecimal_eq_round, ← decimal_eq]
  exact closest_round negative _ (tenPow_pos _)

/-! ### Comparing closest numbers -/

/-- The order of numbers, with the two zeros as one. Nan is not in it. -/
def Le (x y : Binary64) : Prop :=
  x.lt y ∨ x.eq y

theorem le_iff_toRat_le (hx : x.isFinite) (hy : y.isFinite) : x.Le y ↔ x.toRat ≤ y.toRat := by
  cases x with
  | finite s m e hc =>
    cases y with
    | finite s' m' e' hc' => simp [Le, lt, eq, le_iff_lt_or_eq]
    | infinite s' => cases hy
    | nan => cases hy
  | infinite s => cases hx
  | nan => cases hx

theorem infinite_le (hy : y ≠ nan) : (infinite true).Le y := by
  cases y with
  | finite s m e hc => exact .inl rfl
  | infinite s => cases s <;> simp [Le, lt, eq]
  | nan => exact absurd rfl hy

theorem le_infinite (hx : x ≠ nan) : x.Le (infinite false) := by
  cases x with
  | finite s m e hc => exact .inl rfl
  | infinite s => cases s <;> simp [Le, lt, eq]
  | nan => exact absurd rfl hx

/-- The ends of the order are the infinities. -/
theorem Le.cases (h : x.Le y) : (x.isFinite ∧ y.isFinite) ∨ (x = infinite true ∧ y ≠ nan) ∨
    (x ≠ nan ∧ y = infinite false) := by
  cases x with
  | finite s m e hc =>
    cases y with
    | finite s' m' e' hc' => exact .inl ⟨rfl, rfl⟩
    | infinite s' =>
      obtain rfl : s' = false := by simpa [Le, lt, eq] using h
      exact .inr (.inr ⟨finite_ne_nan, rfl⟩)
    | nan => simp [Le, lt, eq] at h
  | infinite s =>
    cases y with
    | finite s' m' e' hc' =>
      obtain rfl : s = true := by simpa [Le, lt, eq] using h
      exact .inr (.inl ⟨rfl, finite_ne_nan⟩)
    | infinite s' => cases s <;> cases s' <;> simp [Le, lt, eq] at h ⊢
    | nan => simp [Le, lt, eq] at h
  | nan => simp [Le, lt, eq] at h

theorem Closest.ne_nan (h : Closest q x) : x ≠ nan := by
  rintro rfl
  exact h

/-- Of two numbers the greater one is as near to what lies above their middle at the least. -/
theorem add_le_of_abs_le {a b : ℚ} (hlt : b < a) (h : |a - q| ≤ |b - q|) : a + b ≤ 2 * q := by
  by_contra hq
  have hnear : |b - q| < a - q := abs_lt.mpr ⟨by linarith, by linarith⟩
  linarith [le_abs_self (a - q)]

theorem le_add_of_abs_le {a b : ℚ} (hlt : b < a) (h : |b - q| ≤ |a - q|) : 2 * q ≤ a + b := by
  by_contra hq
  have hnear : |a - q| < q - b := abs_lt.mpr ⟨by linarith, by linarith⟩
  linarith [neg_le_abs (b - q)]

theorem toRat_le_of_preferred (hle : q ≤ r) (hxy : y.toRat ≠ x.toRat → Preferred q x y)
    (hyx : x.toRat ≠ y.toRat → Preferred r y x) : x.toRat ≤ y.toRat := by
  by_contra hlt
  rw [not_le] at hlt
  have hfirst := hxy hlt.ne
  have hsecond := hyx hlt.ne'
  have hlow := add_le_of_abs_le hlt hfirst.le
  have hhigh := le_add_of_abs_le hlt hsecond.le
  obtain rfl : q = r := by linarith
  exact hfirst.asymm hsecond

/-- The number closest to a greater rational is no smaller. -/
theorem Closest.mono (hq : Closest q x) (hr : Closest r y) (hle : q ≤ r) : x.Le y := by
  have hpos := rangeEnd_pos
  cases x with
  | finite s m e hc =>
    cases y with
    | finite s' m' e' hc' =>
      rw [le_iff_toRat_le rfl rfl]
      exact toRat_le_of_preferred hle (hq.2 _ rfl) (hr.2 _ rfl)
    | infinite s' =>
      cases s' with
      | false => exact le_infinite finite_ne_nan
      | true =>
        have hlow : -rangeEnd < q := (abs_lt.mp hq.1).1
        have hhigh : rangeEnd ≤ -r := hr
        linarith
    | nan => exact hr.elim
  | infinite s =>
    cases s with
    | true => exact infinite_le hr.ne_nan
    | false =>
      have hbeyond : rangeEnd ≤ q := hq
      cases y with
      | finite s' m' e' hc' =>
        have hhigh : r < rangeEnd := (abs_lt.mp hr.1).2
        linarith
      | infinite s' =>
        cases s' with
        | false => exact le_infinite infinite_ne_nan
        | true =>
          have hhigh : rangeEnd ≤ -r := hr
          linarith
      | nan => exact hr.elim
  | nan => exact hq.elim

end Binary64

end GemScribe
