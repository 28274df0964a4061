import GemScribe.Proofs.Number.Numeral

/-!
The texts of significands.

A significand in normal form neither begins nor ends with a zero, so that its point is the place of its
value among the powers of ten. Written positionally, it is a whole number, a point and a fraction; below
the positions it is written with the letter of an exponent and a minus sign. Both are numerals of the
significand's value.
-/

namespace GemScribe

/-! ### Runs of digits -/

theorem digitsValue_nil : Text.digitsValue [] = 0 :=
  rfl

theorem digitsValue_append (s t : Text) :
    Text.digitsValue (s ++ t) = Text.digitsValue s * 10 ^ t.length + Text.digitsValue t := by
  induction t using List.reverseRecOn with
  | nil => simp [digitsValue_nil]
  | append_singleton t c ih =>
    rw [← List.append_assoc, digitsValue_concat, digitsValue_concat, ih, List.length_append,
      List.length_singleton, pow_succ]
    ring

theorem digitsValue_replicate_zero (n : Nat) : Text.digitsValue (List.replicate n '0') = 0 := by
  induction n with
  | zero => rfl
  | succ n ih =>
    rw [List.replicate_succ', digitsValue_concat, ih]
    decide

/-- The character of a digit's value is the digit. -/
theorem digitChar_digitValue {c : Char} (h : c ∈ "0123456789".toList) :
    Nat.digitChar ((Text.digitValue? c).getD 0) = c := by
  have hall : ∀ c ∈ "0123456789".toList, Nat.digitChar ((Text.digitValue? c).getD 0) = c :=
    Text.forall_mem_of_all (by decide)
  exact hall c h

theorem digitValue_lt_ten {c : Char} (h : c ∈ "0123456789".toList) :
    (Text.digitValue? c).getD 0 < 10 := by
  have hall : ∀ c ∈ "0123456789".toList, (Text.digitValue? c).getD 0 < 10 :=
    Text.forall_mem_of_all (by decide)
  exact hall c h

theorem digitValue_pos {c : Char} (h : c ∈ "0123456789".toList) (hne : c ≠ '0') :
    0 < (Text.digitValue? c).getD 0 := by
  have hall : ∀ c ∈ "0123456789".toList, c ≠ '0' → 0 < (Text.digitValue? c).getD 0 :=
    Text.forall_mem_of_all (by decide)
  exact hall c h hne

/-- Digits without a zero in front write a number with as many digits. -/
theorem ten_pow_le_digitsValue {c : Char} {ds : Text} (hc : c ∈ "0123456789".toList) (hne : c ≠ '0') :
    10 ^ ds.length ≤ Text.digitsValue (c :: ds) := by
  have hvalue : Text.digitsValue [c] = (Text.digitValue? c).getD 0 := by
    rw [← List.nil_append [c], digitsValue_concat, digitsValue_nil, mul_zero, zero_add]
  rw [← List.singleton_append, digitsValue_append, hvalue]
  exact le_add_right (Nat.le_mul_of_pos_left _ (digitValue_pos hc hne))

/-- Digits without a zero in front are those of the number that they write. -/
theorem natText_digitsValue {c : Char} (hc : c ∈ "0123456789".toList) (hne : c ≠ '0') (ds : Text)
    (hds : ∀ d ∈ ds, d ∈ "0123456789".toList) : natText (Text.digitsValue (c :: ds)) = c :: ds := by
  induction ds using List.reverseRecOn with
  | nil =>
    rw [← List.nil_append [c], digitsValue_concat, digitsValue_nil, mul_zero, zero_add, natText,
      Nat.toDigits_of_lt_base (digitValue_lt_ten hc), digitChar_digitValue hc, List.nil_append]
  | append_singleton ds d ih =>
    have hd := hds d (by simp)
    have hpos : 0 < Text.digitsValue (c :: ds) :=
      lt_of_lt_of_le (Nat.pow_pos (by decide)) (ten_pow_le_digitsValue hc hne)
    have hlt := digitValue_lt_ten hd
    rw [← List.cons_append, digitsValue_concat, natText, Nat.toDigits_of_base_le (by decide) (by omega),
      Nat.mul_add_div (by decide), Nat.mul_add_mod, Nat.div_eq_of_lt hlt, Nat.mod_eq_of_lt hlt,
      add_zero, ← natText, ih fun d hd => hds d (List.mem_append_left _ hd), digitChar_digitValue hd]

/-- The digits of a positive number do not begin with a zero. -/
theorem exists_natText_eq_cons {n : Nat} (h : 0 < n) : ∃ c ds, natText n = c :: ds ∧ c ≠ '0' := by
  induction n using Nat.strong_induction_on with
  | _ n ih =>
    rw [natText]
    rcases lt_or_ge n 10 with hlt | hge
    · rw [Nat.toDigits_of_lt_base hlt]
      exact ⟨_, [], rfl, by simp; omega⟩
    · obtain ⟨c, ds, hds, hne⟩ := ih (n / 10) (by omega) (by omega)
      rw [Nat.toDigits_of_base_le (by decide) hge, ← natText, hds]
      exact ⟨c, _, rfl, hne⟩

namespace Significand

variable {s : Significand}

/-! ### Normal form -/

/-- The number that a significand stands for. -/
def value (s : Significand) : ℚ :=
  Text.digitsValue s.digits * 10 ^ (s.point - s.digits.length)

/-- There are digits, and neither the first nor the last of them is zero. -/
structure Normal (s : Significand) : Prop where
  digits : ∀ c ∈ s.digits, c ∈ "0123456789".toList
  first : ∃ c ds, s.digits = c :: ds ∧ c ≠ '0'
  last : s.digits.getLast? ≠ some '0'

theorem Normal.le_value (h : s.Normal) : (10 : ℚ) ^ (s.point - 1) ≤ s.value := by
  obtain ⟨c, ds, hs, hne⟩ := h.first
  have hc : c ∈ "0123456789".toList := h.digits c (hs ▸ List.mem_cons_self)
  have hle : (10 : ℚ) ^ (ds.length : ℤ) ≤ Text.digitsValue (c :: ds) := by
    have hnat : 10 ^ ds.length ≤ Text.digitsValue (c :: ds) := ten_pow_le_digitsValue hc hne
    rw [zpow_natCast]
    exact_mod_cast hnat
  rw [value, hs, List.length_cons]
  calc (10 : ℚ) ^ (s.point - 1) = 10 ^ (ds.length : ℤ) * 10 ^ (s.point - (ds.length + 1 : ℕ)) := by
        rw [← zpow_add₀ (by norm_num)]
        congr 1
        push_cast
        ring
    _ ≤ _ := by gcongr

theorem value_lt (s : Significand) : s.value < 10 ^ s.point := by
  have hlt : (Text.digitsValue s.digits : ℚ) < 10 ^ (s.digits.length : ℤ) := by
    rw [zpow_natCast]
    exact_mod_cast digitsValue_lt s.digits
  calc s.value < 10 ^ (s.digits.length : ℤ) * 10 ^ (s.point - s.digits.length) := by
        rw [value]
        gcongr
    _ = 10 ^ s.point := by
        rw [← zpow_add₀ (by norm_num)]
        congr 1
        ring

/-- The point stands where the value is among the powers of ten. -/
theorem Normal.lt_point_iff (h : s.Normal) (j : ℤ) : j < s.point ↔ (10 : ℚ) ^ j ≤ s.value := by
  constructor
  · intro hj
    exact le_trans (zpow_le_zpow_right₀ (by norm_num) (by omega)) h.le_value
  · intro hj
    exact (zpow_lt_zpow_iff_right₀ (by norm_num : (1 : ℚ) < 10)).mp (lt_of_le_of_lt hj s.value_lt)

/-! ### Positional numerals -/

/-- The digits after a point that make a whole number the number `q`; none is too many but the zero of a
whole number. -/
structure Fraction (whole : ℕ) (places : Text) (q : ℚ) : Prop where
  digits : ∀ c ∈ places, c ∈ "0123456789".toList
  ne_nil : places ≠ []
  value : whole + Text.digitsValue places / 10 ^ places.length = q
  last : places.getLast? = some '0' → places = ['0']

theorem getLast?_append_of_normal (h : s.Normal) {t u : Text} (hu : t ++ u = s.digits) (hne : u ≠ []) :
    u.getLast? ≠ some '0' := by
  have hlast := h.last
  rwa [← hu, List.getLast?_append_of_ne_nil _ hne] at hlast

theorem ten_zpow_sub_natCast (p : ℤ) (n : ℕ) : (10 : ℚ) ^ (p - n) = 10 ^ p / 10 ^ n := by
  rw [zpow_sub₀ (by norm_num), zpow_natCast]

/-- With the point in front of all digits the whole number is zero. -/
theorem fraction_of_point_le (h : s.Normal) (hpoint : s.point ≤ 0) :
    Fraction 0 (List.replicate (-s.point).toNat '0' ++ s.digits) s.value where
  digits c hc := by
    rcases List.mem_append.mp hc with hc | hc
    · rw [List.eq_of_mem_replicate hc]
      decide
    · exact h.digits c hc
  ne_nil := by
    obtain ⟨c, ds, hs, -⟩ := h.first
    simp [hs]
  value := by
    have hpow : (10 : ℚ) ^ s.point = (10 ^ (-s.point).toNat)⁻¹ := by
      rw [← zpow_natCast, ← zpow_neg]
      congr 1
      omega
    rw [digitsValue_append, digitsValue_replicate_zero, zero_mul, zero_add, Nat.cast_zero, zero_add,
      List.length_append, List.length_replicate, pow_add, Significand.value, ten_zpow_sub_natCast, hpow]
    field_simp
  last hlast := by
    obtain ⟨c, ds, hs, -⟩ := h.first
    have hne : s.digits ≠ [] := by simp [hs]
    rw [List.getLast?_append_of_ne_nil _ hne] at hlast
    exact absurd hlast h.last

theorem natText_take (h : s.Normal) {p : ℕ} (hp : 0 < p) :
    natText (Text.digitsValue (s.digits.take p)) = s.digits.take p := by
  obtain ⟨c, ds, hs, hne⟩ := h.first
  obtain ⟨k, rfl⟩ := Nat.exists_eq_succ_of_ne_zero hp.ne'
  have hdigits := h.digits
  rw [hs] at hdigits
  rw [hs, List.take_succ_cons]
  exact natText_digitsValue (hdigits c List.mem_cons_self) hne _
    fun d hd => hdigits d (List.mem_cons_of_mem _ (List.mem_of_mem_take hd))

/-- With the point among the digits, those before it are the whole number. -/
theorem fraction_of_lt_length (h : s.Normal) {p : ℕ} (hp : s.point = p) (hlt : p < s.digits.length) :
    Fraction (Text.digitsValue (s.digits.take p)) (s.digits.drop p) s.value where
  digits c hc := h.digits c (List.mem_of_mem_drop hc)
  ne_nil := by
    rw [ne_eq, List.drop_eq_nil_iff]
    omega
  value := by
    have hsplit := digitsValue_append (s.digits.take p) (s.digits.drop p)
    rw [List.take_append_drop] at hsplit
    have hlength : s.digits.length = p + (s.digits.drop p).length := by
      rw [List.length_drop]
      omega
    rw [Significand.value, ten_zpow_sub_natCast, hp, zpow_natCast, hlength, hsplit]
    push_cast
    rw [pow_add]
    field_simp
  last hlast := by
    refine absurd hlast (getLast?_append_of_normal h (List.take_append_drop p s.digits) ?_)
    rw [ne_eq, List.drop_eq_nil_iff]
    omega

/-- With the point behind all digits, zeros fill the whole number up. -/
theorem fraction_of_length_le {p : ℕ} (hp : s.point = p) (hle : s.digits.length ≤ p) :
    Fraction (Text.digitsValue (s.digits ++ List.replicate (p - s.digits.length) '0')) ['0']
      s.value where
  digits c hc := List.mem_singleton.mp hc ▸ by decide
  ne_nil := List.cons_ne_nil _ _
  value := by
    have hzero : Text.digitsValue ['0'] = 0 := digitsValue_replicate_zero 1
    rw [digitsValue_append, digitsValue_replicate_zero, List.length_replicate, hzero, Significand.value,
      hp, ← Nat.cast_sub hle, zpow_natCast]
    push_cast
    ring
  last _ := rfl

theorem natText_padded (h : s.Normal) (n : ℕ) :
    natText (Text.digitsValue (s.digits ++ List.replicate n '0')) =
      s.digits ++ List.replicate n '0' := by
  obtain ⟨c, ds, hs, hne⟩ := h.first
  have hdigits := h.digits
  rw [hs] at hdigits
  rw [hs, List.cons_append]
  refine natText_digitsValue (hdigits c List.mem_cons_self) hne _ fun d hd => ?_
  rcases List.mem_append.mp hd with hd | hd
  · exact hdigits d (List.mem_cons_of_mem _ hd)
  · rw [List.eq_of_mem_replicate hd]
    decide

/-- A significand whose point is in the range of a layout is written as a whole number, a point and a
fraction. -/
theorem exists_write_eq_fraction {layout : PointLayout} (h : s.Normal) (hlow : layout.lowest ≤ s.point)
    (hhigh : s.point ≤ layout.highest) : ∃ whole places,
      layout.write s = natText whole ++ '.' :: places ∧ Fraction whole places s.value := by
  have hrange : ¬(s.point < layout.lowest ∨ layout.highest < s.point) := by omega
  rw [PointLayout.write, if_neg hrange]
  rcases le_or_gt s.point 0 with hzero | hpos
  · rw [if_pos hzero]
    exact ⟨0, _, rfl, fraction_of_point_le h hzero⟩
  · obtain ⟨p, hp⟩ := Int.eq_ofNat_of_zero_le hpos.le
    rw [if_neg (not_le.mpr hpos), hp, Int.toNat_natCast]
    dsimp only
    rcases lt_or_ge p s.digits.length with hlt | hge
    · have hfraction := fraction_of_lt_length h hp hlt
      refine ⟨_, _, ?_, hfraction⟩
      rw [natText_take h (by omega), Nat.sub_eq_zero_of_le hlt.le, List.replicate_zero, List.append_nil,
        if_neg (by rw [List.isEmpty_iff]; exact hfraction.ne_nil)]
    · refine ⟨_, _, ?_, fraction_of_length_le hp hge⟩
      rw [natText_padded h, List.take_of_length_le hge, List.drop_of_length_le hge,
        if_pos List.isEmpty_nil]

/-! ### Exponents -/

/-- The characters of a significand in front of its exponent. -/
def leadingChars : Text :=
  "0123456789.".toList

/-- A number's digits in front of a negative exponent, and the digits of that exponent. -/
structure Exponent (leading exponent : Text) (k : ℕ) : Prop where
  leading_chars : ∀ c ∈ leading, c ∈ leadingChars
  leading_ne_nil : leading ≠ []
  digits : ∀ c ∈ exponent, c ∈ "0123456789".toList
  ne_nil : exponent ≠ []
  value : Text.digitsValue exponent = k

theorem exponent_of_leading {leading : Text} (h : ∀ c ∈ leading, c ∈ leadingChars)
    (hne : leading ≠ []) (n k : ℕ) :
    Exponent leading (List.replicate n '0' ++ natText k) k where
  leading_chars := h
  leading_ne_nil := hne
  digits c hc := by
    rcases List.mem_append.mp hc with hc | hc
    · rw [List.eq_of_mem_replicate hc]
      decide
    · exact mem_digits_of_mem_natText hc
  ne_nil := by simp [natText_ne_nil]
  value := by
    rw [digitsValue_append, digitsValue_replicate_zero, zero_mul, zero_add, digitsValue_natText]

/-- Below the range of a layout a significand is written as its first digit, a fraction of the others, if
there are any, and a negative exponent. -/
theorem write_of_lt_lowest {layout : PointLayout} {d : Char} {ds : Text} (hs : s.digits = d :: ds)
    (hlow : s.point < layout.lowest) (hle : s.point ≤ 0) : layout.write s =
      (d :: if ds = [] then [] else '.' :: ds) ++ 'e' :: '-' ::
        (List.replicate (layout.exponentDigits - (natText (s.point - 1).natAbs).length) '0' ++
          natText (s.point - 1).natAbs) := by
  have hexponent : layout.exponentText (s.point - 1) = 'e' :: '-' ::
      (List.replicate (layout.exponentDigits - (natText (s.point - 1).natAbs).length) '0' ++
        natText (s.point - 1).natAbs) := by
    rw [PointLayout.exponentText, if_pos (by omega)]
  rw [← hexponent, PointLayout.write, if_pos (Or.inl hlow), hs]
  cases ds <;> rfl

/-- A significand whose point is below the range of a layout is written with a negative exponent. -/
theorem exists_write_eq_exponent {layout : PointLayout} (h : s.Normal) (hlow : s.point < layout.lowest)
    (hle : s.point ≤ 0) : ∃ leading exponent, layout.write s = leading ++ 'e' :: '-' :: exponent ∧
      Exponent leading exponent (s.point - 1).natAbs := by
  have hmem : ∀ c ∈ "0123456789".toList, c ∈ leadingChars := Text.forall_mem_of_all (by decide)
  obtain ⟨d, ds, hs, -⟩ := h.first
  have hdigits := h.digits
  rw [hs] at hdigits
  refine ⟨_, _, write_of_lt_lowest hs hlow hle, exponent_of_leading (fun c hc => ?_)
    (List.cons_ne_nil _ _) _ _⟩
  rcases List.mem_cons.mp hc with rfl | hc
  · exact hmem c (hdigits c List.mem_cons_self)
  · split at hc
    · cases hc
    · rcases List.mem_cons.mp hc with rfl | hc
      · decide
      · exact hmem c (hdigits c (List.mem_cons_of_mem _ hc))

end Significand

end GemScribe
