import GemScribe.Proofs.Number.Rounding
import GemScribe.Proofs.Text.Parts
import Mathlib.Data.List.TakeWhile
import Mathlib.Data.Nat.Cast.Order.Field

/-!
The characters of a shown number.

A finite number is shown with digits, a point, signs and the letter of an exponent. It is shown with
digits alone exactly when it is a natural number, and such a numeral is short enough to be read again.
For that the shortest digits of a number must not all be zeros: a grid that reads back as the number
does not read zero, and the last grid is fine enough for one digit of it.
-/

namespace GemScribe

/-- The characters that numerals are made of. -/
def Text.numeralChars : Text :=
  "0123456789.-+e".toList

/-! ### Natural numbers -/

theorem mem_digits_of_isDigit {c : Char} (h : c.isDigit) : c ∈ "0123456789".toList := by
  have hall : ∀ k < 10, Nat.digitChar k ∈ "0123456789".toList := by decide
  have hrange : 48 ≤ c.toNat ∧ c.toNat ≤ 57 := by
    simpa [Char.isDigit, UInt32.le_iff_toNat_le] using h
  have hchar : Nat.digitChar (c.toNat - 48) = c := by
    rw [← Char.toNat_inj, Nat.toNat_digitChar_of_lt_ten (by omega)]
    omega
  exact hchar ▸ hall (c.toNat - 48) (by omega)

theorem mem_digits_of_mem_natText {n : Nat} {c : Char} (h : c ∈ natText n) :
    c ∈ "0123456789".toList :=
  mem_digits_of_isDigit (Nat.isDigit_of_mem_toDigits (by decide) (by decide) h)

theorem isDigit_of_mem_natText {n : Nat} {c : Char} (h : c ∈ natText n) : Text.isDigit c := by
  have hall : ∀ c ∈ "0123456789".toList, Text.isDigit c := Text.forall_mem_of_all (by decide)
  exact hall c (mem_digits_of_mem_natText h)

theorem mem_numeralChars_of_mem_natText {n : Nat} {c : Char} (h : c ∈ natText n) :
    c ∈ Text.numeralChars := by
  have hall : ∀ c ∈ "0123456789".toList, c ∈ Text.numeralChars :=
    Text.forall_mem_of_all (by decide)
  exact hall c (mem_digits_of_mem_natText h)

theorem natText_ne_nil (n : Nat) : natText n ≠ [] :=
  Nat.toDigits_ne_nil

theorem lt_ten_pow_length_natText (n : Nat) : n < 10 ^ (natText n).length :=
  (Nat.length_toDigits_le_iff (by decide) Nat.length_toDigits_pos).mp le_rfl

theorem ten_pow_length_natText_le {n : Nat} (h : 0 < n) : 10 ^ ((natText n).length - 1) ≤ n := by
  rcases Nat.eq_zero_or_pos ((natText n).length - 1) with hzero | hpos
  · rw [hzero, pow_zero]
    exact h
  · rw [← not_lt, ← Nat.length_toDigits_le_iff (by decide) hpos, ← natText]
    omega

/-- A positive number is not written with zeros alone. -/
theorem exists_mem_natText_ne_zero {n : Nat} (h : 0 < n) : ∃ c ∈ natText n, c ≠ '0' := by
  induction n using Nat.strong_induction_on with
  | _ n ih =>
    rw [natText]
    rcases lt_or_ge n 10 with hlt | hge
    · rw [Nat.toDigits_of_lt_base hlt]
      exact ⟨_, List.mem_singleton_self _, by simp; omega⟩
    · obtain ⟨c, hc, hne⟩ := ih (n / 10) (by omega) (by omega)
      rw [Nat.toDigits_of_base_le (by decide) hge]
      exact ⟨c, List.mem_append_left _ hc, hne⟩

/-! ### Whole numbers -/

theorem mem_numeralChars_of_mem_intText {i : ℤ} {c : Char} (h : c ∈ intText i) :
    c ∈ Text.numeralChars := by
  rw [intText] at h
  split at h
  · rcases List.mem_cons.mp h with rfl | h
    · decide
    · exact mem_numeralChars_of_mem_natText h
  · exact mem_numeralChars_of_mem_natText h

theorem intText_ne_nil (i : ℤ) : intText i ≠ [] := by
  rw [intText]
  split
  · exact List.cons_ne_nil _ _
  · exact natText_ne_nil _

/-- A whole number is written with digits alone unless it is negative. -/
theorem forall_isDigit_intText_iff (i : ℤ) : (∀ c ∈ intText i, Text.isDigit c) ↔ 0 ≤ i := by
  rw [intText]
  split
  · next h =>
    constructor
    · intro hall
      exact absurd (hall '-' List.mem_cons_self) (by decide)
    · omega
  · next h => exact ⟨fun _ => by omega, fun _ c hc => isDigit_of_mem_natText hc⟩

namespace Binary64

/-! ### Shortest digits -/

theorem acceptable_of_pickNeighbour {acceptable : Nat → Bool} {n d g : Nat}
    (h : pickNeighbour acceptable n d = some g) : acceptable g := by
  rw [pickNeighbour] at h
  by_cases hlow : acceptable (n / d) <;> by_cases hhigh : acceptable (n / d + 1)
  · rw [if_pos hlow, if_pos hhigh] at h
    dsimp only at h
    split at h
    · exact Option.some.inj h ▸ hlow
    · exact Option.some.inj h ▸ hhigh
  · rw [if_pos hlow, if_neg hhigh] at h
    exact Option.some.inj h ▸ hlow
  · rw [if_neg hlow, if_pos hhigh] at h
    exact Option.some.inj h ▸ hhigh
  · rw [if_neg hlow, if_neg hhigh] at h
    cases h

/-- The decimal point of a quotient stands no further left than its first digit. -/
theorem ten_zpow_decimalPoint_le {n d : Nat} (hn : 0 < n) (hd : 0 < d) :
    (10 : ℚ) ^ (decimalPoint n d - 1) ≤ n / d := by
  have hd' : (0 : ℚ) < d := by exact_mod_cast hd
  rw [decimalPoint]
  split
  · next h =>
    have hq : 0 < n / d := Nat.div_pos h hd
    have hlength : ((natText (n / d)).length : ℤ) - 1 = ((natText (n / d)).length - 1 : ℕ) := by
      have := List.length_pos_of_ne_nil (natText_ne_nil (n / d))
      omega
    rw [hlength, zpow_natCast]
    calc (10 : ℚ) ^ ((natText (n / d)).length - 1) ≤ (n / d : ℕ) := by
          exact_mod_cast ten_pow_length_natText_le hq
      _ ≤ n / d := Nat.cast_div_le
  · next h =>
    have hlt := lt_ten_pow_length_natText ((d - 1) / n)
    generalize (natText ((d - 1) / n)).length = l at hlt
    rw [Nat.div_lt_iff_lt_mul hn] at hlt
    have hle : d ≤ 10 ^ l * n := by omega
    rw [sub_sub_cancel_left, zpow_neg, zpow_natCast, inv_le_iff_one_le_mul₀ (by positivity),
      div_mul_eq_mul_div, mul_comm, one_le_div hd']
    exact_mod_cast hle

theorem searchGrids_ne_zero (reads : Nat → ℤ → Bool) (hreads : ∀ s, reads 0 s = false) {n d : Nat}
    (hd : 0 < d) {point : ℤ} (hpoint : (10 : ℚ) ^ (point - 1) ≤ n / d) :
    ∀ fuel k, 1 ≤ k → (searchGrids reads n d point fuel k).1 ≠ 0
  | 0, k, hk => by
      have hnear := abs_nearestEven_sub_le (n * tenPow (-(point - k)).toNat)
        (Nat.mul_pos hd (tenPow_pos (point - k).toNat))
      have hunits := scaled_div n d (-(point - k))
      rw [neg_neg] at hunits
      rw [hunits] at hnear
      refine Nat.one_le_iff_ne_zero.mp (near_of_le hnear ?_)
      rw [Nat.cast_one, zpow_neg, le_mul_inv_iff₀ (by positivity), one_mul]
      refine le_trans (zpow_le_zpow_right₀ (by norm_num) ?_) hpoint
      omega
  | fuel + 1, k, hk => by
      rw [searchGrids]
      split
      · next g hg =>
        rintro rfl
        have := acceptable_of_pickNeighbour hg
        rw [hreads] at this
        cases this
      · exact searchGrids_ne_zero reads hreads hd hpoint fuel (k + 1) (by omega)

/-- A number that is not zero has a digit. -/
theorem digits_shortest_ne_nil {m : Nat} {e : ℤ} (hm : m ≠ 0) (hc : Canonical m e) :
    (shortest m e).digits ≠ [] := by
  have hreads : ∀ s, (ofDecimal false 0 s == ofParts false m e) = false := by
    intro s
    rw [ofDecimal, if_pos rfl, ofParts, dif_pos hc, beq_eq_false_iff_ne]
    intro h
    rw [zero, finite.injEq] at h
    exact hm h.2.1.symm
  have hn : 0 < numerator m e := Nat.mul_pos (Nat.pos_of_ne_zero hm) (twoPow_pos _)
  have hdigits := searchGrids_ne_zero (fun g s => ofDecimal false g s == ofParts false m e) hreads
    (denominator_pos e) (ten_zpow_decimalPoint_le hn (denominator_pos e)) 16 1 le_rfl
  obtain ⟨c, hmem, hne⟩ := exists_mem_natText_ne_zero (Nat.pos_of_ne_zero hdigits)
  rw [shortest]
  intro h
  rw [List.reverse_eq_nil_iff, List.dropWhile_eq_nil_iff] at h
  exact hne (of_decide_eq_true (h c (List.mem_reverse.mpr hmem)))

theorem mem_numeralChars_of_mem_shortest {m : Nat} {e : ℤ} {c : Char}
    (h : c ∈ (shortest m e).digits) : c ∈ Text.numeralChars := by
  rw [shortest] at h
  have hmem := (List.dropWhile_sublist _).subset (List.mem_reverse.mp h)
  exact mem_numeralChars_of_mem_natText (List.mem_reverse.mp hmem)

/-! ### Layouts -/

theorem mem_numeralChars_of_mem_exponentText {layout : PointLayout} {e : ℤ} {c : Char}
    (h : c ∈ layout.exponentText e) : c ∈ Text.numeralChars := by
  rw [PointLayout.exponentText, List.mem_cons, List.mem_cons, List.mem_append] at h
  rcases h with rfl | h | h | h
  · decide
  · rw [h]
    split <;> decide
  · rw [List.eq_of_mem_replicate h]
    decide
  · exact mem_numeralChars_of_mem_natText h

theorem mem_numeralChars_of_mem_write {layout : PointLayout} {s : Significand}
    (hs : ∀ c ∈ s.digits, c ∈ Text.numeralChars) {c : Char} (h : c ∈ layout.write s) :
    c ∈ Text.numeralChars := by
  have hpoint : '.' ∈ Text.numeralChars := by decide
  have hzero : '0' ∈ Text.numeralChars := by decide
  rw [PointLayout.write] at h
  split at h
  · split at h
    · cases h
    · next d hd =>
      rw [hd] at hs
      rcases List.mem_cons.mp h with rfl | h
      · exact hs c List.mem_cons_self
      · exact mem_numeralChars_of_mem_exponentText h
    · next d ds hd =>
      rw [hd] at hs
      rw [List.cons_append, List.mem_cons, List.cons_append, List.mem_cons, List.mem_append] at h
      rcases h with rfl | rfl | h | h
      · exact hs c List.mem_cons_self
      · exact hpoint
      · exact hs c (List.mem_cons_of_mem _ h)
      · exact mem_numeralChars_of_mem_exponentText h
  · split at h
    · rw [List.cons_append, List.mem_cons, List.cons_append, List.mem_cons, List.mem_append] at h
      rcases h with rfl | rfl | h | h
      · exact hzero
      · exact hpoint
      · exact List.eq_of_mem_replicate h ▸ hzero
      · exact hs c h
    · dsimp only at h
      rw [List.mem_append, List.mem_append, List.mem_cons] at h
      rcases h with (h | h) | rfl | h
      · exact hs c (List.mem_of_mem_take h)
      · exact List.eq_of_mem_replicate h ▸ hzero
      · exact hpoint
      · split at h
        · exact List.mem_singleton.mp h ▸ hzero
        · exact hs c (List.mem_of_mem_drop h)

/-- A significand is never written with digits alone. -/
theorem exists_mem_write_not_isDigit (layout : PointLayout) {s : Significand}
    (hs : s.digits ≠ []) : ∃ c ∈ layout.write s, Text.isDigit c = false := by
  have hpoint : Text.isDigit '.' = false := by decide
  have hletter : Text.isDigit 'e' = false := by decide
  rw [PointLayout.write]
  split
  · split
    · next hnil => exact absurd hnil hs
    · exact ⟨'e', List.mem_cons_of_mem _ List.mem_cons_self, hletter⟩
    · exact ⟨'.', List.mem_cons_of_mem _ List.mem_cons_self, hpoint⟩
  · split
    · exact ⟨'.', List.mem_cons_of_mem _ List.mem_cons_self, hpoint⟩
    · exact ⟨'.', List.mem_append_right _ List.mem_cons_self, hpoint⟩

/-! ### Shown numbers -/

theorem mem_numeralChars_of_mem_display {x : Binary64} (hx : x.isFinite) {c : Char}
    (h : c ∈ x.display) : c ∈ Text.numeralChars := by
  rw [display] at h
  split at h
  · exact mem_numeralChars_of_mem_intText h
  · cases x with
    | finite s m e hc =>
      rw [text, List.mem_append] at h
      rcases h with h | h
      · split at h
        · exact List.mem_singleton.mp h ▸ by decide
        · cases h
      · split at h
        · have hall : ∀ c ∈ ['0', '.', '0'], c ∈ Text.numeralChars :=
            Text.forall_mem_of_all (by decide)
          exact hall c h
        · exact mem_numeralChars_of_mem_write (fun _ => mem_numeralChars_of_mem_shortest) h
    | infinite s => cases hx
    | nan => cases hx

/-- A number that is not whole is not shown with digits alone. -/
theorem exists_mem_text_not_isDigit {x : Binary64} (hx : x.isFinite) :
    ∃ c ∈ x.text, Text.isDigit c = false := by
  cases x with
  | finite s m e hc =>
    rw [text]
    by_cases hm : m = 0
    · rw [if_pos hm]
      exact ⟨'.', List.mem_append_right _ (by decide), by decide⟩
    · rw [if_neg hm]
      obtain ⟨c, hmem, hdigit⟩ :=
        exists_mem_write_not_isDigit numberLayout (digits_shortest_ne_nil hm hc)
      exact ⟨c, List.mem_append_right _ hmem, hdigit⟩
  | infinite s => cases hx
  | nan => cases hx

/-- A finite number is shown with digits alone exactly when it is a natural number. -/
theorem forall_isDigit_display_iff {x : Binary64} (hx : x.isFinite) :
    (∀ c ∈ x.display, Text.isDigit c) ↔ ∃ k : ℕ, x.toRat = k := by
  rw [display]
  cases h : x.toInt? with
  | some i =>
    have hvalue := (toInt?_eq_some_iff hx).mp h
    dsimp only
    rw [forall_isDigit_intText_iff, hvalue]
    constructor
    · intro hi
      exact ⟨i.toNat, by exact_mod_cast (Int.toNat_of_nonneg hi).symm⟩
    · rintro ⟨k, hk⟩
      have : i = k := by exact_mod_cast hk
      omega
  | none =>
    constructor
    · intro hall
      obtain ⟨c, hmem, hdigit⟩ := exists_mem_text_not_isDigit hx
      exact absurd (hall c hmem) (by rw [hdigit]; decide)
    · rintro ⟨k, hk⟩
      have := (toInt?_eq_some_iff (i := k) hx).mpr (by exact_mod_cast hk)
      rw [h] at this
      cases this

theorem display_ne_nil {x : Binary64} (hx : x.isFinite) : x.display ≠ [] := by
  rw [display]
  split
  · exact intText_ne_nil _
  · obtain ⟨c, hmem, -⟩ := exists_mem_text_not_isDigit hx
    exact List.ne_nil_of_mem hmem

/-- A finite number is smaller than `2^1024`. -/
theorem abs_toRat_lt {x : Binary64} (hx : x.isFinite) : |x.toRat| < 2 ^ 1024 := by
  cases x with
  | finite s m e hc =>
    have hm : (m : ℚ) < 2 ^ (53 : ℤ) := by exact_mod_cast hc.1
    rw [abs_toRat_finite]
    calc (m * 2 ^ e : ℚ) < 2 ^ (53 : ℤ) * 2 ^ e := by gcongr
      _ = 2 ^ (53 + e) := (zpow_add₀ two_ne_zero _ _).symm
      _ ≤ 2 ^ (1024 : ℤ) := zpow_le_zpow_right₀ one_le_two (by have := hc.2.2.1; omega)
      _ = 2 ^ 1024 := by rw [← zpow_natCast, Nat.cast_ofNat]
  | infinite s => cases hx
  | nan => cases hx

/-- The numeral of a natural number is short enough to be read. -/
theorem length_display_le {x : Binary64} (hx : x.isFinite) {k : ℕ} (hk : x.toRat = k) :
    x.display.length ≤ longestNumeral := by
  have hwhole := (toInt?_eq_some_iff (i := k) hx).mpr (by exact_mod_cast hk)
  have hlt := abs_toRat_lt hx
  rw [hk, Nat.abs_cast] at hlt
  have htwo : k < 2 ^ 1024 := by
    rw [← Nat.cast_lt (α := ℚ), Nat.cast_pow, Nat.cast_ofNat]
    exact hlt
  have hpow : ∀ a b : ℕ, a ≤ b → 2 ^ a ≤ 10 ^ b := fun a b h =>
    le_trans (Nat.pow_le_pow_left (by decide) a) (Nat.pow_le_pow_right (by decide) h)
  have hten : k < 10 ^ longestNumeral := lt_of_lt_of_le htwo (hpow 1024 _ (by decide))
  rw [display, hwhole]
  dsimp only
  rw [intText, if_neg (by omega), Int.natAbs_natCast]
  exact (Nat.length_toDigits_le_iff (by decide) (by decide)).mpr hten

end Binary64

/-! ### Reading -/

theorem digitValue?_digitChar {k : Nat} (h : k < 10) :
    Text.digitValue? (Nat.digitChar k) = some k := by
  have hall : ∀ k < 10, Text.digitValue? (Nat.digitChar k) = some k := by decide
  exact hall k h

theorem digitValue?_lt {c : Char} {v : Nat} (h : Text.digitValue? c = some v) : v < 10 := by
  obtain ⟨z, hz, rfl⟩ := Option.map_eq_some_iff.mp h
  have hrange := List.find?_some hz
  rw [decide_eq_true_eq] at hrange
  omega

theorem digitsValue_concat (ds : Text) (c : Char) :
    Text.digitsValue (ds ++ [c]) = 10 * Text.digitsValue ds + (Text.digitValue? c).getD 0 := by
  simp [Text.digitsValue, List.foldl_append]

/-- The digits of a number are read as that number. -/
theorem digitsValue_natText (n : Nat) : Text.digitsValue (natText n) = n := by
  induction n using Nat.strong_induction_on with
  | _ n ih =>
    rw [natText]
    rcases lt_or_ge n 10 with hlt | hge
    · rw [Nat.toDigits_of_lt_base hlt, ← List.nil_append [Nat.digitChar n], digitsValue_concat,
        digitValue?_digitChar hlt]
      simp [Text.digitsValue]
    · have hlast := digitValue?_digitChar (Nat.mod_lt n (by decide : 10 > 0))
      rw [Nat.toDigits_of_base_le (by decide) hge, digitsValue_concat, ← natText,
        ih (n / 10) (by omega), hlast, Option.getD_some]
      omega

theorem natText_injective : Function.Injective natText :=
  Function.LeftInverse.injective (g := Text.digitsValue) digitsValue_natText

/-- Two numerals, each followed by what is no digit, are the same when the texts are. -/
theorem natText_append_cons_inj {i j : Nat} {c d : Char} {s t : Text}
    (hc : c ∉ "0123456789".toList) (hd : d ∉ "0123456789".toList)
    (h : natText i ++ c :: s = natText j ++ d :: t) : i = j ∧ c = d := by
  have htake : ∀ (k : Nat) {e : Char} (u : Text), e ∉ "0123456789".toList →
      (natText k ++ e :: u).takeWhile (· ∈ "0123456789".toList) = natText k := by
    intro k e u he
    rw [List.takeWhile_append_of_pos fun x hx => decide_eq_true (mem_digits_of_mem_natText hx),
      List.takeWhile_cons_of_neg (by simpa using he), List.append_nil]
  have hij := congrArg (List.takeWhile (· ∈ "0123456789".toList)) h
  rw [htake i s hc, htake j t hd] at hij
  rw [hij] at h
  exact ⟨natText_injective hij, (List.cons.inj (List.append_cancel_left h)).1⟩

theorem intText_injective : Function.Injective intText := by
  intro i j h
  have hsign : 0 ≤ i ↔ 0 ≤ j := by
    rw [← forall_isDigit_intText_iff, ← forall_isDigit_intText_iff, h]
  rw [intText, intText] at h
  rcases lt_or_ge i 0 with hi | hi
  · have hj : j < 0 := by omega
    rw [if_pos hi, if_pos hj] at h
    have habs := natText_injective (List.cons.inj h).2
    omega
  · have hj : 0 ≤ j := hsign.mp hi
    rw [if_neg (not_lt.mpr hi), if_neg (not_lt.mpr hj)] at h
    have habs := natText_injective h
    omega

/-- A run of digits writes a number with no more digits than its own. -/
theorem digitsValue_lt (ds : Text) : Text.digitsValue ds < 10 ^ ds.length := by
  induction ds using List.reverseRecOn with
  | nil => decide
  | append_singleton ds c ih =>
    have hdigit : (Text.digitValue? c).getD 0 < 10 := by
      cases h : Text.digitValue? c with
      | none => decide
      | some v => exact digitValue?_lt h
    rw [digitsValue_concat, List.length_append, List.length_singleton, pow_succ]
    omega

theorem readNat_eq_ok {digits : Text} {n : Nat} :
    readNat digits = .ok n ↔ digits.length ≤ longestNumeral ∧ Text.digitsValue digits = n := by
  rw [readNat]
  split
  · next h => simp [h]
  · next h => simp [Nat.le_of_not_lt h]

theorem readNat_eq_error {digits : Text} {cause : NumberFault} (h : readNat digits = .error cause) :
    cause = .numeralTooLong := by
  rw [readNat] at h
  split at h
  · exact (Except.error.inj h).symm
  · cases h

theorem length_natText_le_iff {n : Nat} : (natText n).length ≤ longestNumeral ↔ n < 10 ^ longestNumeral :=
  Nat.length_toDigits_le_iff (by decide) (by decide)

/-- A number with few enough digits is read again from them. -/
theorem readNat_natText {n : Nat} (h : n < tenPow longestNumeral) : readNat (natText n) = .ok n := by
  rw [tenPow_eq, ← length_natText_le_iff] at h
  exact readNat_eq_ok.mpr ⟨h, digitsValue_natText n⟩

theorem writeInt_eq_ok {i : ℤ} {t : Text} :
    writeInt i = .ok t ↔ i.natAbs < 10 ^ longestNumeral ∧ intText i = t := by
  rw [← length_natText_le_iff, writeInt]
  split
  · next h => simp [h]
  · next h => simp [Nat.le_of_not_lt h]

end GemScribe
