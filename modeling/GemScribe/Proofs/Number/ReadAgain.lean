import GemScribe.Datum.Shape
import GemScribe.Proofs.Number.Closest
import GemScribe.Proofs.Number.Written

/-!
The text of a number determines the number.

A finite number is shown as a numeral: digits alone when it is whole, and otherwise with a point, with a
negative exponent, or with both. Whole numbers are written out exactly, and the digits of the others are
the shortest that read as the number, so that in both cases the number closest to the numeral is the number
itself, up to the sign of zero. Reading goes by the first character that is not a digit, which is the point,
the letter of the exponent, or the end.
-/

namespace GemScribe

/-- A decimal numeral without a sign: its whole digits, the digits after its point, and those of its negative
exponent. A point without digits behind it and an exponent without digits are not written. -/
structure Numeral where
  whole : Text
  places : Text
  exponent : Text
  ne_nil : whole ≠ []
  whole_digits : ∀ c ∈ whole, c ∈ "0123456789".toList
  places_digits : ∀ c ∈ places, c ∈ "0123456789".toList
  exponent_digits : ∀ c ∈ exponent, c ∈ "0123456789".toList

namespace Numeral

/-! ### Texts and values -/

def placesText (n : Numeral) : Text :=
  if n.places = [] then [] else '.' :: n.places

def exponentText (n : Numeral) : Text :=
  if n.exponent = [] then [] else 'e' :: '-' :: n.exponent

def text (n : Numeral) : Text :=
  n.whole ++ (n.placesText ++ n.exponentText)

/-- The whole number that all digits in front of the exponent write. -/
def units (n : Numeral) : ℕ :=
  Text.digitsValue (n.whole ++ n.places)

/-- The power of ten that the units are counted in. -/
def power (n : Numeral) : ℤ :=
  -Text.digitsValue n.exponent - n.places.length

/-- The number that a numeral writes. -/
def value (n : Numeral) : ℚ :=
  n.units * 10 ^ n.power

/-- Digits alone. -/
def IsWhole (n : Numeral) : Prop :=
  n.places = [] ∧ n.exponent = []

/-- The sign in front of a negative number. -/
def signText (negative : Bool) : Text :=
  if negative then ['-'] else []

variable {n : Numeral} {c : Char} {negative : Bool}

/-! ### Reading a numeral -/

theorem isAsciiDigit_of_mem_digits (h : c ∈ "0123456789".toList) : Datum.isAsciiDigit c := by
  have hall : ∀ c ∈ "0123456789".toList, Datum.isAsciiDigit c := Text.forall_mem_of_all (by decide)
  exact hall c h

theorem head_exponentText (h : n.exponentText.head? = some c) : Datum.isAsciiDigit c = false := by
  rw [exponentText] at h
  split at h
  · cases h
  · obtain rfl := Option.some.inj h
    decide

theorem exponentOf?_exponentText (n : Numeral) :
    Datum.exponentOf? n.exponentText = some (-(Text.digitsValue n.exponent : ℤ)) := by
  rw [exponentText]
  split
  · next h =>
    rw [h, digitsValue_nil]
    rfl
  · next h =>
    have hall : n.exponent.all Datum.isAsciiDigit :=
      List.all_eq_true.mpr fun c hc => isAsciiDigit_of_mem_digits (n.exponent_digits c hc)
    rw [Datum.exponentOf?, splitSign]
    exact if_pos ⟨.inl rfl, h, hall⟩

theorem head_rest (h : (n.placesText ++ n.exponentText).head? = some c) :
    Datum.isAsciiDigit c = false := by
  rw [placesText] at h
  split at h
  · exact head_exponentText h
  · obtain rfl := Option.some.inj h
    decide

theorem exponentText_ne_point (n : Numeral) (t : Text) : n.exponentText ≠ '.' :: t := by
  intro h
  rw [exponentText] at h
  split at h
  · cases h
  · exact absurd (List.cons.inj h).1 (by decide)

/-- The digits of a numeral are read up to its point, up to its exponent, and to its end. -/
theorem decimalOf?_text (negative : Bool) (n : Numeral) :
    Datum.decimalOf? negative n.text = some (Binary64.ofDecimal negative n.units n.power) := by
  obtain ⟨htake, hdrop⟩ := Text.span_append
    (fun c hc => isAsciiDigit_of_mem_digits (n.whole_digits c hc)) fun c hc => head_rest (n := n) hc
  obtain ⟨htake', hdrop'⟩ := Text.span_append
    (fun c hc => isAsciiDigit_of_mem_digits (n.places_digits c hc)) fun c hc => head_exponentText (n := n) hc
  have hsome : ∀ places : Text, ¬(n.whole = [] ∧ places = []) := fun _ h => n.ne_nil h.1
  rw [Datum.decimalOf?, text, htake, hdrop]
  dsimp only
  by_cases hplaces : n.places = []
  · have hrest : n.placesText ++ n.exponentText = n.exponentText := by
      rw [placesText, if_pos hplaces, List.nil_append]
    rw [hrest]
    split
    · next rest hpoint => exact absurd hpoint (exponentText_ne_point n rest)
    · rw [if_neg (hsome _), exponentOf?_exponentText, units, power, hplaces]
      rfl
  · have hrest : n.placesText ++ n.exponentText = '.' :: (n.places ++ n.exponentText) := by
      rw [placesText, if_neg hplaces, List.cons_append]
    rw [hrest]
    split
    · next rest hpoint =>
      obtain rfl := (List.cons.inj hpoint).2
      rw [htake', hdrop', if_neg (hsome _), exponentOf?_exponentText]
      rfl
    · next hpoint => exact absurd rfl (hpoint _)

theorem isWhole_of_not_mem (hpoint : '.' ∉ n.text) (hexponent : 'e' ∉ n.text) : n.IsWhole := by
  rw [text, List.mem_append, List.mem_append, not_or, not_or] at hpoint hexponent
  constructor
  · by_contra h
    exact hpoint.2.1 (by rw [placesText, if_neg h]; exact List.mem_cons_self)
  · by_contra h
    exact hexponent.2.2 (by rw [exponentText, if_neg h]; exact List.mem_cons_self)

theorem text_of_isWhole (h : n.IsWhole) : n.text = n.whole := by
  rw [text, placesText, exponentText, if_pos h.1, if_pos h.2, List.append_nil, List.append_nil]

theorem exists_text_eq_cons (n : Numeral) : ∃ d t, n.text = d :: t ∧ d ∈ "0123456789".toList := by
  obtain ⟨d, ds, hwhole⟩ := List.exists_cons_of_ne_nil n.ne_nil
  refine ⟨d, ds ++ (n.placesText ++ n.exponentText), ?_, n.whole_digits d (hwhole ▸ List.mem_cons_self)⟩
  rw [text, hwhole, List.cons_append]

theorem splitSign_text (negative : Bool) (n : Numeral) :
    splitSign (signText negative ++ n.text) = (negative, n.text) := by
  obtain ⟨d, t, htext, hd⟩ := exists_text_eq_cons n
  cases negative with
  | true => rfl
  | false =>
    rw [signText, if_neg Bool.false_ne_true, List.nil_append, htext]
    unfold splitSign
    split
    · next h => exact absurd ((List.cons.inj h).1 ▸ hd) (by decide)
    · next h => exact absurd ((List.cons.inj h).1 ▸ hd) (by decide)
    · rfl

/-- No numeral is a word, in capital letters or small ones. -/
theorem asciiLower_text_ne (n : Numeral) {c : Char} (hc : c ∉ "0123456789".toList) (word : Text) :
    Datum.asciiLower n.text ≠ c :: word := by
  have hlower : ∀ d ∈ "0123456789".toList, d.toLower = d := Text.forall_mem_of_all (by decide)
  obtain ⟨d, t, htext, hd⟩ := exists_text_eq_cons n
  rw [htext, Datum.asciiLower, List.map_cons, hlower d hd]
  intro h
  exact hc ((List.cons.inj h).1 ▸ hd)

/-- A numeral is read as the number that is closest to its value. -/
theorem realOf?_text (negative : Bool) (n : Numeral) : Datum.realOf? (signText negative ++ n.text) =
    some (Binary64.ofDecimal negative n.units n.power) := by
  rw [Datum.realOf?, splitSign_text]
  dsimp only
  rw [if_neg, if_neg]
  · exact decimalOf?_text negative n
  · exact asciiLower_text_ne n (by decide) _
  · rintro (h | h)
    · exact asciiLower_text_ne n (by decide) _ h
    · exact asciiLower_text_ne n (by decide) _ h

/-! ### Written numerals -/

/-- The digits of a natural number. -/
def ofNat (k : ℕ) : Numeral where
  whole := natText k
  places := []
  exponent := []
  ne_nil := natText_ne_nil k
  whole_digits _ hc := mem_digits_of_mem_natText hc
  places_digits := by simp
  exponent_digits := by simp

theorem value_ofNat (k : ℕ) : (ofNat k).value = k := by
  rw [value, units, power, ofNat, List.append_nil, digitsValue_natText, digitsValue_nil]
  simp

theorem text_ofNat (k : ℕ) : (ofNat k).text = natText k :=
  List.append_nil (natText k)

/-- A positional numeral. -/
def ofFraction {whole : ℕ} {places : Text} {q : ℚ} (h : Significand.Fraction whole places q) : Numeral where
  whole := natText whole
  places := places
  exponent := []
  ne_nil := natText_ne_nil whole
  whole_digits _ hc := mem_digits_of_mem_natText hc
  places_digits := h.digits
  exponent_digits := by simp

theorem value_ofFraction {whole : ℕ} {places : Text} {q : ℚ} (h : Significand.Fraction whole places q) :
    (ofFraction h).value = q := by
  refine Eq.trans ?_ h.value
  rw [value, units, power, ofFraction, digitsValue_append, digitsValue_natText, digitsValue_nil]
  dsimp only
  rw [Nat.cast_zero, neg_zero, zero_sub, zpow_neg, zpow_natCast]
  push_cast
  field_simp

theorem text_ofFraction {whole : ℕ} {places : Text} {q : ℚ} (h : Significand.Fraction whole places q) :
    (ofFraction h).text = natText whole ++ '.' :: places := by
  rw [text, placesText, exponentText, ofFraction, if_neg h.ne_nil, if_pos rfl, List.append_nil]

/-- A significand below the range of a layout is written as a numeral of its value with an exponent. -/
theorem exists_of_lt_lowest {layout : PointLayout} {s : Significand} (h : s.Normal)
    (hlow : s.point < layout.lowest) (hle : s.point ≤ 0) :
    ∃ n : Numeral, n.text = layout.write s ∧ n.value = s.value ∧ n.exponent ≠ [] := by
  obtain ⟨d, ds, hs, -⟩ := h.first
  have hdigits := h.digits
  rw [hs] at hdigits
  have hzero : ∀ c ∈ ['0'], c ∈ Significand.leadingChars := List.forall_mem_singleton.mpr (by decide)
  have hexponent := Significand.exponent_of_leading hzero (List.cons_ne_nil _ _)
    (layout.exponentDigits - (natText (s.point - 1).natAbs).length) (s.point - 1).natAbs
  rw [Significand.write_of_lt_lowest hs hlow hle]
  generalize List.replicate _ '0' ++ natText _ = exponent at hexponent
  refine ⟨⟨[d], ds, exponent, List.cons_ne_nil _ _, ?_, ?_, hexponent.digits⟩, ?_, ?_, hexponent.ne_nil⟩
  · exact List.forall_mem_singleton.mpr (hdigits d List.mem_cons_self)
  · exact fun c hc => hdigits c (List.mem_cons_of_mem d hc)
  · rw [text, placesText, exponentText, if_neg hexponent.ne_nil]
    split <;> simp_all
  · have hpower : -((s.point - 1).natAbs : ℤ) - ds.length = s.point - (ds.length + 1 : ℕ) := by
      omega
    rw [value, units, power, Significand.value, hs, List.length_cons, List.singleton_append]
    dsimp only
    rw [hexponent.value, hpower]

end Numeral

namespace Binary64

open Numeral (signText)

variable {x y : Binary64} {m : ℕ} {e : ℤ} {s : Bool} {hc : Canonical m e}

/-- The number without the sign that a zero may have. -/
def unsignZero : Binary64 → Binary64
  | x@(.finite _ m _ _) => if m = 0 then zero false else x
  | x => x

/-- A numeral that shows a number: it has a minus sign in front of it when the number is negative, is read as
the number, and has digits alone when the number is whole. -/
structure ShownAs (x : Binary64) (n : Numeral) : Prop where
  text : x.display = signText (decide (x.toRat < 0)) ++ n.text
  reads : ofDecimal (decide (x.toRat < 0)) n.units n.power = x.unsignZero
  whole : n.IsWhole ↔ ∃ i : ℤ, x.toRat = i

theorem toRat_eq_zero_iff : (finite s m e hc).toRat = 0 ↔ m = 0 := by
  have hpow : (2 : ℚ) ^ e ≠ 0 := by positivity
  have hsign : sign s ≠ 0 := by cases s <;> simp [sign]
  rw [toRat_eq_sign, mul_eq_zero, or_iff_right hsign, mul_eq_zero, or_iff_left hpow, Nat.cast_eq_zero]

theorem decide_toRat_neg (hm : m ≠ 0) : decide ((finite s m e hc).toRat < 0) = s := by
  rw [← Bool.coe_iff_coe, decide_eq_true_iff]
  exact toRat_neg_iff hm

/-- A whole number is shown as its digits. -/
theorem shownAs_ofNat {i : ℤ} (h : (finite s m e hc).toRat = i) :
    (finite s m e hc).ShownAs (Numeral.ofNat i.natAbs) where
  text := by
    rw [display_of_toRat rfl h, Numeral.text_ofNat, h, intText]
    simp only [Int.cast_lt_zero, signText, decide_eq_true_eq]
    split <;> rfl
  reads := by
    have habs : (m * 2 ^ e : ℚ) = i.natAbs := by
      rw [← abs_toRat_finite s m e hc, h, Nat.cast_natAbs, Int.cast_abs]
    have hvalue := Numeral.value_ofNat i.natAbs
    rw [← habs, Numeral.value] at hvalue
    rw [unsignZero]
    split
    · next hm =>
      have hzero : (finite s m e hc).toRat = 0 := toRat_eq_zero_iff.mpr hm
      rw [hm, Nat.cast_zero, zero_mul, mul_eq_zero, or_iff_left (by positivity), Nat.cast_eq_zero] at hvalue
      rw [hzero, hvalue, decide_eq_false (lt_irrefl 0), ofDecimal, if_pos rfl]
    · next hm =>
      rw [decide_toRat_neg hm]
      exact ofDecimal_exact hc hvalue s
  whole := iff_of_true ⟨rfl, rfl⟩ ⟨i, h⟩

/-- The shortest digits of a number that is not whole are written with a point or an exponent. -/
theorem exists_numeral_of_toInt? (h : (finite s m e hc).toInt? = none) : ∃ n : Numeral,
    n.text = numberLayout.write (shortest m e) ∧ n.value = (shortest m e).value ∧ ¬n.IsWhole := by
  obtain ⟨hm, he⟩ := neg_exponent_of_toInt? h
  have hnormal := normal_shortest hm hc
  rcases le_or_gt numberLayout.lowest (shortest m e).point with hlow | hlow
  · obtain ⟨whole, places, hwrite, hfraction⟩ :=
      Significand.exists_write_eq_fraction hnormal hlow (point_le_highest hm hc he)
    exact ⟨_, hwrite ▸ Numeral.text_ofFraction hfraction, Numeral.value_ofFraction hfraction,
      fun hwhole => hfraction.ne_nil hwhole.1⟩
  · obtain ⟨n, htext, hvalue, hexponent⟩ :=
      Numeral.exists_of_lt_lowest hnormal hlow (hlow.le.trans (by decide))
    exact ⟨n, htext, hvalue, fun hwhole => hexponent hwhole.2⟩

/-- A number that is not whole is shown with a point or an exponent. -/
theorem exists_shownAs_of_toInt? (h : (finite s m e hc).toInt? = none) :
    ∃ n : Numeral, (finite s m e hc).ShownAs n := by
  have hm := (neg_exponent_of_toInt? h).1
  have hnot : ¬∃ i : ℤ, (finite s m e hc).toRat = i := by
    rintro ⟨i, hi⟩
    rw [(toInt?_eq_some_iff rfl).mpr hi] at h
    cases h
  obtain ⟨n, htext, hvalue, hwhole⟩ := exists_numeral_of_toInt? h
  refine ⟨n, ?_, ?_, iff_of_false hwhole hnot⟩
  · rw [decide_toRat_neg hm, display_of_toInt? h, htext]
    rfl
  · rw [decide_toRat_neg hm, unsignZero, if_neg hm]
    exact ofDecimal_of_value hm hc hvalue s

theorem exists_shownAs (hx : x.isFinite) : ∃ n : Numeral, x.ShownAs n := by
  cases x with
  | finite s m e hc =>
    cases hint : (finite s m e hc).toInt? with
    | some i => exact ⟨_, shownAs_ofNat ((toInt?_eq_some_iff rfl).mp hint)⟩
    | none => exact exists_shownAs_of_toInt? hint
  | infinite s => cases hx
  | nan => cases hx

/-! ### What the text tells -/

theorem ShownAs.realOf? {n : Numeral} (h : x.ShownAs n) :
    Datum.realOf? x.display = some x.unsignZero := by
  rw [h.text, Numeral.realOf?_text, h.reads]

theorem ShownAs.closest {n : Numeral} (h : x.ShownAs n) :
    Closest (sign (decide (x.toRat < 0)) * n.value) x.unsignZero := by
  rw [← h.reads]
  exact closest_ofDecimal _ _ _

theorem toRat_unsignZero (x : Binary64) : x.unsignZero.toRat = x.toRat := by
  cases x with
  | finite s m e hc =>
    rw [unsignZero]
    split
    · next hm => rw [toRat_zero, toRat_eq_zero_iff.mpr hm]
    · rfl
  | infinite s => rfl
  | nan => rfl

/-- A minus sign or none, and digits alone. -/
def PlainInteger (t : Text) : Prop :=
  ∃ negative digits, t = signText negative ++ digits ∧ digits ≠ [] ∧
    ∀ c ∈ digits, c ∈ "0123456789".toList

theorem ShownAs.plainInteger_iff {n : Numeral} (h : x.ShownAs n) :
    PlainInteger x.display ↔ ∃ i : ℤ, x.toRat = i := by
  rw [← h.whole]
  constructor
  · rintro ⟨negative, digits, hdisplay, -, hdigits⟩
    have hchars : ∀ c ∈ n.text, c = '-' ∨ c ∈ "0123456789".toList := by
      intro c hc
      have hmem : c ∈ signText negative ++ digits := by
        rw [← hdisplay, h.text]
        exact List.mem_append_right _ hc
      rcases List.mem_append.mp hmem with hsign | hdigit
      · rw [signText] at hsign
        split at hsign
        · exact .inl (List.mem_singleton.mp hsign)
        · cases hsign
      · exact .inr (hdigits c hdigit)
    exact Numeral.isWhole_of_not_mem (fun hc => absurd (hchars _ hc) (by decide))
      fun hc => absurd (hchars _ hc) (by decide)
  · intro hwhole
    exact ⟨_, n.whole, by rw [h.text, Numeral.text_of_isWhole hwhole], n.ne_nil, n.whole_digits⟩

theorem signChar_eq_plus_iff {negative : Bool} : signChar negative = '+' ↔ negative = false := by
  cases negative <;> decide

theorem signChar_eq_minus_iff {negative : Bool} : signChar negative = '-' ↔ negative = true := by
  cases negative <;> decide

/-- The sign that is always shown. -/
theorem head?_displaySigned (hx : x.isFinite) :
    x.displaySigned.head? = some (signChar (decide (x.toRat < 0))) := by
  have hsign : x.isNonnegative = decide (0 ≤ x.toRat) := by
    cases x with
    | finite s m e hc => rfl
    | infinite s => cases hx
    | nan => cases hx
  obtain ⟨n, hshown⟩ := exists_shownAs hx
  rw [displaySigned, hsign]
  rcases lt_or_ge x.toRat 0 with hneg | hnonneg
  · rw [decide_eq_false (not_le.mpr hneg), if_neg Bool.false_ne_true, hshown.text, decide_eq_true hneg]
    rfl
  · rw [decide_eq_true hnonneg, if_pos rfl, decide_eq_false (not_lt.mpr hnonneg)]
    rfl

theorem toRat_eq_of_display_eq (hx : x.isFinite) (hy : y.isFinite) (h : x.display = y.display) :
    x.toRat = y.toRat := by
  obtain ⟨n, hn⟩ := exists_shownAs hx
  obtain ⟨k, hk⟩ := exists_shownAs hy
  have hread := hn.realOf?
  rw [h, hk.realOf?] at hread
  rw [← toRat_unsignZero x, ← toRat_unsignZero y, Option.some.inj hread]

/-- The text of a finite number determines it. It is a numeral whose closest number is the number itself, and
is read as that; zero loses its sign. Digits alone show a whole number, and whole numbers alone. Only equal
numbers have one text. A shown sign is a minus exactly before a negative number. -/
theorem display_determines (hx : x.isFinite) :
    Datum.realOf? x.display = some x.unsignZero ∧
    (∃ negative, ∃ n : Numeral, x.display = signText negative ++ n.text ∧
      Closest (sign negative * n.value) x.unsignZero ∧
      ((¬∃ i : ℤ, x.toRat = i) → n.places ≠ [] ∨ n.exponent ≠ [])) ∧
    (PlainInteger x.display ↔ ∃ i : ℤ, x.toRat = i) ∧
    (∀ y : Binary64, y.isFinite → x.display = y.display → x.toRat = y.toRat) ∧
    (x.displaySigned.head? = some '+' ↔ 0 ≤ x.toRat) ∧
    (x.displaySigned.head? = some '-' ↔ x.toRat < 0) := by
  obtain ⟨n, hshown⟩ := exists_shownAs hx
  have hnumeral : (¬∃ i : ℤ, x.toRat = i) → n.places ≠ [] ∨ n.exponent ≠ [] := by
    intro hnot
    rw [← hshown.whole, Numeral.IsWhole, not_and_or] at hnot
    exact hnot
  refine ⟨hshown.realOf?, ⟨_, n, hshown.text, hshown.closest, hnumeral⟩, hshown.plainInteger_iff,
    fun y hy => toRat_eq_of_display_eq hx hy, ?_, ?_⟩
  · rw [head?_displaySigned hx, Option.some.injEq, signChar_eq_plus_iff, decide_eq_false_iff_not, not_lt]
  · rw [head?_displaySigned hx, Option.some.injEq, signChar_eq_minus_iff, decide_eq_true_iff]

/-- The least positive number. -/
def leastPositive : Binary64 :=
  .finite false 1 (-1074) (by decide)

theorem display_determines_leastPositive : leastPositive.isFinite ∧
    leastPositive.display = "5e-324".toList ∧
    Datum.realOf? "5e-324".toList = some leastPositive ∧ ¬PlainInteger "5e-324".toList ∧
    0 ≤ leastPositive.toRat := by
  have hdisplay : leastPositive.display = "5e-324".toList := by decide +kernel
  have hint : leastPositive.toInt? = none := by decide +kernel
  obtain ⟨hread, -, hplain, -, hplus, -⟩ := display_determines (x := leastPositive) rfl
  rw [hdisplay] at hread hplain
  refine ⟨rfl, hdisplay, hread, ?_, hplus.mp ?_⟩
  · rw [hplain]
    rintro ⟨i, hi⟩
    rw [← toInt?_eq_some_iff rfl, hint] at hi
    cases hi
  · rw [head?_displaySigned rfl]
    decide +kernel

end Binary64

end GemScribe
