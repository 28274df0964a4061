import GemScribe.Proofs.Number.ReadAgain
import GemScribe.Proofs.Text.Lines
import GemScribe.Proofs.Text.Signs

/-!
Whole numbers read from their own texts.

The text of a whole number is already the plainest form that is looked for: nothing around it, one minus sign
at most, no zero in front, no fraction and no underscore. It is read as the number, as long as it does not have
more digits than a number is read from.
-/

namespace GemScribe

namespace Datum

variable {n : ℕ} {i : ℤ} {c : Char}

/-- What matters of the characters of a numeral to those who look for something else in it. -/
theorem of_mem_natText (h : c ∈ natText n) :
    isAsciiDigit c ∧ Text.isSpace c = false ∧ c ≠ '.' ∧ c ≠ '_' ∧ c ≠ '-' ∧ c ≠ '+' := by
  have hall : ∀ c ∈ "0123456789".toList,
      isAsciiDigit c ∧ Text.isSpace c = false ∧ c ≠ '.' ∧ c ≠ '_' ∧ c ≠ '-' ∧ c ≠ '+' :=
    Text.forall_mem_of_all (by decide)
  exact hall c (mem_digits_of_mem_natText h)

theorem splitSign_natText (n : ℕ) : splitSign (natText n) = (false, natText n) := by
  obtain ⟨c, ds, hds⟩ := List.exists_cons_of_ne_nil (natText_ne_nil n)
  have hc := of_mem_natText (n := n) (c := c) (hds ▸ List.mem_cons_self)
  rw [hds, splitSign]
  · rintro t ⟨⟩
    exact hc.2.2.2.2.1 rfl
  · rintro t ⟨⟩
    exact hc.2.2.2.2.2 rfl

theorem trim_intText (i : ℤ) : Text.trim Text.isSpace (intText i) = intText i := by
  refine Text.trim_of_forall_not fun c hc => ?_
  rw [intText] at hc
  split at hc
  · rcases List.mem_cons.mp hc with rfl | hc
    · decide
    · exact (of_mem_natText hc).2.1
  · exact (of_mem_natText hc).2.1

theorem splitSign_intText (i : ℤ) : splitSign (intText i) = (decide (i < 0), natText i.natAbs) := by
  rw [intText]
  split
  · next h => rw [decide_eq_true h]; rfl
  · next h => rw [decide_eq_false h, splitSign_natText]

theorem dropLeadingZeros?_natText (n : ℕ) : dropLeadingZeros? (natText n) = some (natText n) := by
  rcases Nat.eq_zero_or_pos n with rfl | hn
  · rfl
  · obtain ⟨c, ds, hds, hc⟩ := exists_natText_eq_cons hn
    have hdigit := (of_mem_natText (n := n) (c := c) (hds ▸ List.mem_cons_self)).1
    rw [hds, dropLeadingZeros?, if_neg hc, if_pos hdigit]

theorem dropZeroFraction_natText (n : ℕ) : dropZeroFraction (natText n) = natText n := by
  have hnone : (natText n).dropWhile (· ≠ '.') = [] := by
    rw [List.dropWhile_eq_nil_iff]
    intro c hc
    exact decide_eq_true (of_mem_natText hc).2.2.1
  rw [dropZeroFraction, hnone]

theorem dropUnderscores?_natText (n : ℕ) : (dropUnderscores? (natText n)).getD (natText n) = natText n := by
  have hkept : (natText n).filter (· ≠ '_') = natText n := by
    rw [List.filter_eq_self]
    intro c hc
    exact decide_eq_true (of_mem_natText hc).2.2.2.1
  rw [dropUnderscores?]
  split
  · rfl
  · rw [hkept, Option.getD_some]

theorem plainWhole?_intText (i : ℤ) : plainWhole? (intText i) = some (decide (i < 0), natText i.natAbs) := by
  obtain ⟨c, ds, hds⟩ := List.exists_cons_of_ne_nil (natText_ne_nil i.natAbs)
  have hc := of_mem_natText (n := i.natAbs) (c := c) (hds ▸ List.mem_cons_self)
  rw [plainWhole?, trim_intText, splitSign_intText]
  simp only [dropLeadingZeros?_natText, dropZeroFraction_natText, dropUnderscores?_natText,
    Option.bind_eq_bind, Option.bind_some]
  split
  · next h =>
    rw [hds] at h
    exact absurd (List.cons.inj h).1 hc.2.2.2.2.1
  · rfl

theorem plainDigits_natText (n : ℕ) : plainDigits (natText n) = true := by
  rcases Nat.eq_zero_or_pos n with rfl | hn
  · rfl
  · obtain ⟨c, ds, hds, hc⟩ := exists_natText_eq_cons hn
    have hdigits : (c :: ds).all isAsciiDigit := by
      rw [List.all_eq_true, ← hds]
      intro d hd
      exact (of_mem_natText hd).1
    rw [hds, plainDigits]
    · simp [hc, hdigits]
    · rintro rfl rfl
      exact hc rfl

theorem beginsTooLong_intText (h : i.natAbs < 10 ^ longestNumeral) : beginsTooLong (intText i) = false := by
  have hunsigned : (if (intText i).head? = some '-' then (intText i).tail else intText i) =
      natText i.natAbs := by
    rw [intText]
    split
    · rfl
    · split
      · next hhead =>
        exact absurd rfl (of_mem_natText (List.mem_of_mem_head? hhead)).2.2.2.2.1
      · rfl
  have hall : (natText i.natAbs).takeWhile isAsciiDigit = natText i.natAbs := by
    rw [List.takeWhile_eq_self_iff]
    intro c hc
    exact (of_mem_natText hc).1
  rw [beginsTooLong, hunsigned, hall, decide_eq_false_iff_not, not_and, not_lt]
  intro _
  exact length_natText_le_iff.mpr h

/-- A whole number is read from its text. -/
theorem wholeOf_intText (h : i.natAbs < 10 ^ longestNumeral) : wholeOf (intText i) = .ok i := by
  have hlength := length_natText_le_iff.mpr h
  have hvalue : (if decide (i < 0) then -(i.natAbs : ℤ) else i.natAbs) = i := by
    by_cases hneg : i < 0
    · rw [if_pos (decide_eq_true hneg)]
      omega
    · rw [if_neg (by simpa using hneg)]
      omega
  rw [wholeOf, if_neg (by rw [beginsTooLong_intText h]; decide), plainWhole?_intText]
  simp only [plainDigits_natText, hlength, digitsValue_natText, decide_true, Bool.and_self, if_true]
  rw [hvalue]

theorem asWhole_intText (h : i.natAbs < 10 ^ longestNumeral) : asWhole (.text (intText i)) = .fits i := by
  have hmark : Sign.mark ∉ intText i := by
    have hnumeral : ∀ c ∈ Text.numeralChars, c ≠ Sign.mark := Text.forall_mem_of_all (by decide)
    exact fun hmem => hnumeral _ (mem_numeralChars_of_mem_intText hmem) rfl
  rw [asWhole, Text.hasHalf_eq_false_of_not_mem hmark, if_neg Bool.false_ne_true, wholeOf_intText h]

end Datum

end GemScribe
