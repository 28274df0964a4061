import GemScribe.Proofs.Number.Numeral
import GemScribe.Proofs.Outcome
import GemScribe.Proofs.Text.Parts
import GemScribe.Stat.Variant

/-!
The count in a line.

A line is searched for `is` and a run of digits before its unit. Words without digits in front of the
count are passed over. A numeral of digits alone is found; any other numeral is not, since a character
that is no digit stands between its digits and the unit, and then the line has no count at all.
-/

namespace GemScribe.Variant

variable {unit t : Text}

theorem countBefore?_cons_of_ne {c : Char} (h : c ≠ 'i') :
    countBefore? unit (c :: t) = countBefore? unit t := by
  have hstart : Text.dropStart? "is ".toList (c :: t) = none := by
    change Text.dropStart? ('i' :: "s ".toList) (c :: t) = none
    rw [Text.dropStart?, if_neg h.symm]
  rw [countBefore?, hstart]

theorem countBefore?_append_of_not_mem : ∀ {s : Text}, 'i' ∉ s → ∀ (t : Text),
    countBefore? unit (s ++ t) = countBefore? unit t
  | [], _, _ => rfl
  | c :: s, h, t => by
      rw [List.mem_cons, not_or] at h
      rw [List.cons_append, countBefore?_cons_of_ne (Ne.symm h.1),
        countBefore?_append_of_not_mem h.2]

theorem countBefore?_of_not_mem (h : 'i' ∉ t) : countBefore? unit t = none := by
  have happend : countBefore? unit (t ++ []) = countBefore? unit [] :=
    countBefore?_append_of_not_mem h []
  rw [List.append_nil] at happend
  exact happend

/-- A text at which no count starts is passed over by one character. -/
theorem countBefore?_cons {c : Char}
    (h : ∀ rest, c :: t = 'i' :: 's' :: ' ' :: rest → rest.takeWhile Text.isDigit = []) :
    countBefore? unit (c :: t) = countBefore? unit t := by
  rw [countBefore?]
  split
  · rfl
  · next rest hrest =>
    rw [if_neg]
    rintro ⟨hdigits, -⟩
    exact hdigits (h rest (Text.dropStart?_eq_some_iff.mp hrest))

/-- Words without digits are passed over. -/
theorem countBefore?_append : ∀ {words : Text}, (∀ c ∈ words, Text.isDigit c = false) →
    countBefore? unit (words ++ ' ' :: 'i' :: t) = countBefore? unit ('i' :: t)
  | [], _ => countBefore?_cons_of_ne (by decide)
  | c :: words, h => by
      rw [List.forall_mem_cons] at h
      rw [List.cons_append, countBefore?_cons, countBefore?_append h.2]
      intro rest hrest
      have hletter : Text.isDigit 'i' = false := by decide
      have hblank : Text.isDigit ' ' = false := by decide
      -- what follows `is ` begins inside the words, or with the letter after them
      match words, h.2, hrest with
      | [], _, hrest => cases hrest
      | [_], _, hrest =>
        cases hrest
        exact List.takeWhile_cons_of_neg (by simp [hletter])
      | [_, _], _, hrest =>
        cases hrest
        exact List.takeWhile_cons_of_neg (by simp [hblank])
      | _ :: _ :: d :: words, h, hrest =>
        cases hrest
        exact List.takeWhile_cons_of_neg (by simp [h d (by simp)])

/-- A numeral of digits alone is the count. -/
theorem countBefore?_digits {n u : Text} (hne : n ≠ []) (h : ∀ c ∈ n, Text.isDigit c) :
    countBefore? (' ' :: u) ("is ".toList ++ (n ++ ' ' :: (u ++ t))) = some n := by
  have hblank : Text.isDigit ' ' = false := by decide
  have hstart := Text.dropStart?_append "is ".toList (n ++ ' ' :: (u ++ t))
  have htake : (n ++ ' ' :: (u ++ t)).takeWhile Text.isDigit = n := by
    rw [List.takeWhile_append_of_pos h, List.takeWhile_cons, hblank]
    exact List.append_nil n
  have hdrop : (n ++ ' ' :: (u ++ t)).dropWhile Text.isDigit = ' ' :: u ++ t := by
    rw [List.dropWhile_append_of_pos h, List.dropWhile_cons, hblank]
    rfl
  have hunit : Text.startsWith (' ' :: u) (' ' :: u ++ t) :=
    Text.startsWith_iff.mpr (List.prefix_append _ _)
  change countBefore? (' ' :: u) ('i' :: ("s ".toList ++ (n ++ ' ' :: (u ++ t)))) = some n
  rw [countBefore?]
  change Text.dropStart? "is ".toList ('i' :: ("s ".toList ++ (n ++ ' ' :: (u ++ t)))) = _ at hstart
  rw [hstart]
  dsimp only
  rw [htake, hdrop, if_pos ⟨hne, hunit⟩]

/-- A numeral with another character leaves the line without a count. -/
theorem countBefore?_of_not_digits {n u : Text} (h : ∃ c ∈ n, Text.isDigit c = false)
    (hblank : ' ' ∉ n) (hn : 'i' ∉ n) (ht : 'i' ∉ t) :
    countBefore? (' ' :: u) ("is ".toList ++ (n ++ ' ' :: t)) = none := by
  have hstart := Text.dropStart?_append "is ".toList (n ++ ' ' :: t)
  have hrest : n.dropWhile Text.isDigit ≠ [] := by
    rw [ne_eq, List.dropWhile_eq_nil_iff]
    intro hall
    obtain ⟨c, hc, hdigit⟩ := h
    rw [hall c hc] at hdigit
    cases hdigit
  have hunit : Text.startsWith (' ' :: u) ((n ++ ' ' :: t).dropWhile Text.isDigit) = false := by
    rw [List.dropWhile_append, if_neg (by simpa using hrest)]
    obtain ⟨c, rest, hc⟩ := List.exists_cons_of_ne_nil hrest
    have hmem : c ∈ n := (List.dropWhile_sublist _).subset (hc ▸ List.mem_cons_self)
    have hne : ' ' ≠ c := fun heq => hblank (heq ▸ hmem)
    rw [hc, List.cons_append, Text.startsWith, Text.dropStart?, if_neg hne]
    rfl
  have hscan : 'i' ∉ "s ".toList ++ (n ++ ' ' :: t) := by
    simp [hn, ht]
  change Text.dropStart? "is ".toList ('i' :: ("s ".toList ++ (n ++ ' ' :: t))) = _ at hstart
  change countBefore? (' ' :: u) ('i' :: ("s ".toList ++ (n ++ ' ' :: t))) = none
  rw [countBefore?, hstart]
  dsimp only
  rw [if_neg (by rw [hunit]; simp), countBefore?_of_not_mem hscan]

/-- Of two lines with the same count the first never fits. -/
theorem firstFits_self {n : Text} (h : n.length ≤ longestNumeral) : firstFits n n = .ok false := by
  have hread := readNat_eq_ok.mpr ⟨h, rfl⟩
  rw [firstFits, bind_eq_ok]
  refine ⟨Text.digitsValue n, hread, ?_⟩
  by_cases hone : Text.digitsValue n = 1
  · rw [if_pos hone, bind_eq_ok]
    exact ⟨Text.digitsValue n, hread, by rw [hone]; rfl⟩
  · exact if_neg hone

end GemScribe.Variant
