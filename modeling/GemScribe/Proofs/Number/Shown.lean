import GemScribe.Proofs.Number.Numeral
import GemScribe.Proofs.Outcome

/-!
Quantities that are shown.

A quantity is shown unless it is a whole number beyond the range of binary64, and then it can be divided
and shown with its sign as well. Whatever is shown is made of the characters of numerals and of the words
for infinities and nan, and it has a digit or an `n` in it.
-/

namespace GemScribe

/-- The characters that shown numbers are made of. -/
def Text.shownChars : Text :=
  "0123456789.-+einfa".toList

/-- The characters of which every shown number has one. -/
def Text.solidChars : Text :=
  "0123456789n".toList

namespace Binary64

theorem mem_solidChars_of_mem_digits {c : Char} (h : c ∈ "0123456789".toList) :
    c ∈ Text.solidChars := by
  have hall : ∀ c ∈ "0123456789".toList, c ∈ Text.solidChars := Text.forall_mem_of_all (by decide)
  exact hall c h

theorem mem_digits_of_mem_shortest {m : Nat} {e : ℤ} {c : Char} (h : c ∈ (shortest m e).digits) :
    c ∈ "0123456789".toList := by
  rw [shortest] at h
  have hmem := (List.dropWhile_sublist _).subset (List.mem_reverse.mp h)
  exact mem_digits_of_mem_natText (List.mem_reverse.mp hmem)

/-- A significand is never written without a digit. -/
theorem exists_mem_write_digit (layout : PointLayout) {s : Significand} (hne : s.digits ≠ [])
    (hs : ∀ c ∈ s.digits, c ∈ "0123456789".toList) :
    ∃ c ∈ layout.write s, c ∈ "0123456789".toList := by
  rw [PointLayout.write]
  split
  · split
    · next hnil => exact absurd hnil hne
    · next d hd => exact ⟨d, List.mem_cons_self, hs d (by simp [hd])⟩
    · next d ds _ hd => exact ⟨d, List.mem_cons_self, hs d (by simp [hd])⟩
  · split
    · exact ⟨'0', List.mem_cons_self, by decide⟩
    · dsimp only
      cases hfraction : s.digits.drop s.point.toNat with
      | nil => exact ⟨'0', by simp, by decide⟩
      | cons d ds =>
        have hmem : d ∈ s.digits := List.mem_of_mem_drop (hfraction ▸ List.mem_cons_self)
        exact ⟨d, by simp, hs d hmem⟩

theorem mem_shownChars_of_mem_display {x : Binary64} {c : Char} (h : c ∈ x.display) :
    c ∈ Text.shownChars := by
  have hnumeral : ∀ c ∈ Text.numeralChars, c ∈ Text.shownChars := Text.forall_mem_of_all (by decide)
  cases x with
  | finite s m e hc =>
    exact hnumeral c (mem_numeralChars_of_mem_display (x := finite s m e hc) rfl h)
  | infinite s =>
    have hall : ∀ s, ∀ c ∈ (infinite s).display, c ∈ Text.shownChars
      | false => Text.forall_mem_of_all (by decide)
      | true => Text.forall_mem_of_all (by decide)
    exact hall s c h
  | nan =>
    have hall : ∀ c ∈ nan.display, c ∈ Text.shownChars := Text.forall_mem_of_all (by decide)
    exact hall c h

theorem exists_mem_intText_digit (i : ℤ) : ∃ c ∈ intText i, c ∈ "0123456789".toList := by
  obtain ⟨d, ds, hd⟩ := List.exists_cons_of_ne_nil (natText_ne_nil i.natAbs)
  have hmem : d ∈ natText i.natAbs := hd ▸ List.mem_cons_self
  refine ⟨d, ?_, mem_digits_of_mem_natText hmem⟩
  rw [intText]
  split
  · exact List.mem_cons_of_mem _ hmem
  · exact hmem

theorem exists_mem_display_solid (x : Binary64) : ∃ c ∈ x.display, c ∈ Text.solidChars := by
  cases x with
  | finite s m e hc =>
    rw [display]
    split
    · next i hi =>
      obtain ⟨c, hc, hdigit⟩ := exists_mem_intText_digit i
      exact ⟨c, hc, mem_solidChars_of_mem_digits hdigit⟩
    · rw [text]
      by_cases hm : m = 0
      · exact ⟨'0', by simp [hm], by decide⟩
      · obtain ⟨c, hmem, hdigit⟩ := exists_mem_write_digit numberLayout (digits_shortest_ne_nil hm hc)
          fun c => mem_digits_of_mem_shortest
        rw [if_neg hm]
        exact ⟨c, List.mem_append_right _ hmem, mem_solidChars_of_mem_digits hdigit⟩
  | infinite s =>
    have hmem : ∀ s, 'n' ∈ (infinite s).display := by decide
    exact ⟨'n', hmem s, by decide⟩
  | nan =>
    exact ⟨'n', by decide, by decide⟩

end Binary64

namespace Quantity

/-- What has a binary64 number near it is below `2^1024`. -/
theorem abs_lt_of_nearest_eq_ok {q : ℚ} {x : Binary64} (h : nearest q = .ok x) : |q| < 2 ^ 1024 := by
  by_contra hge
  rw [not_lt] at hge
  have hzero : q.num ≠ 0 := by
    intro hzero
    rw [Rat.num_eq_zero.mp hzero, abs_zero] at hge
    exact absurd hge (by norm_num)
  have habs := Binary64.natAbs_num_div_den q
  have hround := Binary64.round_of_le (Int.natAbs_pos.mpr hzero) q.pos
    (habs ▸ Binary64.rangeEnd_le_two_pow.trans hge) (decide (q.num < 0))
  rw [nearest, Binary64.ofRat, if_neg hzero, hround] at h
  cases h

variable {v : Quantity} {t : Text}

theorem nearest_of_display_whole {i : ℤ} (h : display (.whole i) = .ok t) :
    (∃ x, nearest i = .ok x) ∧ t = intText i := by
  rw [display] at h
  cases hn : nearest i with
  | error cause =>
    rw [hn] at h
    cases h
  | ok x =>
    rw [hn] at h
    exact ⟨⟨x, rfl⟩, (Except.ok.inj h).symm⟩

/-- A quantity that equals a whole number is shown as that number. -/
theorem display_of_equalsInt {i : ℤ} (hi : v.equalsInt i) (h : v.display = .ok t) : t = intText i := by
  cases v with
  | whole j =>
    obtain rfl : j = i := by simpa [equalsInt] using hi
    exact (nearest_of_display_whole h).2
  | real x =>
    obtain rfl := Except.ok.inj h
    cases x with
    | finite s m e hc =>
      have hint : (Binary64.finite s m e hc).toInt? = some i := by simpa [equalsInt] using hi
      rw [Binary64.display, hint]
    | infinite s => cases hi
    | nan => cases hi

/-- What can be shown can be divided. -/
theorem exists_divBy_of_display (h : v.display = .ok t) : ∃ q, v.divBy 1000 = .ok q := by
  cases v with
  | real x => exact ⟨_, rfl⟩
  | whole i =>
    obtain ⟨⟨x, hx⟩, -⟩ := nearest_of_display_whole h
    have hlt : |(i : ℚ) / (1000 : ℕ)| < 2 ^ 1023 := by
      rw [abs_div, Nat.abs_cast, div_lt_iff₀ (by norm_num)]
      calc |(i : ℚ)| < 2 ^ 1024 := abs_lt_of_nearest_eq_ok hx
        _ = 2 ^ 1023 * 2 := pow_succ 2 1023
        _ ≤ 2 ^ 1023 * (1000 : ℕ) := by gcongr; norm_num
    rw [divBy, Rat.mkRat_eq_div]
    exact ⟨_, nearest_eq_ok hlt⟩

/-- What can be shown can be shown with its sign. -/
theorem exists_displaySigned_of_display (h : v.display = .ok t) : ∃ s, v.displaySigned = .ok s := by
  cases v with
  | real x => exact ⟨_, rfl⟩
  | whole i => exact ⟨_, by rw [displaySigned, h]⟩

theorem mem_shownChars_of_display (h : v.display = .ok t) : ∀ c ∈ t, c ∈ Text.shownChars := by
  have hnumeral : ∀ c ∈ Text.numeralChars, c ∈ Text.shownChars := Text.forall_mem_of_all (by decide)
  intro c hc
  cases v with
  | real x =>
    obtain rfl := Except.ok.inj h
    exact Binary64.mem_shownChars_of_mem_display hc
  | whole i =>
    obtain ⟨-, rfl⟩ := nearest_of_display_whole h
    exact hnumeral c (mem_numeralChars_of_mem_intText hc)

theorem exists_mem_solidChars_of_display (h : v.display = .ok t) : ∃ c ∈ t, c ∈ Text.solidChars := by
  cases v with
  | real x =>
    obtain rfl := Except.ok.inj h
    exact Binary64.exists_mem_display_solid x
  | whole i =>
    obtain ⟨-, rfl⟩ := nearest_of_display_whole h
    obtain ⟨c, hc, hdigit⟩ := Binary64.exists_mem_intText_digit i
    exact ⟨c, hc, Binary64.mem_solidChars_of_mem_digits hdigit⟩

end Quantity

end GemScribe
