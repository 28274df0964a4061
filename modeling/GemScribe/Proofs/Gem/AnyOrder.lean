import GemScribe.Proofs.Gem.Percent
import GemScribe.Proofs.Number.Closest

/-!
Ranges in any order.

The range of some lines names the least and the greatest of their percentages. Of equal percentages the first
one is kept, and a percentage of very many digits counts as infinite. Which of equal ones is kept does not show:
equal numbers are shown alike, the two zeros included. A range is therefore known from the set of its lines,
as long as all of them are about one stat; their order and their repetitions do not matter.
-/

namespace GemScribe

namespace Binary64

variable {x y : Binary64}

/-- Where a number stands among all: the finite ones by their values, and the infinities at the ends. -/
def standing : Binary64 → WithBot (WithTop ℚ)
  | .finite s m e hc => ((finite s m e hc).toRat : WithTop ℚ)
  | .infinite negative => if negative then ⊥ else ⊤
  | .nan => ⊥

theorem lt_iff_standing (hx : x ≠ nan) (hy : y ≠ nan) : x.lt y ↔ x.standing < y.standing := by
  cases x with
  | finite s m e hc =>
    cases y with
    | finite s' m' e' hc' => simp [lt, standing]
    | infinite s' =>
      cases s' with
      | false => exact iff_of_true rfl (WithBot.coe_lt_coe.mpr (WithTop.coe_lt_top _))
      | true => simp [lt, standing]
    | nan => exact absurd rfl hy
  | infinite s =>
    cases y with
    | finite s' m' e' hc' => cases s <;> simp [lt, standing]
    | infinite s' => cases s <;> cases s' <;> simp [lt, standing]
    | nan => exact absurd rfl hy
  | nan => exact absurd rfl hx

/-- Finite numbers of one value are the same, unless they are zero. -/
theorem eq_of_toRat_eq (hx : x.isFinite) (hy : y.isFinite) (h : x.toRat = y.toRat) (hne : x.toRat ≠ 0) :
    x = y := by
  cases x with
  | finite s m e hc =>
    cases y with
    | finite s' m' e' hc' =>
      have hm : m ≠ 0 := by
        rintro rfl
        exact hne (by rw [toRat_finite, Nat.cast_zero, zero_mul, mul_zero])
      have hm' : m' ≠ 0 := by
        rintro rfl
        exact hne (by rw [h, toRat_finite, Nat.cast_zero, zero_mul, mul_zero])
      have hsign : s = s' := by
        have hs : (finite s m e hc).toRat < 0 ↔ s := toRat_neg_iff hm
        have hs' : (finite s' m' e' hc').toRat < 0 ↔ s' := toRat_neg_iff hm'
        rw [← Bool.coe_iff_coe, ← hs, ← hs', h]
      subst hsign
      -- both are what their common value rounds to
      have hvalue := natAbs_num_div_den (finite s m e hc).toRat
      have hround := round_exact hc (finite s m e hc).toRat.den_pos (hvalue.trans (abs_toRat_finite ..)) s
      rw [← hround]
      refine round_exact hc' (Rat.den_pos _) (hvalue.trans ?_) s
      rw [h, abs_toRat_finite]
    | infinite s' => cases hy
    | nan => cases hy
  | infinite s => cases hx
  | nan => cases hx

/-- Numbers that stand at one place are shown alike. -/
theorem display_of_standing (hx : x ≠ nan) (hy : y ≠ nan) (h : x.standing = y.standing) :
    x.display = y.display := by
  cases x with
  | finite s m e hc =>
    cases y with
    | finite s' m' e' hc' =>
      have hvalue : (finite s m e hc).toRat = (finite s' m' e' hc').toRat := by
        simpa [standing] using h
      by_cases hzero : (finite s m e hc).toRat = (0 : ℤ)
      · rw [display_of_toRat rfl hzero, display_of_toRat rfl (hvalue.symm.trans hzero)]
      · rw [Int.cast_zero] at hzero
        rw [eq_of_toRat_eq rfl rfl hvalue hzero]
    | infinite s' => cases s' <;> cases h
    | nan => exact absurd rfl hy
  | infinite s =>
    cases y with
    | finite s' m' e' hc' => cases s <;> cases h
    | infinite s' =>
      cases s <;> cases s'
      · rfl
      · cases h
      · cases h
      · rfl
    | nan => exact absurd rfl hy
  | nan => exact absurd rfl hx

end Binary64

namespace Range

open Binary64

variable {low high low' high' : Binary64} {xs ys : List Binary64} {line name t : Text}
  {lines lines' : List Text}

/-! ### Percentages -/

theorem percentAt?_ne_nan {x : Binary64} (h : percentAt? t = some x) : x ≠ nan := by
  have hdecimal : ∀ s k e, ofDecimal s k e ≠ nan := by
    intro s k e
    rw [ofDecimal_eq_round]
    exact round_ne_nan _ _ _
  rw [percentAt?] at h
  dsimp only at h
  split at h
  · split at h
    · cases h
    · exact Option.some.inj h ▸ hdecimal _ _ _
  · split at h
    · split at h
      · cases h
      · exact Option.some.inj h ▸ hdecimal _ _ _
    · cases h
  · cases h

theorem percent?_ne_nan {x : Binary64} : ∀ {t : Text}, percent? t = some x → x ≠ nan
  | [], h => by cases h
  | c :: t, h => by
      rw [percent?] at h
      split at h
      · next y hy =>
        obtain rfl := Option.some.inj h
        exact percentAt?_ne_nan hy
      · exact percent?_ne_nan h

/-- A line has a percentage, also when it shows none. -/
theorem percent_ne_nan (line : Text) : percent line ≠ nan := by
  rw [percent]
  cases h : percent? line with
  | none => exact finite_ne_nan
  | some x => exact percent?_ne_nan h

/-! ### Extremes -/

/-- The first number stands lowest and the second highest among the numbers. -/
structure Extremes (low high : Binary64) (xs : List Binary64) : Prop where
  low_mem : low ∈ xs
  high_mem : high ∈ xs
  low_le : ∀ x ∈ xs, low.standing ≤ x.standing
  le_high : ∀ x ∈ xs, x.standing ≤ high.standing

theorem extremes_least_greatest {x : Binary64} (hx : x ≠ nan) (hxs : ∀ y ∈ xs, y ≠ nan) :
    Extremes (least x xs) (greatest x xs) (x :: xs) := by
  obtain ⟨hlow, hleast⟩ := foldl_best (p := (· ≠ nan)) (fun a b : Binary64 => b.lt a) standing
    (fun a b ha hb => lt_iff_standing hb ha) hx hxs
  obtain ⟨hhigh, hgreatest⟩ := foldl_best (p := (· ≠ nan)) (fun a b : Binary64 => a.lt b)
    (fun y => OrderDual.toDual y.standing) (fun a b ha hb => lt_iff_standing ha hb) hx hxs
  exact ⟨hlow, hhigh, hleast, hgreatest⟩

/-- The extremes of the same numbers are shown alike, whatever their order and their repetitions. -/
theorem Extremes.describe_eq (h : Extremes low high xs) (h' : Extremes low' high' ys)
    (hsame : ∀ x, x ∈ ys ↔ x ∈ xs) (hxs : ∀ x ∈ xs, x ≠ nan) (name : Text) :
    describe low' high' name = describe low high name := by
  have hlow := (hsame low').mp h'.low_mem
  have hhigh := (hsame high').mp h'.high_mem
  refine describe_congr ?_ ?_ name
  · refine display_of_standing (hxs _ hlow) (hxs _ h.low_mem) (le_antisymm ?_ (h.low_le _ hlow))
    exact h'.low_le _ ((hsame low).mpr h.low_mem)
  · refine display_of_standing (hxs _ hhigh) (hxs _ h.high_mem) (le_antisymm (h.le_high _ hhigh) ?_)
    exact h'.le_high _ ((hsame high).mpr h.high_mem)

/-! ### Lines of one stat -/

/-- The range of some lines names their stat and the extremes of their percentages. -/
theorem exists_extremes (hne : lines ≠ []) (hname : ∀ line ∈ lines, statName line = name) :
    ∃ low high, combine lines = describe low high name ∧ Extremes low high (lines.map percent) := by
  cases lines with
  | nil => exact absurd rfl hne
  | cons line lines =>
    refine ⟨_, _, ?_, extremes_least_greatest (percent_ne_nan line) ?_⟩
    · rw [combine, hname line List.mem_cons_self]
    · intro x hx
      obtain ⟨other, -, rfl⟩ := List.mem_map.mp hx
      exact percent_ne_nan other

/-- Lines that are the same but for order and repetitions have the same range. -/
theorem combine_congr (hname : ∀ line ∈ lines, statName line = name)
    (hsame : ∀ line, line ∈ lines' ↔ line ∈ lines) : combine lines' = combine lines := by
  by_cases hne : lines = []
  · subst hne
    have hempty : lines' = [] := List.eq_nil_iff_forall_not_mem.mpr fun line hline =>
      absurd ((hsame line).mp hline) List.not_mem_nil
    rw [hempty]
  · have hne' : lines' ≠ [] := by
      obtain ⟨line, hline⟩ := List.exists_mem_of_ne_nil lines hne
      exact List.ne_nil_of_mem ((hsame line).mpr hline)
    obtain ⟨low, high, hcombine, hextremes⟩ := exists_extremes hne hname
    obtain ⟨low', high', hcombine', hextremes'⟩ :=
      exists_extremes hne' fun line hline => hname line ((hsame line).mp hline)
    rw [hcombine, hcombine']
    refine hextremes.describe_eq hextremes' (fun x => ?_) (fun x hx => ?_) name
    · simp only [List.mem_map, hsame]
    · obtain ⟨line, -, rfl⟩ := List.mem_map.mp hx
      exact percent_ne_nan line

/-- The range of lines about one stat goes from the least to the greatest of their percentages. It is the same
for the lines in any order, and with any line once more at any place, as only the set of the lines counts. -/
theorem combine_any_order (hne : lines ≠ []) (hname : ∀ line ∈ lines, statName line = name) :
    (∃ low high, combine lines = describe low high name ∧ Extremes low high (lines.map percent)) ∧
    (∀ lines', lines'.Perm lines → combine lines' = combine lines) ∧
    (∀ front back line, lines = front ++ back → line ∈ lines →
      combine (front ++ line :: back) = combine lines) ∧
    ∀ lines', (∀ line, line ∈ lines' ↔ line ∈ lines) → combine lines' = combine lines := by
  refine ⟨exists_extremes hne hname, ?_, ?_, ?_⟩
  · intro lines' hperm
    exact combine_congr hname fun line => hperm.mem_iff
  · rintro front back line rfl hline
    refine combine_congr hname fun other => ?_
    simp only [List.mem_append, List.mem_cons] at hline ⊢
    constructor
    · rintro (h | rfl | h)
      · exact Or.inl h
      · exact hline
      · exact Or.inr h
    · rintro (h | h)
      · exact Or.inl h
      · exact Or.inr (Or.inr h)
  · intro lines' hsame
    exact combine_congr hname hsame

/-- Both zeros, a line without a percentage, and a percentage of so many digits that it is infinite. -/
def areaLines : List Text :=
  ["-0% to Area of Effect 7".toList, "0% to Area of Effect".toList, "more to Area of Effect 12".toList,
    List.replicate 400 '9' ++ "% to Area of Effect".toList]

theorem combine_areaLines :
    combine areaLines = "+(0–inf)% to Area of Effect".toList ∧
    combine areaLines.reverse = "+(0–inf)% to Area of Effect".toList ∧
    combine ("0% to Area of Effect".toList :: areaLines) = "+(0–inf)% to Area of Effect".toList := by
  have hcombine : combine areaLines = "+(0–inf)% to Area of Effect".toList := by decide +kernel
  have hname : ∀ line ∈ areaLines, statName line = "Area of Effect".toList := by decide +kernel
  obtain ⟨-, hperm, htwice, -⟩ := combine_any_order (by decide) hname
  refine ⟨hcombine, ?_, ?_⟩
  · rw [hperm _ (List.reverse_perm areaLines), hcombine]
  · rw [← hcombine]
    exact htwice [] areaLines _ rfl (by decide)

end Range

end GemScribe
