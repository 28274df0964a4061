import GemScribe.Gem.Quality
import GemScribe.Proofs.Number.Written

/-!
Percentages that are read back.

The line of a stat shows a percentage, and the range of its lines is made from the percentages read in
them again. A number shown with digits and perhaps a point is read as itself, except that zero loses its
sign. A number below a ten-thousandth is shown with an exponent, and the exponent is what stands next to
the percent sign: `+1e-05%` counts as minus five. `combine_percentLines` says what the range of any lines
is, and that it spans the values themselves when none of them is that small.
-/

namespace GemScribe

namespace Range

open Binary64

/-! ### One percentage -/

theorem isDigit_of_mem_digits {c : Char} (h : c ∈ "0123456789".toList) : Text.isDigit c := by
  have hall : ∀ c ∈ "0123456789".toList, Text.isDigit c := Text.forall_mem_of_all (by decide)
  exact hall c h

/-- A run of digits ends at the first other character. -/
theorem span_digits {ds : Text} (hds : ∀ c ∈ ds, Text.isDigit c) {c : Char}
    (hc : Text.isDigit c = false) (t : Text) :
    (ds ++ c :: t).takeWhile Text.isDigit = ds ∧ (ds ++ c :: t).dropWhile Text.isDigit = c :: t := by
  refine Text.span_append hds fun d hd => ?_
  rwa [← Option.some.inj hd]

theorem splitSign_signChar (negative : Bool) (t : Text) :
    splitSign (signChar negative :: t) = (negative, t) := by
  cases negative <;> rfl

theorem percentAt?_whole (negative : Bool) {ds : Text} (hds : ∀ c ∈ ds, Text.isDigit c)
    (hne : ds ≠ []) (t : Text) : percentAt? (signChar negative :: (ds ++ '%' :: t)) =
      some (ofDecimal negative (Text.digitsValue ds) 0) := by
  obtain ⟨htake, hdrop⟩ := span_digits hds (by decide : Text.isDigit '%' = false) t
  rw [percentAt?, splitSign_signChar]
  dsimp only
  rw [htake, hdrop]
  exact if_neg hne

theorem percentAt?_fraction (negative : Bool) {ds places : Text} (hds : ∀ c ∈ ds, Text.isDigit c)
    (hplaces : ∀ c ∈ places, Text.isDigit c) (hne : places ≠ []) (t : Text) :
    percentAt? (signChar negative :: (ds ++ '.' :: (places ++ '%' :: t))) =
      some (ofDecimal negative (Text.digitsValue (ds ++ places)) (-places.length)) := by
  obtain ⟨htake, hdrop⟩ := span_digits hds (by decide : Text.isDigit '.' = false)
    (places ++ '%' :: t)
  obtain ⟨htake', hdrop'⟩ := span_digits hplaces (by decide : Text.isDigit '%' = false) t
  rw [percentAt?, splitSign_signChar]
  dsimp only
  rw [htake, hdrop]
  split
  · next h => exact absurd (List.cons.inj h).1 (by decide)
  · next rest h =>
    obtain rfl := (List.cons.inj h).2
    rw [htake', hdrop']
    exact if_neg hne
  · next hpoint => exact absurd rfl (hpoint _)

/-! ### The first percentage -/

/-- The characters other than digits that a percentage may have in front of its sign. -/
def percentMarks : Text :=
  "+-.".toList

theorem exists_splitSign (t : Text) : ∃ u, t = u ++ (splitSign t).2 ∧ ∀ c ∈ u, c ∈ percentMarks := by
  unfold splitSign
  split
  · exact ⟨['-'], rfl, List.forall_mem_singleton.mpr (by decide)⟩
  · exact ⟨['+'], rfl, List.forall_mem_singleton.mpr (by decide)⟩
  · exact ⟨[], rfl, by simp⟩

/-- What stands in front of the percent sign of a percentage. -/
theorem exists_of_percentAt? {t : Text} {x : Binary64} (h : percentAt? t = some x) :
    ∃ u rest, t = u ++ '%' :: rest ∧ ∀ c ∈ u, Text.isDigit c ∨ c ∈ percentMarks := by
  obtain ⟨u, ht, hu⟩ := exists_splitSign t
  have hdigits : ∀ s : Text, ∀ c ∈ s.takeWhile Text.isDigit, Text.isDigit c :=
    fun s c hc => List.mem_takeWhile_imp hc
  have hspan := fun s : Text => (List.takeWhile_append_dropWhile (p := Text.isDigit) (l := s)).symm
  rw [percentAt?] at h
  dsimp only at h
  split at h
  · next rest hrest =>
    refine ⟨u ++ (splitSign t).2.takeWhile Text.isDigit, rest, ?_, fun c hc => ?_⟩
    · rw [List.append_assoc, ← hrest, ← hspan, ← ht]
    · exact (List.mem_append.mp hc).elim (fun hc => .inr (hu c hc)) fun hc => .inl (hdigits _ c hc)
  · next rest hrest =>
    split at h
    · next rest' hrest' =>
      refine ⟨u ++ (splitSign t).2.takeWhile Text.isDigit ++ '.' :: rest.takeWhile Text.isDigit, rest',
        ?_, fun c hc => ?_⟩
      · rw [List.append_assoc, List.cons_append, ← hrest', ← hspan, List.append_assoc, ← hrest, ← hspan,
          ← ht]
      · rcases List.mem_append.mp hc with hc | hc
        · exact (List.mem_append.mp hc).elim (fun hc => .inr (hu c hc)) fun hc => .inl (hdigits _ c hc)
        · rcases List.mem_cons.mp hc with rfl | hc
          · exact .inr (by decide)
          · exact .inl (hdigits _ c hc)
    · cases h
  · cases h

/-- A character that no percentage has keeps what is in front of it out of them. -/
theorem percentAt?_append_cons {c : Char} (hdigit : Text.isDigit c = false) (hmark : c ∉ percentMarks)
    (hc : c ≠ '%') {u : Text} (hu : '%' ∉ u) (t : Text) : percentAt? (u ++ c :: t) = none := by
  cases h : percentAt? (u ++ c :: t) with
  | none => rfl
  | some x =>
    obtain ⟨v, rest, hv, hchars⟩ := exists_of_percentAt? h
    rcases List.append_eq_append_iff.mp hv with ⟨w, rfl, hw⟩ | ⟨w, rfl, hw⟩
    · cases w with
      | nil => exact absurd (List.cons.inj hw).1 hc
      | cons d w =>
        obtain ⟨rfl, -⟩ := List.cons.inj hw
        rcases hchars c (by simp) with hd | hm
        · rw [hdigit] at hd
          cases hd
        · exact absurd hm hmark
    · cases w with
      | nil => exact absurd (List.cons.inj hw).1.symm hc
      | cons d w =>
        obtain ⟨rfl, -⟩ := List.cons.inj hw
        exact absurd (by simp) hu

theorem percent?_append_cons {c : Char} (hdigit : Text.isDigit c = false) (hmark : c ∉ percentMarks)
    (hc : c ≠ '%') : ∀ {u : Text}, '%' ∉ u → ∀ t, percent? (u ++ c :: t) = percent? t
  | [], hu, t => by
      have hnone := percentAt?_append_cons hdigit hmark hc hu t
      rw [List.nil_append] at hnone ⊢
      rw [percent?, hnone]
  | d :: u, hu, t => by
      have hnone := percentAt?_append_cons hdigit hmark hc hu t
      rw [List.cons_append] at hnone ⊢
      rw [percent?, hnone]
      exact percent?_append_cons hdigit hmark hc (fun h => hu (List.mem_cons_of_mem d h)) t

theorem percent_of_percentAt? {t : Text} {x : Binary64} (h : percentAt? t = some x) (hne : t ≠ []) :
    percent t = x := by
  cases t with
  | nil => exact absurd rfl hne
  | cons c t => rw [percent, percent?, h, Option.getD_some]

/-! ### The line of a stat -/

/-- The line that shows a percentage of a stat. -/
def percentLine (x : Binary64) (name : Text) : Text :=
  x.displaySigned ++ "% to ".toList ++ name

theorem percentLine_eq (x : Binary64) (name : Text) :
    percentLine x name = x.displaySigned ++ '%' :: ' ' :: 't' :: 'o' :: ' ' :: name :=
  List.append_assoc _ _ _

/-- The number that is read back from a line that shows one: zero has no sign, and below a ten-thousandth
the exponent is read in place of the number. -/
def reread : Binary64 → Binary64
  | x@(.finite _ m e _) =>
    if m = 0 then zero false
    else if 1 / 10 ^ 4 ≤ |x.toRat| then x
    else ofDecimal true ((shortest m e).point - 1).natAbs 0
  | x => x

variable {m : ℕ} {e : ℤ} {negative : Bool} {hc : Canonical m e}

theorem reread_of_le (h : (10 : ℚ) ^ (-4 : ℤ) ≤ m * 2 ^ e) :
    reread (finite negative m e hc) = finite negative m e hc := by
  have hm : m ≠ 0 := by
    rintro rfl
    rw [Nat.cast_zero, zero_mul] at h
    exact absurd h (by norm_num)
  have hfour : (10 : ℚ) ^ (-4 : ℤ) = 1 / 10 ^ 4 := by norm_num
  rw [hfour] at h
  rw [reread, if_neg hm, abs_toRat_finite, if_pos h]

theorem reread_of_lt (hm : m ≠ 0) (h : (m * 2 ^ e : ℚ) < 10 ^ (-4 : ℤ)) :
    reread (finite negative m e hc) = ofDecimal true ((shortest m e).point - 1).natAbs 0 := by
  have hfour : (10 : ℚ) ^ (-4 : ℤ) = 1 / 10 ^ 4 := by norm_num
  rw [hfour, ← not_le] at h
  rw [reread, if_neg hm, abs_toRat_finite, if_neg h]

theorem percent_percentLine_of_percentAt? {x y : Binary64} {name : Text}
    (h : percentAt? (percentLine x name) = some y) : percent (percentLine x name) = y :=
  percent_of_percentAt? h (by simp [percentLine_eq])

/-- A whole number is read back from its digits. -/
theorem percent_of_whole {i : ℤ} (h : (finite negative m e hc).toRat = i) (name : Text) :
    percent (percentLine (finite negative m e hc) name) = reread (finite negative m e hc) := by
  have habs : (m * 2 ^ e : ℚ) = (i.natAbs : ℕ) := by
    rw [← abs_toRat_finite negative m e hc, h, Nat.cast_natAbs, Int.cast_abs]
  have hread : percent (percentLine (finite negative m e hc) name) =
      ofDecimal (i < 0) i.natAbs 0 := by
    refine percent_percentLine_of_percentAt? ?_
    rw [percentLine_eq, displaySigned_of_toRat rfl h, List.cons_append, percentAt?_whole _
      (fun c hc => isDigit_of_mem_natText hc) (natText_ne_nil _), digitsValue_natText]
  rw [hread]
  by_cases hm : m = 0
  · have hzero : i.natAbs = 0 := by
      rw [hm, Nat.cast_zero, zero_mul] at habs
      exact_mod_cast habs.symm
    have hnot : ¬i < 0 := by omega
    rw [reread, if_pos hm, hzero, decide_eq_false hnot, ofDecimal, if_pos rfl]
  · have hsign : decide (i < 0) = negative := by
      have hneg : (finite negative m e hc).toRat < 0 ↔ negative := toRat_neg_iff hm
      rw [h, Int.cast_lt_zero] at hneg
      rw [← Bool.coe_iff_coe, decide_eq_true_iff, hneg]
    have hone : (1 : ℚ) ≤ m * 2 ^ e := by
      have hpos : (0 : ℚ) < m * 2 ^ e := by
        have hm : 0 < m := Nat.pos_of_ne_zero hm
        positivity
      rw [habs, Nat.cast_pos] at hpos
      rw [habs]
      exact_mod_cast hpos
    rw [reread_of_le (le_trans (zpow_le_one_of_nonpos₀ (by norm_num) (by decide)) hone), hsign]
    exact ofDecimal_exact hc (by rw [habs, zpow_zero, mul_one]) negative

/-- A number with a fraction is read back from its digits. -/
theorem percent_of_fraction (h : (finite negative m e hc).toInt? = none)
    (hlow : (10 : ℚ) ^ (-4 : ℤ) ≤ m * 2 ^ e) (name : Text) :
    percent (percentLine (finite negative m e hc) name) = reread (finite negative m e hc) := by
  have hm := (neg_exponent_of_toInt? h).1
  obtain ⟨whole, places, hdisplay, hfraction⟩ := exists_display_fraction h hlow
  have hvalue : (Text.digitsValue (natText whole ++ places) * 10 ^ (-places.length : ℤ) : ℚ) =
      (shortest m e).value := by
    rw [← hfraction.value, digitsValue_append, digitsValue_natText, zpow_neg, zpow_natCast]
    push_cast
    field_simp
  rw [reread_of_le hlow]
  refine percent_percentLine_of_percentAt? ?_
  rw [percentLine_eq, displaySigned_of_display hm hdisplay, List.cons_append, List.append_assoc,
    List.cons_append, percentAt?_fraction _ (fun c hc => isDigit_of_mem_natText hc)
    (fun c hc => isDigit_of_mem_digits (hfraction.digits c hc)) hfraction.ne_nil,
    ofDecimal_of_value hm hc hvalue]

/-- A number with an exponent is read as that exponent. -/
theorem percent_of_exponent (h : (finite negative m e hc).toInt? = none)
    (hlow : (m * 2 ^ e : ℚ) < 10 ^ (-4 : ℤ)) (name : Text) :
    percent (percentLine (finite negative m e hc) name) = reread (finite negative m e hc) := by
  have hm := (neg_exponent_of_toInt? h).1
  obtain ⟨leading, exponent, hdisplay, hexponent⟩ := exists_display_exponent h hlow
  have hskipped : '%' ∉ signChar negative :: leading := by
    have hleading : '%' ∉ leading :=
      fun hmem => absurd (hexponent.leading_chars _ hmem) (by decide)
    have hsign : '%' ≠ signChar negative := by cases negative <;> decide
    rw [List.mem_cons, not_or]
    exact ⟨hsign, hleading⟩
  have hat : percentAt? ('-' :: (exponent ++ '%' :: ' ' :: 't' :: 'o' :: ' ' :: name)) =
      some (ofDecimal true (Text.digitsValue exponent) 0) :=
    percentAt?_whole true (fun c hc => isDigit_of_mem_digits (hexponent.digits c hc)) hexponent.ne_nil _
  have hline : percentLine (finite negative m e hc) name = signChar negative :: leading ++
      'e' :: '-' :: (exponent ++ '%' :: ' ' :: 't' :: 'o' :: ' ' :: name) := by
    rw [percentLine_eq, displaySigned_of_display hm hdisplay, List.cons_append, List.append_assoc]
    rfl
  rw [reread_of_lt hm hlow, ← hexponent.value, percent, hline,
    percent?_append_cons (by decide) (by decide) (by decide) hskipped, percent?, hat, Option.getD_some]

/-- The line of a number is read back. -/
theorem percent_percentLine {x : Binary64} (hx : x.isFinite) (name : Text) :
    percent (percentLine x name) = reread x := by
  cases x with
  | finite s m e hc =>
    cases hint : (finite s m e hc).toInt? with
    | some i => exact percent_of_whole ((toInt?_eq_some_iff rfl).mp hint) name
    | none =>
      rcases le_or_gt ((10 : ℚ) ^ (-4 : ℤ)) (m * 2 ^ e) with hlow | hlow
      · exact percent_of_fraction hint hlow name
      · exact percent_of_exponent hint hlow name
  | infinite s => cases hx
  | nan => cases hx

/-! ### The name of a stat -/

theorem after?_append_of_not_mem {a : Char} (part : Text) (t : Text) : ∀ {s : Text}, a ∉ s →
    Text.after? (a :: part) (s ++ (a :: part ++ t)) = some t
  | [], _ => by
      rw [List.nil_append, List.cons_append, Text.after?, ← List.cons_append, Text.dropStart?_append]
  | c :: s, h => by
      rw [List.mem_cons, not_or] at h
      rw [List.cons_append, Text.after?, Text.dropStart?, if_neg h.1]
      exact after?_append_of_not_mem part t h.2

/-- A name that is read back from the lines that show it. -/
structure StatName (name : Text) : Prop where
  line : '\n' ∉ name
  trimmed : Text.strip name = name
  wordy : ∀ c, name.getLast? = some c → Text.isDigit c = false

theorem dropFinalDigits_of_getLast? {t : Text} (h : ∀ c, t.getLast? = some c → Text.isDigit c = false) :
    dropFinalDigits t = t := by
  rw [dropFinalDigits]
  rcases List.eq_nil_or_concat' t with rfl | ⟨s, c, rfl⟩
  · rfl
  · have hc := h c (by simp)
    rw [List.reverse_append, List.reverse_singleton, List.singleton_append,
      List.dropWhile_cons_of_neg (by simp [hc]), List.reverse_cons, List.reverse_reverse]

theorem not_mem_displaySigned {x : Binary64} (hx : x.isFinite) {c : Char} (hc : c ∉ Text.numeralChars) :
    c ∉ x.displaySigned := by
  have hplus : '+' ∈ Text.numeralChars := by decide
  intro hmem
  rw [displaySigned] at hmem
  split at hmem
  · rcases List.mem_cons.mp hmem with rfl | hmem
    · exact hc hplus
    · exact hc (mem_numeralChars_of_mem_display hx hmem)
  · exact hc (mem_numeralChars_of_mem_display hx hmem)

theorem statName_percentLine {x : Binary64} (hx : x.isFinite) {name : Text} (hname : StatName name) :
    statName (percentLine x name) = name := by
  have hcut : 't' ∉ x.displaySigned ++ ['%', ' '] := by
    rw [List.mem_append, not_or]
    exact ⟨not_mem_displaySigned hx (by decide), by decide⟩
  have hline : percentLine x name =
      x.displaySigned ++ ['%', ' '] ++ ("to ".toList ++ name) := by
    rw [percentLine_eq, List.append_assoc]
    rfl
  have hafter : Text.after? "to ".toList (percentLine x name) = some name := by
    rw [hline]
    exact after?_append_of_not_mem ['o', ' '] name hcut
  have htake : name.takeWhile (· ≠ '\n') = name := by
    rw [List.takeWhile_eq_self_iff]
    intro c hc
    exact decide_eq_true fun h => hname.line (h ▸ hc)
  rw [statName, hafter]
  dsimp only
  rw [htake, dropFinalDigits_of_getLast? hname.wordy, hname.trimmed]

/-! ### Ranges -/

/-- The first number is the least and the second the greatest of the numbers. -/
structure Spans (low high : Binary64) (xs : List Binary64) : Prop where
  low_mem : low ∈ xs
  high_mem : high ∈ xs
  low_le : ∀ x ∈ xs, low.toRat ≤ x.toRat
  le_high : ∀ x ∈ xs, x.toRat ≤ high.toRat

/-- Keeping the better of two all along leaves a best one. -/
theorem foldl_best {α β : Type} [LinearOrder β] {p : α → Prop} (better : α → α → Bool) (rank : α → β)
    (hbetter : ∀ a b, p a → p b → (better a b ↔ rank b < rank a)) :
    ∀ {xs : List α} {x : α}, p x → (∀ y ∈ xs, p y) →
      xs.foldl (fun a b => if better a b then b else a) x ∈ x :: xs ∧
      ∀ y ∈ x :: xs, rank (xs.foldl (fun a b => if better a b then b else a) x) ≤ rank y
  | [], x, _, _ => by simp
  | z :: xs, x, hx, hxs => by
      rw [List.forall_mem_cons] at hxs
      have hchoice : ∃ w, (if better x z then z else x) = w ∧ w ∈ [x, z] ∧ rank w ≤ rank x ∧
          rank w ≤ rank z := by
        by_cases h : better x z
        · exact ⟨z, if_pos h, by simp, ((hbetter x z hx hxs.1).mp h).le, le_rfl⟩
        · exact ⟨x, if_neg h, by simp, le_rfl, not_lt.mp (mt (hbetter x z hx hxs.1).mpr h)⟩
      obtain ⟨w, hw, hmem, hle, hle'⟩ := hchoice
      have hp : p w := by
        rcases List.mem_pair.mp hmem with rfl | rfl
        · exact hx
        · exact hxs.1
      obtain ⟨hbest, hrank⟩ := foldl_best better rank hbetter hp hxs.2
      rw [List.forall_mem_cons] at hrank
      rw [List.foldl_cons, hw, List.forall_mem_cons, List.forall_mem_cons]
      refine ⟨?_, hrank.1.trans hle, hrank.1.trans hle', hrank.2⟩
      rcases List.mem_cons.mp hbest with h | h
      · rw [h]
        rcases List.mem_pair.mp hmem with rfl | rfl <;> simp
      · exact List.mem_cons_of_mem _ (List.mem_cons_of_mem _ h)

theorem lt_iff {x y : Binary64} (hx : x.isFinite) (hy : y.isFinite) : x.lt y ↔ x.toRat < y.toRat := by
  cases x with
  | finite s m e hc =>
    cases y with
    | finite s' m' e' hc' => rw [lt, decide_eq_true_iff]
    | infinite s' => cases hy
    | nan => cases hy
  | infinite s => cases hx
  | nan => cases hx

theorem spans_least_greatest {x : Binary64} {xs : List Binary64} (hx : x.isFinite)
    (hxs : ∀ y ∈ xs, y.isFinite) : Spans (least x xs) (greatest x xs) (x :: xs) := by
  obtain ⟨hlow, hleast⟩ := foldl_best (p := fun y : Binary64 => y.isFinite)
    (fun a b : Binary64 => b.lt a) toRat (fun a b ha hb => lt_iff hb ha) hx hxs
  obtain ⟨hhigh, hgreatest⟩ := foldl_best (p := fun y : Binary64 => y.isFinite)
    (fun a b : Binary64 => a.lt b) (fun y => -y.toRat)
    (fun a b ha hb => by rw [lt_iff ha hb, neg_lt_neg_iff]) hx hxs
  exact ⟨hlow, hhigh, hleast, fun y hy => neg_le_neg_iff.mp (hgreatest y hy)⟩

/-- The shortest digits of no number are so small that their exponent would not be a number. -/
theorem natAbs_point_lt (hm : m ≠ 0) (hc : Canonical m e) (h : (m * 2 ^ e : ℚ) < 10 ^ (-4 : ℤ)) :
    ((shortest m e).point - 1).natAbs < tenPow roundingDigits := by
  have hlow : (10 : ℚ) ^ (-400 : ℤ) ≤ m * 2 ^ e := by
    have hm : (1 : ℚ) ≤ m := by exact_mod_cast Nat.one_le_iff_ne_zero.mpr hm
    have hcast : (10 : ℚ) ^ (-400 : ℤ) = (10 ^ 400)⁻¹ := by rw [zpow_neg]; rfl
    have hcast' : (2 : ℚ) ^ (-1076 : ℤ) = (2 ^ 1076)⁻¹ := by rw [zpow_neg]; rfl
    calc (10 : ℚ) ^ (-400 : ℤ) ≤ 2 ^ (-1076 : ℤ) := by
          rw [hcast, hcast']
          exact inv_anti₀ (by positivity) two_pow_lt_ten_pow.le
      _ ≤ 2 ^ e := zpow_le_zpow_right₀ one_le_two (by have := hc.2.1; omega)
      _ ≤ m * 2 ^ e := le_mul_of_one_le_left (by positivity) hm
  have hlowest : -400 < (shortest m e).point :=
    ((normal_shortest hm hc).lt_point_iff _).mpr (le_value_shortest hm hc hlow)
  have hhighest : (shortest m e).point < numberLayout.lowest := by
    rw [← not_le, lowest_le_point_iff hm hc, not_le]
    exact h
  have hhighest' : (shortest m e).point < -3 := hhighest
  have hbound : 1000 < tenPow roundingDigits := by decide
  omega

theorem isFinite_reread {x : Binary64} (hx : x.isFinite) : (reread x).isFinite := by
  cases x with
  | finite s m e hc =>
    by_cases hm : m = 0
    · rw [reread, if_pos hm]
      rfl
    · rcases le_or_gt ((10 : ℚ) ^ (-4 : ℤ)) (m * 2 ^ e) with h | h
      · rw [reread_of_le h]
        rfl
      · rw [reread_of_lt hm h, ← neg_zero]
        exact isFinite_ofDecimal (natAbs_point_lt hm hc h) true le_rfl
  | infinite s => cases hx
  | nan => cases hx

/-- A number that is zero or at least a ten-thousandth. -/
def Sizable (x : Binary64) : Prop :=
  x.toRat = 0 ∨ 1 / 10 ^ 4 ≤ |x.toRat|

/-- Such a number is read back but for the sign of zero, which is not shown. -/
theorem reread_of_sizable {x : Binary64} (hx : x.isFinite) (h : Sizable x) :
    (reread x).toRat = x.toRat ∧ (reread x).display = x.display := by
  cases x with
  | finite s m e hc =>
    by_cases hm : m = 0
    · have hzero : ∀ {y : Binary64}, y.isFinite → y.toRat = 0 → y.display = intText 0 :=
        fun hy hy0 => display_of_toRat hy (by rw [hy0, Int.cast_zero])
      have hx0 : (finite s m e hc).toRat = 0 := by
        rw [toRat_finite, hm, Nat.cast_zero, zero_mul, mul_zero]
      have hreread0 : (zero false).toRat = 0 := by
        rw [zero, toRat_finite, Nat.cast_zero, zero_mul, mul_zero]
      rw [reread, if_pos hm, hzero rfl hx0, hzero rfl hreread0, hx0, hreread0]
      exact ⟨rfl, rfl⟩
    · have hlow : 1 / 10 ^ 4 ≤ |(finite s m e hc).toRat| := by
        refine h.resolve_left fun h0 => ?_
        rw [← abs_eq_zero, abs_toRat_finite, mul_eq_zero, or_iff_left (by positivity)] at h0
        exact hm (by exact_mod_cast h0)
      rw [reread, if_neg hm, if_pos hlow]
      exact ⟨rfl, rfl⟩
  | infinite s => cases hx
  | nan => cases hx

/-- A range of numbers read back as sizable ones spans the numbers themselves. -/
theorem Spans.exists_of_sizable {low high : Binary64} {xs : List Binary64}
    (h : Spans low high (xs.map reread)) (hxs : ∀ x ∈ xs, x.isFinite) (hsize : ∀ x ∈ xs, Sizable x) :
    ∃ low' high', Spans low' high' xs ∧ low'.display = low.display ∧ high'.display = high.display := by
  obtain ⟨x, hx, rfl⟩ := List.mem_map.mp h.low_mem
  obtain ⟨y, hy, rfl⟩ := List.mem_map.mp h.high_mem
  have hread := fun z hz => reread_of_sizable (hxs z hz) (hsize z hz)
  refine ⟨x, y, ⟨hx, hy, fun z hz => ?_, fun z hz => ?_⟩, (hread x hx).2.symm, (hread y hy).2.symm⟩
  · rw [← (hread x hx).1, ← (hread z hz).1]
    exact h.low_le _ (List.mem_map_of_mem hz)
  · rw [← (hread y hy).1, ← (hread z hz).1]
    exact h.le_high _ (List.mem_map_of_mem hz)

theorem describe_congr {low low' high high' : Binary64} (hlow : low'.display = low.display)
    (hhigh : high'.display = high.display) (name : Text) :
    describe low' high' name = describe low high name := by
  rw [describe, describe, hlow, hhigh]

variable {xs : List Binary64} {name : Text}

/-- The lines of a stat are combined into the range of the numbers that are read back. -/
theorem exists_combine_eq (hne : xs ≠ []) (hxs : ∀ x ∈ xs, x.isFinite) (hname : StatName name) :
    ∃ low high, combine (xs.map (percentLine · name)) = describe low high name ∧
      Spans low high (xs.map reread) := by
  cases xs with
  | nil => exact absurd rfl hne
  | cons x xs =>
    rw [List.forall_mem_cons] at hxs
    have hpercents : (xs.map (percentLine · name)).map percent = xs.map reread := by
      rw [List.map_map]
      exact List.map_congr_left fun y hy => percent_percentLine (hxs.2 y hy) name
    have hfinite : ∀ y ∈ xs.map reread, y.isFinite := by
      intro y hy
      obtain ⟨z, hz, rfl⟩ := List.mem_map.mp hy
      exact isFinite_reread (hxs.2 z hz)
    refine ⟨least (reread x) (xs.map reread), greatest (reread x) (xs.map reread), ?_,
      spans_least_greatest (isFinite_reread hxs.1) hfinite⟩
    rw [List.map_cons, combine, hpercents, percent_percentLine hxs.1, statName_percentLine hxs.1 hname]

/-- The lines of sizable numbers are combined into the range of these numbers. -/
theorem exists_combine_eq_of_sizable (hne : xs ≠ []) (hxs : ∀ x ∈ xs, x.isFinite)
    (hname : StatName name) (hsize : ∀ x ∈ xs, Sizable x) :
    ∃ low high, combine (xs.map (percentLine · name)) = describe low high name ∧ Spans low high xs := by
  obtain ⟨low, high, hcombine, hspans⟩ := exists_combine_eq hne hxs hname
  obtain ⟨low', high', hspans', hlow, hhigh⟩ := hspans.exists_of_sizable hxs hsize
  exact ⟨low', high', by rw [hcombine, describe_congr hlow hhigh], hspans'⟩

/-- What the lines of a stat are combined into: the range of the numbers that are read back, and of the
numbers themselves when each is zero or at least a ten-thousandth. -/
theorem combine_percentLines (hne : xs ≠ []) (hxs : ∀ x ∈ xs, x.isFinite) (hname : StatName name) :
    (∃ low high, combine (xs.map (percentLine · name)) = describe low high name ∧
      Spans low high (xs.map reread)) ∧
    ((∀ x ∈ xs, Sizable x) → ∃ low high,
      combine (xs.map (percentLine · name)) = describe low high name ∧ Spans low high xs) :=
  ⟨exists_combine_eq hne hxs hname, exists_combine_eq_of_sizable hne hxs hname⟩

/-- A tenth of a percent and two percent. -/
theorem combine_percentLines_critical :
    ∃ low high, combine ([.finite false 7205759403792794 (-56) (by decide),
        .finite false 4503599627370496 (-51) (by decide)].map
          (percentLine · "Critical Hit Chance".toList)) =
        describe low high "Critical Hit Chance".toList ∧
      Spans low high [.finite false 7205759403792794 (-56) (by decide),
        .finite false 4503599627370496 (-51) (by decide)] := by
  refine (combine_percentLines (by decide) (by decide)
    ⟨by decide, by decide, fun c hc => ?_⟩).2 fun x hx => Or.inr ?_
  · obtain rfl : c = 'e' := Option.some.inj (hc.symm.trans rfl)
    decide
  · rcases List.mem_pair.mp hx with rfl | rfl
    · rw [abs_toRat_finite]
      norm_num
    · rw [abs_toRat_finite]
      norm_num

/-- A hundred-thousandth of a percent counts as minus five. -/
theorem combine_hundredThousandth :
    combine [percentLine (ofDecimal false 1 (-5)) "Critical Hit Chance".toList] =
        "+(-5–-5)% to Critical Hit Chance".toList ∧
      ¬∃ low high, combine [percentLine (ofDecimal false 1 (-5)) "Critical Hit Chance".toList] =
          describe low high "Critical Hit Chance".toList ∧
        Spans low high [ofDecimal false 1 (-5)] := by
  have hcombine : combine [percentLine (ofDecimal false 1 (-5)) "Critical Hit Chance".toList] =
      "+(-5–-5)% to Critical Hit Chance".toList := by decide +kernel
  refine ⟨hcombine, ?_⟩
  rintro ⟨low, high, hrange, hspans⟩
  rw [List.mem_singleton.mp hspans.low_mem, List.mem_singleton.mp hspans.high_mem, hcombine] at hrange
  revert hrange
  decide +kernel

end Range

end GemScribe
