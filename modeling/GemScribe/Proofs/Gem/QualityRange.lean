import GemScribe.Proofs.Gem.PercentTemplate
import GemScribe.Proofs.Stat.Request

/-!
The range of a quality row.

A quality row has a number of thousandths for each point of quality. Its stat is evaluated at every
quality level, its block shows each value as a percentage, and the percentages are read back from the
lines. Multiples of a thousandth are zero or at least a thousandth, so that none of them is shown with an
exponent. Hence the range is that of the values themselves: `collect_qualityRange` says so of a row among
any others of its effect.
-/

namespace GemScribe

/-! ### Values -/

/-- A quotient of a whole number by a thousand is zero or not far below a thousandth. -/
theorem Range.sizable_of_divBy {i : ℤ} {x : Binary64} (h : (Quantity.whole i).divBy 1000 = .ok x) :
    x.isFinite ∧ Range.Sizable x := by
  rw [Quantity.divBy, Rat.mkRat_eq_div] at h
  obtain ⟨negative, m, e, hc, rfl, herror⟩ := Quantity.exists_of_nearest_eq_ok h
  refine ⟨rfl, ?_⟩
  rcases eq_or_ne i 0 with rfl | hi
  · refine Or.inl ?_
    have hquotient : ((0 : ℤ) : ℚ) / (1000 : ℕ) = 0 := by norm_num
    rw [hquotient] at h
    have hzero : Binary64.zero false = .finite negative m e hc := Except.ok.inj h
    rw [← hzero, Binary64.zero, Binary64.toRat_finite, Nat.cast_zero, zero_mul, mul_zero]
  · refine Or.inr ?_
    have hone : (1 : ℚ) ≤ |(i : ℚ)| := by
      rw [← Int.cast_abs]
      exact_mod_cast Int.one_le_abs hi
    have hlow : (1 / 1000 : ℚ) ≤ |(i : ℚ) / (1000 : ℕ)| := by
      rw [abs_div, Nat.abs_cast, Nat.cast_ofNat]
      gcongr
    have hmax : max |(i : ℚ) / (1000 : ℕ)| 1 ≤ 1000 * |(i : ℚ) / (1000 : ℕ)| := by
      rw [max_le_iff]
      constructor <;> linarith
    rw [Binary64.abs_toRat_finite]
    have hbelow := (abs_le.mp herror).1
    have hpart : max |(i : ℚ) / (1000 : ℕ)| 1 / 2 ^ 53 ≤ |(i : ℚ) / (1000 : ℕ)| / 2 := by
      rw [div_le_div_iff₀ (by norm_num) (by norm_num)]
      linarith
    linarith

/-! ### Lines -/

section Lines

variable {name stat : Text} {blocks : List Block} {xs : List Binary64}

/-- A value that can be shown as a percentage: it is finite, and is not taken for a second. -/
def Range.Showable (x : Binary64) : Prop :=
  x.isFinite ∧ x.toRat ≠ 1000

theorem Range.Showable.toInt?_ne {x : Binary64} (h : Range.Showable x) :
    x.toInt? ≠ some Template.oneSecond := by
  rw [ne_eq, Binary64.toInt?_eq_some_iff h.1]
  exact h.2

/-- Each value of a sequence gives the line of its own percentage. -/
theorem Turn.stepLines_percentTemplate (hname : Duration.PlainPhrase name) :
    ∀ (earlier xs : List Binary64), (∀ x ∈ xs, Range.Showable x) →
      stepLines [Range.percentTemplate name] [(earlier ++ xs).map .real] earlier.length xs =
        .ok (xs.map (Range.percentLine · name))
  | _, [], _ => rfl
  | earlier, x :: xs, hxs => by
      rw [List.forall_mem_cons] at hxs
      have hvalue : Template.valueAt ((earlier ++ x :: xs).map .real) earlier.length = .real x := by
        simp [Template.valueAt]
      have hstep := Range.renderStep_percentTemplate hname hxs.1.1 hvalue hxs.1.toInt?_ne (.real x)
      have hrest := stepLines_percentTemplate hname (earlier ++ [x]) xs hxs.2
      rw [List.append_assoc, List.singleton_append, List.length_append, List.length_singleton] at hrest
      rw [stepLines, bind_eq_ok]
      refine ⟨_, hstep, ?_⟩
      rw [bind_eq_ok]
      exact ⟨_, hrest, rfl⟩

/-- The first block that describes a stat shows it alone, as a percentage of that name. -/
def Block.ShowsPercent (blocks : List Block) (stat name : Text) : Prop :=
  ∃ block place, describing? blocks stat = some (block, place) ∧ block.ids = [stat] ∧
    block.templates = [Range.percentTemplate name]

/-- Observations of one stat are resolved to the lines of their percentages. -/
theorem resolve_showsPercent (hname : Duration.PlainPhrase name)
    (hblock : Block.ShowsPercent blocks stat name) (hstat : stat ≠ []) (hne : xs ≠ [])
    (hxs : ∀ x ∈ xs, Range.Showable x) (skip : Bool) :
    (resolve blocks skip (xs.map (Observation.mk stat))).outcome =
      .ok (xs.map (Range.percentLine · name)) := by
  obtain ⟨block, place, hdescribing, hids, htemplates⟩ := hblock
  have hgrouped : Grouped.ofObservations (xs.map (Observation.mk stat)) = [(stat, xs)] :=
    Grouped.ofObservations_same hstat hne
  have hturns : turns blocks skip [(stat, xs)] = [⟨stat, xs, .rendered block place⟩] := by
    rw [turns, turnsFrom_cons, fateOf, hdescribing, List.contains_nil, Bool.and_false,
      if_neg Bool.false_ne_true]
    rfl
  have hvalues : block.alignedValues [(stat, xs)] = [xs] := by
    obtain ⟨x, xs, rfl⟩ := List.exists_cons_of_ne_nil hne
    rw [Block.alignedValues, hids, List.map_singleton, Block.valuesOf, Grouped.values, if_pos rfl]
  have hlines : Turn.lines [(stat, xs)] ⟨stat, xs, .rendered block place⟩ =
      .ok (xs.map (Range.percentLine · name)) := by
    rw [Turn.lines]
    dsimp only
    rw [hvalues, htemplates]
    exact Turn.stepLines_percentTemplate hname [] xs hxs
  rw [resolve_outcome_eq_ok_turns, hgrouped, hturns]
  exact ⟨_, .cons hlines .nil, by rw [List.flatten_cons, List.flatten_nil, List.append_nil]⟩

end Lines

/-! ### Rows -/

theorem Datum.ne_nil_of_refId {d : Datum} {id : Text} (h : d.refId = some id) : id ≠ [] := by
  rw [refId.eq_def] at h
  split at h
  · split at h
    · split at h
      · cases h
      · next ht =>
        obtain rfl := Option.some.inj h
        simpa using ht
    · cases h
  · cases h

namespace Quality

variable {row : Row} {stat name : Text} {perMille : ℤ} {levels : List ℤ} {xs : List Binary64}
  {blocks : List Block} {settings : Settings}

/-- The first stat of a row has that id and that whole number of thousandths. -/
structure Grants (row : Row) (stat : Text) (perMille : Int) : Prop where
  first : ∃ ref refs, row.get "Stats" = .list (ref :: refs) ∧ ref.refId = some stat
  value : ∃ ds, row.get "StatsValuesPermille" = .list (.number (.whole perMille) :: ds)

theorem Grants.ne_nil (h : Grants row stat perMille) : stat ≠ [] := by
  obtain ⟨ref, refs, -, hid⟩ := h.first
  exact Datum.ne_nil_of_refId hid

/-- The values of a number of thousandths at quality levels, none of which is out of range. -/
def Evaluates (perMille : Int) (levels : List Int) (xs : List Binary64) : Prop :=
  List.Forall₂ (fun quality x => (Quantity.whole (perMille * quality)).divBy 1000 = .ok x) levels xs

theorem Evaluates.sizable (h : Evaluates perMille levels xs) :
    ∀ x ∈ xs, x.isFinite ∧ Range.Sizable x := by
  induction h with
  | nil => simp
  | cons hx _ ih => exact List.forall_mem_cons.mpr ⟨Range.sizable_of_divBy hx, ih⟩

theorem Evaluates.ne_nil (h : Evaluates perMille levels xs) (hlevels : levels ≠ []) : xs ≠ [] := by
  rintro rfl
  exact hlevels (List.forall₂_nil_right_iff.mp h)

theorem evaluate_eq_ok (h : Evaluates perMille levels xs) (stat : Text) (ds : List Datum) :
    evaluate stat (.list (.number (.whole perMille) :: ds)) levels =
      .ok (xs.map (Observation.mk stat)) := by
  induction h with
  | nil => rfl
  | @cons quality x levels xs hx _ ih =>
    rw [evaluate, bind_eq_ok]
    refine ⟨.number (.whole perMille), rfl, ?_⟩
    rw [bind_eq_ok]
    refine ⟨x, Fault.ofNumber_eq_ok.mpr hx, ?_⟩
    rw [bind_eq_ok]
    exact ⟨_, ih, rfl⟩

theorem observations_eq_ok (hrow : Grants row stat perMille) (h : Evaluates perMille levels xs) :
    (observations row levels).outcome = .ok (xs.map (Observation.mk stat)) := by
  obtain ⟨ref, refs, hstats, hid⟩ := hrow.first
  obtain ⟨ds, hvalues⟩ := hrow.value
  have hfirst : firstStat (row.get "Stats") = .ok (some stat) := by
    rw [hstats, ← hid]
    rfl
  rw [observations, hvalues, Journal.outcome_bind_eq_ok]
  exact ⟨some stat, hfirst, evaluate_eq_ok h stat ds⟩

/-- A row gives the range of its values. -/
theorem ofRow_eq_ok (hrow : Grants row stat perMille) (hblock : Block.ShowsPercent blocks stat name)
    (hname : Duration.PlainPhrase name) (hlevels : settings.qualityLevels ≠ [])
    (hvalues : Evaluates perMille settings.qualityLevels xs) (hmany : ∀ x ∈ xs, x.toRat ≠ 1000) :
    ∃ low high, Range.Spans low high xs ∧
      (ofRow blocks settings row).outcome = .ok (some ⟨stat, Range.describe low high name⟩) := by
  have hne := hvalues.ne_nil hlevels
  have hxs := hvalues.sizable
  have hshows : ∀ x ∈ xs, Range.Showable x := fun x hx => ⟨(hxs x hx).1, hmany x hx⟩
  have hresolve := resolve_showsPercent hname hblock hrow.ne_nil hne hshows true
  obtain ⟨low, high, hcombine, hspans⟩ :=
    Range.exists_combine_eq_of_sizable hne (fun x hx => (hxs x hx).1)
      (Range.statName_of_plainPhrase hname) fun x hx => (hxs x hx).2
  refine ⟨low, high, hspans, ?_⟩
  obtain ⟨x, rest, rfl⟩ := List.exists_cons_of_ne_nil hne
  rw [ofRow, Journal.outcome_bind_eq_ok]
  refine ⟨_, observations_eq_ok hrow hvalues, ?_⟩
  rw [List.map_cons] at hresolve ⊢
  rw [Journal.outcome_bind_eq_ok]
  refine ⟨_, hresolve, ?_⟩
  rw [← hcombine]
  rfl

/-- The range of a row stands among the quality stats of its effect at the place of the row. -/
theorem collect_qualityRange {dataset : Dataset} {effect : Datum} (hrow : Grants row stat perMille)
    (hblock : Block.ShowsPercent blocks stat name) (hname : Duration.PlainPhrase name)
    (hlevels : settings.qualityLevels ≠ []) (hvalues : Evaluates perMille settings.qualityLevels xs)
    (hmany : ∀ x ∈ xs, x.toRat ≠ 1000) {before after : List Row}
    (hrows : dataset.rowsReferencing Dataset.grantedEffectQualityStats "GrantedEffect" effect =
      before ++ row :: after)
    {earlier later : List (Option QualityStat)}
    (hbefore : (Journal.each (ofRow blocks settings) before).outcome = .ok earlier)
    (hafter : (Journal.each (ofRow blocks settings) after).outcome = .ok later) :
    ∃ low high, Range.Spans low high xs ∧
      (collect dataset effect blocks settings).outcome = .ok (earlier.filterMap id ++
        ⟨stat, Range.describe low high name⟩ :: later.filterMap id) := by
  obtain ⟨low, high, hspans, houtcome⟩ := ofRow_eq_ok hrow hblock hname hlevels hvalues hmany
  have heach : (Journal.each (ofRow blocks settings) (before ++ row :: after)).outcome =
      .ok (earlier ++ some ⟨stat, Range.describe low high name⟩ :: later) := by
    rw [Journal.outcome_each_eq_ok] at hbefore hafter ⊢
    exact List.rel_append hbefore (.cons houtcome hafter)
  refine ⟨low, high, hspans, ?_⟩
  rw [collect, hrows, Journal.outcome_bind_eq_ok]
  exact ⟨_, heach, by rw [List.filterMap_append]; rfl⟩

/-- A row that grants a tenth of a percent of critical hit chance for each point of quality. -/
def critical : Row :=
  [("GrantedEffect".toList, .ref "FireballPlayer".toList),
    ("Stats".toList, .list [.ref "critical_strike_chance_+%".toList]),
    ("StatsValuesPermille".toList, .list [.number (.whole 100)])]

/-- Its block. -/
def criticalBlock : Block :=
  ⟨"critical_strike_chance_+%".toList, some 1, [Range.percentTemplate "Critical Hit Chance".toList]⟩

/-- At the standard quality levels of one and twenty it ranges from a tenth to two percent. -/
theorem collect_critical :
    ∃ low high, Range.Spans low high [Binary64.ofDecimal false 1 (-1), Binary64.ofInt 2] ∧
      (collect ⟨[], [(Dataset.grantedEffectQualityStats, [critical])]⟩
          (.text "FireballPlayer".toList) [criticalBlock] .standard).outcome =
        .ok [⟨"critical_strike_chance_+%".toList,
          Range.describe low high "Critical Hit Chance".toList⟩] := by
  have hrow : Grants critical "critical_strike_chance_+%".toList 100 :=
    ⟨⟨_, _, rfl, by decide⟩, _, rfl⟩
  have hblock : Block.ShowsPercent [criticalBlock] "critical_strike_chance_+%".toList
      "Critical Hit Chance".toList :=
    ⟨criticalBlock, 0, by decide, by decide, rfl⟩
  have hname : Duration.PlainPhrase "Critical Hit Chance".toList :=
    ⟨⟨Text.forall_mem_of_all (by decide), by decide⟩, by decide, by decide,
      Text.forall_mem_of_all (by decide)⟩
  have hvalues : Evaluates 100 Settings.standard.qualityLevels
      [Binary64.ofDecimal false 1 (-1), Binary64.ofInt 2] :=
    .cons (by decide +kernel) (.cons (by decide +kernel) .nil)
  have hrows : Dataset.rowsReferencing ⟨[], [(Dataset.grantedEffectQualityStats, [critical])]⟩
      Dataset.grantedEffectQualityStats "GrantedEffect" (.text "FireballPlayer".toList) =
        [] ++ critical :: [] := rfl
  exact collect_qualityRange hrow hblock hname (by decide) hvalues (by decide +kernel) hrows rfl rfl

example : Range.describe (.ofDecimal false 1 (-1)) (.ofInt 2) "Critical Hit Chance".toList =
    "+(0.1–2)% to Critical Hit Chance".toList := by
  decide +kernel

end Quality

end GemScribe
