import GemScribe.Gem.Quality
import GemScribe.Proofs.Gem.Column

/-!
When the stats of a row can be read.

A reference without an id is left out and a value that is null counts as zero, so the stats of a row are
always read when they are of the right kind. Quality stats are an exception: the value of a quality row is
multiplied before anything is asked of it, and null has no product. Such a row ends an export.
-/

namespace GemScribe

open Journal

/-! ### Amounts -/

theorem lt_of_lt_moderateBound {q : ℚ} (h : |q| < moderateBound) : |q| < 2 ^ 1023 :=
  lt_of_lt_of_le h (le_trans moderateBound_le (pow_le_pow_right₀ one_le_two (by decide)))

namespace Datum

variable {d : Datum} {q : Quantity}

theorem IsAmount.cases (h : d.IsAmount) : d = null ∨ ∃ q, d = number q ∧ (number q).IsAmount := by
  cases h with
  | ofNull => exact Or.inl rfl
  | ofWhole h => exact Or.inr ⟨_, rfl, .ofWhole h⟩
  | ofReal x => exact Or.inr ⟨_, rfl, .ofReal x⟩

theorem IsAmount.exists_divBy (h : (number q).IsAmount) {n : ℕ} (hn : 0 < n) :
    ∃ x, (number q).divBy n = .ok x := by
  cases h with
  | ofReal x => exact ⟨_, rfl⟩
  | @ofWhole i h =>
    have hlt : |(Quantity.whole i).toRat| < 2 ^ 1023 := lt_of_lt_moderateBound h
    obtain ⟨x, hx, -⟩ := Quantity.divBy_spec rfl hlt hn
    exact ⟨x, by rw [divBy]; simp [toQuantity?, hx, Fault.ofNumber]⟩

theorem IsAmount.exists_asReal (h : (number q).IsAmount) : ∃ x, asReal (number q) = .fits x := by
  cases h with
  | ofReal x => exact ⟨x, rfl⟩
  | @ofWhole i h =>
    have hnearest : Quantity.nearest i = .ok (Binary64.ofRat false i) :=
      Quantity.nearest_eq_ok (lt_of_lt_moderateBound h)
    exact ⟨_, by rw [asReal, hnearest]⟩

end Datum

/-! ### Stats of a row -/

namespace Observation

theorem exists_valueAt {values : List Datum} (h : ∀ v ∈ values, v.IsAmount) (place : ℕ) :
    ∃ x, valueAt (.list values) place = .ok x := by
  rw [valueAt, Datum.itemAt]
  cases hv : values[place]? with
  | none => exact ⟨_, rfl⟩
  | some v =>
    rcases (h v (List.mem_of_getElem? hv)).cases with rfl | ⟨q, rfl, hamount⟩
    · exact ⟨_, rfl⟩
    · obtain ⟨x, hx⟩ := hamount.exists_asReal
      exact ⟨x, by simp [hx, Reading.under, Fault.ofReading]⟩

theorem pairFrom_returns {values : List Datum} (h : ∀ v ∈ values, v.IsAmount) :
    ∀ (place : ℕ) (refs : List Datum), (pairFrom (.list values) place refs).Returns
  | place, [] => returns_pure []
  | place, ref :: refs => by
      rw [pairFrom]
      split
      · exact Returns.bind ⟨(), rfl⟩ fun _ _ => pairFrom_returns h (place + 1) refs
      · refine Returns.bind (returns_ofExcept.mpr (exists_valueAt h place)) fun value _ => ?_
        exact Returns.bind (pairFrom_returns h (place + 1) refs) fun rest _ => returns_pure _

theorem ofReferences_returns {p : Datum → Prop} {refs values : Datum} (hrefs : refs.IsListOf p)
    (hvalues : values.IsListOf Datum.IsAmount) : (ofReferences refs values).Returns := by
  rw [ofReferences, hrefs.orElse_nil, hvalues.orElse_nil]
  exact Returns.bind ⟨refs.entries, rfl⟩ fun ds _ => pairFrom_returns hvalues.2 0 ds

end Observation

/-! ### Quality stats -/

namespace Quality

/-- A row with a stat that is asked for at some quality and whose first value is null. -/
structure NullRow (levels : List Int) (row : Row) : Prop where
  asked : levels ≠ []
  stat : ∃ ref refs id, row.get "Stats" = .list (ref :: refs) ∧ ref.refId = some id
  value : ∃ ds, row.get "StatsValuesPermille" = .list (.null :: ds)

theorem firstStat_eq_ok {p : Datum → Prop} {stats : Datum} (h : stats.IsListOf p) :
    ∃ o, firstStat stats = .ok o ∧
      ∀ id, o = some id ↔ ∃ ref refs, stats = .list (ref :: refs) ∧ ref.refId = some id := by
  rcases h.1 with hstats | hstats
  · exact ⟨none, by rw [hstats]; rfl, by simp [hstats]⟩
  · rw [hstats]
    cases stats.entries with
    | nil => exact ⟨none, rfl, by simp⟩
    | cons ref refs => exact ⟨ref.refId, rfl, by simp⟩

theorem exists_scaled {q : Quantity} (h : (Datum.number q).IsAmount) {quality : ℤ}
    (hquality : |(quality : ℚ)| < moderateBound) : ∃ x, scaled (.number q) quality = .ok x := by
  cases h with
  | ofReal x => exact ⟨_, by rw [scaled, Quantity.nearest_eq_ok (lt_of_lt_moderateBound hquality)]⟩
  | @ofWhole i h =>
    have hproduct : |(Quantity.whole (i * quality)).toRat| < 2 ^ 1023 := by
      rw [Quantity.toRat, Int.cast_mul, abs_mul]
      calc |(i : ℚ)| * |(quality : ℚ)| ≤ 2 ^ 334 * 2 ^ 334 :=
            mul_le_mul (le_trans h.le moderateBound_le) (le_trans hquality.le moderateBound_le)
              (abs_nonneg _) (by positivity)
        _ = 2 ^ 668 := by rw [← pow_add]
        _ < 2 ^ 1023 := pow_lt_pow_right₀ one_lt_two (by decide)
    obtain ⟨x, hx, -⟩ := Quantity.divBy_spec rfl hproduct (d := 1000) (by decide)
    exact ⟨x, by rw [scaled, hx]; rfl⟩

theorem exists_evaluate (id : Text) {q : Quantity} (h : (Datum.number q).IsAmount)
    (ds : List Datum) : ∀ {levels : List ℤ},
    (∀ quality ∈ levels, |(quality : ℚ)| < moderateBound) →
    ∃ os, evaluate id (.list (.number q :: ds)) levels = .ok os
  | [], _ => ⟨[], rfl⟩
  | quality :: levels, hlevels => by
      rw [List.forall_mem_cons] at hlevels
      obtain ⟨x, hx⟩ := exists_scaled h hlevels.1
      obtain ⟨os, hos⟩ := exists_evaluate id h ds hlevels.2
      exact ⟨⟨id, x⟩ :: os, by simp [evaluate, Datum.firstItem, hx, hos, bind, Except.bind, pure, Except.pure]⟩

variable {row : Row} {levels : List ℤ}

theorem not_nullRow (h : ∀ ds, row.get "StatsValuesPermille" ≠ .list (.null :: ds)) :
    ¬NullRow levels row :=
  fun hnull => hnull.value.elim h

/-- The observations of a row end with a fault exactly when its value is null, and then with this one. -/
theorem observations_failsWhen {p : Datum → Prop} (hstats : (row.get "Stats").IsListOf p)
    (hvalues : (row.get "StatsValuesPermille").IsListOf Datum.IsAmount)
    (hlevels : ∀ quality ∈ levels, |(quality : ℚ)| < moderateBound) :
    (observations row levels).FailsWhen (NullRow levels row) .wrongKind := by
  obtain ⟨o, ho, hfirst⟩ := firstStat_eq_ok hstats
  rw [observations]
  refine failsWhen_bind_of_ok (a := o) ho ?_
  cases o with
  | none =>
    refine Or.inl ⟨fun hnull => ?_, [], rfl⟩
    obtain ⟨ref, refs, id, hrefs, hid⟩ := hnull.stat
    exact absurd ((hfirst id).mpr ⟨ref, refs, hrefs, hid⟩) (by simp)
  | some id =>
    rcases hvalues.1 with hnone | hlist
    · exact Or.inl ⟨not_nullRow (by simp [hnone]), by rw [hnone]; exact ⟨[], rfl⟩⟩
    · have hamounts := hvalues.2
      rw [hlist]
      generalize (row.get "StatsValuesPermille").entries = values at hlist hamounts ⊢
      rcases values with - | ⟨v, values⟩
      · exact Or.inl ⟨not_nullRow (by simp [hlist]), [], rfl⟩
      · rcases (List.forall_mem_cons.mp hamounts).1.cases with rfl | ⟨q, rfl, hamount⟩
        · cases levels with
          | nil => exact Or.inl ⟨fun hnull => hnull.asked rfl, [], rfl⟩
          | cons quality levels =>
            obtain ⟨ref, refs, hrefs, hid⟩ := (hfirst id).mp rfl
            exact Or.inr ⟨⟨List.cons_ne_nil _ _, ⟨ref, refs, id, hrefs, hid⟩, values, hlist⟩, rfl⟩
        · exact Or.inl ⟨not_nullRow (by simp [hlist]),
            exists_evaluate id hamount values hlevels⟩

variable {blocks : List Block} {settings : Settings}

theorem ofRow_failsWhen {p : Datum → Prop} (hstats : (row.get "Stats").IsListOf p)
    (hvalues : (row.get "StatsValuesPermille").IsListOf Datum.IsAmount)
    (hlevels : ∀ quality ∈ settings.qualityLevels, |(quality : ℚ)| < moderateBound)
    (hresolve : ∀ os, (observations row settings.qualityLevels).outcome = .ok os →
      (resolve blocks true os).Returns) :
    (ofRow blocks settings row).FailsWhen (NullRow settings.qualityLevels row) .wrongKind := by
  rw [ofRow]
  refine (observations_failsWhen hstats hvalues hlevels).bind fun os hos => ?_
  cases os with
  | nil => exact ⟨none, rfl⟩
  | cons o os =>
    refine (hresolve _ hos).bind fun lines _ => ?_
    cases lines <;> exact ⟨_, rfl⟩

end Quality

theorem Dataset.mem_of_mem_rowsReferencing {dataset : Dataset} {table : Text} {column : String}
    {id : Datum} {row : Row} (h : row ∈ dataset.rowsReferencing table column id) :
    row ∈ dataset.rows table := by
  unfold rowsReferencing at h
  split at h
  · cases h
  · exact List.mem_of_mem_filter h

namespace Quality

variable {dataset : Dataset} {blocks : List Block} {settings : Settings}

/-- Some quality row of an effect cannot be evaluated. -/
def HasNullRow (dataset : Dataset) (levels : List Int) (effect : Datum) : Prop :=
  ∃ row ∈ dataset.rowsReferencing Dataset.grantedEffectQualityStats "GrantedEffect" effect,
    NullRow levels row

theorem collect_failsWhen (htyped : dataset.WellTyped) (hmoderate : dataset.Moderate)
    (hlevels : ∀ quality ∈ settings.qualityLevels, |(quality : ℚ)| < moderateBound)
    {effect : Datum}
    (hresolve : ∀ row ∈ dataset.rowsReferencing Dataset.grantedEffectQualityStats "GrantedEffect"
      effect, ∀ os, (observations row settings.qualityLevels).outcome = .ok os →
        (resolve blocks true os).Returns) :
    (collect dataset effect blocks settings).FailsWhen
      (HasNullRow dataset settings.qualityLevels effect) .wrongKind := by
  rw [collect]
  refine FailsWhen.bind (each_failsWhen fun row hrow => ?_) fun stats _ => returns_pure _
  have hmem := Dataset.mem_of_mem_rowsReferencing hrow
  exact ofRow_failsWhen (htyped.listOf .key (by simp [Column.all]) hmem)
    (htyped.amounts hmoderate (by simp [Column.all]) hmem) hlevels (hresolve row hrow)

end Quality

end GemScribe
