import GemScribe.Gem.Dataset
import GemScribe.Proofs.Gem.Requirement

/-!
The columns that exports read, and what they may hold.

Every column has a kind. A value may be absent or null whatever the kind is, and so may every entry of a
list. A dataset is well typed when each value that is there is of the kind of its column; nothing is asked
of other columns and other tables.
-/

namespace GemScribe

/-! ### Kinds -/

/-- What a column holds where it holds anything. -/
inductive Kind where
  | text
  /-- A reference: a record with the id of a row. -/
  | key
  | whole
  /-- A percentage: a whole number that is not negative. -/
  | share
  /-- A number that an attribute requirement is calculated from. -/
  | level
  | number
  | listOf (entry : Kind)

/-- A datum may stand where the kind is asked for. Null may stand everywhere. -/
def Kind.fits : Kind → Datum → Bool
  | _, .null => true
  | .text, .text _ => true
  | .key, .record fields => (Row.get fields "Id").toText?.isSome
  | .whole, .number (.whole _) => true
  | .share, .number (.whole i) => decide (0 ≤ i)
  | .level, .number q => q.isFinite
  | .number, .number q => q.isFinite
  | .listOf entry, .list ds => ds.all fun d => entry.fits d
  | _, _ => false

/-- No calculation with the datum overflows. A whole number that is only copied may be of any size, and so
may a binary64 number of which nothing whole is made in the end. -/
def Kind.isModerate : Kind → Datum → Bool
  | .share, .number q => decide (|q.toRat| < moderateBound)
  | .level, .number q => decide (|q.toRat| < moderateBound)
  | .number, .number (.whole i) => decide (|(i : ℚ)| < moderateBound)
  | .listOf entry, .list ds => ds.all fun d => entry.isModerate d
  | _, _ => true

namespace Datum

/-- A text, or null for nothing. -/
def ofText? (o : Option Text) : Datum :=
  o.elim null text

/-- A whole number, or null for nothing. -/
def ofWhole? (o : Option Int) : Datum :=
  o.elim null fun i => number (.whole i)

/-- The entries of a list; other data have none. -/
def entries : Datum → List Datum
  | list ds => ds
  | _ => []

/-- Null, or a list of such entries. -/
def IsListOf (p : Datum → Prop) (d : Datum) : Prop :=
  (d = null ∨ d = list d.entries) ∧ ∀ e ∈ d.entries, p e

/-- Null, or a number, which lies below the bound if it is whole. -/
inductive IsAmount : Datum → Prop
  | ofNull : IsAmount null
  | ofWhole {i : ℤ} (h : |(i : ℚ)| < moderateBound) : IsAmount (number (.whole i))
  | ofReal (x : Binary64) : IsAmount (number (.real x))

variable {p : Datum → Prop} {d other : Datum}

theorem orElse_ofText? (o : Option Text) : (ofText? o).orElse (text []) = text (o.getD []) := by
  rcases o with - | (- | ⟨c, t⟩) <;> rfl

theorem orElse_cases (d other : Datum) : d.orElse other = d ∨ d.orElse other = other := by
  rw [orElse]
  split
  · exact Or.inl rfl
  · exact Or.inr rfl

theorem IsListOf.orElse (h : d.IsListOf p) (hother : other.IsListOf p) :
    (d.orElse other).IsListOf p := by
  rcases orElse_cases d other with heq | heq
  · rwa [heq]
  · rwa [heq]

theorem IsAmount.orElse (h : d.IsAmount) (hother : other.IsAmount) : (d.orElse other).IsAmount := by
  rcases orElse_cases d other with heq | heq
  · rwa [heq]
  · rwa [heq]

/-- A list that is not given counts as the empty one. -/
theorem IsListOf.orElse_nil (h : d.IsListOf p) : d.orElse (list []) = list d.entries := by
  rcases h.1 with heq | heq
  · rw [heq]
    rfl
  · rw [heq, Datum.orElse]
    split
    · rfl
    · next hgiven =>
      rw [isGiven, Bool.not_eq_true, Bool.not_eq_false', List.isEmpty_iff] at hgiven
      rw [hgiven]
      rfl

end Datum

namespace Kind

variable {entry : Kind} {d : Datum}

theorem exists_of_fits_text (h : text.fits d) : ∃ o : Option Text, d = .ofText? o := by
  cases d with
  | null => exact ⟨none, rfl⟩
  | text t => exact ⟨some t, rfl⟩
  | _ => simp [fits] at h

theorem exists_of_fits_whole (h : whole.fits d) : ∃ o : Option Int, d = .ofWhole? o := by
  cases d with
  | null => exact ⟨none, rfl⟩
  | number q =>
    cases q with
    | whole i => exact ⟨some i, rfl⟩
    | real x => cases h
  | _ => cases h

theorem exists_of_fits_share (h : share.fits d) :
    ∃ o : Option Int, d = .ofWhole? o ∧ 0 ≤ o.getD 0 := by
  cases d with
  | null => exact ⟨none, rfl, le_rfl⟩
  | number q =>
    cases q with
    | whole i => exact ⟨some i, rfl, of_decide_eq_true h⟩
    | real x => cases h
  | _ => cases h

theorem isListOf_of_fits (h : (listOf entry).fits d) : d.IsListOf fun e => entry.fits e := by
  cases d with
  | null => exact ⟨Or.inl rfl, fun e he => (nomatch he)⟩
  | list ds => exact ⟨Or.inr rfl, List.all_eq_true.mp h⟩
  | _ => simp [fits] at h

theorem isAmount_of_fits (h : number.fits d) (hmoderate : number.isModerate d) : d.IsAmount := by
  cases d with
  | null => exact .ofNull
  | number q =>
    cases q with
    | whole i => exact .ofWhole (of_decide_eq_true hmoderate)
    | real x => exact .ofReal x
  | _ => simp [fits] at h

theorem exists_of_fits_level (h : level.fits d) (hmoderate : level.isModerate d) :
    d = .null ∨ ∃ q : Quantity, d = .number q ∧ q.isFinite ∧ |q.toRat| < moderateBound := by
  cases d with
  | null => exact Or.inl rfl
  | number q => exact Or.inr ⟨q, rfl, by rwa [fits] at h, of_decide_eq_true hmoderate⟩
  | _ => simp [fits] at h

theorem areAmounts_of_fits (h : (listOf number).fits d) (hmoderate : (listOf number).isModerate d) :
    d.IsListOf Datum.IsAmount := by
  obtain ⟨hlist, hentries⟩ := isListOf_of_fits h
  refine ⟨hlist, fun e he => isAmount_of_fits (hentries e he) ?_⟩
  rcases hlist with rfl | hlist
  · cases he
  · rw [hlist, isModerate, List.all_eq_true] at hmoderate
    exact hmoderate e he

end Kind

/-! ### Columns -/

structure Column where
  table : Text
  name : String
  kind : Kind

namespace Column

/-- The columns that exports read. -/
def all : List Column := [
  ⟨Dataset.activeSkills, "Id", .text⟩,
  ⟨Dataset.activeSkills, "DisplayedName", .text⟩,
  ⟨Dataset.activeSkills, "Description", .text⟩,
  ⟨Dataset.activeSkills, "WeaponRestriction_ItemClasses", .listOf .key⟩,
  ⟨Dataset.baseItemTypes, "Id", .text⟩,
  ⟨Dataset.baseItemTypes, "Name", .text⟩,
  ⟨Dataset.baseItemTypes, "ItemClass", .key⟩,
  ⟨Dataset.baseItemTypes, "Width", .whole⟩,
  ⟨Dataset.baseItemTypes, "Height", .whole⟩,
  ⟨Dataset.skillGems, "BaseItemType", .key⟩,
  ⟨Dataset.skillGems, "IntelligenceRequirementPercent", .share⟩,
  ⟨Dataset.skillGems, "StrengthRequirementPercent", .share⟩,
  ⟨Dataset.skillGems, "DexterityRequirementPercent", .share⟩,
  ⟨Dataset.skillGems, "CraftingLevel", .whole⟩,
  ⟨Dataset.grantedEffects, "Id", .text⟩,
  ⟨Dataset.grantedEffects, "ActiveSkill", .key⟩,
  ⟨Dataset.grantedEffects, "StatSet", .key⟩,
  ⟨Dataset.grantedEffects, "CastTime", .number⟩,
  ⟨Dataset.grantedEffects, "CostTypes", .listOf .key⟩,
  ⟨Dataset.grantedEffectStatSets, "Id", .text⟩,
  ⟨Dataset.grantedEffectStatSets, "ConstantStats", .listOf .key⟩,
  ⟨Dataset.grantedEffectStatSets, "ConstantStatsValues", .listOf .number⟩,
  ⟨Dataset.grantedEffectStatSetsPerLevel, "StatSet", .key⟩,
  ⟨Dataset.grantedEffectStatSetsPerLevel, "ActorLevel", .level⟩,
  ⟨Dataset.grantedEffectStatSetsPerLevel, "FloatStats", .listOf .key⟩,
  ⟨Dataset.grantedEffectStatSetsPerLevel, "BaseResolvedValues", .listOf .number⟩,
  ⟨Dataset.grantedEffectStatSetsPerLevel, "FloatStatsValues", .listOf .number⟩,
  ⟨Dataset.grantedEffectStatSetsPerLevel, "AdditionalStats", .listOf .key⟩,
  ⟨Dataset.grantedEffectStatSetsPerLevel, "AdditionalStatsValues", .listOf .number⟩,
  ⟨Dataset.grantedEffectStatSetsPerLevel, "AttackCritChance", .number⟩,
  ⟨Dataset.grantedEffectStatSetsPerLevel, "SpellCritChance", .number⟩,
  ⟨Dataset.grantedEffectsPerLevel, "GrantedEffect", .key⟩,
  ⟨Dataset.grantedEffectsPerLevel, "CostAmounts", .listOf .whole⟩,
  ⟨Dataset.grantedEffectQualityStats, "GrantedEffect", .key⟩,
  ⟨Dataset.grantedEffectQualityStats, "Stats", .listOf .key⟩,
  ⟨Dataset.grantedEffectQualityStats, "StatsValuesPermille", .listOf .number⟩]

end Column

namespace Dataset

/-- Every value in a column that exports read is of the kind of the column, or null. -/
def WellTyped (dataset : Dataset) : Prop :=
  ∀ column ∈ Column.all, ∀ row ∈ dataset.rows column.table, column.kind.fits (row.get column.name)

/-- No number that an export calculates with is so large that the calculation could overflow. -/
def Moderate (dataset : Dataset) : Prop :=
  ∀ column ∈ Column.all, ∀ row ∈ dataset.rows column.table,
    column.kind.isModerate (row.get column.name)

instance (dataset : Dataset) : Decidable dataset.WellTyped := by
  unfold WellTyped
  infer_instance

instance (dataset : Dataset) : Decidable dataset.Moderate := by
  unfold Moderate
  infer_instance

section

variable {dataset : Dataset} {table : Text} {name : String} {row : Row}

theorem WellTyped.text (htyped : dataset.WellTyped) (hcolumn : ⟨table, name, .text⟩ ∈ Column.all)
    (hrow : row ∈ dataset.rows table) : ∃ o : Option Text, row.get name = .ofText? o :=
  Kind.exists_of_fits_text (htyped _ hcolumn row hrow)

/-- A text that is not given counts as the empty one. -/
theorem WellTyped.orElse_text (htyped : dataset.WellTyped)
    (hcolumn : ⟨table, name, .text⟩ ∈ Column.all) (hrow : row ∈ dataset.rows table) :
    (row.get name).orElse (.text []) = .text ((row.get name).toText?.getD []) := by
  obtain ⟨o, ho⟩ := htyped.text hcolumn hrow
  rw [ho, Datum.orElse_ofText?]
  cases o <;> rfl

theorem WellTyped.whole (htyped : dataset.WellTyped) (hcolumn : ⟨table, name, .whole⟩ ∈ Column.all)
    (hrow : row ∈ dataset.rows table) : ∃ o : Option Int, row.get name = .ofWhole? o :=
  Kind.exists_of_fits_whole (htyped _ hcolumn row hrow)

theorem WellTyped.listOf (htyped : dataset.WellTyped) (entry : Kind)
    (hcolumn : ⟨table, name, .listOf entry⟩ ∈ Column.all) (hrow : row ∈ dataset.rows table) :
    (row.get name).IsListOf fun e => entry.fits e :=
  Kind.isListOf_of_fits (htyped _ hcolumn row hrow)

theorem WellTyped.amount (htyped : dataset.WellTyped) (hmoderate : dataset.Moderate)
    (hcolumn : ⟨table, name, .number⟩ ∈ Column.all) (hrow : row ∈ dataset.rows table) :
    (row.get name).IsAmount :=
  Kind.isAmount_of_fits (htyped _ hcolumn row hrow) (hmoderate _ hcolumn row hrow)

theorem WellTyped.level (htyped : dataset.WellTyped) (hmoderate : dataset.Moderate)
    (hcolumn : ⟨table, name, .level⟩ ∈ Column.all) (hrow : row ∈ dataset.rows table) :
    row.get name = .null ∨ ∃ q : Quantity, row.get name = .number q ∧ q.isFinite ∧
      |q.toRat| < moderateBound :=
  Kind.exists_of_fits_level (htyped _ hcolumn row hrow) (hmoderate _ hcolumn row hrow)

theorem WellTyped.amounts (htyped : dataset.WellTyped) (hmoderate : dataset.Moderate)
    (hcolumn : ⟨table, name, .listOf .number⟩ ∈ Column.all) (hrow : row ∈ dataset.rows table) :
    (row.get name).IsListOf Datum.IsAmount :=
  Kind.areAmounts_of_fits (htyped _ hcolumn row hrow) (hmoderate _ hcolumn row hrow)

theorem WellTyped.share (htyped : dataset.WellTyped) (hmoderate : dataset.Moderate)
    (hcolumn : ⟨table, name, .share⟩ ∈ Column.all) (hrow : row ∈ dataset.rows table) :
    ∃ o : Option Int, row.get name = .ofWhole? o ∧ 0 ≤ o.getD 0 ∧
      ((o.getD 0 : ℤ) : ℚ) < moderateBound := by
  obtain ⟨o, ho, hnonneg⟩ := Kind.exists_of_fits_share (htyped _ hcolumn row hrow)
  refine ⟨o, ho, hnonneg, ?_⟩
  cases o with
  | none => norm_num [moderateBound]
  | some i =>
    have hsmall := hmoderate _ hcolumn row hrow
    rw [ho] at hsmall
    exact lt_of_le_of_lt (le_abs_self _) (of_decide_eq_true hsmall)

end

end Dataset

end GemScribe
