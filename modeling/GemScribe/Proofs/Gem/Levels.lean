import GemScribe.Gem.Progression
import GemScribe.Proofs.Gem.Quality

/-!
When the levels of a progression can be read.

Of a level only the character level and the requirement it leads to depend on a number that could be too
large. What a level lacks is left out of it, and so a list of levels returns when the resolver does.
-/

namespace GemScribe

open Journal

namespace Progression

variable {dataset : Dataset} {row : Row} {blocks : List Block} {settings : Settings}

theorem exists_critChance (hattack : (row.get "AttackCritChance").IsAmount)
    (hspell : (row.get "SpellCritChance").IsAmount) : ∃ o, critChance row = .ok o := by
  rw [critChance]
  rcases (hattack.orElse hspell).cases with hnone | ⟨q, hq, hamount⟩
  · rw [hnone]
    exact ⟨none, rfl⟩
  · obtain ⟨x, hx⟩ := hamount.exists_divBy (n := 100) (by decide)
    rw [hq]
    exact ⟨some x, by simp only [hx]⟩

theorem description_text (t : Text) : description (.text t) = .ok (Link.unlink t) := by
  unfold description
  with_reducible rfl

theorem capitalizedId_text (t : Text) : capitalizedId (.text t) = .ok (Text.capitalize t) :=
  rfl

/-- The whole part of a number is no larger than a whole bound of it. -/
theorem abs_floor_le {q : ℚ} (h : |q| < moderateBound) : |(q.floor : ℚ)| ≤ moderateBound := by
  have hbound : moderateBound = ((10 ^ 100 : ℤ) : ℚ) := by norm_num [moderateBound]
  obtain ⟨hlow, hhigh⟩ := abs_lt.mp h
  refine abs_le.mpr ⟨?_, le_trans (Rat.floor_le q) hhigh.le⟩
  rw [hbound, ← Int.cast_neg, Int.cast_le]
  exact Rat.le_floor_iff.mpr (by rw [Int.cast_neg, ← hbound]; exact hlow.le)

theorem exists_actorLevel (h : row.get "ActorLevel" = .null ∨ ∃ q : Quantity,
      row.get "ActorLevel" = .number q ∧ q.isFinite ∧ |q.toRat| < moderateBound) :
    ∃ n : ℤ, actorLevel row = .ok n ∧ |(n : ℚ)| ≤ moderateBound := by
  have hzero : |((0 : ℤ) : ℚ)| ≤ moderateBound := by norm_num [moderateBound]
  rw [actorLevel]
  rcases h with hnull | ⟨q, hq, hfinite, hbound⟩
  · exact ⟨0, by rw [hnull]; rfl, hzero⟩
  · rcases Datum.orElse_cases (row.get "ActorLevel") Constant.zero with heq | heq
    · rw [heq, hq]
      cases q with
      | whole i => exact ⟨i, rfl, hbound.le⟩
      | real x =>
        cases x with
        | finite s m e hc => exact ⟨_, rfl, abs_floor_le hbound⟩
        | infinite s => cases hfinite
        | nan => cases hfinite
    · exact ⟨0, by rw [heq]; rfl, hzero⟩

theorem rowStats_returns (htyped : dataset.WellTyped) (hmoderate : dataset.Moderate)
    (hrow : row ∈ dataset.rows Dataset.grantedEffectStatSetsPerLevel) : (rowStats row).Returns := by
  have hvalues : ((row.get "BaseResolvedValues").orElse (row.get "FloatStatsValues")).IsListOf
      Datum.IsAmount :=
    (htyped.amounts hmoderate (by simp [Column.all]) hrow).orElse
      (htyped.amounts hmoderate (by simp [Column.all]) hrow)
  have hfloats : (Observation.ofReferences (row.get "FloatStats")
      ((row.get "BaseResolvedValues").orElse (row.get "FloatStatsValues"))).Returns :=
    Observation.ofReferences_returns (htyped.listOf .key (by simp [Column.all]) hrow) hvalues
  have hadditional : (Observation.ofReferences (row.get "AdditionalStats")
      (row.get "AdditionalStatsValues")).Returns :=
    Observation.ofReferences_returns (htyped.listOf .key (by simp [Column.all]) hrow)
      (htyped.amounts hmoderate (by simp [Column.all]) hrow)
  exact hfloats.bind fun floats _ => hadditional.bind fun additional _ => returns_pure _

theorem joinStats_returns {os : List Observation} (h : (resolve blocks true os).Returns) :
    (joinStats blocks settings os).Returns := by
  rw [joinStats]
  split
  · exact returns_pure []
  · exact h.bind fun lines _ => returns_pure _

theorem exists_cost (htyped : dataset.WellTyped) {costRows : List Row}
    (hrows : ∀ row ∈ costRows, row ∈ dataset.rows Dataset.grantedEffectsPerLevel) (place : ℕ) :
    ∃ o : Option Int, cost (costRows.map .record) place = .ok (.ofWhole? o) := by
  rw [cost, List.getElem?_map]
  cases hplace : costRows[place]? with
  | none => exact ⟨none, rfl⟩
  | some row =>
    have hamounts : (row.get "CostAmounts").IsListOf fun e => Kind.whole.fits e :=
      htyped.listOf .whole (by simp [Column.all]) (hrows row (List.mem_of_getElem? hplace))
    simp only [Option.map_some, Datum.toRow, bind, Except.bind]
    rcases hamounts.1 with hnone | hlist
    · rw [hnone]
      exact ⟨none, rfl⟩
    · have hentries := hamounts.2
      rw [hlist]
      generalize (row.get "CostAmounts").entries = amounts at hentries
      rcases amounts with - | ⟨e, amounts⟩
      · exact ⟨none, rfl⟩
      · obtain ⟨o, ho⟩ := Kind.exists_of_fits_whole (hentries e List.mem_cons_self)
        exact ⟨o, by rw [ho]; rfl⟩

/-- A level of a record whose share is within its range. -/
theorem level_returns (htyped : dataset.WellTyped) (hmoderate : dataset.Moderate)
    (hrow : row ∈ dataset.rows Dataset.grantedEffectStatSetsPerLevel) {costRows : List Row}
    (hrows : ∀ row ∈ costRows, row ∈ dataset.rows Dataset.grantedEffectsPerLevel) {skill : Skill}
    (hnonneg : 0 ≤ skill.attributePercent) (hbound : (skill.attributePercent : ℚ) < moderateBound)
    (hresolve : ∀ floats additional, (rowStats row).outcome = .ok (floats, additional) →
      (resolve blocks true floats).Returns ∧ (resolve blocks true additional).Returns)
    (place : ℕ) :
    (level skill (costRows.map .record) blocks settings place (.record row)).Returns := by
  obtain ⟨actor, hactor, hlevel⟩ := exists_actorLevel
    (htyped.level hmoderate (by simp [Column.all]) hrow)
  obtain ⟨⟨floats, additional⟩, hstats⟩ := rowStats_returns htyped hmoderate hrow
  obtain ⟨amount, hamount⟩ := exists_cost htyped hrows place
  obtain ⟨points, hpoints⟩ := Requirement.exists_atLevel hlevel hnonneg hbound
  obtain ⟨hfloats, hadditional⟩ := hresolve floats additional hstats
  rw [level]
  refine returns_bind_of_ok (a := row) rfl ?_
  refine returns_bind_of_ok hactor (returns_bind_of_ok hstats (returns_bind_of_ok hamount ?_))
  refine returns_bind_of_ok (Fault.ofNumber_eq_ok.mpr hpoints) ?_
  refine (joinStats_returns hfloats).bind fun floatText _ => ?_
  refine (joinStats_returns hadditional).bind fun additionalText _ => ?_
  refine returns_bind_of_ok (a := amount) ?_ (returns_pure _)
  cases amount <;> rfl

theorem levelsFrom_returns (htyped : dataset.WellTyped) (hmoderate : dataset.Moderate)
    {costRows : List Row} (hcost : ∀ row ∈ costRows, row ∈ dataset.rows Dataset.grantedEffectsPerLevel)
    {skill : Skill} (hnonneg : 0 ≤ skill.attributePercent)
    (hbound : (skill.attributePercent : ℚ) < moderateBound) : ∀ (place : ℕ) {rows : List Row},
    (∀ row ∈ rows, row ∈ dataset.rows Dataset.grantedEffectStatSetsPerLevel) →
    (∀ row ∈ rows, ∀ floats additional, (rowStats row).outcome = .ok (floats, additional) →
      (resolve blocks true floats).Returns ∧ (resolve blocks true additional).Returns) →
    (levelsFrom skill (costRows.map .record) blocks settings place (rows.map .record)).Returns
  | _, [], _, _ => returns_pure []
  | place, row :: rows, hrows, hresolve => by
      rw [List.forall_mem_cons] at hrows hresolve
      rw [List.map_cons, levelsFrom]
      refine (level_returns htyped hmoderate hrows.1 hcost hnonneg hbound hresolve.1 place).bind
        fun first _ => ?_
      exact (levelsFrom_returns htyped hmoderate hcost hnonneg hbound (place + 1) hrows.2
        hresolve.2).bind fun others _ => returns_pure _

end Progression

end GemScribe
