import GemScribe.Gem.Export
import GemScribe.Proofs.Gem.Constant
import GemScribe.Proofs.Gem.Levels
import GemScribe.Proofs.Stat.Plain

/-!
How an export ends.

Every column that is read may be absent or null, and so may every entry of a list, and an export still
returns: each step has something to put in the place of what is missing. There are two exceptions. An
export ends when no effect grants the skill, and this is reported as such. It also ends when a quality row
has null where the value should be, which is not asked for before the value is multiplied. `ofTables_ends`
says that nothing else ends an export of tables of the right kinds, as long as the resolver returns on what
it is asked for and no number is so large that a calculation overflows.
-/

namespace GemScribe

open Journal

namespace Skill

/-- The id of the skill in a row; a row without one has the empty id. -/
def idOf (row : Row) : Text :=
  (row.get "Id").toText?.getD []

/-- What an export of an effect asks the resolver for. -/
inductive Asked (dataset : Dataset) (levels : List Int) (effect : Row) : List Observation → Prop
  | constant {os : List Observation} (h : (Constant.stats dataset effect).outcome = .ok os) :
    Asked dataset levels effect os
  | quality {row : Row} {os : List Observation}
    (hrow : row ∈ dataset.rowsReferencing Dataset.grantedEffectQualityStats "GrantedEffect"
      (effect.get "Id"))
    (h : (Quality.observations row levels).outcome = .ok os) : Asked dataset levels effect os
  | floats {row : Row} {floats additional : List Observation}
    (hrow : row ∈ dataset.rowsReferencing Dataset.grantedEffectStatSetsPerLevel "StatSet"
      (Dataset.statSetId effect))
    (h : (Progression.rowStats row).outcome = .ok (floats, additional)) :
    Asked dataset levels effect floats
  | additional {row : Row} {floats additional : List Observation}
    (hrow : row ∈ dataset.rowsReferencing Dataset.grantedEffectStatSetsPerLevel "StatSet"
      (Dataset.statSetId effect))
    (h : (Progression.rowStats row).outcome = .ok (floats, additional)) :
    Asked dataset levels effect additional
  | first {row : Row} {rows : List Row} {floats additional : List Observation}
    (hrows : dataset.rowsReferencing Dataset.grantedEffectStatSetsPerLevel "StatSet"
      (Dataset.statSetId effect) = row :: rows)
    (h : (Progression.rowStats row).outcome = .ok (floats, additional)) :
    Asked dataset levels effect (additional ++ floats).reverse

end Skill

namespace Constant

variable {dataset : Dataset} {row : Row} {blocks : List Block} {settings : Settings}

/-- The constant part is that of the effect, with fields that can be read. -/
theorem exists_ofEffect (htyped : dataset.WellTyped) (hmoderate : dataset.Moderate)
    (hrow : row ∈ dataset.rows Dataset.activeSkills) {effect : Row}
    (heffect : dataset.findGrantedEffect (.text (Skill.idOf row)) = some effect)
    (blocks : List Block) (settings : Settings) :
    ∃ fields given, Skill.read (.record fields) = .fits given ∧ IsShare given.attributePercent ∧
      (record dataset row blocks settings).outcome =
        (ofEffect dataset (Skill.idOf row) effect fields blocks settings).outcome := by
  obtain ⟨id, hid⟩ : ∃ o, effect.get "Id" = .ofText? o :=
    htyped.text (by simp [Column.all]) (List.mem_of_find?_eq_some heffect)
  obtain ⟨item, gem, hitem, hgem, houtcome⟩ := outcome_record dataset blocks settings
    (htyped.orElse_text (by simp [Column.all]) hrow)
    (htyped.orElse_text (by simp [Column.all]) hrow)
  obtain ⟨given, hread, hshare⟩ := exists_read htyped hmoderate (Skill.idOf row)
    ((row.get "DisplayedName").toText?.getD []) id hitem hgem
  simp only [Skill.idOf] at heffect hread
  simp only [heffect, fields, hid] at houtcome
  exact ⟨_, given, hread, hshare, houtcome⟩

theorem record_failsWhen (htyped : dataset.WellTyped) (hmoderate : dataset.Moderate)
    (hlevels : ∀ quality ∈ settings.qualityLevels, |(quality : ℚ)| < moderateBound)
    (hrow : row ∈ dataset.rows Dataset.activeSkills) {effect : Row}
    (heffect : dataset.findGrantedEffect (.text (Skill.idOf row)) = some effect)
    (hresolve : ∀ os, Skill.Asked dataset settings.qualityLevels effect os →
      (resolve blocks true os).Returns) :
    (record dataset row blocks settings).FailsWhen
      (Quality.HasNullRow dataset settings.qualityLevels (effect.get "Id")) .wrongKind := by
  obtain ⟨fields, given, hread, -, houtcome⟩ :=
    exists_ofEffect htyped hmoderate hrow heffect blocks settings
  exact failsWhen_of_outcome_eq houtcome (ofEffect_failsWhen htyped hmoderate hlevels
    (List.mem_of_find?_eq_some heffect) hread (fun os hos => hresolve os (.constant hos))
    fun quality hquality os hos => hresolve os (.quality hquality hos))

theorem isShare_of_record (htyped : dataset.WellTyped) (hmoderate : dataset.Moderate)
    (hrow : row ∈ dataset.rows Dataset.activeSkills) {effect : Row}
    (heffect : dataset.findGrantedEffect (.text (Skill.idOf row)) = some effect) {skill : Skill}
    (h : (record dataset row blocks settings).outcome = .ok skill) :
    IsShare skill.attributePercent := by
  obtain ⟨fields, given, hread, hshare, houtcome⟩ :=
    exists_ofEffect htyped hmoderate hrow heffect blocks settings
  rw [attributePercent_of_ofEffect hread (houtcome ▸ h)]
  exact hshare

end Constant

namespace Progression

variable {dataset : Dataset} {row : Row} {blocks : List Block} {settings : Settings}

theorem withLevels_returns (htyped : dataset.WellTyped) (hmoderate : dataset.Moderate)
    {skill : Skill} (hshare : Constant.IsShare skill.attributePercent) {first : Row}
    {rows costRows : List Row}
    (hrows : ∀ row ∈ first :: rows, row ∈ dataset.rows Dataset.grantedEffectStatSetsPerLevel)
    (hcost : ∀ row ∈ costRows, row ∈ dataset.rows Dataset.grantedEffectsPerLevel)
    (hresolve : ∀ row ∈ first :: rows, ∀ floats additional,
      (rowStats row).outcome = .ok (floats, additional) →
        (resolve blocks true floats).Returns ∧ (resolve blocks true additional).Returns)
    (hfirst : ∀ floats additional, (rowStats first).outcome = .ok (floats, additional) →
      (resolve blocks true (additional ++ floats).reverse).Returns) :
    (withLevels skill first (first :: rows) costRows blocks settings).Returns := by
  have hmem := hrows first List.mem_cons_self
  obtain ⟨chance, hchance⟩ := exists_critChance
    (htyped.amount hmoderate (by simp [Column.all]) hmem)
    (htyped.amount hmoderate (by simp [Column.all]) hmem)
  obtain ⟨⟨floats, additional⟩, hstats⟩ := rowStats_returns htyped hmoderate hmem
  rw [withLevels]
  refine returns_bind_of_ok (a := chance) hchance (returns_bind_of_ok hstats ?_)
  refine (joinStats_returns (hfirst floats additional hstats)).bind fun _ _ => ?_
  exact (levelsFrom_returns htyped hmoderate hcost hshare.1 hshare.2 0 hrows hresolve).bind
    fun _ _ => returns_pure _

theorem extend_returns (htyped : dataset.WellTyped) (hmoderate : dataset.Moderate)
    (hrow : row ∈ dataset.rows Dataset.activeSkills) {effect : Row}
    (heffect : dataset.findGrantedEffect (.text (Skill.idOf row)) = some effect)
    (hresolve : ∀ os, Skill.Asked dataset settings.qualityLevels effect os →
      (resolve blocks true os).Returns)
    {skill : Skill} (hshare : Constant.IsShare skill.attributePercent) :
    (extend dataset row skill blocks settings).Returns := by
  have hid : (row.get "Id").orElse (.text []) = .text (Skill.idOf row) :=
    htyped.orElse_text (by simp [Column.all]) hrow
  have hdescription : (row.get "Description").orElse (.text []) =
      .text ((row.get "Description").toText?.getD []) :=
    htyped.orElse_text (by simp [Column.all]) hrow
  have hclasses : (row.get "WeaponRestriction_ItemClasses").IsListOf fun e => Kind.key.fits e :=
    htyped.listOf .key (by simp [Column.all]) hrow
  obtain ⟨classes, hrestrictions⟩ : ∃ classes, restrictions row = .ok classes :=
    ⟨_, by rw [restrictions, hclasses.orElse_nil]; rfl⟩
  rw [extend, hid, hdescription]
  refine returns_bind_of_ok (a := classes) hrestrictions ?_
  refine returns_bind_of_ok (capitalizedId_text _) (returns_bind_of_ok (description_text _) ?_)
  simp only [heffect]
  cases hlevelRows : dataset.rowsReferencing Dataset.grantedEffectStatSetsPerLevel "StatSet"
    (Dataset.statSetId effect) with
  | nil => exact returns_bind_of_ok (a := ()) rfl (returns_pure _)
  | cons first rows =>
    have hmem : ∀ r ∈ first :: rows, r ∈ dataset.rowsReferencing
        Dataset.grantedEffectStatSetsPerLevel "StatSet" (Dataset.statSetId effect) :=
      fun r hr => hlevelRows ▸ hr
    refine withLevels_returns htyped hmoderate ?_
      (fun r hr => Dataset.mem_of_mem_rowsReferencing (hmem r hr))
      (fun r hr => Dataset.mem_of_mem_rowsReferencing hr) ?_ ?_
    · exact hshare
    · intro r hr floats additional hstats
      exact ⟨hresolve _ (.floats (hmem r hr) hstats), hresolve _ (.additional (hmem r hr) hstats)⟩
    · intro floats additional hstats
      exact hresolve _ (.first hlevelRows hstats)

end Progression

namespace Skill

variable {dataset : Dataset} {row : Row} {grammar : Text} {blocks : List Block} {settings : Settings}

theorem ofTables_cases (hrow : row ∈ dataset.rows Dataset.activeSkills) (htyped : dataset.WellTyped)
    (hmoderate : dataset.Moderate)
    (hlevels : ∀ quality ∈ settings.qualityLevels, |(quality : ℚ)| < moderateBound)
    (hparse : Block.parse grammar = .ok blocks)
    (hresolve : ∀ effect, dataset.findGrantedEffect (.text (idOf row)) = some effect →
      ∀ os, Asked dataset settings.qualityLevels effect os → (resolve blocks true os).Returns) :
    match dataset.findGrantedEffect (.text (idOf row)) with
    | none =>
      (ofTables dataset row grammar settings).outcome = .error (.noGrantedEffect (.text (idOf row)))
    | some effect => (ofTables dataset row grammar settings).FailsWhen
        (Quality.HasNullRow dataset settings.qualityLevels (effect.get "Id")) .wrongKind := by
  have houtcome : (ofTables dataset row grammar settings).outcome =
      (Constant.record dataset row blocks settings >>= fun skill =>
        Progression.extend dataset row skill blocks settings).outcome := by
    rw [ofTables, outcome_bind_of_ok (Fault.ofNumber_eq_ok.mpr hparse)]
    rfl
  cases hfound : dataset.findGrantedEffect (.text (idOf row)) with
  | none =>
    obtain ⟨item, gem, -, -, hrecord⟩ := Constant.outcome_record dataset blocks settings
      (htyped.orElse_text (by simp [Column.all]) hrow)
      (htyped.orElse_text (by simp [Column.all]) hrow)
    rw [← idOf, hfound] at hrecord
    exact houtcome.trans (outcome_bind_eq_error.mpr (Or.inl hrecord))
  | some effect =>
    have hrecord := Constant.record_failsWhen htyped hmoderate hlevels hrow hfound
      (hresolve effect hfound)
    refine failsWhen_of_outcome_eq houtcome (hrecord.bind fun skill hskill => ?_)
    exact Progression.extend_returns htyped hmoderate hrow hfound (hresolve effect hfound)
      (Constant.isShare_of_record htyped hmoderate hrow hfound hskill)

theorem findGrantedEffect_eq_none_iff (id : Text) :
    dataset.findGrantedEffect (.text id) = none ↔
      ∀ effect ∈ dataset.rows Dataset.grantedEffects, (effect.get "ActiveSkill").refId ≠ some id := by
  simp only [Dataset.findGrantedEffect, List.find?_eq_none, Dataset.target_same_text, decide_eq_true_eq,
    ne_eq]

/-- An export returns exactly when the skill has an effect and no quality row of the effect has null as
its value. It reports a missing effect exactly when no effect refers to the id of the skill, and in the one
remaining case it ends with the fault of the null value. -/
theorem ofTables_ends (hrow : row ∈ dataset.rows Dataset.activeSkills) (htyped : dataset.WellTyped)
    (hmoderate : dataset.Moderate)
    (hlevels : ∀ quality ∈ settings.qualityLevels, |(quality : ℚ)| < moderateBound)
    (hparse : Block.parse grammar = .ok blocks)
    (hresolve : ∀ effect, dataset.findGrantedEffect (.text (idOf row)) = some effect →
      ∀ os, Asked dataset settings.qualityLevels effect os → (resolve blocks true os).Returns) :
    ((ofTables dataset row grammar settings).Returns ↔
      ∃ effect, dataset.findGrantedEffect (.text (idOf row)) = some effect ∧
        ¬Quality.HasNullRow dataset settings.qualityLevels (effect.get "Id")) ∧
    ((ofTables dataset row grammar settings).outcome =
        .error (.noGrantedEffect (.text (idOf row))) ↔
      ∀ effect ∈ dataset.rows Dataset.grantedEffects,
        (effect.get "ActiveSkill").refId ≠ some (idOf row)) ∧
    ((ofTables dataset row grammar settings).outcome = .error .wrongKind ↔
      ∃ effect, dataset.findGrantedEffect (.text (idOf row)) = some effect ∧
        Quality.HasNullRow dataset settings.qualityLevels (effect.get "Id")) := by
  -- the three outcomes exclude each other, so that each case settles all three statements
  have hcases := ofTables_cases hrow htyped hmoderate hlevels hparse hresolve
  rw [← findGrantedEffect_eq_none_iff, Returns]
  cases hfound : dataset.findGrantedEffect (.text (idOf row)) with
  | none =>
    rw [hfound] at hcases
    simp [hcases]
  | some effect =>
    rw [hfound] at hcases
    rcases hcases with ⟨hgood, skill, houtcome⟩ | ⟨hnull, houtcome⟩
    · simp [houtcome, hgood]
    · simp [houtcome, hnull]

/-- A skill of which only the id is known. -/
def fireball : Row :=
  [("Id".toList, .text "Fireball".toList)]

/-- An effect that grants it. -/
def fireballEffect (castTime : Datum) : Row :=
  [("Id".toList, .text "FireballPlayer".toList), ("ActiveSkill".toList, .ref "Fireball".toList),
    ("CastTime".toList, castTime)]

def fireballQuality (perMille : Datum) : Row :=
  [("GrantedEffect".toList, .ref "FireballPlayer".toList),
    ("Stats".toList, .list [.ref "damage".toList]), ("StatsValuesPermille".toList, .list [perMille])]

/-- A level whose first stat and whose values are null. -/
def fireballLevel : Row :=
  [("StatSet".toList, .ref "FireballPlayer".toList),
    ("FloatStats".toList, .list [.null, .ref "damage".toList]),
    ("FloatStatsValues".toList, .list [.null, .null])]

/-- Tables with these rows; the other tables are absent. -/
def fireballTables (castTime perMille : Datum) : Dataset :=
  ⟨[], [(Dataset.activeSkills, [fireball]),
    (Dataset.grantedEffects, [fireballEffect castTime]),
    (Dataset.grantedEffectQualityStats, [fireballQuality perMille]),
    (Dataset.grantedEffectStatSetsPerLevel, [fireballLevel])]⟩

def damageFile : Text :=
  "description\ndamage\n\x7b0\x7d% to Damage\n".toList

def damageBlocks : List Block :=
  [⟨"damage".toList, none, ["\x7b0\x7d% to Damage".toList]⟩]

theorem parse_damageFile : Block.parse damageFile = .ok damageBlocks := by
  decide +kernel

theorem resolve_damageBlocks (skip : Bool) (os : List Observation) :
    (resolve damageBlocks skip os).Returns :=
  resolve_returns_of_isPlain (by decide) skip os

/-- An export of tables that leave out most columns, with null in two lists. -/
theorem ofTables_fireball :
    (fireballTables .null (.number (.whole 5))).WellTyped ∧
    (fireballTables .null (.number (.whole 5))).Moderate ∧
    (ofTables (fireballTables .null (.number (.whole 5))) fireball damageFile
      Settings.standard).Returns := by
  have htyped : (fireballTables .null (.number (.whole 5))).WellTyped := by decide +kernel
  have hmoderate : (fireballTables .null (.number (.whole 5))).Moderate := by decide +kernel
  have hlevels : ∀ quality ∈ Settings.standard.qualityLevels, |(quality : ℚ)| < moderateBound := by
    norm_num [Settings.standard, moderateBound]
  have hnull : ¬Quality.HasNullRow (fireballTables .null (.number (.whole 5)))
      Settings.standard.qualityLevels ((fireballEffect .null).get "Id") := by
    rintro ⟨row, hrow, h⟩
    obtain rfl := List.mem_singleton.mp (hrow : row ∈ [fireballQuality (.number (.whole 5))])
    obtain ⟨ds, hds⟩ := h.value
    cases hds
  have hends := ofTables_ends List.mem_cons_self htyped hmoderate hlevels parse_damageFile
    fun _ _ os _ => resolve_damageBlocks true os
  exact ⟨htyped, hmoderate, hends.1.mpr ⟨fireballEffect .null, rfl, hnull⟩⟩

/-- With null as the value of its quality row the export ends with a fault, although the skill has an effect
and the resolver has none. -/
theorem ofTables_nullValue :
    (fireballTables .null .null).WellTyped ∧
    (∀ os, (resolve damageBlocks true os).Returns) ∧
    (fireballTables .null .null).findGrantedEffect (.text (idOf fireball)) =
      some (fireballEffect .null) ∧
    (ofTables (fireballTables .null .null) fireball damageFile Settings.standard).outcome =
      .error .wrongKind :=
  ⟨by decide +kernel, resolve_damageBlocks true, rfl, rfl⟩

-- Without a bound on whole numbers exports end with other faults: this cast time has no binary64 number
-- near it.
example : (fireballTables (.number (.whole (10 ^ 200 * 10 ^ 200))) (.number (.whole 5))).WellTyped ∧
    (ofTables (fireballTables (.number (.whole (10 ^ 200 * 10 ^ 200))) (.number (.whole 5))) fireball
      damageFile Settings.standard).outcome.toOption.isNone := by
  decide +kernel

end Skill

end GemScribe
