import GemScribe.Proofs.Gem.Levels

/-!
When the constant part of a record can be read.

The constant part is put together as a row of fields and read back as a record. Fields of a base item or a
gem that is not found are not in the row, and the record has values of its own for them. All that is left
to go wrong is the quality stats.
-/

namespace GemScribe

open Journal

theorem Dataset.target_eq (key : Datum) : target key = .ofText? key.refId := by
  rw [target]
  cases key.refId <;> rfl

theorem Datum.same_text (d : Datum) (id : Text) : d.same (.text id) = decide (d.toText? = some id) := by
  cases d <;> simp [same, sameItem, isNan, toQuantity?, toText?, beq_eq_decide]

theorem Dataset.target_same_text (key : Datum) (id : Text) :
    (target key).same (.text id) = decide (key.refId = some id) := by
  rw [target_eq, Datum.same_text]
  cases key.refId <;> rfl

namespace Constant

variable {dataset : Dataset} {row effect : Row} {blocks : List Block} {settings : Settings}

theorem asOptional_asText (o : Option Text) :
    Datum.asOptional Datum.asText (.ofText? o) = .fits o := by
  cases o <;> rfl

theorem asOptional_asWhole (o : Option Int) :
    Datum.asOptional Datum.asWhole (.ofWhole? o) = .fits o := by
  cases o <;> rfl

theorem orElse_zero (o : Option Int) :
    (Datum.ofWhole? o).orElse zero = .number (.whole (o.getD 0)) := by
  cases o with
  | none => rfl
  | some i =>
    rw [Datum.orElse]
    split
    · rfl
    · next hzero =>
      obtain rfl : i = 0 := by
        simpa [Datum.ofWhole?, Datum.isGiven, Quantity.equalsInt] using hzero
      rfl

/-- A share that a requirement can be calculated from. -/
def IsShare (share : ℤ) : Prop :=
  0 ≤ share ∧ (share : ℚ) < moderateBound

theorem isShare_zero : IsShare 0 :=
  ⟨le_rfl, by norm_num [moderateBound]⟩

theorem IsShare.max {i j : ℤ} (hi : IsShare i) (hj : IsShare j) : IsShare (max i j) :=
  ⟨le_max_of_le_left hi.1, by rw [Int.cast_max]; exact max_lt hi.2 hj.2⟩

/-- Fields of the base item, which are either all written or all left to the record's own values. -/
theorem baseItemFields_cases (htyped : dataset.WellTyped) {item : Option Row}
    (hitem : ∀ row, item = some row → row ∈ dataset.rows Dataset.baseItemTypes) :
    ∃ id itemClass width height,
      (item.map baseItemFields).getD [] = [("metadata_id".toList, .ofText? id),
        ("class_id".toList, .ofText? itemClass), ("size_x".toList, .ofWhole? width),
        ("size_y".toList, .ofWhole? height)] ∨
      (item.map baseItemFields).getD [] = [] ∧
        id = none ∧ itemClass = none ∧ width = none ∧ height = none := by
  cases item with
  | none => exact ⟨none, none, none, none, Or.inr ⟨rfl, rfl, rfl, rfl, rfl⟩⟩
  | some row =>
    have hrow := hitem row rfl
    obtain ⟨id, hid⟩ : ∃ o, row.get "Id" = .ofText? o := htyped.text (by simp [Column.all]) hrow
    obtain ⟨width, hwidth⟩ : ∃ o, row.get "Width" = .ofWhole? o :=
      htyped.whole (by simp [Column.all]) hrow
    obtain ⟨height, hheight⟩ : ∃ o, row.get "Height" = .ofWhole? o :=
      htyped.whole (by simp [Column.all]) hrow
    refine ⟨id, (row.get "ItemClass").refId, width, height, Or.inl ?_⟩
    rw [Option.map_some, Option.getD_some, baseItemFields, hid, hwidth, hheight, Dataset.target_eq]

/-- Fields of the skill gem, which are either all written or all left to the record's own values. -/
theorem gemFields_cases (htyped : dataset.WellTyped) (hmoderate : dataset.Moderate)
    {gem : Option Row} (hgem : ∀ row, gem = some row → row ∈ dataset.rows Dataset.skillGems) :
    ∃ intelligence strength dexterity tier,
      (IsShare intelligence ∧ IsShare strength ∧ IsShare dexterity) ∧
      ((gem.map gemFields).getD [] = [("intelligence_percent".toList, .number (.whole intelligence)),
        ("strength_percent".toList, .number (.whole strength)),
        ("dexterity_percent".toList, .number (.whole dexterity)),
        ("gem_tier".toList, .ofWhole? tier)] ∨
      (gem.map gemFields).getD [] = [] ∧
        intelligence = 0 ∧ strength = 0 ∧ dexterity = 0 ∧ tier = none) := by
  cases gem with
  | none =>
    exact ⟨0, 0, 0, none, ⟨isShare_zero, isShare_zero, isShare_zero⟩,
      Or.inr ⟨rfl, rfl, rfl, rfl, rfl⟩⟩
  | some row =>
    have hrow := hgem row rfl
    have hshare : ∀ name, ⟨Dataset.skillGems, name, .share⟩ ∈ Column.all →
        ∃ share, (row.get name).orElse zero = .number (.whole share) ∧ IsShare share := by
      intro name hcolumn
      obtain ⟨o, ho, hbounds⟩ := htyped.share hmoderate hcolumn hrow
      exact ⟨o.getD 0, by rw [ho, orElse_zero], hbounds⟩
    obtain ⟨intelligence, hintelligence, hi⟩ :=
      hshare "IntelligenceRequirementPercent" (by simp [Column.all])
    obtain ⟨strength, hstrength, hs⟩ := hshare "StrengthRequirementPercent" (by simp [Column.all])
    obtain ⟨dexterity, hdexterity, hd⟩ := hshare "DexterityRequirementPercent" (by simp [Column.all])
    obtain ⟨tier, htier⟩ : ∃ o, row.get "CraftingLevel" = .ofWhole? o :=
      htyped.whole (by simp [Column.all]) hrow
    refine ⟨intelligence, strength, dexterity, tier, ⟨hi, hs, hd⟩, Or.inl ?_⟩
    rw [Option.map_some, Option.getD_some, gemFields, hintelligence, hstrength, hdexterity, htier]

/-- The fields of the constant part are read back, whichever of the rows they come from exist. -/
theorem exists_read (htyped : dataset.WellTyped) (hmoderate : dataset.Moderate) (skill name : Text)
    (id : Option Text) {item gem : Option Row}
    (hitem : ∀ row, item = some row → row ∈ dataset.rows Dataset.baseItemTypes)
    (hgem : ∀ row, gem = some row → row ∈ dataset.rows Dataset.skillGems) :
    ∃ given, Skill.read (.record ([("skill_id".toList, .text skill), ("name".toList, .text name)] ++
        (item.map baseItemFields).getD [] ++ (gem.map gemFields).getD [] ++
        [("granted_effect_id".toList, .ofText? id)])) = .fits given ∧
      IsShare given.attributePercent := by
  obtain ⟨metadata, itemClass, width, height, hitemFields⟩ := baseItemFields_cases htyped hitem
  obtain ⟨intelligence, strength, dexterity, tier, ⟨hi, hs, hd⟩, hgemFields⟩ :=
    gemFields_cases htyped hmoderate hgem
  refine ⟨⟨skill, name, metadata, itemClass, width, height, intelligence, strength, dexterity, tier,
    id, none, none, none, [], [], [], [], [], [], []⟩, ?_, hi.max (hs.max hd)⟩
  -- fields that are not written are those for which the record has these values anyway, so that the four
  -- rows are read as one record
  rcases hitemFields with hitemFields | ⟨hitemFields, rfl, rfl, rfl, rfl⟩ <;>
    rcases hgemFields with hgemFields | ⟨hgemFields, rfl, rfl, rfl, rfl⟩ <;>
    simp [hitemFields, hgemFields, Skill.read, Datum.asRecord, Row.withDefault, Row.find?,
      asOptional_asText, asOptional_asWhole, Reading.under, Datum.asText, Datum.asWhole] <;>
    rfl

theorem castTime_returns (h : (effect.get "CastTime").IsAmount) (skill : Datum) :
    (castTime skill effect).Returns := by
  rw [castTime]
  rcases h.cases with hnone | ⟨q, hq, hamount⟩
  · rw [hnone]
    exact ⟨none, rfl⟩
  · obtain ⟨x, hx⟩ := hamount.exists_divBy (n := 1000) (by decide)
    rw [hq]
    exact ⟨some x, by simp only [hx]; rfl⟩

theorem stats_returns (htyped : dataset.WellTyped) (hmoderate : dataset.Moderate) (effect : Row) :
    (stats dataset effect).Returns := by
  rw [stats]
  cases hfound : dataset.findStatSet effect with
  | none => exact returns_pure []
  | some row =>
    have hrow : row ∈ dataset.rows Dataset.grantedEffectStatSets := List.mem_of_find?_eq_some hfound
    exact Observation.ofReferences_returns (htyped.listOf .key (by simp [Column.all]) hrow)
      (htyped.amounts hmoderate (by simp [Column.all]) hrow)

theorem costType_returns {p : Datum → Prop} (h : (effect.get "CostTypes").IsListOf p) :
    ∃ o, costType effect = .ok o := by
  obtain ⟨o, ho, -⟩ := Quality.firstStat_eq_ok h
  exact ⟨o, ho⟩

/-! ### The record of an effect -/

/-- The fields that the constant part reads back. -/
def fields (skill name : Text) (item gem : Option Row) (effect : Row) : Row :=
  [("skill_id".toList, .text skill), ("name".toList, .text name)] ++
    (item.map baseItemFields).getD [] ++ (gem.map gemFields).getD [] ++
    [("granted_effect_id".toList, effect.get "Id")]

/-- The constant part of a record, from the effect that grants the skill. -/
def ofEffect (dataset : Dataset) (skill : Text) (effect : Row) (fields : Row) (blocks : List Block)
    (settings : Settings) : Journal Skill := do
  let seconds ← castTime (.text skill) effect
  let cost ← Journal.ofExcept (costType effect)
  let constantStats ← stats dataset effect
  let constantText ← Progression.joinStats blocks settings constantStats
  let qualityStats ← Quality.collect dataset (effect.get "Id") blocks settings
  let given ← Journal.ofReading (Skill.read (.record fields))
  pure { given with
    castTime := seconds
    staticCostTypes := cost
    constantStats := constantStats
    constantStatText := constantText
    qualityStats := qualityStats }

theorem joinStats_bind {α : Type} (os : List Observation) (next : Text → Journal α) :
    (Progression.joinStats blocks settings os >>= next) =
      if os.isEmpty then next [] else joinLines blocks settings os >>= next := by
  rw [Progression.joinStats]
  split <;> rfl

/-- The constant part is that of the effect that is found, or a fault when there is none. -/
theorem outcome_record (dataset : Dataset) (blocks : List Block) (settings : Settings)
    {skill name : Text} (hskill : (row.get "Id").orElse (.text []) = .text skill)
    (hname : (row.get "DisplayedName").orElse (.text []) = .text name) :
    ∃ item gem,
      (∀ row, item = some row → row ∈ dataset.rows Dataset.baseItemTypes) ∧
      (∀ row, gem = some row → row ∈ dataset.rows Dataset.skillGems) ∧
      (record dataset row blocks settings).outcome =
        match dataset.findGrantedEffect (.text skill) with
        | none => .error (.noGrantedEffect (.text skill))
        | some effect =>
          (ofEffect dataset skill effect (fields skill name item gem effect) blocks settings).outcome := by
  obtain ⟨item, hitem⟩ : ∃ item, dataset.findBaseItem (.text name) = .ok item := ⟨_, rfl⟩
  refine ⟨item, dataset.findSkillGem (((item.map baseItemFields).getD []).get "metadata_id"), ?_, ?_, ?_⟩
  · rintro found rfl
    exact List.mem_of_find?_eq_some (Except.ok.inj hitem)
  · intro found hfound
    unfold Dataset.findSkillGem at hfound
    split at hfound
    · cases hfound
    · exact List.mem_of_find?_eq_some hfound
  · rw [record, hskill, hname, outcome_bind_of_ok (a := item) hitem]
    cases dataset.findGrantedEffect (.text skill) with
    | none => cases item <;> rfl
    | some effect =>
      simp only [ofEffect, joinStats_bind]
      cases item <;> rfl

/-- The constant part of an effect ends with a fault exactly when a quality row has no value. -/
theorem ofEffect_failsWhen (htyped : dataset.WellTyped) (hmoderate : dataset.Moderate)
    (hlevels : ∀ quality ∈ settings.qualityLevels, |(quality : ℚ)| < moderateBound)
    (heffect : effect ∈ dataset.rows Dataset.grantedEffects) {skill : Text} {fields : Row}
    {given : Skill} (hread : Skill.read (.record fields) = .fits given)
    (hconstant : ∀ os, (stats dataset effect).outcome = .ok os → (resolve blocks true os).Returns)
    (hquality : ∀ row ∈ dataset.rowsReferencing Dataset.grantedEffectQualityStats "GrantedEffect"
      (effect.get "Id"), ∀ os, (Quality.observations row settings.qualityLevels).outcome = .ok os →
        (resolve blocks true os).Returns) :
    (ofEffect dataset skill effect fields blocks settings).FailsWhen
      (Quality.HasNullRow dataset settings.qualityLevels (effect.get "Id")) .wrongKind := by
  obtain ⟨seconds, hseconds⟩ := castTime_returns
    (htyped.amount hmoderate (by simp [Column.all]) heffect) (.text skill)
  obtain ⟨cost, hcost⟩ := costType_returns (htyped.listOf .key (by simp [Column.all]) heffect)
  obtain ⟨os, hos⟩ := stats_returns htyped hmoderate effect
  obtain ⟨text, htext⟩ : (Progression.joinStats blocks settings os).Returns :=
    Progression.joinStats_returns (hconstant os hos)
  rw [ofEffect]
  refine failsWhen_bind_of_ok hseconds (failsWhen_bind_of_ok (a := cost) hcost ?_)
  refine failsWhen_bind_of_ok hos (failsWhen_bind_of_ok htext ?_)
  refine (Quality.collect_failsWhen htyped hmoderate hlevels hquality).bind fun qualityStats _ => ?_
  exact returns_bind_of_ok (a := given) (Fault.ofReading_eq_ok.mpr hread) (returns_pure _)

/-- What the constant part adds to the fields that were read leaves the shares as they are. -/
theorem attributePercent_of_ofEffect {skill : Text} {fields : Row} {given whole : Skill}
    (hread : Skill.read (.record fields) = .fits given)
    (h : (ofEffect dataset skill effect fields blocks settings).outcome = .ok whole) :
    whole.attributePercent = given.attributePercent := by
  rw [ofEffect] at h
  obtain ⟨seconds, -, h⟩ := outcome_bind_eq_ok.mp h
  obtain ⟨cost, -, h⟩ := outcome_bind_eq_ok.mp h
  obtain ⟨os, -, h⟩ := outcome_bind_eq_ok.mp h
  obtain ⟨text, -, h⟩ := outcome_bind_eq_ok.mp h
  obtain ⟨qualityStats, -, h⟩ := outcome_bind_eq_ok.mp h
  obtain ⟨read, hgiven, h⟩ := outcome_bind_eq_ok.mp h
  rw [ofReading, hread] at hgiven
  obtain rfl : given = read := Except.ok.inj hgiven
  rw [← Except.ok.inj h]
  rfl

end Constant

end GemScribe
