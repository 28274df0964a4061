import GemScribe.Proofs.Gem.Insertion
import GemScribe.Proofs.Gem.Positions

/-!
What an extension leaves alone.

The levels of a skill are added to a record that holds the constant part already. An extension writes the
capitalized id, the description and the restrictions; only when there are level rows it also writes the text
and the levels, and the critical strike chance only when the first level row has one. This is so for every
record, also for one that has levels from elsewhere, and so an exported record agrees with its constant part
on all other fields.
-/

namespace GemScribe

namespace Skill

/-- Both records have the same constant part: they agree on every field that no extension writes. -/
structure SameConstants (given whole : Skill) : Prop where
  name : whole.name = given.name
  metadataId : whole.metadataId = given.metadataId
  classId : whole.classId = given.classId
  sizeX : whole.sizeX = given.sizeX
  sizeY : whole.sizeY = given.sizeY
  intelligencePercent : whole.intelligencePercent = given.intelligencePercent
  strengthPercent : whole.strengthPercent = given.strengthPercent
  dexterityPercent : whole.dexterityPercent = given.dexterityPercent
  gemTier : whole.gemTier = given.gemTier
  grantedEffectId : whole.grantedEffectId = given.grantedEffectId
  castTime : whole.castTime = given.castTime
  staticCostTypes : whole.staticCostTypes = given.staticCostTypes
  constantStats : whole.constantStats = given.constantStats
  constantStatText : whole.constantStatText = given.constantStatText
  qualityStats : whole.qualityStats = given.qualityStats

end Skill

namespace Progression

variable {dataset : Dataset} {row first : Row} {rest costRows : List Row} {blocks : List Block}
  {settings : Settings} {given whole : Skill}

/-! ### What an extension does -/

/-- The level rows of the skill in a row: those of its effect, and none without an effect. -/
def levelRowsFor (dataset : Dataset) (row : Row) : List Row :=
  match dataset.findGrantedEffect (Skill.soughtId row) with
  | none => []
  | some effect =>
    dataset.rowsReferencing Dataset.grantedEffectStatSetsPerLevel "StatSet" (Dataset.statSetId effect)

/-- The cost rows of the skill in a row. -/
def costRowsFor (dataset : Dataset) (row : Row) : List Row :=
  match dataset.findGrantedEffect (Skill.soughtId row) with
  | none => []
  | some effect =>
    dataset.rowsReferencing Dataset.grantedEffectsPerLevel "GrantedEffect" (effect.get "Id")

/-- The record with the texts that do not depend on levels. -/
def described (given : Skill) (id words : Text) (classes : List Text) : Skill :=
  { given with
    skillId := id
    gemDescription := words
    itemClassRestriction := Text.join ", ".toList classes }

/-- An extension describes the record. With level rows it then adds the levels, and else nothing. -/
theorem exists_of_extend (h : (extend dataset row given blocks settings).outcome = .ok whole) :
    ∃ id words classes, capitalizedId (Skill.soughtId row) = .ok id ∧
      description ((row.get "Description").orElse (.text [])) = .ok words ∧
      restrictions row = .ok classes ∧
      match levelRowsFor dataset row with
      | [] => whole = described given id words classes
      | first :: rest => (withLevels (described given id words classes) first (first :: rest)
          (costRowsFor dataset row) blocks settings).outcome = .ok whole := by
  rw [extend] at h
  obtain ⟨classes, hclasses, h⟩ := Journal.outcome_bind_eq_ok.mp h
  obtain ⟨id, hid, h⟩ := Journal.outcome_bind_eq_ok.mp h
  obtain ⟨words, hwords, h⟩ := Journal.outcome_bind_eq_ok.mp h
  refine ⟨id, words, classes, hid, hwords, hclasses, ?_⟩
  rw [levelRowsFor, costRowsFor, Skill.soughtId]
  cases hfound : dataset.findGrantedEffect ((row.get "Id").orElse (.text [])) with
  | none =>
    simp only [hfound] at h
    obtain ⟨_, -, h⟩ := Journal.outcome_bind_eq_ok.mp h
    exact (Except.ok.inj h).symm
  | some effect =>
    simp only [hfound] at h ⊢
    cases hrows : dataset.rowsReferencing Dataset.grantedEffectStatSetsPerLevel "StatSet"
      (Dataset.statSetId effect) with
    | nil =>
      simp only [hrows] at h
      obtain ⟨_, -, h⟩ := Journal.outcome_bind_eq_ok.mp h
      exact (Except.ok.inj h).symm
    | cons first rest =>
      simp only [hrows] at h
      exact h

/-! ### What it leaves alone -/

/-- A level row has a critical strike chance, be it of attacks or of spells. -/
def GivesChance (first : Row) : Prop :=
  first.get "AttackCritChance" ≠ .null ∨ first.get "SpellCritChance" ≠ .null

theorem critChance_of_not_givesChance (h : ¬GivesChance first) : critChance first = .ok none := by
  rw [GivesChance, not_or, not_ne_iff, not_ne_iff] at h
  rw [critChance, h.1, h.2]
  rfl

/-- What holds of a record after its extension by the row of a skill. -/
structure Extended (dataset : Dataset) (row : Row) (given whole : Skill) : Prop where
  constants : Skill.SameConstants given whole
  skillId : capitalizedId (Skill.soughtId row) = .ok whole.skillId
  gemDescription :
    description ((row.get "Description").orElse (.text [])) = .ok whole.gemDescription
  itemClassRestriction : ∃ classes, restrictions row = .ok classes ∧
    whole.itemClassRestriction = Text.join ", ".toList classes
  /-- Without level rows the fields that belong to the levels stay as they are. -/
  unleveled : levelRowsFor dataset row = [] →
    whole.staticCriticalStrikeChance = given.staticCriticalStrikeChance ∧
      whole.statText = given.statText ∧ whole.progression = given.progression
  /-- With level rows the chance is that of the first one, if it has one. -/
  chance : ∀ first rest, levelRowsFor dataset row = first :: rest →
    ∃ chance, critChance first = .ok chance ∧
      whole.staticCriticalStrikeChance = chance.or given.staticCriticalStrikeChance
  /-- A first level row without a chance leaves the chance as it is. -/
  chanceKept : ∀ first rest, levelRowsFor dataset row = first :: rest →
    whole.staticCriticalStrikeChance ≠ given.staticCriticalStrikeChance → GivesChance first

theorem extended_of_extend (h : (extend dataset row given blocks settings).outcome = .ok whole) :
    Extended dataset row given whole := by
  obtain ⟨id, words, classes, hid, hwords, hclasses, hlevels⟩ := exists_of_extend h
  cases hrows : levelRowsFor dataset row with
  | nil =>
    rw [hrows] at hlevels
    obtain rfl := hlevels
    refine ⟨?_, hid, hwords, ⟨classes, hclasses, rfl⟩, ?_, ?_, ?_⟩
    · constructor <;> rfl
    · exact fun _ => ⟨rfl, rfl, rfl⟩
    · exact fun first rest hcons => nomatch hrows.symm.trans hcons
    · exact fun first rest hcons => nomatch hrows.symm.trans hcons
  | cons first rest =>
    rw [hrows] at hlevels
    obtain ⟨chance, _, _, text, levels, hchance, -, -, -, rfl⟩ := withLevels_eq_ok hlevels
    refine ⟨?_, hid, hwords, ⟨classes, hclasses, rfl⟩, ?_, ?_, ?_⟩
    · constructor <;> rfl
    · exact fun hnil => nomatch hrows.symm.trans hnil
    · intro first' rest' hcons
      obtain ⟨rfl, -⟩ := List.cons.inj (hrows.symm.trans hcons)
      exact ⟨chance, hchance, rfl⟩
    · intro first' rest' hcons hchanged
      obtain ⟨rfl, -⟩ := List.cons.inj (hrows.symm.trans hcons)
      by_contra hnone
      obtain rfl := Except.ok.inj (hchance.symm.trans (critChance_of_not_givesChance hnone))
      exact hchanged rfl

/-- Every record keeps its constant part in an extension, and what belongs to the levels as well when there
are none; the chance changes only with a first level row that has one. An exported record extends the
constant part of the skill in this way. -/
theorem extend_keeps_constants :
    (∀ given blocks whole, (extend dataset row given blocks settings).outcome = .ok whole →
      Extended dataset row given whole) ∧
    ∀ grammar whole, (Skill.ofTables dataset row grammar settings).outcome = .ok whole →
      ∃ blocks given, Block.parse grammar = .ok blocks ∧
        (Constant.record dataset row blocks settings).outcome = .ok given ∧
        Extended dataset row given whole := by
  refine ⟨fun given blocks whole => extended_of_extend, fun grammar whole h => ?_⟩
  rw [Skill.ofTables] at h
  obtain ⟨blocks, hblocks, h⟩ := Journal.outcome_bind_eq_ok.mp h
  rw [Skill.ofBlocks] at h
  obtain ⟨_, -, h⟩ := Journal.outcome_bind_eq_ok.mp h
  obtain ⟨given, hgiven, h⟩ := Journal.outcome_bind_eq_ok.mp h
  exact ⟨blocks, given, Fault.ofNumber_eq_ok.mp hblocks, hgiven, extended_of_extend h⟩

/-- A level row with a critical strike chance of seven percent. -/
def criticalLevel : Row :=
  ("AttackCritChance".toList, .number (.whole 700)) :: Skill.levelOf "SparkPlayer".toList

def criticalTables : Dataset :=
  Skill.tablesOf [Skill.spark] [Skill.effectOf "Spark".toList "SparkPlayer".toList] [criticalLevel] []

/-- A record that has a chance, a text and a level from elsewhere. -/
def filledSkill : Skill :=
  ⟨"Arc".toList, "Arc".toList, none, some "Active Skill Gem".toList, some 1, some 1, 0, 0, 0, some 3,
    some "ArcPlayer".toList, some (.ofInt 1), none, some (.ofInt 5), [], [], [⟨"x".toList, .ofInt 9⟩],
    "9 more".toList, [], "old".toList, [⟨1, true, 1, none, [], 0, [], [], [], []⟩]⟩

theorem extend_filledSkill :
    ∃ whole exported, (extend criticalTables Skill.spark filledSkill [] Settings.standard).outcome =
        .ok whole ∧
      Extended criticalTables Skill.spark filledSkill whole ∧
      whole.staticCriticalStrikeChance = some (.ofInt 7) ∧
      (Skill.ofTables criticalTables Skill.spark [] Settings.standard).outcome = .ok exported ∧
      ∃ blocks given, Block.parse [] = .ok blocks ∧
        (Constant.record criticalTables Skill.spark blocks Settings.standard).outcome = .ok given ∧
        Extended criticalTables Skill.spark given exported := by
  obtain ⟨whole, hwhole, hchance⟩ : ∃ whole, (extend criticalTables Skill.spark filledSkill []
      Settings.standard).outcome = .ok whole ∧
      whole.staticCriticalStrikeChance = some (.ofInt 7) := ⟨_, rfl, rfl⟩
  obtain ⟨exported, hexported⟩ : ∃ exported, (Skill.ofTables criticalTables Skill.spark []
      Settings.standard).outcome = .ok exported := ⟨_, rfl⟩
  exact ⟨whole, exported, hwhole, extend_keeps_constants.1 _ _ _ hwhole, hchance, hexported,
    extend_keeps_constants.2 _ _ hexported⟩

end Progression

end GemScribe
