import GemScribe.Gem.Dataset

/-!
The record of an exported skill gem.
-/

namespace GemScribe

/-- A stat that quality grants, with the text of its range. -/
structure QualityStat where
  statId : Text
  statText : Text
  deriving DecidableEq

/-- One level of a gem's progression. -/
structure GemLevel where
  /-- The place in the progression, from one. -/
  level : Int
  enabled : Bool
  /-- The character level that is required. -/
  levelRequirement : Int
  costAmount : Option Int
  /-- The attribute that the requirement is for. -/
  attributeName : Text
  attributeRequirement : Int
  floatStats : List Observation
  additionalStats : List Observation
  /-- The lines of the float stats. -/
  statText : Text
  /-- The lines of the additional stats. -/
  additionalStatText : Text
  deriving DecidableEq

/-- Float stats and additional stats, in this order. -/
def GemLevel.stats (row : GemLevel) : List Observation :=
  row.floatStats ++ row.additionalStats

/-- All that is exported of one active skill gem. -/
structure Skill where
  skillId : Text
  name : Text
  metadataId : Option Text
  classId : Option Text
  sizeX : Option Int
  sizeY : Option Int
  intelligencePercent : Int
  strengthPercent : Int
  dexterityPercent : Int
  gemTier : Option Int
  grantedEffectId : Option Text
  /-- In seconds. -/
  castTime : Option Binary64
  staticCostTypes : Option Text
  staticCriticalStrikeChance : Option Binary64
  gemDescription : Text
  itemClassRestriction : Text
  constantStats : List Observation
  constantStatText : Text
  qualityStats : List QualityStat
  /-- The lines of the first level. -/
  statText : Text
  progression : List GemLevel
  deriving DecidableEq

def QualityStat.read : Datum → Reading QualityStat :=
  Datum.asRecord fun row =>
    QualityStat.mk <$> row.needed "stat_id" Datum.asText <*> row.needed "stat_text" Datum.asText

def GemLevel.read : Datum → Reading GemLevel :=
  Datum.asRecord fun row =>
    GemLevel.mk <$> row.needed "level" Datum.asWhole
      <*> row.needed "enabled" Datum.asTruth
      <*> row.needed "level_requirement" Datum.asWhole
      <*> row.withDefault "cost_amount" none (Datum.asOptional Datum.asWhole)
      <*> row.withDefault "attribute" "intelligence".toList Datum.asText
      <*> row.withDefault "attribute_requirement" 0 Datum.asWhole
      <*> row.withDefault "float_stats" [] (Datum.asListOf Observation.read)
      <*> row.withDefault "additional_stats" [] (Datum.asListOf Observation.read)
      <*> row.withDefault "stat_text" [] Datum.asText
      <*> row.withDefault "additional_stat_text" [] Datum.asText

namespace Skill

def read : Datum → Reading Skill :=
  Datum.asRecord fun row =>
    Skill.mk <$> row.withDefault "skill_id" [] Datum.asText
      <*> row.withDefault "name" [] Datum.asText
      <*> row.withDefault "metadata_id" none (Datum.asOptional Datum.asText)
      <*> row.withDefault "class_id" none (Datum.asOptional Datum.asText)
      <*> row.withDefault "size_x" none (Datum.asOptional Datum.asWhole)
      <*> row.withDefault "size_y" none (Datum.asOptional Datum.asWhole)
      <*> row.withDefault "intelligence_percent" 0 Datum.asWhole
      <*> row.withDefault "strength_percent" 0 Datum.asWhole
      <*> row.withDefault "dexterity_percent" 0 Datum.asWhole
      <*> row.withDefault "gem_tier" none (Datum.asOptional Datum.asWhole)
      <*> row.withDefault "granted_effect_id" none (Datum.asOptional Datum.asText)
      <*> row.withDefault "cast_time" none (Datum.asOptional Datum.asReal)
      <*> row.withDefault "static_cost_types" none (Datum.asOptional Datum.asText)
      <*> row.withDefault "static_critical_strike_chance" none (Datum.asOptional Datum.asReal)
      <*> row.withDefault "gem_description" [] Datum.asText
      <*> row.withDefault "item_class_id_restriction" [] Datum.asText
      <*> row.withDefault "constant_stats" [] (Datum.asListOf Observation.read)
      <*> row.withDefault "constant_stat_text" [] Datum.asText
      <*> row.withDefault "quality_stats" [] (Datum.asListOf QualityStat.read)
      <*> row.withDefault "stat_text" [] Datum.asText
      <*> row.withDefault "progression" [] (Datum.asListOf GemLevel.read)

/-- The shares of the attributes in the requirement, in the order in which ties are decided. -/
def shares (skill : Skill) : List (Text × Int) := [
  ("intelligence".toList, skill.intelligencePercent),
  ("strength".toList, skill.strengthPercent),
  ("dexterity".toList, skill.dexterityPercent)]

/-- The entry with the larger share; the earlier one when they are equal. -/
def larger (a b : Text × Int) : Text × Int :=
  if a.2 < b.2 then b else a

/-- The attribute with the largest share, and that share. -/
def primary (skill : Skill) : Text × Int :=
  match skill.shares with
  | [] => ([], 0)
  | first :: rest => rest.foldl larger first

def primaryAttribute (skill : Skill) : Text :=
  skill.primary.1

def attributePercent (skill : Skill) : Int :=
  max skill.intelligencePercent (max skill.strengthPercent skill.dexterityPercent)

end Skill

end GemScribe
