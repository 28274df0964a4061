import GemScribe.Gem.Quality

/-!
The part of a gem's record that is the same at all levels.
-/

namespace GemScribe.Constant

/-- The lines of observations, with the separator between them. -/
def joinLines (blocks : List Block) (settings : Settings) (os : List Observation) :
    Journal Text := do
  let lines ← resolve blocks true os
  pure (Text.join settings.separator lines)

/-- The fields that the base item gives. -/
def baseItemFields (item : Row) : Row := [
  ("metadata_id".toList, item.get "Id"),
  ("class_id".toList, Dataset.target (item.get "ItemClass")),
  ("size_x".toList, item.get "Width"),
  ("size_y".toList, item.get "Height")]

def zero : Datum := .number (.whole 0)

/-- The fields that the skill gem gives. -/
def gemFields (gem : Row) : Row := [
  ("intelligence_percent".toList, (gem.get "IntelligenceRequirementPercent").orElse zero),
  ("strength_percent".toList, (gem.get "StrengthRequirementPercent").orElse zero),
  ("dexterity_percent".toList, (gem.get "DexterityRequirementPercent").orElse zero),
  ("gem_tier".toList, gem.get "CraftingLevel")]

/-- The cast time of an effect in seconds; an effect without one is noted. -/
def castTime (skill : Datum) (effect : Row) : Journal (Option Binary64) :=
  match effect.get "CastTime" with
  | .null => do
    Journal.note (.noCastTime skill)
    pure none
  | d => do
    pure (some (← Journal.ofExcept (d.divBy 1000)))

/-- The first cost type of an effect. -/
def costType (effect : Row) : Except Fault (Option Text) :=
  Quality.firstStat (effect.get "CostTypes")

/-- The constant stats of an effect. -/
def stats (dataset : Dataset) (effect : Row) : Journal (List Observation) :=
  match dataset.findStatSet effect with
  | some row => Observation.ofReferences (row.get "ConstantStats") (row.get "ConstantStatsValues")
  | none => pure []

/-- The record of a skill without its levels. A skill that no granted effect grants is a fault. -/
def record (dataset : Dataset) (row : Row) (blocks : List Block) (settings : Settings) :
    Journal Skill := do
  let skill := (row.get "Id").orElse (.text [])
  let name := (row.get "DisplayedName").orElse (.text [])
  let item ← Journal.ofExcept (dataset.findBaseItem name)
  if item.isNone then
    Journal.note (.noBaseItem name)
  let itemFields := (item.map baseItemFields).getD []
  let gem := dataset.findSkillGem (itemFields.get "metadata_id")
  match dataset.findGrantedEffect skill with
  | none => Journal.fail (.noGrantedEffect skill)
  | some effect => do
    let seconds ← castTime skill effect
    let cost ← Journal.ofExcept (costType effect)
    let constantStats ← stats dataset effect
    let constantText ← if constantStats.isEmpty then pure []
      else joinLines blocks settings constantStats
    let qualityStats ← Quality.collect dataset (effect.get "Id") blocks settings
    let fields : Row :=
      [("skill_id".toList, skill), ("name".toList, name)] ++ itemFields ++
        (gem.map gemFields).getD [] ++ [("granted_effect_id".toList, effect.get "Id")]
    let given ← Journal.ofReading (Skill.read (.record fields))
    pure { given with
      castTime := seconds
      staticCostTypes := cost
      constantStats := constantStats
      constantStatText := constantText
      qualityStats := qualityStats }

end GemScribe.Constant
