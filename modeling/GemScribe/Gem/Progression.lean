import GemScribe.Gem.Constant
import GemScribe.Gem.Link
import GemScribe.Gem.Requirement

/-!
The part of a gem's record that changes with its level.

Levels are the rows of the effect's stat set, in the order of the table. A level takes its cost from the
cost row at its own place, if there is one.
-/

namespace GemScribe.Progression

/-- The float stats and the additional stats of a row. -/
def rowStats (row : Row) : Journal (List Observation × List Observation) := do
  let values := (row.get "BaseResolvedValues").orElse (row.get "FloatStatsValues")
  let floats ← Observation.ofReferences (row.get "FloatStats") values
  let additional ←
    Observation.ofReferences (row.get "AdditionalStats") (row.get "AdditionalStatsValues")
  pure (floats, additional)

/-- The lines of observations; without any, nothing is resolved. -/
def joinStats (blocks : List Block) (settings : Settings) (os : List Observation) :
    Journal Text :=
  if os.isEmpty then pure [] else Constant.joinLines blocks settings os

/-- The character level of a row, without its fraction. -/
def actorLevel (row : Row) : Except Fault Int :=
  match ((row.get "ActorLevel").orElse Constant.zero).toQuantity? with
  | some q => Fault.ofNumber q.floor
  | none => .error .wrongKind

/-- The first cost of the cost row at a place. -/
def cost (costRows : List Datum) (place : Nat) : Except Fault Datum :=
  match costRows[place]? with
  | none => .ok .null
  | some d => do
    let amounts := (← d.toRow).get "CostAmounts"
    if amounts.isGiven then amounts.firstItem else pure .null

/-- The level at a place. -/
def level (skill : Skill) (costRows : List Datum) (blocks : List Block) (settings : Settings)
    (place : Nat) (d : Datum) : Journal GemLevel := do
  let row ← Journal.ofExcept d.toRow
  let actor ← Journal.ofExcept (actorLevel row)
  let (floats, additional) ← rowStats row
  let amount ← Journal.ofExcept (cost costRows place)
  let requirement ←
    Journal.ofNumber (Requirement.atLevel actor (.whole skill.attributePercent))
  let floatText ← joinStats blocks settings floats
  let additionalText ← joinStats blocks settings additional
  let amount ← Journal.ofReading
    (Reading.under "cost_amount".toList (Datum.asOptional Datum.asWhole amount))
  pure {
    level := place + 1
    enabled := decide ((place : Int) + 1 ≤ settings.maxGemLevel)
    levelRequirement := actor
    costAmount := amount
    attributeName := skill.primaryAttribute
    attributeRequirement := requirement
    floatStats := floats
    additionalStats := additional
    statText := floatText
    additionalStatText := additionalText }

/-- The levels from a place on. -/
def levelsFrom (skill : Skill) (costRows : List Datum) (blocks : List Block)
    (settings : Settings) : Nat → List Datum → Journal (List GemLevel)
  | _, [] => pure []
  | place, d :: rest => do
    let row ← level skill costRows blocks settings place d
    let others ← levelsFrom skill costRows blocks settings (place + 1) rest
    pure (row :: others)

/-- The progression that level rows and cost rows make. -/
def ofRows (skill : Skill) (levelRows costRows : List Datum) (blocks : List Block)
    (settings : Settings) : Journal (List GemLevel) :=
  levelsFrom skill costRows blocks settings 0 levelRows

/-- The skill's id with a capital letter at its beginning. -/
def capitalizedId : Datum → Except Fault Text
  | .text t => .ok (Text.capitalize t)
  | .list _ => .error .notText
  | _ => .error .wrongKind

/-- The description without its links. -/
def description : Datum → Except Fault Text
  | .text t => .ok (Link.unlink t)
  | _ => .error .wrongKind

/-- The ids of the item classes to which a skill is restricted. -/
def restrictions (row : Row) : Except Fault (List Text) := do
  let classes ← ((row.get "WeaponRestriction_ItemClasses").orElse (.list [])).items
  pure (classes.filterMap Datum.refId)

/-- The critical strike chance of the first level, in percent, when it has one. -/
def critChance (first : Row) : Except Fault (Option Binary64) :=
  match (first.get "AttackCritChance").orElse (first.get "SpellCritChance") with
  | .null => .ok none
  | d =>
    match d.divBy 100 with
    | .ok x => .ok (some x)
    | .error fault => .error fault

/-- A record with what its first level and its progression give. -/
def withLevels (skill : Skill) (first : Row) (levelRows costRows : List Row)
    (blocks : List Block) (settings : Settings) : Journal Skill := do
  let chance ← Journal.ofExcept (critChance first)
  let (floats, additional) ← rowStats first
  let text ← joinStats blocks settings (additional ++ floats).reverse
  let progression ←
    ofRows skill (levelRows.map .record) (costRows.map .record) blocks settings
  pure { skill with
    staticCriticalStrikeChance := chance.orElse fun _ => skill.staticCriticalStrikeChance
    statText := text
    progression := progression }

/-- A record extended with the description, the restrictions and the levels of a skill. -/
def extend (dataset : Dataset) (row : Row) (skill : Skill) (blocks : List Block)
    (settings : Settings) : Journal Skill := do
  let id := (row.get "Id").orElse (.text [])
  let classes ← Journal.ofExcept (restrictions row)
  let capitalized ← Journal.ofExcept (capitalizedId id)
  let words ← Journal.ofExcept (description ((row.get "Description").orElse (.text [])))
  let extended := { skill with
    skillId := capitalized
    gemDescription := words
    itemClassRestriction := Text.join ", ".toList classes }
  match dataset.findGrantedEffect id with
  | none => do
    Journal.note (.noGrantedEffect id)
    pure extended
  | some effect =>
    let levelRows := dataset.rowsReferencing Dataset.grantedEffectStatSetsPerLevel "StatSet"
      (Dataset.statSetId effect)
    let costRows := dataset.rowsReferencing Dataset.grantedEffectsPerLevel "GrantedEffect"
      (effect.get "Id")
    match levelRows with
    | [] => do
      Journal.note (.noLevelRows id)
      pure extended
    | first :: _ => withLevels extended first levelRows costRows blocks settings

end GemScribe.Progression
