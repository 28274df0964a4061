import GemScribe.Gem.Link
import GemScribe.Gem.Record

/-!
Wiki template parameters.

The record of a skill becomes a list of parameters, each a key and a value. A parameter is written on a
line of its own: the key after a bar, filled up with spaces, an equals sign, and the value. Links are
taken out of rendered texts.
-/

namespace GemScribe.Wiki

/-- A value as the wiki shows it: nothing is blank, and whole numbers show no fraction. -/
def valueText : Datum → Except NumberFault Text
  | .null => .ok []
  | .number q => q.display
  | d => .ok d.plain

/-- A key and its value. -/
abbrev Parameter := Text × Datum

/-- The width that a key is filled up to, its bar included. -/
def keyWidth : Nat := 40

/-- The line of a parameter whose value has been written. -/
def line (key value : Text) : Text :=
  Text.padRight keyWidth ' ' ('|' :: key) ++ " = ".toList ++ value ++ ['\n']

/-! ### The parameters of a skill -/

def ofText? : Option Text → Datum
  | some t => .text t
  | none => .null

def ofWhole? : Option Int → Datum
  | some i => .number (.whole i)
  | none => .null

def ofReal? : Option Binary64 → Datum
  | some x => .number (.real x)
  | none => .null

/-- A rendered text, without its links. -/
def unlinked (t : Text) : Datum :=
  .text (Link.unlink t)

/-- The parameters that every skill has. -/
def staticParameters (skill : Skill) : List Parameter := [
  ("skill_id".toList, .text skill.skillId),
  ("name".toList, .text skill.name),
  ("metadata_id".toList, ofText? skill.metadataId),
  ("class_id".toList, ofText? skill.classId),
  ("size_x".toList, ofWhole? skill.sizeX),
  ("size_y".toList, ofWhole? skill.sizeY),
  ("gem_tier".toList, ofWhole? skill.gemTier),
  ("intelligence_percent".toList, .number (.whole skill.intelligencePercent)),
  ("strength_percent".toList, .number (.whole skill.strengthPercent)),
  ("dexterity_percent".toList, .number (.whole skill.dexterityPercent)),
  ("gem_description".toList, .text skill.gemDescription),
  ("item_class_id_restriction".toList, .text skill.itemClassRestriction),
  ("cast_time".toList, ofReal? skill.castTime),
  ("static_cost_types".toList, ofText? skill.staticCostTypes),
  ("static_critical_strike_chance".toList, ofReal? skill.staticCriticalStrikeChance),
  ("stat_text".toList, unlinked skill.statText)]

/-- The text of constant stats, when there is any. -/
def constantParameters (skill : Skill) : List Parameter :=
  if skill.constantStatText.isEmpty then []
  else [("static_stat_text".toList, unlinked skill.constantStatText)]

/-- The parameters of the quality stat at a place, counted from zero. -/
def qualityParameters (stat : QualityStat) (place : Nat) : List Parameter :=
  let start := "quality_type".toList ++ natText (place + 1)
  [(start ++ "_stat_text".toList, unlinked stat.statText),
    (start ++ "_stat1_id".toList, .text stat.statId)]

/-- The parameters of the stat at a place of a level. -/
def statParameters (start : Text) (o : Observation) (place : Nat) : List Parameter :=
  let start := start ++ "_stat".toList ++ natText (place + 1)
  [(start ++ "_id".toList, .text o.id), (start ++ "_value".toList, .number (.real o.value))]

/-- The two texts of a level, one after the other when both are there. -/
def levelText (separator : Text) (row : GemLevel) : Text :=
  Text.join separator ([row.statText, row.additionalStatText].filter (!·.isEmpty))

/-- What the keys of a level begin with. -/
def levelStart (row : GemLevel) : Except NumberFault Text := do
  pure ("level".toList ++ (← writeInt row.level))

/-- The parameters of a level. -/
def levelParameters (separator start : Text) (row : GemLevel) : List Parameter :=
  [(start, .bool row.enabled),
    (start ++ "_level_requirement".toList, .number (.whole row.levelRequirement)),
    (start ++ "_cost_amounts".toList, ofWhole? row.costAmount),
    (start ++ '_' :: row.attributeName ++ "_requirement".toList,
      .number (.whole row.attributeRequirement)),
    (start ++ "_stat_text".toList, unlinked (levelText separator row))] ++
    (row.stats.zipIdx.map fun entry => statParameters start entry.1 entry.2).flatten

/-- The parameters of a skill before those of its levels, in the order in which they are written. -/
def skillParameters (skill : Skill) : List Parameter :=
  staticParameters skill ++ constantParameters skill ++
    (skill.qualityStats.zipIdx.map fun entry => qualityParameters entry.1 entry.2).flatten

/-! ### Writing -/

/-- The lines of parameters. -/
def writeAll : List Parameter → Except NumberFault Text
  | [] => .ok []
  | (key, value) :: rest => do
    let text ← valueText value
    pure (line key text ++ (← writeAll rest))

/-- The lines of levels. The keys of a level are put together when all lines before them are written. -/
def writeLevels (separator : Text) : List GemLevel → Except NumberFault Text
  | [] => .ok []
  | row :: rows => do
    let start ← levelStart row
    let text ← writeAll (levelParameters separator start row)
    pure (text ++ (← writeLevels separator rows))

/-- The text of all parameters of a skill. -/
def render (separator : Text) (skill : Skill) : Except NumberFault Text := do
  let text ← writeAll (skillParameters skill)
  pure (text ++ (← writeLevels separator skill.progression))

end GemScribe.Wiki
