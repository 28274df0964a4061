import GemScribe.Gem.Progression

/-!
The export of one active skill gem: the constant part of its record, and then the levels.
-/

namespace GemScribe.Skill

/-- The record of the skill in a row, with descriptions rendered by the given blocks. -/
def ofBlocks (dataset : Dataset) (row : Row) (blocks : List Block) (settings : Settings) :
    Journal Skill := do
  Journal.note (.exporting (row.get "Id") blocks.length)
  let skill ← Constant.record dataset row blocks settings
  Progression.extend dataset row skill blocks settings

/-- The record of the skill in a row, with descriptions rendered by a description file. -/
def ofTables (dataset : Dataset) (row : Row) (grammar : Text) (settings : Settings) :
    Journal Skill := do
  let blocks ← Journal.ofNumber (Block.parse grammar)
  ofBlocks dataset row blocks settings

end GemScribe.Skill
