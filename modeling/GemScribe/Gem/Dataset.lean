import GemScribe.Journal
import GemScribe.Stat.Observation
import GemScribe.Text.Case

/-!
The game's tables, and the rows that exports look up in them.

Rows are kept as they were exported. A foreign key is a record with an `Id`; rows are found by the id of
a skill, by a name, or by the id that one of their keys refers to. The first row in the table counts.
-/

namespace GemScribe

structure Dataset where
  gameVersion : Text
  tables : List (Text × List Row)

namespace Dataset

def read : Datum → Reading Dataset :=
  Datum.asRecord fun row =>
    Dataset.mk <$> row.withDefault "game_version" [] Datum.asText
      <*> row.withDefault "tables" [] (Datum.asMappingOf (Datum.asListOf Datum.asRow))

/-! ### Tables -/

def activeSkills : Text := "ActiveSkills".toList
def baseItemTypes : Text := "BaseItemTypes".toList
def skillGems : Text := "SkillGems".toList
def grantedEffects : Text := "GrantedEffects".toList
def grantedEffectsPerLevel : Text := "GrantedEffectsPerLevel".toList
def grantedEffectStatSets : Text := "GrantedEffectStatSets".toList
def grantedEffectStatSetsPerLevel : Text := "GrantedEffectStatSetsPerLevel".toList
def grantedEffectQualityStats : Text := "GrantedEffectQualityStats".toList

/-- The tables that exports read. -/
def requiredTables : List Text := [
  activeSkills, baseItemTypes, skillGems, grantedEffects, grantedEffectsPerLevel,
  grantedEffectStatSets, grantedEffectStatSetsPerLevel, grantedEffectQualityStats]

/-- The rows of a table; a table that is not there has none. -/
def rows (dataset : Dataset) (table : Text) : List Row :=
  ((dataset.tables.find? fun entry => entry.1 = table).map (·.2)).getD []

/-- The rows of the table that a datum names. -/
def rowsNamed (dataset : Dataset) : Datum → Except Fault (List Row)
  | .text table => .ok (dataset.rows table)
  | .list _ | .record _ => .error .wrongKind
  | _ => .ok []

/-! ### Looking up rows -/

/-- The id that a key refers to, as a datum; null when it refers to nothing. -/
def target (key : Datum) : Datum :=
  match key.refId with
  | some id => .text id
  | none => .null

def findActiveSkill (dataset : Dataset) (skill : Datum) : Option Row :=
  (dataset.rows activeSkills).find? fun row => (row.get "Id").same skill

/-- A row has that name, in letters of either case. -/
def isNamed (wanted : Text) (row : Row) : Bool :=
  match row.get "Name" with
  | .text name => Text.lower name == wanted
  | _ => false

def findBaseItem (dataset : Dataset) : Datum → Except Fault (Option Row)
  | .text name => .ok ((dataset.rows baseItemTypes).find? (isNamed (Text.lower name)))
  | _ => .error .notText

def findSkillGem (dataset : Dataset) : Datum → Option Row
  | .null => none
  | baseItem =>
    (dataset.rows skillGems).find? fun row => (target (row.get "BaseItemType")).same baseItem

def findGrantedEffect (dataset : Dataset) (skill : Datum) : Option Row :=
  (dataset.rows grantedEffects).find? fun row => (target (row.get "ActiveSkill")).same skill

/-- The id of the stat set that an effect uses: the one it refers to, or else its own. -/
def statSetId (effect : Row) : Datum :=
  match (effect.get "StatSet").refId with
  | some id => .text id
  | none => effect.get "Id"

def findStatSet (dataset : Dataset) (effect : Row) : Option Row :=
  (dataset.rows grantedEffectStatSets).find? fun row => (row.get "Id").same (statSetId effect)

/-- All rows of a table whose key in a column refers to the given id. -/
def rowsReferencing (dataset : Dataset) (table : Text) (column : String) : Datum → List Row
  | .null => []
  | id => (dataset.rows table).filter fun row => (target (row.get column)).same id

end Dataset

/-! ### Data used as lists -/

namespace Datum

/-- A datum as a row. -/
def toRow : Datum → Except Fault Row
  | record fields => .ok fields
  | _ => .error .notRecord

/-- The text of one sign. -/
def ofSign (sign : Sign) : Datum :=
  text sign.spelling

/-- What a datum consists of: the items of a list, the signs of a text, the names of a record. -/
def items : Datum → Except Fault (List Datum)
  | list ds => .ok ds
  | text t => .ok ((Text.signs t).map ofSign)
  | record fields => .ok (fields.map fun field => text field.1)
  | _ => .error .wrongKind

/-- The first item of a datum that is not empty. -/
def firstItem : Datum → Except Fault Datum
  | list (d :: _) => .ok d
  | text t =>
    match Text.signs t with
    | sign :: _ => .ok (ofSign sign)
    | [] => .error .wrongKind
  | record _ => .error .noCountedItem
  | _ => .error .wrongKind

/-- The item at a place; null beyond the end. -/
def itemAt (place : Nat) : Datum → Except Fault Datum
  | list ds => .ok ((ds[place]?).getD null)
  | text t => .ok (((Text.signs t)[place]?.map ofSign).getD null)
  | record fields => if place < fields.length then .error .noCountedItem else .ok null
  | _ => .error .wrongKind

/-- The quotient of a datum that is a number by a positive whole number. -/
def divBy (d : Datum) (divisor : Nat) : Except Fault Binary64 :=
  match d.toQuantity? with
  | some q => Fault.ofNumber (q.divBy divisor)
  | none => .error .wrongKind

end Datum

/-! ### Stats of a row -/

namespace Observation

/-- The value that belongs to the reference at a place; zero when it is null or missing. -/
def valueAt (values : Datum) (place : Nat) : Except Fault Binary64 :=
  match values.itemAt place with
  | .error fault => .error fault
  | .ok .null => .ok (.zero false)
  | .ok d => Fault.ofReading (Reading.under "value".toList (Datum.asReal d))

/-- Observations of the references from the given place on, each with the value at its own place; a
reference without an id is noted and left out. -/
def pairFrom (values : Datum) : Nat → List Datum → Journal (List Observation)
  | _, [] => pure []
  | place, ref :: refs =>
    match ref.refId with
    | none => do
      Journal.note (.invalidReference place ref)
      pairFrom values (place + 1) refs
    | some id => do
      let value ← Journal.ofExcept (valueAt values place)
      let rest ← pairFrom values (place + 1) refs
      pure (⟨id, value⟩ :: rest)

/-- The observations that stat references and their values make. -/
def ofReferences (refs values : Datum) : Journal (List Observation) := do
  let refs ← Journal.ofExcept (refs.orElse (.list [])).items
  pairFrom (values.orElse (.list [])) 0 refs

end Observation

end GemScribe
