import GemScribe.Journal
import GemScribe.Text.Case

/-!
The schema of the game's tables: which definition of a table applies to a version of the game.

Only the leading whole number of a version counts. A table is valid for one version or for all.
-/

namespace GemScribe

structure SchemaTable where
  name : Text
  validFor : Int
  columns : List Row

structure Schema where
  version : Int
  createdAt : Option Int
  tables : List SchemaTable

/-- The mark of a table that is valid for every version. -/
def sharedVersion : Int := 3

/-- The name under which a field of two names is given; the first name counts before the second. -/
def Row.nameGiven (row : Row) (first second : String) : String :=
  match row.find? first.toList, row.find? second.toList with
  | none, some _ => second
  | _, _ => first

def SchemaTable.read : Datum → Reading SchemaTable :=
  Datum.asRecord fun row =>
    SchemaTable.mk <$> row.needed "name" Datum.asText
      <*> row.withDefault (row.nameGiven "validFor" "valid_for") sharedVersion Datum.asWhole
      <*> row.withDefault "columns" [] (Datum.asListOf Datum.asRow)

namespace Schema

def read : Datum → Reading Schema :=
  Datum.asRecord fun row =>
    Schema.mk <$> row.withDefault "version" 0 Datum.asWhole
      <*> row.withDefault (row.nameGiven "createdAt" "created_at") none
        (Datum.asOptional Datum.asWhole)
      <*> row.withDefault "tables" [] (Datum.asListOf SchemaTable.read)

/-- The digits at the beginning of a version, after blanks. -/
def versionDigits (version : Datum) : Text :=
  match version with
  | .text t => (t.dropWhile Text.isBlank).takeWhile Text.isDigit
  | _ => []

/-- A table of that name, in letters of either case, that is valid for the version. -/
def applies (wanted : Text) (version : Int) (table : SchemaTable) : Bool :=
  Text.lower table.name == wanted &&
    (table.validFor == version || table.validFor == sharedVersion)

/-- The first table of that name that is valid for the version, and its place. -/
def findTable (schema : Schema) (name : Text) (version : Datum) :
    Journal (Option (SchemaTable × Nat)) :=
  let digits := versionDigits version
  if digits.isEmpty then do
    Journal.note (.invalidVersion version)
    pure none
  else do
    let n ← Journal.ofNumber (readNat digits)
    pure (schema.tables.zipIdx.find? fun entry => applies (Text.lower name) n entry.1)

/-- The names that have no table for the version. -/
def missingTables (schema : Schema) (version : Datum) : List Text → Journal (List Text)
  | [] => pure []
  | name :: rest => do
    let table ← findTable schema name version
    let others ← missingTables schema version rest
    pure (if table.isNone then name :: others else others)

end Schema

end GemScribe
