import GemScribe.Datum.Shape

/-!
What can end a run without a result.
-/

namespace GemScribe

inductive Fault where
  /-- A calculation went wrong. -/
  | number (cause : NumberFault)
  /-- A value does not have the shape that is asked for. -/
  | misfits (ms : List Misfit)
  /-- No granted effect grants the skill, so there is nothing to export. -/
  | noGrantedEffect (skill : Datum)
  /-- A datum is of a kind for which an operation has no meaning. -/
  | wrongKind
  /-- A field is asked of a datum that is no record. -/
  | notRecord
  /-- A letter case is asked of a datum that is no text. -/
  | notText
  /-- A record has no items that are counted. -/
  | noCountedItem
  /-- An argument that is used has no value. -/
  | noArgument
  /-- A name or variable has the character with number zero. -/
  | zeroCharacter
  /-- The name of a variable has an equals sign. -/
  | equalsSign
  /-- A variable has no name. -/
  | noName
  /-- A path or one step of it is too long. -/
  | nameTooLong
  /-- A file or directory does not exist. -/
  | noSuchFile
  /-- A directory stands where a file is wanted. -/
  | isDirectory
  /-- A step of a path leads into a file. -/
  | notDirectory
  /-- A file stands where a directory is to be made. -/
  | fileExists
  /-- A file or directory must not be made. -/
  | notPermitted
  /-- There is no room for a text in a file. -/
  | deviceFull
  /-- A file does not hold JSON. -/
  | notJson
  /-- The data in a file are nested too deep. -/
  | tooDeep
  /-- A value would need more room than there is. -/
  | noRoom

namespace Fault

/-- A reading as a result: what does not fit is a fault. -/
def ofReading {α : Type} : Reading α → Except Fault α
  | .fits a => .ok a
  | .misfits ms => .error (.misfits ms)

/-- A calculation as a result. -/
def ofNumber {α : Type} : Except NumberFault α → Except Fault α
  | .ok a => .ok a
  | .error cause => .error (.number cause)

/-- Reads data one after another; the first datum that does not fit ends the reading. -/
def readEach {α : Type} (read : Datum → Reading α) : List Datum → Except Fault (List α)
  | [] => .ok []
  | d :: ds =>
    match ofReading (read d) with
    | .error fault => .error fault
    | .ok a =>
      match readEach read ds with
      | .error fault => .error fault
      | .ok as => .ok (a :: as)

/-- The words for a skill that no granted effect grants. -/
def noGrantedEffectText (skill : Datum) : Text :=
  "No granted effect for skill ".toList ++ skill.literal

/-- A fault in words. -/
def message : Fault → Text
  | .number .outOfRange => "a number is out of range".toList
  | .number .notANumber => "nan has no whole part".toList
  | .number .tooManyDigits => "a rounded number has too many digits".toList
  | .number .unitOutOfRange => "a unit to round to is out of range".toList
  | .number .numeralTooLong => "a numeral has too many digits".toList
  | .number .negativeBase => "a negative number has no such power".toList
  | .misfits ms => Misfit.messages ms
  | .noGrantedEffect skill => noGrantedEffectText skill
  | .wrongKind => "a value is of the wrong kind".toList
  | .notRecord => "a value is no record".toList
  | .notText => "a value is no text".toList
  | .noCountedItem => "the items of a record are not counted".toList
  | .noArgument => "an argument has no value".toList
  | .zeroCharacter => "a text has the character with number zero".toList
  | .equalsSign => "the name of a variable has an equals sign".toList
  | .noName => "a variable has no name".toList
  | .nameTooLong => "a name is too long".toList
  | .noSuchFile => "a file does not exist".toList
  | .isDirectory => "a directory is no file".toList
  | .notDirectory => "a file is no directory".toList
  | .fileExists => "a file stands where a directory is to be made".toList
  | .notPermitted => "a file must not be made".toList
  | .deviceFull => "there is no room in a file".toList
  | .notJson => "a file does not hold JSON".toList
  | .tooDeep => "data are nested too deep".toList
  | .noRoom => "there is no room for a value".toList

end Fault

end GemScribe
