import GemScribe.Journal
import GemScribe.Text.Case

/-!
Export settings.

Each setting has a value of its own when it is not given. Settings come from a record or from
environment variables; either way the values that do not fit are reported together, in the order of
the settings.
-/

namespace GemScribe

structure Settings where
  /-- Stands between the lines of one stat text. -/
  separator : Text
  /-- Levels of a progression above this one are disabled. -/
  maxGemLevel : Int
  /-- The qualities at which quality stats are evaluated. -/
  qualityLevels : List Int
  /-- Events below this level are not shown. -/
  logLevel : LogLevel
  deriving DecidableEq

namespace Settings

def standard : Settings :=
  ⟨"<br>".toList, 20, [1, 20], .warning⟩

instance : Inhabited Settings := ⟨standard⟩

/-! ### Conditions on single settings -/

/-- Why the value of a setting is refused. -/
inductive Refusal where
  | gemLevelBelowOne
  | noQualityLevel
  | unknownLogLevel (name : Text)

def Refusal.message : Refusal → Text
  | .gemLevelBelowOne => "max_gem_level must be at least 1".toList
  | .noQualityLevel => "At least one quality level required".toList
  | .unknownLogLevel name => "Unknown log level: ".toList ++ Text.quote name

def checkGemLevel (level : Int) : Except Refusal Int :=
  if level < 1 then .error .gemLevelBelowOne else .ok level

def checkQualityLevels (levels : List Int) : Except Refusal (List Int) :=
  if levels.isEmpty then .error .noQualityLevel else .ok levels

/-- A level may be named in letters of either case. -/
def checkLogLevel (name : Text) : Except Refusal LogLevel :=
  match LogLevel.ofName? (Text.upper name) with
  | some level => .ok level
  | none => .error (.unknownLogLevel name)

/-- A condition whose refusal is put into words. -/
def inWords {α β : Type} (test : α → Except Refusal β) (a : α) : Except Text β :=
  (test a).mapError Refusal.message

/-- What holds of settings however they were read. -/
structure Valid (s : Settings) : Prop where
  gemLevel : 1 ≤ s.maxGemLevel
  qualityLevels : s.qualityLevels ≠ []

/-! ### Reading -/

/-- Reads a record with some of the settings. -/
def read : Datum → Reading Settings :=
  Datum.asRecord fun row =>
    Settings.mk <$> row.withDefault "separator" standard.separator Datum.asText
      <*> row.withDefault "max_gem_level" standard.maxGemLevel
        (fun d => (Datum.asWhole d).check (inWords checkGemLevel))
      <*> row.withDefault "quality_levels" standard.qualityLevels
        (fun d => (Datum.asSequenceOf Datum.asWhole d).check (inWords checkQualityLevels))
      <*> row.withDefault "log_level" standard.logLevel
        (fun d => (Datum.asText d).check (inWords checkLogLevel))

/-- Reads settings that need not be given at all. -/
def readOptional : Datum → Reading Settings
  | .null => .fits standard
  | d => read d

/-! ### Environment variables -/

/-- Variables and their texts. -/
abbrev Environment := List (Text × Text)

/-- The text of a variable. -/
def given? (env : Environment) (name : String) : Option Text :=
  (env.find? fun entry => entry.1 = name.toList).map (·.2)

/-- The text of a variable, unless it is empty. -/
def nonempty? (env : Environment) (name : String) : Option Text :=
  (given? env name).filter (!·.isEmpty)

/-- The parts of a list that is separated by commas, without blanks around them; empty parts do not
count. -/
def listParts (t : Text) : List Text :=
  ((Text.pieces (· = ',') t).map Text.strip).filter (!·.isEmpty)

/-- A field, when it is there. -/
def field? (name : String) (value : Option Datum) : Row :=
  (value.map fun d => (name.toList, d)).toList

/-- The settings that variables give, as a record. -/
def overrides (env : Environment) : Row :=
  field? "log_level" ((nonempty? env "GEMWIKI_LOG_LEVEL").map .text) ++
    field? "max_gem_level" ((nonempty? env "GEMWIKI_MAX_GEM_LEVEL").map .text) ++
    field? "quality_levels"
      ((nonempty? env "GEMWIKI_QUALITY_LEVELS").map fun t =>
        .list ((listParts t).map .text)) ++
    field? "separator" ((given? env "GEMWIKI_SEPARATOR").map .text)

/-- The settings of an environment. Those that variables give are noted, by name. -/
def load (env : Environment) : Journal Settings := do
  let given := overrides env
  unless given.isEmpty do
    Journal.note (.settingsOverridden (given.map (·.1)))
  Journal.ofReading (read (.record given))

/-- Whether a variable can be given to a command: it has a name, no equals sign in the name, and nowhere
the character with number zero. -/
def checkVariable (name value : Text) : Except Fault Unit :=
  if '\x00' ∈ name ++ value then .error .zeroCharacter
  else if '=' ∈ name then .error .equalsSign
  else if name.isEmpty then .error .noName
  else .ok ()

/-- The settings of a command. -/
def ofVariables (env : Environment) : Except Fault Settings := do
  env.forM fun entry => checkVariable entry.1 entry.2
  (load env).outcome

end Settings

end GemScribe
