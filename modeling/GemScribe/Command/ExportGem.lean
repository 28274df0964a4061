import GemScribe.Command.Finish
import GemScribe.Gem.Export
import GemScribe.Schema
import GemScribe.Wiki.Parameters

/-!
The command that exports the wiki parameters of one skill gem.

The text goes to a file or is printed. Whatever ends the command before that, nothing is printed and no file is
created.
-/

namespace GemScribe.ExportGem

def interface : Arguments.Interface :=
  ⟨3, [Arguments.Interface.helpFlag,
    ⟨"schema", ["--schema".toList], .value⟩,
    ⟨"output", ["-o".toList, "--output".toList], .value⟩]⟩

/-- Notes the tables that a schema does not have for the version of the dataset. -/
def checkSchema (dataset : Dataset) (d : Datum) : Journal Unit := do
  let schema ← Journal.ofReading (Schema.read d)
  let version := dataset.gameVersion
  let missing ← schema.missingTables (.text version) Dataset.requiredTables
  ⟨missing.map (.tableNotInSchema · version), .ok ()⟩

/-- The check against a schema, when one is given. -/
def checkGiven (files : Files) (level : LogLevel) (dataset : Dataset) : Option Arguments.Value → Act Unit
  | some path => do
    let d ← Act.ofCrash (files.readJsonGiven path)
    Act.ofJournal level (checkSchema dataset d)
  | none => pure ()

/-- The dataset in a file. -/
def readDataset (files : Files) (tables : Arguments.Value) : Except Crash Dataset := do
  Crash.ofFault (Fault.ofReading (Dataset.read (← files.readJsonGiven tables)))

/-- The id that an argument gives; without a value it is an empty list. -/
def skillId : Arguments.Value → Datum
  | some t => .text t
  | none => .list []

/-- The row of a skill, which must be known. -/
def skillRow (dataset : Dataset) (skill : Arguments.Value) : Act Row :=
  match dataset.findActiveSkill (skillId skill) with
  | some row => pure row
  | none => Act.refuse ("Unknown skill: ".toList ++ (skillId skill).plain)

/-- The record of a skill, which a granted effect must grant. -/
def skillRecord (dataset : Dataset) (row : Row) (grammar : Text) (settings : Settings) : Act Skill :=
  let run := Skill.ofTables dataset row grammar settings
  match run.outcome with
  | .error (.noGrantedEffect skill) => do
    Act.log settings.logLevel run.events
    Act.refuse (Fault.noGrantedEffectText skill)
  | _ => Act.ofJournal settings.logLevel run

/-- The record of a skill and its text, from a dataset. -/
def exported (files : Files) (settings : Settings) (dataset : Dataset) (skill grammar : Arguments.Value) :
    Act (Skill × Text) := do
  let row ← skillRow dataset skill
  let grammar ← Act.ofCrash (files.readGiven grammar)
  let record ← skillRecord dataset row grammar settings
  let text ← Act.ofExcept (Fault.ofNumber (Wiki.render settings.separator record))
  pure (record, text)

/-- The words for a record that has been written. -/
def announcement (record : Skill) (path : Text) : Text :=
  "Wrote ".toList ++ record.name ++ " parameters to ".toList ++ path ++ ['\n']

/-- Prints the text of a record, or writes it to a file. -/
def deliver (files : Files) (output : Option Arguments.Value) (record : Skill) (text : Text) : Act Unit :=
  match output with
  | none => Act.print (text ++ ['\n'])
  | some value => do
    let path := Files.normalize (← Act.ofExcept value.text)
    let made ← Act.makeParents files path
    Act.writeFile files made path text
    Act.print (announcement record path)

/-- The command with its arguments taken. -/
def withArguments (files : Files) (settings : Settings) (given : Arguments.Taken) : Act Unit :=
  match given.positionals with
  | [tables, skill, grammar] => do
    let dataset ← Act.ofCrash (readDataset files tables)
    checkGiven files settings.logLevel dataset (given.value? "schema")
    let (record, text) ← exported files settings dataset skill grammar
    deliver files (given.value? "output") record text
  | _ => Act.exit 2

/-- The command. -/
def act (files : Files) : List Text → Settings.Environment → Act Unit :=
  Act.command interface (withArguments files)

def run (files : Files) (argv : List Text) (env : Settings.Environment) : Except Fault Finish :=
  (act files argv env).finish

end GemScribe.ExportGem
