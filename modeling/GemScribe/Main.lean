import GemScribe.Command.ExportGem
import GemScribe.Command.ResolveStats

/-!
The program: its first argument names the command, and the others are the command's arguments.

All decisions are made by the commands. Here files are read, the text that a command finishes with is
printed, and its files are written.
-/

namespace GemScribe.Main

/-- The commands by name. -/
def commands : List (String × (Files → List Text → Settings.Environment → Except Fault Finish)) := [
  ("resolve_stats", ResolveStats.run),
  ("export_gem", ExportGem.run)]

/-- The variables that settings come from. -/
def settingVariables : List String := [
  "GEMWIKI_SEPARATOR", "GEMWIKI_MAX_GEM_LEVEL", "GEMWIKI_QUALITY_LEVELS", "GEMWIKI_LOG_LEVEL"]

/-- The file of that name, when it can be read. -/
def readFile (path : Text) : IO Files := do
  try
    let bytes ← IO.FS.readBinFile (Text.toString path)
    pure [(path, (String.fromUTF8? bytes).map Text.ofString)]
  catch _ => pure []

/-- The files that arguments name, alone or after an equals sign. -/
def readFiles (argv : List Text) : IO Files := do
  let paths := argv ++ argv.filterMap fun t => (Arguments.splitEquals t).2
  pure (← paths.mapM readFile).flatten

def readEnvironment : IO Settings.Environment := do
  let values ← settingVariables.mapM fun name => do
    pure ((← IO.getEnv name).map fun value => (name.toList, Text.ofString value))
  pure (values.filterMap id)

/-- Writes a file, and the directories above it where they are missing. -/
def writeFile (file : Writing) : IO Unit := do
  match (Files.steps file.path).dropLast with
  | [] => pure ()
  | directories =>
    IO.FS.createDirAll
      (Text.toString (Files.rootMark file.path ++ Text.join ['/'] directories))
  IO.FS.writeFile (Text.toString file.path) (Text.toString file.text)

/-- The words for a coding fault. -/
def codingMessage : CodingFault → String
  | .noText => "a file does not hold a text"
  | .noBytes => "a text has half a character"

end GemScribe.Main

open GemScribe in
def main (args : List String) : IO UInt32 := do
  let name := args.head?.getD ""
  match Main.commands.find? fun command => command.1 == name with
  | none =>
    IO.eprintln s!"no such command: {name}"
    pure 2
  | some (_, command) =>
    let argv := args.tail.map Text.ofString
    match command (← Main.readFiles argv) argv (← Main.readEnvironment) with
    | .error fault =>
      IO.eprintln (Text.toString (Text.encodable fault.message))
      pure 1
    | .ok finish =>
      finish.written.forM Main.writeFile
      IO.print (Text.toString finish.output)
      IO.eprint (Text.toString finish.errors)
      finish.uncoded.forM fun fault => IO.eprintln (Main.codingMessage fault)
      pure finish.status.toUInt32
