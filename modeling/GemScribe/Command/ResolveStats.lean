import GemScribe.Command.Finish
import GemScribe.Settings
import GemScribe.Stat.Resolution
import GemScribe.Gem.Dataset

/-!
The command that renders the observations of a JSON file by a description file.
-/

namespace GemScribe.ResolveStats

def interface : Arguments.Interface :=
  ⟨2, [Arguments.Interface.helpFlag,
    ⟨"no_skip", ["--no-skip".toList], .switch⟩,
    ⟨"separator", ["--separator".toList], .value⟩]⟩

/-- The lines of the observations in a datum. -/
def lines (grammar : Text) (stats : Datum) (skip : Bool) : Journal (List Text) := do
  let items ← Journal.ofExcept stats.items
  let os ← Journal.ofExcept (Fault.readEach Observation.read items)
  let blocks ← Journal.ofNumber (Block.parse grammar)
  resolve blocks skip os

/-- The command with its arguments taken. -/
def withArguments (files : Files) (settings : Settings) (given : Arguments.Taken) : Act Unit :=
  match given.positionals with
  | [grammar, stats] => do
    let description ← Act.ofCrash (files.readGiven grammar)
    let stats ← Act.ofCrash (files.readJsonGiven stats)
    let texts ← Act.ofJournal settings.logLevel
      (lines description stats (given.value? "no_skip").isNone)
    let separator ← Act.ofExcept ((given.value? "separator").getD (some settings.separator)).text
    Act.print (Text.join separator texts ++ ['\n'])
  | _ => Act.exit 2

/-- The command. -/
def act (files : Files) : List Text → Settings.Environment → Act Unit :=
  Act.command interface (withArguments files)

def run (files : Files) (argv : List Text) (env : Settings.Environment) : Except Fault Finish :=
  (act files argv env).finish

end GemScribe.ResolveStats
