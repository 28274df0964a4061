import GemScribe.Command.Act
import GemScribe.Settings

/-!
How a command begins and ends.

A command begins with its settings and its arguments. It ends with an exit status, what it printed, and the files
that it wrote. After a coding fault there is also what was done before it; of any other fault only the fault is told.
-/

namespace GemScribe

structure Finish where
  status : Nat
  output : Text
  errors : Text
  written : List Writing
  /-- What went wrong between texts and bytes, when that ended the command. -/
  uncoded : Option CodingFault
  deriving DecidableEq

/-- The new files in the working directory. -/
def Finish.created (finish : Finish) : List (Text × Text) :=
  finish.written.filterMap fun file => file.newName.map fun name => (name, file.text)

namespace Act

/-- A command: settings come from variables, and arguments are taken before anything is done with them. -/
def command (interface : Arguments.Interface) (withArguments : Settings → Arguments.Taken → Act Unit)
    (argv : List Text) (env : Settings.Environment) : Act Unit := do
  let settings ← ofExcept (Settings.ofVariables env)
  let given ← ofArguments (Arguments.read interface argv)
  withArguments settings given

/-- The finish of a command. -/
def finish (a : Act Unit) : Except Fault Finish :=
  match a.outcome with
  | .ok () => .ok ⟨0, a.printed, a.complained, a.written, none⟩
  | .error (.exit status) => .ok ⟨status, a.printed, a.complained, a.written, none⟩
  | .error (.crash (.coding fault)) => .ok ⟨1, a.printed, a.complained, a.written, some fault⟩
  | .error (.crash (.fault fault)) => .error fault

end Act

end GemScribe
