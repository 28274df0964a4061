import GemScribe.Command.Files
import GemScribe.Journal

/-!
What a command does to the world around it.

A command prints, complains, makes directories and writes files, in some order, and may end before its last
step, by its own decision or against its will. What was done before the end stays done.

What is printed and written must have bytes; a complaint shows its halves by number. A file is opened before the
text for it is turned into bytes.
-/

namespace GemScribe

/-- A file that a command writes. -/
structure Writing where
  path : Text
  text : Text
  /-- The name of the file, when it is a new one in the working directory. -/
  newName : Option Text
  deriving DecidableEq

inductive Deed where
  | print (t : Text)
  | complain (t : Text)
  | makeDirectory (place : Place)
  | write (file : Writing)
  deriving DecidableEq

namespace Deed

def printed : Deed → Text
  | print t => t
  | _ => []

def complained : Deed → Text
  | complain t => t
  | _ => []

def written : Deed → List Writing
  | write file => [file]
  | _ => []

end Deed

/-- The line of a log that reports an event. -/
def Event.line (e : Event) : Text :=
  e.level.name ++ ' ' :: e.reporter ++ ": ".toList ++ Text.encodable e.message ++ ['\n']

/-- Why a command ends before its last step. -/
inductive Halt where
  | exit (status : Nat)
  | crash (cause : Crash)

/-- What was done, and how it ended. -/
structure Act (α : Type) where
  deeds : List Deed
  outcome : Except Halt α

namespace Act

variable {α β : Type}

/-- One act after another, unless the first one ended the command. -/
def andThen (a : Act α) (next : α → Act β) : Act β :=
  match a.outcome with
  | .ok x =>
    let rest := next x
    ⟨a.deeds ++ rest.deeds, rest.outcome⟩
  | .error halt => ⟨a.deeds, .error halt⟩

instance : Monad Act where
  pure x := ⟨[], .ok x⟩
  bind := andThen

/-! ### Single steps -/

def perform (deed : Deed) : Act Unit :=
  ⟨[deed], .ok ()⟩

def exit (status : Nat) : Act α :=
  ⟨[], .error (.exit status)⟩

def crash (cause : Crash) : Act α :=
  ⟨[], .error (.crash cause)⟩

/-- Prints a text, if it has bytes. -/
def print (t : Text) : Act Unit :=
  if Text.hasHalf t then crash (.coding .noBytes) else perform (.print t)

/-- Ends the command with words for the user. -/
def refuse (words : Text) : Act α := do
  perform (.complain (Text.encodable words ++ ['\n']))
  exit 1

def ofCrash (r : Except Crash α) : Act α :=
  ⟨[], r.mapError .crash⟩

def ofExcept (r : Except Fault α) : Act α :=
  ofCrash (Crash.ofFault r)

/-- Arguments that a command does not take end it, and so does asking for help. -/
def ofArguments : Except Arguments.Stop Arguments.Taken → Act Arguments.Taken
  | .ok given => pure given
  | .error .helped => exit 0
  | .error .rejected => exit 2

/-- Shows the events at or above a level, one on a line. -/
def log (level : LogLevel) (events : List Event) : Act Unit :=
  ⟨(events.filter fun e => decide (level.rank ≤ e.level.rank)).map fun e => .complain e.line, .ok ()⟩

/-- A run with its log shown. -/
def ofJournal (level : LogLevel) (j : Journal α) : Act α := do
  log level j.events
  ofExcept j.outcome

/-! ### Directories and files -/

/-- Makes the directory that steps name, unless it is there already; the directories made so far. -/
def makeDirectory (files : Files) (origin : Place) (names : List Text) (made : List Place) :
    Act (List Place) := do
  match ← ofExcept (files.missingDirectory? made origin names) with
  | none => pure made
  | some place => do
    perform (.makeDirectory place)
    pure (made ++ [place])

/-- Makes a directory, and the directories on the way to it where one is missing. The steps are given
last first. -/
def makeDirectories (files : Files) (origin : Place) : List Text → Act (List Place)
  | [] => pure []
  | last :: before =>
    match files.missingDirectory? [] origin (before.reverse ++ [last]) with
    | .error .noSuchFile => do
      let made ← makeDirectories files origin before
      makeDirectory files origin (before.reverse ++ [last]) made
    | _ => makeDirectory files origin (before.reverse ++ [last]) []

/-- Makes the directories that a file under a path needs. -/
def makeParents (files : Files) (path : Text) : Act (List Place) := do
  ofCrash (Files.checkSpelling (Files.parent path))
  ofExcept (Files.checkPath (Files.parent path))
  makeDirectories files (Files.start path) (Files.steps path).dropLast.reverse

/-- Writes a file, after directories have been made. A text without bytes leaves the file empty. -/
def writeFile (files : Files) (made : List Place) (path text : Text) : Act Unit := do
  ofCrash (Files.checkSpelling path)
  let newName ← ofExcept (files.newName made path)
  if Text.hasHalf text then do
    perform (.write ⟨path, [], newName⟩)
    crash (.coding .noBytes)
  else perform (.write ⟨path, text, newName⟩)

/-! ### What is left of an act -/

def printed (a : Act α) : Text :=
  a.deeds.flatMap Deed.printed

def complained (a : Act α) : Text :=
  a.deeds.flatMap Deed.complained

def written (a : Act α) : List Writing :=
  a.deeds.flatMap Deed.written

/-- The exit status; a crash has none. -/
def status? : Act α → Option Nat
  | ⟨_, .ok _⟩ => some 0
  | ⟨_, .error (.exit status)⟩ => some status
  | ⟨_, .error (.crash _)⟩ => none

end Act

end GemScribe
