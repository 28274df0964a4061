import GemScribe.Command.Arguments
import GemScribe.Datum.Json

/-!
The files that a command reads and writes.

A path names the same file however often its steps are separated, and steps that stay in place do not
count. A step back is taken from the directory that the steps before it lead to, so that directory
must be there. Of what lies outside the working directory only little is known, what every system has;
whatever is written there goes unseen. A text file is read with every kind of line end as a line feed.

A half in a path stands for a byte that begins no character; a path with any other half names nothing. The bytes of
a file need not be a text.
-/

namespace GemScribe

/-- What can go wrong between texts and bytes. -/
inductive CodingFault where
  /-- The bytes of a file are no text. -/
  | noText
  /-- A text, or a path, has a half and no bytes. -/
  | noBytes
  deriving DecidableEq

/-- What ends a command against its will. -/
inductive Crash where
  | fault (fault : Fault)
  | coding (fault : CodingFault)

def Crash.ofFault {α : Type} (r : Except Fault α) : Except Crash α :=
  r.mapError .fault

/-- What a file holds: a text, or bytes that are none. -/
abbrev Content := Option Text

/-- The files in the working directory, by name. -/
abbrev Files := List (Text × Content)

/-- Files that all hold texts. -/
def Files.ofTexts (files : List (Text × Text)) : Files :=
  files.map fun file => (file.1, some file.2)

instance : Coe (List (Text × Text)) Files :=
  ⟨Files.ofTexts⟩

/-- A place: the steps down to it from the root of all directories. -/
abbrev Place := List Text

namespace Files

/-- The steps of a path. -/
def steps (path : Text) : List Text :=
  (Text.pieces (· = '/') path).filter fun step => step ≠ [] ∧ step ≠ ['.']

/-- What a path that does not begin in the working directory begins with. Two strokes are kept apart
from one, and more count as one. -/
def rootMark (path : Text) : Text :=
  match (path.takeWhile (· = '/')).length with
  | 0 => []
  | 2 => ['/', '/']
  | _ => ['/']

/-- The plainest spelling of a path. -/
def normalize (path : Text) : Text :=
  match steps path with
  | [] => if (rootMark path).isEmpty then ['.'] else rootMark path
  | names => rootMark path ++ Text.join ['/'] names

/-- The text with every line end as a line feed. -/
def plainLineEnds : Text → Text
  | '\r' :: '\n' :: rest => '\n' :: plainLineEnds rest
  | '\r' :: rest => '\n' :: plainLineEnds rest
  | c :: rest => c :: plainLineEnds rest
  | [] => []

/-! ### Finding one's way -/

/-- The working directory. No path can give its own name. -/
def home : Place := ["tmp".toList, []]

/-- The steps from the working directory to a place in it. -/
def fromHome? (place : Place) : Option (List Text) :=
  if home.isPrefixOf place then some (place.drop home.length) else none

/-- Directories outside the working directory. -/
def knownDirectories : List Place :=
  ["/", "/bin", "/boot", "/dev", "/dev/fd", "/dev/pts", "/dev/shm", "/etc", "/home", "/lib", "/lib64",
    "/media", "/mnt", "/opt", "/proc", "/proc/self", "/root", "/run", "/sbin", "/srv", "/sys", "/tmp",
    "/usr", "/usr/bin", "/usr/lib", "/usr/local", "/usr/local/bin", "/usr/local/lib", "/usr/sbin",
    "/usr/share", "/var", "/var/lib", "/var/log", "/var/tmp"].map fun path => steps path.toList

/-- The file outside the working directory that takes no text. -/
def fullFile : Place := steps "/dev/full".toList

/-- Files outside the working directory. Neither data nor blocks are to be read from them. -/
def knownFiles : List Place :=
  fullFile :: ["/dev/null", "/etc/group", "/etc/hostname", "/etc/hosts", "/etc/os-release",
    "/etc/passwd", "/etc/resolv.conf", "/proc/cpuinfo", "/proc/meminfo", "/proc/uptime",
    "/proc/version"].map fun path => steps path.toList

/-- Nothing can be made below directories in which the system shows its own state. -/
def checkMaking (place : Place) : Except Fault Unit :=
  if (steps "/proc".toList).isPrefixOf place then .error .noSuchFile
  else if (steps "/sys".toList).isPrefixOf place then .error .notPermitted
  else .ok ()

/-- What stands at a place. -/
inductive Entry where
  | directory
  | file (content : Content)
  | absent

/-- What stands at the end of steps from the working directory. -/
def entryInside (files : Files) (names : List Text) : Entry :=
  match files.find? fun file => steps file.1 = names with
  | some file => .file file.2
  | none =>
    if names.isEmpty || files.any fun file => names.isPrefixOf (steps file.1) then .directory
    else .absent

/-- What stands at a place, when the directories `made` have been added. -/
def entryAt (files : Files) (made : List Place) (place : Place) : Entry :=
  if made.contains place || knownDirectories.contains place then .directory
  else if knownFiles.contains place then .file (some [])
  else
    match fromHome? place with
    | some names => entryInside files names
    | none => .absent

def stepBack : Text := ['.', '.']

/-- The most bytes that one step may have. -/
def longestStep : Nat := 255

/-- The most bytes that a path may have. -/
def longestPath : Nat := 4095

/-- A path, or a step of one, must not be too long. -/
def checkLength (longest : Nat) (t : Text) : Except Fault Unit :=
  if longest < (Text.signs t).foldl (fun n sign => n + sign.nameBytes) 0 then .error .nameTooLong else .ok ()

/-- The place that a path begins at. -/
def start (path : Text) : Place :=
  if (rootMark path).isEmpty then home else []

/-- The directory that steps lead to. -/
def enter (files : Files) (made : List Place) : Place → List Text → Except Fault Place
  | here, [] => .ok here
  | here, step :: rest =>
    if step = stepBack then enter files made here.dropLast rest
    else do
      checkLength longestStep step
      match entryAt files made (here ++ [step]) with
      | .directory => enter files made (here ++ [step]) rest
      | .file _ => .error .notDirectory
      | .absent => .error .noSuchFile

/-- What the last step of a path names: the directory that the path leads to, or a name in it. -/
inductive Target where
  | directory
  | place (place : Place)

/-- Follows a path up to its last step. -/
def follow (files : Files) (made : List Place) (path : Text) : Except Fault Target :=
  match (steps path).getLast? with
  | none => .ok .directory
  | some last => do
    let here ← enter files made (start path) (steps path).dropLast
    if last = stepBack then pure .directory
    else do
      checkLength longestStep last
      pure (.place (here ++ [last]))

/-- The halves in a path must stand for bytes. -/
def checkSpelling (path : Text) : Except Crash Unit :=
  if (Text.signs path).all Sign.isInName then .ok () else .error (.coding .noBytes)

/-- No path has the character with number zero, nor too many bytes. -/
def checkPath (path : Text) : Except Fault Unit := do
  if '\x00' ∈ path then throw .zeroCharacter
  checkLength longestPath (normalize path)

/-! ### Reading -/

/-- What a file holds. -/
def find (files : Files) (path : Text) : Except Fault Content :=
  match files.find? fun file => normalize file.1 = normalize path with
  | some file => .ok file.2
  | none => do
    checkPath path
    match ← follow files [] path with
    | .directory => .error .isDirectory
    | .place place =>
      match entryAt files [] place with
      | .file content => .ok content
      | .directory => .error .isDirectory
      | .absent => .error .noSuchFile

/-- The text of a file. -/
def read (files : Files) (path : Text) : Except Crash Text := do
  checkSpelling path
  match ← Crash.ofFault (files.find path) with
  | some text => pure (plainLineEnds text)
  | none => throw (.coding .noText)

/-- The datum in a JSON text. -/
def ofJson (text : Text) : Except Fault Datum :=
  match Json.read text with
  | .ok d => .ok d
  | .error .malformed => .error .notJson
  | .error .numeralTooLong => .error (.number .numeralTooLong)
  | .error .tooDeep => .error .tooDeep

/-- The text of the file that an argument names. -/
def readGiven (files : Files) (path : Arguments.Value) : Except Crash Text := do
  files.read (← Crash.ofFault path.text)

/-- The datum in the JSON file that an argument names. -/
def readJsonGiven (files : Files) (path : Arguments.Value) : Except Crash Datum := do
  Crash.ofFault (ofJson (← files.readGiven path))

/-! ### Writing -/

/-- The path to the directory that a path leads to. -/
def parent (path : Text) : Text :=
  rootMark path ++ Text.join ['/'] (steps path).dropLast

/-- The place of the directory that steps name, when it is still to be made. -/
def missingDirectory? (files : Files) (made : List Place) (origin : Place) (names : List Text) :
    Except Fault (Option Place) :=
  match names.getLast? with
  | none => .ok none
  | some last => do
    let here ← enter files made origin names.dropLast
    if last = stepBack then pure none
    else do
      checkLength longestStep last
      match entryAt files made (here ++ [last]) with
      | .directory => pure none
      | .file _ => .error .fileExists
      | .absent => do
        checkMaking (here ++ [last])
        pure (some (here ++ [last]))

/-- Whether a file can be written under a path, after directories have been made, and the name of the file
in the working directory when it is a new one there. -/
def newName (files : Files) (made : List Place) (path : Text) : Except Fault (Option Text) := do
  checkPath path
  match ← follow files made path with
  | .directory => .error .isDirectory
  | .place place =>
    match entryAt files made place with
    | .file _ => if place = fullFile then .error .deviceFull else pure none
    | .directory => .error .isDirectory
    | .absent => do
      checkMaking place
      pure ((fromHome? place).map (Text.join ['/']))

end Files

end GemScribe
