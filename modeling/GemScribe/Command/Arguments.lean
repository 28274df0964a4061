import GemScribe.Fault
import GemScribe.Text.Replace

/-!
Command line arguments.

A command has a fixed number of positional arguments and some options. An option is written with its
name, or with a beginning of a long name that no other option shares; its value follows as the next
argument, or after an equals sign, or directly after a short name. After `--` every argument is
positional. Where an argument is wanted and `--` is given once more, the argument has no value. Arguments
are first sorted into tokens and then taken one after another.
-/

namespace GemScribe.Arguments

/-- What an option is for. -/
inductive Kind where
  | help
  | switch
  | value
  deriving DecidableEq

structure Flag where
  /-- The name under which the option is looked up. -/
  key : String
  names : List Text
  kind : Kind

/-- The arguments that a command takes. -/
structure Interface where
  positionals : Nat
  flags : List Flag

def Interface.helpFlag : Flag :=
  ⟨"help", ["-h".toList, "--help".toList], .help⟩

/-- The option of every name. -/
def Interface.named (i : Interface) : List (Text × Flag) :=
  (i.flags.map fun flag => flag.names.map fun name => (name, flag)).flatten

/-- Why no result comes of the arguments. -/
inductive Stop where
  /-- Help was asked for. -/
  | helped
  /-- The command does not take these arguments. -/
  | rejected

/-! ### Tokens -/

inductive Token where
  | plain (t : Text)
  | separator
  | flag (flag : Flag) (value : Option Text)
  | unknown

def dashes : Text := ['-', '-']

/-- Minus, and a decimal numeral: an argument and not an option. -/
def isNegativeNumeral (t : Text) : Bool :=
  match t with
  | '-' :: t =>
    let rest := t.dropWhile Text.isDigit
    let whole := t.takeWhile Text.isDigit
    match rest with
    | [] => !whole.isEmpty
    | ['\n'] => !whole.isEmpty
    | '.' :: places =>
      let after := places.dropWhile Text.isDigit
      !(places.takeWhile Text.isDigit).isEmpty && (after.isEmpty || after == ['\n'])
    | _ => false
  | _ => false

/-- The text up to the first equals sign, and what follows the sign. -/
def splitEquals (t : Text) : Text × Option Text :=
  match t.dropWhile (· ≠ '=') with
  | [] => (t, none)
  | _ :: value => (t.takeWhile (· ≠ '='), some value)

/-- The options that an argument may name without being the name itself. -/
def candidates (i : Interface) (t : Text) : List (Flag × Option Text) :=
  if Text.startsWith dashes t then
    let (start, value) := splitEquals t
    (i.named.filter fun entry => Text.startsWith start entry.1).map fun entry => (entry.2, value)
  else
    i.named.filterMap fun entry =>
      if entry.1 = t.take 2 then some (entry.2, some (t.drop 2))
      else if Text.startsWith t entry.1 then some (entry.2, none)
      else none

/-- The token that an argument is, before any `--`. -/
def tokenOf (i : Interface) (t : Text) : Except Stop Token :=
  match t with
  | '-' :: _ :: _ =>
    match i.named.find? fun entry => entry.1 = t with
    | some (_, flag) => .ok (.flag flag none)
    | none =>
    match splitEquals t, (i.named.find? fun entry => entry.1 = (splitEquals t).1) with
    | (_, some value), some (_, flag) => .ok (.flag flag (some value))
    | _, _ =>
    match candidates i t with
    | [(flag, value)] => .ok (.flag flag value)
    | [] => .ok (if isNegativeNumeral t || decide (' ' ∈ t) then .plain t else .unknown)
    | _ => .error .rejected
  | _ => .ok (.plain t)

def tokens (i : Interface) : List Text → Except Stop (List Token)
  | [] => .ok []
  | t :: rest =>
    if t = dashes then .ok (.separator :: rest.map .plain)
    else do
      let token ← tokenOf i t
      pure (token :: (← tokens i rest))

/-! ### Taking tokens -/

/-- The value of an argument, unless it has none. -/
abbrev Value := Option Text

/-- What has been taken so far. -/
structure Taken where
  positionals : List Value
  /-- The values of options, later ones last. -/
  values : List (String × Value)
  /-- Some arguments have no place. -/
  extra : Bool

/-- A value that is itself the mark `--` is lost. -/
def keepValue (t : Text) : Value :=
  if t = dashes then none else some t

/-- The token before the next one, as far as it matters. -/
inductive Before where
  | positional
  | mark
  | other
  deriving DecidableEq

/-- Takes all tokens. The mark `--` goes with the positional argument before it, or else with the one
after it, which may then be the same text. -/
def take (i : Interface) (before : Before) (done : Taken) : List Token → Except Stop Taken
  | [] => .ok done
  | .plain t :: rest =>
    if done.positionals.length < i.positionals then
      let value := if before = .mark then some t else keepValue t
      take i .positional { done with positionals := done.positionals ++ [value] } rest
    else take i .other { done with extra := true } rest
  | .separator :: rest =>
    if before = .positional then take i .other done rest
    else if !rest.isEmpty && decide (done.positionals.length < i.positionals) then
      take i .mark done rest
    else take i .other { done with extra := true } rest
  | .unknown :: rest => take i .other { done with extra := true } rest
  | .flag flag given :: rest =>
    match flag.kind, given with
    | .help, none => .error .helped
    | .switch, none =>
      take i .other { done with values := done.values ++ [(flag.key, none)] } rest
    | .value, some t =>
      take i .other { done with values := done.values ++ [(flag.key, keepValue t)] } rest
    | .value, none =>
      match rest with
      | .plain t :: rest =>
        take i .other { done with values := done.values ++ [(flag.key, keepValue t)] } rest
      | _ => .error .rejected
    | _, some _ => .error .rejected

/-- The arguments of a command: all positional ones, and the values of options. -/
def read (i : Interface) (argv : List Text) : Except Stop Taken := do
  let done ← take i .other ⟨[], [], false⟩ (← tokens i argv)
  if done.extra || done.positionals.length < i.positionals then .error .rejected else pure done

/-- The last value given for an option, when the option is given. -/
def Taken.value? (done : Taken) (key : String) : Option Value :=
  (done.values.reverse.find? fun entry => entry.1 = key).map (·.2)

/-- The text of a value that is wanted. -/
def Value.text : Value → Except Fault Text
  | some t => .ok t
  | none => .error .noArgument

end GemScribe.Arguments
