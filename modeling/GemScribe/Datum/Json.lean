import GemScribe.Datum
import GemScribe.Text.Replace

/-!
Reading data from JSON text.

Beyond the standard, `NaN`, `Infinity` and `-Infinity` are read as numbers. A numeral with a fraction
or an exponent is a binary64 number and any other a whole number of unlimited size. Of two fields of
one name the later value counts, in the place of the earlier one.

Lists and records may be nested `deepest` deep. `value`, `items` and `fields` take the number of levels
that are left, and a bound on their depth; each call uses up a character of the text, so the length of
the text bounds it.
-/

namespace GemScribe.Json

inductive Fault where
  | malformed
  | numeralTooLong
  | tooDeep
  deriving DecidableEq, Repr

/-- What a reader made of the beginning of a text, and the rest of it. -/
abbrev Reader (α : Type) := Text → Except Fault (α × Text)

/-- White space between tokens. -/
def isGap (c : Char) : Bool :=
  c = ' ' || c = '\t' || c = '\n' || c = '\r'

def skipGaps (t : Text) : Text :=
  t.dropWhile isGap

/-! ### Texts -/

def hexValue? (c : Char) : Option Nat :=
  if '0' ≤ c ∧ c ≤ '9' then some (c.toNat - '0'.toNat)
  else if 'a' ≤ c ∧ c ≤ 'f' then some (c.toNat - 'a'.toNat + 10)
  else if 'A' ≤ c ∧ c ≤ 'F' then some (c.toNat - 'A'.toNat + 10)
  else none

/-- The number that four hexadecimal digits write. -/
def hexUnit? (a b c d : Char) : Option Nat :=
  match hexValue? a, hexValue? b, hexValue? c, hexValue? d with
  | some a, some b, some c, some d => some (((a * 16 + b) * 16 + c) * 16 + d)
  | _, _, _, _ => none

/-- The character that a one-letter escape stands for. -/
def escaped? : Char → Option Char
  | '"' => some '"'
  | '\\' => some '\\'
  | '/' => some '/'
  | 'b' => some '\x08'
  | 'f' => some '\x0c'
  | 'n' => some '\n'
  | 'r' => some '\r'
  | 't' => some '\t'
  | _ => none

/-- A part of a text: a character as it stands, or a number that an escape gives. -/
inductive Part where
  | char (c : Char)
  | unit (n : Nat)

/-- The parts of a text up to its closing quote; `done` holds those before, last first. -/
def textParts (done : List Part) : Reader (List Part)
  | [] => .error .malformed
  | '"' :: rest => .ok (done.reverse, rest)
  | '\\' :: 'u' :: a :: b :: c :: d :: rest =>
    match hexUnit? a b c d with
    | some unit => textParts (.unit unit :: done) rest
    | none => .error .malformed
  | '\\' :: c :: rest =>
    match escaped? c with
    | some e => textParts (.char e :: done) rest
    | none => .error .malformed
  | c :: rest =>
    if c.toNat < 0x20 ∨ c = '\\' then .error .malformed
    else textParts (.char c :: done) rest

/-- The text of parts. A high half and the low half after it are one character, and any other half stands
alone. -/
def joinParts : List Part → Text
  | [] => []
  | .char c :: rest => c :: joinParts rest
  | .unit high :: .unit low :: rest =>
    if 0xD800 ≤ high ∧ high < 0xDC00 ∧ 0xDC00 ≤ low ∧ low < 0xE000 then
      (Sign.ofUnit (0x10000 + (high - 0xD800) * 0x400 + (low - 0xDC00))).spelling ++ joinParts rest
    else (Sign.ofUnit high).spelling ++ joinParts (.unit low :: rest)
  | .unit n :: rest => (Sign.ofUnit n).spelling ++ joinParts rest

/-- A text after its opening quote. -/
def text : Reader Text := fun t =>
  match textParts [] t with
  | .ok (parts, rest) => .ok (joinParts parts, rest)
  | .error fault => .error fault

/-! ### Numbers -/

def isDecimal (c : Char) : Bool :=
  decide ('0' ≤ c ∧ c ≤ '9')

/-- A fraction: a point and digits. -/
def fraction (t : Text) : Text × Text :=
  match t with
  | '.' :: rest =>
    if rest.takeWhile isDecimal = [] then ([], t)
    else (rest.takeWhile isDecimal, rest.dropWhile isDecimal)
  | _ => ([], t)

/-- An exponent: a letter, perhaps a sign, and digits. -/
def exponent? (t : Text) : Option (Int × Text) :=
  match t with
  | [] => none
  | e :: rest =>
    if e ≠ 'e' ∧ e ≠ 'E' then none
    else
      let (negative, rest) :=
        match rest with
        | '-' :: rest => (true, rest)
        | '+' :: rest => (false, rest)
        | rest => (false, rest)
      if rest.takeWhile isDecimal = [] then none
      else
        let n : Int := Text.digitsValue (rest.takeWhile isDecimal)
        some (if negative then -n else n, rest.dropWhile isDecimal)

/-- A numeral after its sign. -/
def unsigned (negative : Bool) (t : Text) : Except Fault (Quantity × Text) :=
  let (whole, rest) :=
    match t with
    | '0' :: rest => (['0'], rest)
    | t => (t.takeWhile isDecimal, t.dropWhile isDecimal)
  if whole = [] then .error .malformed
  else
    let (places, rest) := fraction rest
    match places, exponent? rest with
    | [], none =>
      match readNat whole with
      | .ok n => .ok (.whole (if negative then -n else n), rest)
      | .error _ => .error .numeralTooLong
    | _, scale =>
      let (e, rest) := scale.getD (0, rest)
      .ok (.real (Binary64.ofDecimal negative (Text.digitsValue (whole ++ places))
        (e - places.length)), rest)

/-- A numeral, or the name of a number that has no numeral. -/
def number (t : Text) : Except Fault (Quantity × Text) :=
  match Text.dropStart? "NaN".toList t with
  | some rest => .ok (.real .nan, rest)
  | none =>
  match Text.dropStart? "Infinity".toList t with
  | some rest => .ok (.real (.infinite false), rest)
  | none =>
  match Text.dropStart? "-Infinity".toList t with
  | some rest => .ok (.real (.infinite true), rest)
  | none =>
  match t with
  | '-' :: rest => unsigned true rest
  | t => unsigned false t

/-! ### Values -/

/-- The most lists and records that may stand inside one another. -/
def deepest : Nat := 989

mutual

/-- One value, at the beginning of the text. -/
def value (levels : Nat) : Nat → Reader Datum
  | 0, _ => .error .malformed
  | bound + 1, t =>
    match t with
    | '"' :: rest =>
      match text rest with
      | .ok (s, rest) => .ok (.text s, rest)
      | .error fault => .error fault
    | '[' :: rest =>
      match levels, skipGaps rest with
      | 0, _ => .error .tooDeep
      | _, ']' :: rest => .ok (.list [], rest)
      | levels + 1, rest =>
        match items levels bound rest with
        | .ok (ds, rest) => .ok (.list ds, rest)
        | .error fault => .error fault
    | '\x7b' :: rest =>
      match levels, skipGaps rest with
      | 0, _ => .error .tooDeep
      | _, '\x7d' :: rest => .ok (.record [], rest)
      | levels + 1, rest =>
        match fields levels bound [] rest with
        | .ok (fs, rest) => .ok (.record fs, rest)
        | .error fault => .error fault
    | 'n' :: 'u' :: 'l' :: 'l' :: rest => .ok (.null, rest)
    | 't' :: 'r' :: 'u' :: 'e' :: rest => .ok (.bool true, rest)
    | 'f' :: 'a' :: 'l' :: 's' :: 'e' :: rest => .ok (.bool false, rest)
    | t =>
      match number t with
      | .ok (q, rest) => .ok (.number q, rest)
      | .error fault => .error fault

/-- The items of a list that is not empty, and its closing bracket. -/
def items (levels : Nat) : Nat → Reader (List Datum)
  | 0, _ => .error .malformed
  | bound + 1, t =>
    match value levels bound t with
    | .error fault => .error fault
    | .ok (d, rest) =>
      match skipGaps rest with
      | ']' :: rest => .ok ([d], rest)
      | ',' :: rest =>
        match items levels bound (skipGaps rest) with
        | .ok (ds, rest) => .ok (d :: ds, rest)
        | .error fault => .error fault
      | _ => .error .malformed

/-- The fields of a record that is not empty, after those already read, and its closing brace. -/
def fields (levels : Nat) : Nat → Row → Reader Row
  | 0, _, _ => .error .malformed
  | bound + 1, done, t =>
    match t with
    | '"' :: rest =>
      match text rest with
      | .error fault => .error fault
      | .ok (name, rest) =>
        match skipGaps rest with
        | ':' :: rest =>
          match value levels bound (skipGaps rest) with
          | .error fault => .error fault
          | .ok (d, rest) =>
            match skipGaps rest with
            | '\x7d' :: rest => .ok (done.put name d, rest)
            | ',' :: rest => fields levels bound (done.put name d) (skipGaps rest)
            | _ => .error .malformed
        | _ => .error .malformed
    | _ => .error .malformed

end

/-- The datum that a whole text writes, with white space around it. -/
def read (t : Text) : Except Fault Datum :=
  match value deepest (t.length + 1) (skipGaps t) with
  | .error fault => .error fault
  | .ok (d, rest) => if skipGaps rest = [] then .ok d else .error .malformed

end GemScribe.Json
