import GemScribe.Datum
import GemScribe.Text.Replace

/-!
Reading typed values out of data.

Reading is lenient: a number may be given as a text that spells it, a whole number as a binary64
number without a fraction, a truth value as zero or one. A text that spells a number may have spaces
around it or underscores inside, and for a whole number both; a text with a half spells nothing. What does not
fit is reported, and all the misfits of a value are reported together, in the order of its parts, each with the
path to the part.
-/

namespace GemScribe

/-- Why a datum does not fit the type that is asked for. -/
inductive Complaint where
  | missing
  | notRecord
  | notMapping
  | notList
  | notSequence
  | notText
  | notReal
  | notRealNumeral
  | notWhole
  | notWholeNumeral
  | numeralTooLong
  | hasFraction
  | notFinite
  | notTruth
  | notTruthWord
  | hasHalf
  /-- The value was read, but does not meet a condition; the condition is given in words. -/
  | refused (why : Text)

def Complaint.message : Complaint → Text
  | .missing => "missing".toList
  | .notRecord => "model_type".toList
  | .notMapping => "dict_type".toList
  | .notList => "list_type".toList
  | .notSequence => "tuple_type".toList
  | .notText => "string_type".toList
  | .notReal => "float_type".toList
  | .notRealNumeral => "float_parsing".toList
  | .notWhole => "int_type".toList
  | .notWholeNumeral => "int_parsing".toList
  | .numeralTooLong => "int_parsing_size".toList
  | .hasFraction => "int_from_float".toList
  | .notFinite => "finite_number".toList
  | .notTruth => "bool_type".toList
  | .notTruthWord => "bool_parsing".toList
  | .hasHalf => "string_unicode".toList
  | .refused why => "value_error: Value error, ".toList ++ why

/-- A part of a datum that does not fit, and the path to it. -/
structure Misfit where
  path : List Text
  complaint : Complaint

def Misfit.message (m : Misfit) : Text :=
  Text.join ['.'] m.path ++ ':' :: ' ' :: m.complaint.message

/-- The messages of all misfits, one after another. -/
def Misfit.messages (ms : List Misfit) : Text :=
  Text.join "; ".toList (ms.map Misfit.message)

/-- A value that was read, or all that did not fit. -/
inductive Reading (α : Type) where
  | fits (a : α)
  | misfits (ms : List Misfit)

namespace Reading

def complain {α : Type} (c : Complaint) : Reading α :=
  .misfits [⟨[], c⟩]

def map {α β : Type} (f : α → β) : Reading α → Reading β
  | fits a => fits (f a)
  | misfits ms => misfits ms

/-- Applies what one reading gave to what another gave; the misfits of both are kept, in order. -/
def apply {α β : Type} : Reading (α → β) → Reading α → Reading β
  | fits f, fits a => fits (f a)
  | fits _, misfits ms => misfits ms
  | misfits ms, fits _ => misfits ms
  | misfits ms, misfits ns => misfits (ms ++ ns)

instance : Applicative Reading where
  pure := fits
  map := map
  seq f x := apply f (x ())

/-- Puts a step in front of the paths of all misfits. -/
def under {α : Type} (step : Text) : Reading α → Reading α
  | fits a => fits a
  | misfits ms => misfits (ms.map fun m => ⟨step :: m.path, m.complaint⟩)

/-- Asks more of a value that was read; the test says in words what is wrong. -/
def check {α β : Type} (r : Reading α) (test : α → Except Text β) : Reading β :=
  match r with
  | fits a =>
    match test a with
    | .ok b => fits b
    | .error why => complain (.refused why)
  | misfits ms => misfits ms

/-- Reads every item of a list; the path to a misfit begins with the place of its item. -/
def each {α : Type} (read : Datum → Reading α) : Nat → List Datum → Reading (List α)
  | _, [] => fits []
  | place, d :: ds =>
    apply (map List.cons (under (natText place) (read d))) (each read (place + 1) ds)

/-- Reads every field of a record. -/
def eachField {α : Type} (read : Datum → Reading α) :
    List (Text × Datum) → Reading (List (Text × α))
  | [] => fits []
  | (name, d) :: fs =>
    apply (map (fun a rest => (name, a) :: rest) (under name (read d))) (eachField read fs)

end Reading

namespace Datum

open Reading

/-! ### Numerals in texts -/

/-- Underscores are left out when each stands between two other characters. -/
def dropUnderscores? (t : Text) : Option Text :=
  if t.head? = some '_' ∨ t.getLast? = some '_' ∨ Text.contains ['_', '_'] t then none
  else some (t.filter (· ≠ '_'))

def isAsciiDigit (c : Char) : Bool :=
  decide ('0' ≤ c ∧ c ≤ '9')

/-- An exponent of ten: a letter, perhaps a sign, and digits to the end; nothing is exponent zero. -/
def exponentOf? : Text → Option Int
  | [] => some 0
  | e :: t =>
    let (negative, digits) := splitSign t
    if (e = 'e' ∨ e = 'E') ∧ digits ≠ [] ∧ digits.all isAsciiDigit then
      let n : Int := Text.digitsValue digits
      some (if negative then -n else n)
    else none

/-- The binary64 number that a decimal numeral without sign names. -/
def decimalOf? (negative : Bool) (t : Text) : Option Binary64 :=
  let whole := t.takeWhile isAsciiDigit
  let rest := t.dropWhile isAsciiDigit
  let (places, rest) :=
    match rest with
    | '.' :: rest => (rest.takeWhile isAsciiDigit, rest.dropWhile isAsciiDigit)
    | rest => ([], rest)
  if whole = [] ∧ places = [] then none
  else
    (exponentOf? rest).map fun e =>
      Binary64.ofDecimal negative (Text.digitsValue (whole ++ places)) (e - places.length)

/-- The small form of an ASCII letter. -/
def asciiLower (t : Text) : Text :=
  t.map Char.toLower

/-- The binary64 number that a text spells. -/
def realOf? (t : Text) : Option Binary64 :=
  let (negative, t) := splitSign t
  let word := asciiLower t
  if word = "inf".toList ∨ word = "infinity".toList then some (.infinite negative)
  else if word = "nan".toList then some .nan
  else decimalOf? negative t

/-- What follows zeros and underscores, of which `last` was the last. It is kept when nothing follows,
or a fraction; else a significant part must follow, and it may bring a minus sign. -/
def afterZeros? (last : Char) : Text → Option Text
  | [] => some [last]
  | c :: t =>
    if c = '0' ∨ c = '_' then afterZeros? c t
    else if c = '.' then some (last :: c :: t)
    else if c = '-' ∨ isAsciiDigit c then some (c :: t)
    else none

/-- The text of a whole number without zeros in front. Underscores among those zeros go too. -/
def dropLeadingZeros? : Text → Option Text
  | [] => none
  | c :: t =>
    if c = '0' then afterZeros? c t
    else if isAsciiDigit c then some (c :: t)
    else none

/-- The text without a fraction of zeros. -/
def dropZeroFraction (t : Text) : Text :=
  match t.dropWhile (· ≠ '.') with
  | _ :: '0' :: places => if places.all (· = '0') then t.takeWhile (· ≠ '.') else t
  | _ => t

/-- The digits of a whole number in its plainest form, which has no zero in front. -/
def plainDigits : Text → Bool
  | [] => false
  | ['0'] => true
  | d :: ds => d != '0' && (d :: ds).all isAsciiDigit

/-- The plainest form of a whole number: whether it has a minus sign, and its text without a sign, zeros
in front, a fraction of zeros and underscores. One minus sign at most is taken away. -/
def plainWhole? (t : Text) : Option (Bool × Text) := do
  let (negative, t) := splitSign (Text.trim Text.isSpace t)
  let t := dropZeroFraction (← dropLeadingZeros? t)
  match negative, (dropUnderscores? t).getD t with
  | false, '-' :: digits => some (true, digits)
  | negative, digits => some (negative, digits)

/-- Whether a text begins, as it stands, with more digits than a number is read from. A minus sign may
stand in front of them, and no zero may be the first. -/
def beginsTooLong (t : Text) : Bool :=
  let run := (if t.head? = some '-' then t.tail else t).takeWhile isAsciiDigit
  decide (run.head? ≠ some '0' ∧ longestNumeral < run.length)

/-- The whole number that a text spells, or the reason why it spells none. Only a text that is too long
as it stands is called too long, whatever follows its digits. -/
def wholeOf (t : Text) : Except Complaint Int :=
  if beginsTooLong t then .error .numeralTooLong
  else
    match plainWhole? t with
    | none => .error .notWholeNumeral
    | some (negative, digits) =>
      if plainDigits digits && decide (digits.length ≤ longestNumeral) then
        let n : Int := Text.digitsValue digits
        .ok (if negative then -n else n)
      else .error .notWholeNumeral

/-! ### Readers -/

def asText : Datum → Reading Text
  | text t => fits t
  | _ => complain .notText

def asReal : Datum → Reading Binary64
  | bool b => fits (.ofInt (if b then 1 else 0))
  | number (.real x) => fits x
  | number (.whole i) =>
    match Quantity.nearest i with
    | .ok x => fits x
    | .error _ => complain .notReal
  | text t =>
    if Text.hasHalf t then complain .hasHalf
    else
      match realOf? (Text.trim Text.isSpace t) with
      | some x => fits x
      | none =>
        match (dropUnderscores? t).bind realOf? with
        | some x => fits x
        | none => complain .notRealNumeral
  | _ => complain .notReal

/-- The bound of the whole numbers that a binary64 number may give, `2^63`. -/
def wholeBound : Int := 9223372036854775808

def asWhole : Datum → Reading Int
  | bool b => fits (if b then 1 else 0)
  | number (.whole i) => fits i
  | number (.real x) =>
    match x with
    | .finite .. =>
      match x.toInt? with
      | none => complain .hasFraction
      | some i =>
        if -wholeBound < i ∧ i < wholeBound then fits i else complain .numeralTooLong
    | _ => complain .notFinite
  | text t =>
    if Text.hasHalf t then complain .hasHalf
    else
      match wholeOf t with
      | .ok i => fits i
      | .error c => complain c
  | _ => complain .notWhole

/-- Words for the two truth values. -/
def falseWords : List Text :=
  ["0", "off", "f", "false", "n", "no"].map String.toList

def trueWords : List Text :=
  ["1", "on", "t", "true", "y", "yes"].map String.toList

def asTruth : Datum → Reading Bool
  | bool b => fits b
  | text t =>
    if Text.hasHalf t then complain .hasHalf
    else if asciiLower t ∈ falseWords then fits false
    else if asciiLower t ∈ trueWords then fits true
    else complain .notTruthWord
  | number q =>
    match asWhole (number q) with
    | fits i =>
      if i = 0 then fits false
      else if i = 1 then fits true
      else if -wholeBound ≤ i ∧ i < wholeBound then complain .notTruthWord
      else complain .notTruth
    | misfits _ => complain .notTruth
  | _ => complain .notTruth

/-- Null stands for no value. -/
def asOptional {α : Type} (read : Datum → Reading α) : Datum → Reading (Option α)
  | null => fits none
  | d => map some (read d)

def asListOf {α : Type} (read : Datum → Reading α) : Datum → Reading (List α)
  | list ds => each read 0 ds
  | _ => complain .notList

def asSequenceOf {α : Type} (read : Datum → Reading α) : Datum → Reading (List α)
  | list ds => each read 0 ds
  | _ => complain .notSequence

def asRow : Datum → Reading Row
  | record fields => fits fields
  | _ => complain .notMapping

def asMappingOf {α : Type} (read : Datum → Reading α) : Datum → Reading (List (Text × α))
  | record fields => eachField read fields
  | _ => complain .notMapping

/-- Reads the fields of a record. -/
def asRecord {α : Type} (read : Row → Reading α) : Datum → Reading α
  | record fields => read fields
  | _ => complain .notRecord

end Datum

namespace Row

open Reading

/-- A field that must be there. -/
def needed {α : Type} (row : Row) (name : String) (read : Datum → Reading α) : Reading α :=
  under name.toList
    (match row.find? name.toList with
    | some d => read d
    | none => complain .missing)

/-- A field that has a value of its own when it is not given. -/
def withDefault {α : Type} (row : Row) (name : String) (value : α)
    (read : Datum → Reading α) : Reading α :=
  match row.find? name.toList with
  | some d => under name.toList (read d)
  | none => fits value

end Row

end GemScribe
