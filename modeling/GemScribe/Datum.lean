import GemScribe.Number.Quantity
import GemScribe.Text.Quoted

/-!
Data of unknown shape.

The rows of the game's tables hold whatever was exported: nothing, truth values, numbers, texts, lists
and records. Fields of a record keep the order in which they were first written.
-/

namespace GemScribe

inductive Datum where
  | null
  | bool (b : Bool)
  | number (q : Quantity)
  | text (t : Text)
  | list (items : List Datum)
  | record (fields : List (Text × Datum))

/-- The named fields of one record. -/
abbrev Row := List (Text × Datum)

namespace Row

/-- The field of that name, when there is one. -/
def find? : Row → Text → Option Datum
  | [], _ => none
  | (other, value) :: row, name => if other = name then some value else find? row name

/-- The field of that name; an absent field is null. -/
def get (row : Row) (name : String) : Datum :=
  (find? row name.toList).getD .null

/-- Gives a field a value: in its old place, or at the end when it is new. -/
def put : Row → Text → Datum → Row
  | [], name, value => [(name, value)]
  | (other, old) :: row, name, value =>
    if other = name then (name, value) :: row else (other, old) :: put row name value

end Row

namespace Datum

instance : Inhabited Datum := ⟨null⟩

/-- An empty or absent datum, and zero, stand for nothing given. -/
def isGiven : Datum → Bool
  | null => false
  | bool b => b
  | number q => !q.equalsInt 0
  | text t => !t.isEmpty
  | list items => !items.isEmpty
  | record fields => !fields.isEmpty

/-- The datum, or another one when nothing is given. -/
def orElse (d other : Datum) : Datum :=
  if d.isGiven then d else other

/-- The number that a datum is; a truth value counts as zero or one. -/
def toQuantity? : Datum → Option Quantity
  | bool b => some (.whole (if b then 1 else 0))
  | number q => some q
  | _ => none

/-! ### Equality -/

def isNan : Datum → Bool
  | number (.real .nan) => true
  | _ => false

mutual

/-- Equality inside lists and records: numbers by value, records whatever the order of their fields.
Here one nan stands for another. -/
def sameItem : Datum → Datum → Bool
  | null, null => true
  | text s, text t => s == t
  | list xs, list ys => sameItems xs ys
  | record fs, record gs => fs.length == gs.length && sameFields fs gs
  | a, b =>
    match a.toQuantity?, b.toQuantity? with
    | some p, some q => p.same q || (a.isNan && b.isNan)
    | _, _ => false

def sameItems : List Datum → List Datum → Bool
  | [], [] => true
  | x :: xs, y :: ys => sameItem x y && sameItems xs ys
  | _, _ => false

def sameFields : List (Text × Datum) → List (Text × Datum) → Bool
  | [], _ => true
  | (name, value) :: fs, gs =>
    (match Row.find? gs name with
      | some other => sameItem value other
      | none => false) && sameFields fs gs

end

/-- Equality of data. Nan by itself equals nothing. -/
def same (a b : Datum) : Bool :=
  !a.isNan && sameItem a b

/-! ### Literals -/

mutual

/-- The datum as it is quoted in a message. -/
def literal : Datum → Text
  | null => "None".toList
  | bool b => if b then "True".toList else "False".toList
  | number q => q.text
  | text t => Text.quote t
  | list items => '[' :: Text.join ", ".toList (literals items) ++ [']']
  | record fields => '\x7b' :: Text.join ", ".toList (fieldLiterals fields) ++ ['\x7d']

def literals : List Datum → List Text
  | [] => []
  | d :: ds => literal d :: literals ds

def fieldLiterals : List (Text × Datum) → List Text
  | [] => []
  | (name, value) :: fs =>
    (Text.quote name ++ ':' :: ' ' :: literal value) :: fieldLiterals fs

end

/-- The datum as it is written into a running text: a text stands for itself. -/
def plain : Datum → Text
  | text t => t
  | d => d.literal

/-! ### References -/

/-- The text that a datum is. -/
def toText? : Datum → Option Text
  | text t => some t
  | _ => none

/-- The id that a reference holds: a record whose `Id` is a text that is not empty. -/
def refId : Datum → Option Text
  | record fields =>
    match Row.get fields "Id" with
    | text t => if t.isEmpty then none else some t
    | _ => none
  | _ => none

/-- A reference to the given id. -/
def ref (id : Text) : Datum :=
  record [("Id".toList, text id)]

theorem refId_ref {id : Text} (h : id ≠ []) : (ref id).refId = some id := by
  cases id with
  | nil => exact absurd rfl h
  | cons c t => rfl

end Datum

end GemScribe
