import GemScribe.Journal

/-!
Stat observations, and their grouping by stat.

An observation is one numeric reading of a stat. The observations of one stat belong to successive
steps of a progression, in the order in which they arrive; grouping keeps that order, and keeps the
stats in the order in which they are first seen.
-/

namespace GemScribe

structure Observation where
  id : Text
  value : Binary64
  deriving DecidableEq

namespace Observation

/-- Reads a record with an id and a value. -/
def read : Datum → Reading Observation :=
  Datum.asRecord fun row =>
    Observation.mk <$> row.needed "id" Datum.asText <*> row.needed "value" Datum.asReal

end Observation

/-- The values of each stat, by step. -/
abbrev Grouped := List (Text × List Binary64)

namespace Grouped

/-- The values observed for a stat. -/
def values (grouped : Grouped) (id : Text) : List Binary64 :=
  match grouped with
  | [] => []
  | (other, vs) :: rest => if other = id then vs else values rest id

/-- Adds a value at the end of its stat's values; a new stat comes last. -/
def push (id : Text) (value : Binary64) : Grouped → Grouped
  | [] => [(id, [value])]
  | (other, vs) :: rest =>
    if other = id then (other, vs ++ [value]) :: rest else (other, vs) :: push id value rest

/-- One observation; without an id it belongs to no stat. -/
def step (grouped : Grouped) (o : Observation) : Grouped :=
  if o.id.isEmpty then grouped else push o.id o.value grouped

def ofObservations (os : List Observation) : Grouped :=
  os.foldl step []

theorem values_push (id : Text) (value : Binary64) (grouped : Grouped) :
    (push id value grouped).values id = grouped.values id ++ [value] := by
  induction grouped with
  | nil => simp [push, values]
  | cons entry rest ih =>
    by_cases h : entry.1 = id <;> simp [push, values, h, ih]

theorem values_push_of_ne {id other : Text} (h : other ≠ id) (value : Binary64)
    (grouped : Grouped) : (push other value grouped).values id = grouped.values id := by
  induction grouped with
  | nil => simp [push, values, h]
  | cons entry rest ih =>
    by_cases he : entry.1 = other
    · subst he
      simp [push, values, h]
    · by_cases hi : entry.1 = id
      · subst hi
        simp [push, values, he]
      · simp [push, values, he, hi, ih]

end Grouped

namespace Observation

/-- The places of the observations without an id, the first of the list being at `place`. -/
def emptyPlaces : Nat → List Observation → List Nat
  | _, [] => []
  | place, o :: os =>
    if o.id.isEmpty then place :: emptyPlaces (place + 1) os else emptyPlaces (place + 1) os

/-- The observations by stat; each one without an id is noted with its place. -/
def group (os : List Observation) : Journal Grouped :=
  ⟨(emptyPlaces 0 os).map .emptyId, .ok (Grouped.ofObservations os)⟩

end Observation

end GemScribe
