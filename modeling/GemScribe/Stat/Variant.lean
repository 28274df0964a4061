import GemScribe.Stat.Template

/-!
The choice between a singular and a plural line.

A block may have one template for a single second and one for several. A driving value of one second
keeps the first line. Of two lines that name a count of seconds, the first in the singular and the
second in the plural, the first is kept when its count is one and the other count is not, and the
second otherwise. Any other lines are all kept.
-/

namespace GemScribe.Variant

/-- The digits of the first `is … second` in a text, where `unit` follows the digits. -/
def countBefore? (unit : Text) : Text → Option Text
  | [] => none
  | c :: t =>
    match Text.dropStart? "is ".toList (c :: t) with
    | none => countBefore? unit t
    | some rest =>
      let digits := rest.takeWhile Text.isDigit
      if digits ≠ [] ∧ Text.startsWith unit (rest.dropWhile Text.isDigit) then some digits
      else countBefore? unit t

/-- The count of a line in the singular. -/
def singularCount? : Text → Option Text :=
  countBefore? " second".toList

/-- The count of a line in the plural. -/
def pluralCount? : Text → Option Text :=
  countBefore? " seconds".toList

/-- The first of two counted lines fits: its count is one and the other is not. -/
def firstFits (singular plural : Text) : Except NumberFault Bool := do
  let one ← readNat singular
  if one = 1 then pure (decide ((← readNat plural) ≠ 1)) else pure false

/-- Keeps one line of a singular and a plural. -/
def choosePair (first second : Text) : Except NumberFault (List Text) :=
  match singularCount? first, pluralCount? second with
  | some one, some many => do
    if ← firstFits one many then pure [first] else pure [second]
  | _, _ => .ok [first, second]

/-- Keeps the lines that fit the driving value. -/
def collapse (lines : List Text) (driving : Quantity) : Except NumberFault (List Text) :=
  match if driving.equalsInt Template.oneSecond then lines.take 1 else lines with
  | [first, second] => choosePair first second
  | kept => .ok kept

/-- The lines of templates for one step. -/
def renderStep (templates : List Text) (values : List (List Quantity)) (step : Nat)
    (driving : Quantity) : Except NumberFault (List Text) := do
  collapse (← Template.renderAll values step templates) driving

end GemScribe.Variant
