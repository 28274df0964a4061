import GemScribe.Number.Quantity
import GemScribe.Text.Replace

/-!
Value directives.

A template may carry a keyword that has its values converted before they are shown: divided by a fixed
number and rounded to decimal places. One directive applies to a template, the first of the list whose
keyword it contains.
-/

namespace GemScribe

structure Directive where
  keyword : Text
  divisor : Nat
  places : Int
  /-- Both kinds of placeholder show the converted value with its sign. -/
  signed : Bool

namespace Directive

/-- The directives by precedence. -/
def all : List Directive := [
  ⟨"divide_by_one_hundred".toList, 100, 2, true⟩,
  ⟨"divide_by_ten_1dp_if_required".toList, 10, 1, false⟩,
  ⟨"per_minute_to_per_second".toList, 60, 1, false⟩,
  ⟨"milliseconds_to_seconds_2dp_if_required".toList, 1000, 2, false⟩]

/-- The directive of a template. -/
def find? (template : Text) : Option Directive :=
  all.find? fun d => Text.contains d.keyword template

/-- The value that a template with this directive shows. -/
def convert (d : Directive) (value : Quantity) : Except NumberFault Binary64 := do
  let quotient ← value.divBy d.divisor
  quotient.roundHalfUp d.places

end Directive

end GemScribe
