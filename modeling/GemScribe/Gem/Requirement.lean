import GemScribe.Number.Power
import GemScribe.Number.Quantity

/-!
Attribute requirements.

At character level `l` a gem with a share of `m` percent in an attribute requires
`⌊(5 + 9/4 · (l - 3)) · (m / 100)^(9/10) + 1/2⌋ + 4` points of it, each operation on binary64 numbers.
Requirements below 8 count as none.
-/

namespace GemScribe.Requirement

/-- The requirement of a level before the share is taken into account. -/
def base (level : Int) : Except NumberFault Binary64 := do
  let levels ← Quantity.nearest (level - 3 : Int)
  pure (Binary64.add (.ofInt 5) (levels.mul (.ofRat false (mkRat 9 4))))

/-- The factor for a share in percent. -/
def factor (percent : Quantity) : Except NumberFault Binary64 := do
  Binary64.power Binary64.nineTenths (← percent.divBy 100)

/-- The points for an unrounded requirement. -/
def points (raw : Binary64) : Except NumberFault Int := do
  let n ← (Quantity.real (raw.add (.ofRat false (mkRat 1 2)))).floor
  pure (if n + 4 < 8 then 0 else n + 4)

/-- The points of an attribute that a gem requires at a character level. -/
def atLevel (level : Int) (percent : Quantity) : Except NumberFault Int :=
  if percent.equalsInt 0 then .ok 0
  else do
    let base ← base level
    let factor ← factor percent
    points (base.mul factor)

end GemScribe.Requirement
