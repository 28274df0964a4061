import GemScribe.Stat.Alignment
import GemScribe.Stat.Variant

/-!
Resolving observations into lines.

Stats take their turns in the order in which they are first seen. On its turn a stat asks for the block
that describes it; the block renders all its stats together, once for each observed step of the stat
that asked. When repetition is to be skipped, a stat that an earlier block has already shown gives
nothing. What became of each stat is decided first, in `turns`; lines and events are read off the
turns.
-/

namespace GemScribe

/-- What becomes of a stat on its turn. -/
inductive Fate where
  | rendered (block : Block) (place : Nat)
  | alreadyRendered
  | undescribed

/-- A stat on its turn, with its values by step. -/
structure Turn where
  id : Text
  values : List Binary64
  fate : Fate

namespace Turn

/-- The lines of all steps of one block, from the given step on; the values that drive the steps are
those of the stat that asked. -/
def stepLines (templates : List Text) (values : List (List Quantity)) :
    Nat → List Binary64 → Except NumberFault (List Text)
  | _, [] => .ok []
  | step, driving :: rest => do
    let lines ← Variant.renderStep templates values step (.real driving)
    pure (lines ++ (← stepLines templates values (step + 1) rest))

/-- The lines that a turn gives. -/
def lines (grouped : Grouped) (turn : Turn) : Except NumberFault (List Text) :=
  match turn.fate with
  | .rendered block _ =>
    stepLines block.templates ((block.alignedValues grouped).map (·.map .real)) 0 turn.values
  | _ => .ok []

/-- What a turn reports. -/
def events (turn : Turn) : List Event :=
  match turn.fate with
  | .rendered _ _ => []
  | .alreadyRendered => [.alreadyRendered turn.id]
  | .undescribed => [.undescribed turn.id]

/-- A turn at work. -/
def play (grouped : Grouped) (turn : Turn) : Journal (List Text) :=
  ⟨turn.events, Fault.ofNumber (turn.lines grouped)⟩

end Turn

/-- The turns of the given stats, when those in `shown` have already been shown by earlier blocks. -/
def turnsFrom (blocks : List Block) (skip : Bool) (grouped : Grouped) :
    List Text → List (Text × List Binary64) → List Turn
  | _, [] => []
  | shown, (id, values) :: rest =>
    if skip && shown.contains id then
      ⟨id, values, .alreadyRendered⟩ :: turnsFrom blocks skip grouped shown rest
    else
      match Block.describing? blocks id with
      | none => ⟨id, values, .undescribed⟩ :: turnsFrom blocks skip grouped shown rest
      | some (block, place) =>
        ⟨id, values, .rendered block place⟩ ::
          turnsFrom blocks skip grouped (shown ++ block.observedIds grouped) rest

/-- The turns of all observed stats. -/
def turns (blocks : List Block) (skip : Bool) (grouped : Grouped) : List Turn :=
  turnsFrom blocks skip grouped [] grouped

/-- The lines of all observations; `skip` leaves out stats that an earlier block has shown. -/
def resolve (blocks : List Block) (skip : Bool) (os : List Observation) : Journal (List Text) :=
  if os.isEmpty then do
    Journal.note .nothingToResolve
    pure []
  else do
    let grouped ← Observation.group os
    let lines ← Journal.each (Turn.play grouped) (turns blocks skip grouped)
    pure lines.flatten

end GemScribe
