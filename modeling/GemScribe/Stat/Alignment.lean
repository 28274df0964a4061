import GemScribe.Stat.Block

/-!
Which block describes a stat, and the values that fill its placeholders.

The first block in the list that describes the stat is taken. All the stats of a block are filled in
together; one without observations counts as zero.
-/

namespace GemScribe.Block

/-- The first block that describes a stat, and its place in the list. -/
def describing? (blocks : List Block) (id : Text) : Option (Block × Nat) :=
  blocks.zipIdx.find? fun entry => entry.1.describes id

/-- The values of a stat, by step; a stat without observations has one value, zero. -/
def valuesOf (grouped : Grouped) (id : Text) : List Binary64 :=
  match grouped.values id with
  | [] => [.zero false]
  | v :: vs => v :: vs

/-- The values that fill the placeholders of a block, in their order. -/
def alignedValues (b : Block) (grouped : Grouped) : List (List Binary64) :=
  b.ids.map (valuesOf grouped)

/-- The stats of a block that have observations. -/
def observedIds (b : Block) (grouped : Grouped) : List Text :=
  b.ids.filter fun id => !(grouped.values id).isEmpty

end GemScribe.Block
