import GemScribe.Stat.Observation
import GemScribe.Text.Digit

/-!
Description blocks, and the text that lists them.

A description file is read line by line; blank lines and the blanks around a line do not count. A line
whose first word is `description` opens a block, and lines before the first such line are left out. In
a block the first line names the stats, the first line of digits after it is a count, and all other
lines are templates. `Block.lines` writes a block in that form; a well-formed block is one that reads
back as itself.
-/

namespace GemScribe

structure Block where
  /-- The line that names the stats, perhaps after their number. -/
  idLine : Text
  /-- The count that is recorded with the block. -/
  valueCount : Option Int
  /-- The templates, each of which renders all the stats of the block. -/
  templates : List Text
  deriving DecidableEq

namespace Block

/-- A line or word that consists of digits. -/
def isCount (t : Text) : Bool :=
  t.all Text.isDigit

/-- The stats of a block, in the order of their placeholders: the words of the id line that are no
counts. -/
def ids (b : Block) : List Text :=
  (Text.words b.idLine).filter (!isCount ·)

/-- A block describes a stat that it names, if it has a template at all. -/
def describes (b : Block) (id : Text) : Bool :=
  !b.templates.isEmpty && b.ids.contains id

/-- Reads a record with the parts of a block. -/
def read : Datum → Reading Block :=
  Datum.asRecord fun row =>
    Block.mk <$> row.withDefault "id_line" [] Datum.asText
      <*> row.withDefault "value_count" none (Datum.asOptional Datum.asWhole)
      <*> row.withDefault "templates" [] (Datum.asSequenceOf Datum.asText)

/-! ### Reading a description file -/

def marker : Text :=
  "description".toList

def isMarker (line : Text) : Bool :=
  (Text.words line).head? = some marker

/-- The lines before the first marker, and the lines after each marker. -/
def sections : List Text → List Text × List (List Text)
  | [] => ([], [])
  | line :: rest =>
    let (front, blocks) := sections rest
    if isMarker line then ([], front :: blocks) else (line :: front, blocks)

/-- The first line of digits, and the other lines. -/
def takeCount : List Text → Option Text × List Text
  | [] => (none, [])
  | line :: rest =>
    if isCount line then (some line, rest)
    else
      let (count, templates) := takeCount rest
      (count, line :: templates)

/-- The block that stands in the lines after a marker. -/
def ofLines : List Text → Except NumberFault Block
  | [] => .ok ⟨[], none, []⟩
  | idLine :: rest =>
    match takeCount rest with
    | (none, templates) => .ok ⟨idLine, none, templates⟩
    | (some digits, templates) =>
      match readNat digits with
      | .ok n => .ok ⟨idLine, some n, templates⟩
      | .error fault => .error fault

/-- The blocks of successive sections. -/
def ofSections : List (List Text) → Except NumberFault (List Block)
  | [] => .ok []
  | lines :: rest =>
    match ofLines lines with
    | .error fault => .error fault
    | .ok b =>
      match ofSections rest with
      | .error fault => .error fault
      | .ok bs => .ok (b :: bs)

/-- The blocks that a description file lists. -/
def parse (text : Text) : Except NumberFault (List Block) :=
  ofSections (sections (Text.statements text)).2

/-! ### Writing -/

/-- The lines of a block. -/
def lines (b : Block) : List Text :=
  marker ::
    ((if b.idLine.isEmpty then [] else [b.idLine]) ++
      (b.valueCount.map intText).toList ++ b.templates)

/-- A description file with the given blocks. -/
def print (blocks : List Block) : Text :=
  Text.join ['\n'] (blocks.flatMap lines)

/-- A line as it is read: trimmed, not empty, without a line end, and no marker. -/
def PlainLine (t : Text) : Prop :=
  t ≠ [] ∧ Text.strip t = t ∧ (∀ c ∈ t, Text.isLineEnd c = false) ∧ isMarker t = false

/-- A block that a description file can list. -/
structure WellFormed (b : Block) : Prop where
  idLine : b.idLine ≠ [] → PlainLine b.idLine
  templates : ∀ t ∈ b.templates, PlainLine t
  bare : b.idLine = [] → b.valueCount = none ∧ b.templates = []
  uncounted : b.valueCount = none → ∀ t ∈ b.templates, isCount t = false
  count : ∀ i, b.valueCount = some i → 0 ≤ i ∧ i < tenPow longestNumeral

end Block

end GemScribe
