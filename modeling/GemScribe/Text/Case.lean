import GemScribe.Text.CaseTable
import GemScribe.Text.Split

/-!
Small and capital letters.

Each character is mapped by the tables; a few become several characters. One rule looks at the
neighbours: a capital sigma at the end of a word, with a letter before it and none after it, has a
small form of its own.
-/

namespace GemScribe.Text

/-- The image of a character number under a case mapping. -/
def mapCase (runs : List CaseRun) (expansions : List (Nat × List Nat)) (c : Char) : Text :=
  match expansions.find? fun entry => entry.1 = c.toNat with
  | some entry => entry.2.map Char.ofNat
  | none =>
    match runs.findSome? fun run => run.image? c.toNat with
    | some image => [Char.ofNat image]
    | none => [c]

/-- The first character that is not passed over is a letter with case. -/
def meetsLetter (neighbours : Text) : Bool :=
  match neighbours.dropWhile (Ranges.contains caseIgnorableRanges) with
  | [] => false
  | c :: _ => Ranges.contains casedRanges c

/-- Small letters of a text, given the characters before it, last first. -/
def lowerAfter (before : Text) : Text → Text
  | [] => []
  | c :: rest =>
    (if c = 'Σ' then
        if meetsLetter before && !meetsLetter rest then ['ς'] else ['σ']
      else mapCase lowerRuns lowerExpansions c) ++ lowerAfter (c :: before) rest

def lower (t : Text) : Text :=
  lowerAfter [] t

def upper (t : Text) : Text :=
  t.flatMap (mapCase upperRuns upperExpansions)

/-- The text with a capital letter at its beginning. -/
def capitalize : Text → Text
  | [] => []
  | c :: rest => mapCase upperRuns upperExpansions c ++ rest

end GemScribe.Text
