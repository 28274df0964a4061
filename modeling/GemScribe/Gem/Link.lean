import GemScribe.Text.Replace

/-!
Links in game text.

A link is written `[target]`, and shows its target, or `[target|words]`, and shows the words. Links do
not nest, and a target has no bar in it.
-/

namespace GemScribe.Link

def isBracket (c : Char) : Bool :=
  c = '[' || c = ']'

/-- The words of a link with words at the beginning of a text, and the length of the link. -/
def aliased? : Text → Option (Text × Nat)
  | '[' :: t =>
    let target := t.takeWhile fun c => !isBracket c && c ≠ '|'
    match t.dropWhile fun c => !isBracket c && c ≠ '|' with
    | '|' :: rest =>
      let words := rest.takeWhile (!isBracket ·)
      match rest.dropWhile (!isBracket ·) with
      | ']' :: _ => some (words, target.length + words.length + 3)
      | _ => none
    | _ => none
  | _ => none

/-- The target of a link without words at the beginning of a text, and the length of the link. -/
def plain? : Text → Option (Text × Nat)
  | '[' :: t =>
    let target := t.takeWhile fun c => !isBracket c && c ≠ '|'
    match t.dropWhile fun c => !isBracket c && c ≠ '|' with
    | ']' :: _ => some (target, target.length + 2)
    | _ => none
  | _ => none

/-- The text with every link replaced by what it shows. -/
def unlink (t : Text) : Text :=
  Text.expandAll plain? (Text.expandAll aliased? t)

end GemScribe.Link
